import Highlighter.Proofs.Files.Unlinked
import Highlighter.Proofs.Files.Writing
import Highlighter.Theme.Loading
import Highlighter.Theme.Matching
import Mathlib

/-! Themes that build on other themes. Loading goes from a file to the one it includes, and on. There are so many
names under which a file is read and no more, so that the way either ends or comes back to a file that is on it. -/

namespace Highlighter.Theme

open Highlighter.Files (Disk IsName Route Tree greatestPathSize)
open Highlighter.Json (Members)

/-- What a file gives by itself: its document, and the file it includes. -/
def visit (disk : Disk) (cwd file : Route) : Except ThemeFailure (Members × Option Route) := do
  let document ← readDocument disk file
  let base ← (includeOf disk cwd file document).mapError .path
  return (document, base)

/-- Files that were read one after another, each with its document. -/
abbrev Way := List (Route × Members)

def Way.files (way : Way) : List Route := way.map (·.1)

def Way.documents (way : Way) : List Members := way.map (·.2)

/-- The way from a file to a later one: each file on it includes the next. -/
inductive Leads (disk : Disk) (cwd : Route) : Route → Way → Route → Prop
  | here (file : Route) : Leads disk cwd file [] file
  | onward {file base last : Route} {document : Members} {way : Way} :
      visit disk cwd file = .ok (document, some base) → Leads disk cwd base way last →
        Leads disk cwd file ((file, document) :: way) last

/-- How loading ends at the last file of a way. -/
inductive Ends (disk : Disk) (cwd : Route) (files : List Route) (way : Way) (last : Route) :
    Except ThemeFailure (List Members) → Prop
  | again : last ∈ files → Ends disk cwd files way last (.error (.theme (.includeCycle last)))
  | unfit {e : ThemeFailure} : last ∉ files → visit disk cwd last = .error e →
      Ends disk cwd files way last (.error e)
  | base {document : Members} : last ∉ files → visit disk cwd last = .ok (document, none) →
      Ends disk cwd files way last (.ok (document :: way.documents.reverse))

section
variable {disk : Disk} {cwd path file base last other q : Route} {document : Members} {way rest : Way}
  {files chain : List Route} {e : ThemeFailure} {fuel : Nat} {r r' : Except ThemeFailure (List Members)}

/-! ### Files that are read -/

theorem visit_eq_ok {found : Option Route} : visit disk cwd file = .ok (document, found) ↔
    readDocument disk file = .ok document ∧ includeOf disk cwd file document = .ok found := by
  unfold visit
  simp only [Files.bind_eq_ok, Files.mapError_eq_ok]
  constructor
  · rintro ⟨_, hread, _, hfound, ⟨⟩⟩
    exact ⟨hread, hfound⟩
  · rintro ⟨hread, hfound⟩
    exact ⟨document, hread, found, hfound, rfl⟩

theorem includeOf_eq_some : includeOf disk cwd file document = .ok (some base) ↔
    ∃ name, includeText? document = some name ∧
      disk.resolve cwd (file.parent.join (.ofStr name)) = .ok base := by
  unfold includeOf
  cases includeText? document with
  | none => simp [pure, Except.pure]
  | some name =>
    cases hbase : disk.resolve cwd (file.parent.join (.ofStr name)) <;>
      simp [Option.mapM, hbase, Functor.map, Except.map]

theorem proper_of_visit (h : visit disk cwd file = .ok (document, some base)) : base.Proper := by
  obtain ⟨name, -, hbase⟩ := includeOf_eq_some.mp (visit_eq_ok.mp h).2
  exact (Disk.proper_of_resolve hbase).1

/-- A document is read only under a name that is not too long. -/
theorem short_of_readDocument (h : readDocument disk file = .ok document) :
    file.toStr.length ≤ greatestPathSize := by
  obtain ⟨text?, htext, -⟩ := Files.bind_eq_ok.mp h
  obtain ⟨name, hname, hread⟩ := Files.bind_eq_ok.mp htext
  have hlength := Str.length_le_of_name (Files.mapError_eq_ok.mp hname)
  by_contra hlong
  rw [disk.read_long name (by omega)] at hread
  cases hread

theorem readDocument_ne_includeCycle : readDocument disk file ≠ .error (.theme (.includeCycle q)) := by
  intro h
  rcases Files.bind_eq_error.mp h with htext | ⟨text?, -, h⟩
  · rcases Files.bind_eq_error.mp htext with hname | ⟨name, -, hread⟩
    · obtain ⟨f, -, hf⟩ := Files.mapError_eq_error.mp hname
      cases hf
    · split at hread <;> cases hread
  · split at h
    · cases h
    · split at h <;> cases h

theorem visit_ne_includeCycle : visit disk cwd file ≠ .error (.theme (.includeCycle q)) := by
  intro h
  rcases Files.bind_eq_error.mp h with hread | ⟨document, -, h⟩
  · exact readDocument_ne_includeCycle hread
  · rcases Files.bind_eq_error.mp h with hfound | ⟨found, -, h⟩
    · obtain ⟨f, -, hf⟩ := Files.mapError_eq_error.mp hfound
      cases hf
    · cases h

/-- Files that were read, each of them once. -/
structure Held (disk : Disk) (chain : List Route) : Prop where
  nodup : chain.Nodup
  proper : ∀ file ∈ chain, file.Proper
  read : ∀ file ∈ chain, ∃ document, readDocument disk file = .ok document

/-- No more files are read than there are names for them. -/
theorem Held.length_lt (h : Held disk chain) : chain.length < Disk.nameBound := by
  have htexts : (chain.map Route.toStr).Nodup := by
    refine List.Nodup.map_on (fun p hp q hq heq => ?_) h.nodup
    exact Route.toStr_injective (h.proper p hp) (h.proper q hq) heq
  have hlength := Str.length_lt_nameBound htexts <| List.forall_mem_map.mpr fun p hp => by
    obtain ⟨document, hread⟩ := h.read p hp
    exact short_of_readDocument hread
  rwa [List.length_map] at hlength

theorem Held.snoc (h : Held disk chain) (hfile : file.Proper) (hnew : file ∉ chain)
    (hread : readDocument disk file = .ok document) : Held disk (chain ++ [file]) where
  nodup := by
    rw [List.nodup_append]
    refine ⟨h.nodup, List.pairwise_singleton _ file, ?_⟩
    intro p hp p' hp' heq
    rw [List.mem_singleton.mp hp'] at heq
    exact hnew (heq ▸ hp)
  proper p hp := by
    rcases List.mem_append.mp hp with hp | hp
    · exact h.proper p hp
    · rw [List.mem_singleton.mp hp]
      exact hfile
  read p hp := by
    rcases List.mem_append.mp hp with hp | hp
    · exact h.read p hp
    · rw [List.mem_singleton.mp hp]
      exact ⟨document, hread⟩

/-! ### One file after another -/

/-- There is one way on from a file: of two ways from it one continues the other. -/
theorem Leads.comparable (h : Leads disk cwd file way last) {way' : Way} {last' : Route}
    (h' : Leads disk cwd file way' last') :
    (∃ rest, way' = way ++ rest ∧ Leads disk cwd last rest last') ∨
    (∃ rest, way = way' ++ rest ∧ Leads disk cwd last' rest last) := by
  induction h generalizing way' with
  | here file => exact .inl ⟨way', rfl, h'⟩
  | onward hvisit hrest ih =>
    cases h' with
    | here => exact .inr ⟨_, rfl, .onward hvisit hrest⟩
    | onward hvisit' hrest' =>
      rw [hvisit] at hvisit'
      cases hvisit'
      rcases ih hrest' with ⟨rest, rfl, hmore⟩ | ⟨rest, rfl, hmore⟩
      · exact .inl ⟨rest, rfl, hmore⟩
      · exact .inr ⟨rest, rfl, hmore⟩

theorem Ends.unique (h : Ends disk cwd files way last r) (h' : Ends disk cwd files way last r') : r = r' := by
  cases h with
  | again hmem =>
    cases h' with
    | again => rfl
    | unfit hnew => exact absurd hmem hnew
    | base hnew => exact absurd hmem hnew
  | unfit hnew hvisit =>
    cases h' with
    | again hmem => exact absurd hmem hnew
    | unfit _ hvisit' =>
      rw [hvisit] at hvisit'
      cases hvisit'
      rfl
    | base _ hvisit' =>
      rw [hvisit] at hvisit'
      cases hvisit'
  | base hnew hvisit =>
    cases h' with
    | again hmem => exact absurd hmem hnew
    | unfit _ hvisit' =>
      rw [hvisit] at hvisit'
      cases hvisit'
    | base _ hvisit' =>
      rw [hvisit] at hvisit'
      cases hvisit'
      rfl

/-- Where loading ends, a way on can only be one that was gone before. -/
theorem Ends.mem_of_onward (h : Ends disk cwd files way last r) (hrest : Leads disk cwd last rest other)
    (hne : rest ≠ []) : last ∈ files ∧ last ∈ rest.files := by
  cases hrest with
  | here => exact absurd rfl hne
  | onward hvisit _ =>
    refine ⟨?_, List.mem_cons_self⟩
    cases h with
    | again hmem => exact hmem
    | unfit _ hvisit' =>
      rw [hvisit] at hvisit'
      cases hvisit'
    | base _ hvisit' =>
      rw [hvisit] at hvisit'
      cases hvisit'

/-- The way on which loading ends without having read a file twice is the only one. -/
theorem Ends.eq_nil (h : Ends disk cwd way.files way last r) (hrest : Leads disk cwd last rest other)
    (hnodup : (way ++ rest).files.Nodup) : rest = [] := by
  by_contra hne
  obtain ⟨hway, hmore⟩ := h.mem_of_onward hrest hne
  rw [Way.files, List.map_append] at hnodup
  exact (List.nodup_append.mp hnodup).2.2 last hway last hmore rfl

theorem Ends.onward (h : Ends disk cwd files way last r) (file : Route) (document : Members) :
    Ends disk cwd files ((file, document) :: way) last (r >>= fun ds => .ok (ds ++ [document])) := by
  cases h with
  | again hmem => exact .again hmem
  | unfit hnew hvisit => exact .unfit hnew hvisit
  | base hnew hvisit =>
    have hall : Way.documents ((file, document) :: way) = document :: way.documents := rfl
    have h : Ends disk cwd files ((file, document) :: way) last _ := .base hnew hvisit
    rw [hall, List.reverse_cons] at h
    exact h

theorem includeChain_succ : includeChain disk cwd (fuel + 1) chain file =
    if chain.contains file then .error (.theme (.includeCycle file)) else
      visit disk cwd file >>= fun (document, found) =>
        match found with
        | none => .ok [document]
        | some base => includeChain disk cwd fuel (chain ++ [file]) base >>= fun ds => .ok (ds ++ [document]) := by
  rw [includeChain]
  split
  · rfl
  · unfold visit
    cases readDocument disk file with
    | error e => rfl
    | ok document =>
      cases hfound : includeOf disk cwd file document with
      | error f => simp [bind, Except.bind, Except.mapError, hfound]
      | ok found =>
        simp only [bind, Except.bind, Except.mapError, hfound]
        cases found <;> rfl

/-- Loading goes a way of files that are all new and stops at the first that is not, or that does not
lead on. The fuel is not used up: all the files before were read, and each of them once. -/
theorem includeChain_ends (hchain : Held disk chain) (hfile : file.Proper)
    (hfuel : Disk.nameBound < chain.length + fuel) :
    ∃ way last, Leads disk cwd file way last ∧ (chain ++ way.files).Nodup ∧
      Ends disk cwd (chain ++ way.files) way last (includeChain disk cwd fuel chain file) := by
  induction fuel generalizing chain file with
  | zero => exact absurd hchain.length_lt (by omega)
  | succ fuel ih =>
    have hend {r : Except ThemeFailure (List Members)} (h : Ends disk cwd chain [] file r) :
        ∃ way last, Leads disk cwd file way last ∧ (chain ++ way.files).Nodup ∧
          Ends disk cwd (chain ++ way.files) way last r := by
      refine ⟨[], file, .here file, ?_, ?_⟩
      · simpa [Way.files] using hchain.nodup
      · simpa [Way.files] using h
    rw [includeChain_succ]
    split
    · rename_i hmem
      exact hend (.again (by simpa using hmem))
    · rename_i hmem
      have hnew : file ∉ chain := by simpa using hmem
      cases hvisit : visit disk cwd file with
      | error e => exact hend (.unfit hnew hvisit)
      | ok given =>
        obtain ⟨document, found⟩ := given
        cases found with
        | none => exact hend (.base hnew hvisit)
        | some base =>
          have hnext := hchain.snoc hfile hnew (visit_eq_ok.mp hvisit).1
          obtain ⟨way, last, hway, hnodup, hends⟩ := ih hnext (proper_of_visit hvisit) (by simp; omega)
          have hfiles : chain ++ Way.files ((file, document) :: way) = chain ++ [file] ++ way.files := by
            simp [Way.files]
          refine ⟨(file, document) :: way, last, .onward hvisit hway, ?_, ?_⟩
          · rw [hfiles]
            exact hnodup
          · rw [hfiles]
            exact hends.onward file document

/-- The chain of a file, found without any fuel: it is the way on which loading ends. -/
theorem includeChain_eq_iff (hfile : file.Proper) :
    includeChain disk cwd (Disk.nameBound + 1) [] file = r ↔
      ∃ way last, Leads disk cwd file way last ∧ way.files.Nodup ∧ Ends disk cwd way.files way last r := by
  have hempty : Held disk [] := ⟨List.nodup_nil, nofun, nofun⟩
  have hfuel : Disk.nameBound < ([] : List Route).length + (Disk.nameBound + 1) := by simp
  obtain ⟨way, last, hway, hnodup, hends⟩ := includeChain_ends hempty hfile hfuel
  rw [List.nil_append] at hnodup hends
  constructor
  · intro h
    rw [h] at hends
    exact ⟨way, last, hway, hnodup, hends⟩
  · rintro ⟨way', last', hway', hnodup', hends'⟩
    rcases hway.comparable hway' with ⟨rest, rfl, hrest⟩ | ⟨rest, rfl, hrest⟩
    · obtain rfl := hends.eq_nil hrest hnodup'
      cases hrest
      rw [List.append_nil] at hends'
      exact hends.unique hends'
    · obtain rfl := hends'.eq_nil hrest hnodup
      cases hrest
      rw [List.append_nil] at hends
      exact hends.unique hends'

/-! ### Themes of several documents -/

theorem lookup_setSemantic (entries : List (Str × Style)) (entry : Str × Style) (key : Str) :
    (setSemantic entries entry).lookup key =
      if key = entry.1 then some entry.2 else entries.lookup key := by
  obtain ⟨own, style⟩ := entry
  unfold setSemantic
  split
  · rename_i hany
    rw [Tree.lookup_map_set, if_pos hany]
  · rename_i hany
    rw [List.lookup_append]
    by_cases hkey : key = own
    · subst hkey
      have hnone : entries.lookup key = none := by
        rw [List.lookup_eq_none_iff]
        intro x hx
        have hne : x.1 ≠ key := fun heq => hany (List.any_eq_true.mpr ⟨x, hx, by simpa using heq⟩)
        simpa using Ne.symm hne
      simp [hnone]
    · simp [hkey, List.lookup_cons, beq_eq_false_iff_ne.mpr hkey]

theorem lookup_foldl_setSemantic (entries more : List (Str × Style)) (key : Str) :
    (more.foldl setSemantic entries).lookup key =
      (more.reverse.lookup key).or (entries.lookup key) := by
  induction more generalizing entries with
  | nil => simp
  | cons entry more ih =>
    obtain ⟨own, style⟩ := entry
    rw [List.foldl_cons, ih, List.reverse_cons, List.lookup_append, lookup_setSemantic, Option.or_assoc]
    by_cases hkey : key = own
    · simp [hkey]
    · simp [hkey, List.lookup_cons, beq_eq_false_iff_ne.mpr hkey]

theorem foldl_addDocument (documents : List Members) (t : Theme) :
    documents.foldl addDocument t =
      { t with
        rules := t.rules ++ documents.flatMap rulesOf
        semantic := (documents.flatMap semanticOf).foldl setSemantic t.semantic } := by
  induction documents generalizing t with
  | nil => simp
  | cons document documents ih =>
    rw [List.foldl_cons, ih]
    simp [addDocument, List.append_assoc, List.foldl_append]

/-- The rules stand in the order of the documents. -/
theorem rules_ofDocuments (documents : List Members) :
    (ofDocuments documents).rules = documents.flatMap rulesOf := by
  rw [ofDocuments, foldl_addDocument]
  rfl

/-- Of several styles under a key the last one counts. -/
theorem semantic?_ofDocuments (documents : List Members) (key : Str) :
    (ofDocuments documents).semantic? key = (documents.flatMap semanticOf).reverse.lookup key := by
  rw [semantic?, ofDocuments, foldl_addDocument, lookup_foldl_setSemantic]
  simp

/-! ### Loading -/

theorem load_eq (hfile : disk.resolve cwd path = .ok file) :
    load disk cwd path = includeChain disk cwd (Disk.nameBound + 1) [] file >>= fun documents =>
      .ok { ofDocuments documents with
            name := (documents.getLast?.bind ownName?).getD path.stem } := by
  unfold load
  rw [hfile]
  generalize Disk.nameBound + 1 = fuel
  rfl

/-- The document that was read first is added last. -/
theorem Leads.getLast?_documents (h : Leads disk cwd file way last)
    (hlast : visit disk cwd last = .ok (document, none)) :
    ∃ first, readDocument disk file = .ok first ∧
      (document :: way.documents.reverse).getLast? = some first := by
  cases h with
  | here => exact ⟨document, (visit_eq_ok.mp hlast).1, rfl⟩
  | onward hvisit _ =>
    refine ⟨_, (visit_eq_ok.mp hvisit).1, ?_⟩
    rw [Way.documents, List.map_cons, List.reverse_cons, ← List.cons_append, List.getLast?_concat]

theorem nodup_snoc : (files ++ [last]).Nodup ↔ files.Nodup ∧ last ∉ files := by
  rw [List.nodup_append]
  constructor
  · rintro ⟨hnodup, -, hnew⟩
    exact ⟨hnodup, fun hmem => hnew last hmem last List.mem_cons_self rfl⟩
  · rintro ⟨hnodup, hnew⟩
    refine ⟨hnodup, List.pairwise_singleton _ last, ?_⟩
    intro p hp p' hp' heq
    rw [List.mem_singleton.mp hp'] at heq
    exact hnew (heq ▸ hp)

theorem load_eq_ok_iff (hfile : disk.resolve cwd path = .ok file) {t : Theme} :
    load disk cwd path = .ok t ↔ ∃ way last document first,
      Leads disk cwd file way last ∧ (way.files ++ [last]).Nodup ∧
      visit disk cwd last = .ok (document, none) ∧ readDocument disk file = .ok first ∧
      t = { ofDocuments (document :: way.documents.reverse) with
            name := (ownName? first).getD path.stem } := by
  have hproper := (Disk.proper_of_resolve hfile).1
  rw [load_eq hfile, Files.bind_eq_ok]
  constructor
  · rintro ⟨documents, hchain, ⟨⟩⟩
    obtain ⟨way, last, hway, hnodup, hends⟩ := (includeChain_eq_iff hproper).mp hchain
    cases hends with
    | base hnew hvisit =>
      obtain ⟨first, hfirst, hlast⟩ := hway.getLast?_documents hvisit
      refine ⟨way, last, _, first, hway, nodup_snoc.mpr ⟨hnodup, hnew⟩, hvisit, hfirst, ?_⟩
      rw [hlast]
      rfl
  · rintro ⟨way, last, document, first, hway, hnodup, hvisit, hfirst, rfl⟩
    obtain ⟨hnodup, hnew⟩ := nodup_snoc.mp hnodup
    refine ⟨_, (includeChain_eq_iff hproper).mpr ⟨way, last, hway, hnodup, .base hnew hvisit⟩, ?_⟩
    obtain ⟨first', hfirst', hlast⟩ := hway.getLast?_documents hvisit
    rw [hfirst] at hfirst'
    cases hfirst'
    rw [hlast]
    rfl

theorem load_eq_error_iff (hfile : disk.resolve cwd path = .ok file) :
    load disk cwd path = .error e ↔ ∃ way last, Leads disk cwd file way last ∧ way.files.Nodup ∧
      Ends disk cwd way.files way last (.error e) := by
  rw [load_eq hfile, ← includeChain_eq_iff ((Disk.proper_of_resolve hfile).1), Files.bind_eq_error]
  constructor
  · rintro (h | ⟨_, _, h⟩)
    · exact h
    · cases h
  · exact .inl

/-- Loading says that files include each other in a circle if and only if the way from the first one
comes back to a file on it. -/
theorem load_includeCycle_iff (hfile : disk.resolve cwd path = .ok file) :
    (∃ q, load disk cwd path = .error (.theme (.includeCycle q))) ↔
      ∃ way q, Leads disk cwd file way q ∧ q ∈ way.files := by
  simp only [load_eq_error_iff hfile]
  constructor
  · rintro ⟨q, way, last, hway, hnodup, hends⟩
    cases hends with
    | again hmem => exact ⟨way, q, hway, hmem⟩
    | unfit _ hvisit => exact absurd hvisit visit_ne_includeCycle
  · rintro ⟨way', q, hway', hmem⟩
    have hchain : includeChain disk cwd (Disk.nameBound + 1) [] file = _ := rfl
    obtain ⟨way, last, hway, hnodup, hends⟩ := (includeChain_eq_iff ((Disk.proper_of_resolve hfile).1)).mp hchain
    suffices hagain : last ∈ way.files from ⟨last, way, last, hway, hnodup, .again hagain⟩
    rcases hway.comparable hway' with ⟨rest, rfl, hrest⟩ | ⟨rest, rfl, hrest⟩
    · by_cases hne : rest = []
      · subst hne
        cases hrest
        rwa [List.append_nil] at hmem
      · exact (hends.mem_of_onward hrest hne).1
    · -- The file that comes back is on the rest of the way as well, unless the rest is empty.
      cases hrest with
      | here => rwa [List.append_nil] at hnodup hends ⊢
      | onward hvisit hmore =>
        rw [Way.files, List.map_append] at hnodup
        exact absurd rfl ((List.nodup_append.mp hnodup).2.2 q hmem q (by simp))

/-- Any other failure is that of the first file that cannot be read or whose base has no path. -/
theorem load_unfit_iff (hfile : disk.resolve cwd path = .ok file)
    (he : ∀ q, e ≠ .theme (.includeCycle q)) :
    load disk cwd path = .error e ↔ ∃ way last, Leads disk cwd file way last ∧
      (way.files ++ [last]).Nodup ∧ visit disk cwd last = .error e := by
  rw [load_eq_error_iff hfile]
  constructor
  · rintro ⟨way, last, hway, hnodup, hends⟩
    cases hends with
    | again => exact absurd rfl (he last)
    | unfit hnew hvisit => exact ⟨way, last, hway, nodup_snoc.mpr ⟨hnodup, hnew⟩, hvisit⟩
  · rintro ⟨way, last, hway, hnodup, hvisit⟩
    obtain ⟨hnodup, hnew⟩ := nodup_snoc.mp hnodup
    exact ⟨way, last, hway, hnodup, .unfit hnew hvisit⟩

/-- A theme is that of the documents on the way from its file, base first, under the name that the first file
gives it. Loading ends whatever is stored and linked: with this theme, with the failure of the path or of a file
on the way, or with that of a way that comes back to a file on it. Links are followed to their ends, as any more
steps change nothing; where there are none, a path leads to what it is without double dots. -/
theorem load_follows_includes (disk : Disk) (cwd path : Route) :
    (∀ t, load disk cwd path = .ok t ↔ ∃ file way last document first,
      disk.resolve cwd path = .ok file ∧ Leads disk cwd file way last ∧ (way.files ++ [last]).Nodup ∧
      visit disk cwd last = .ok (document, none) ∧ readDocument disk file = .ok first ∧
      t = { ofDocuments (document :: way.documents.reverse) with
            name := (ownName? first).getD path.stem }) ∧
    ((∃ q, load disk cwd path = .error (.theme (.includeCycle q))) ↔
      ∃ file way q, disk.resolve cwd path = .ok file ∧ Leads disk cwd file way q ∧ q ∈ way.files) ∧
    (∀ e, (∀ q, e ≠ .theme (.includeCycle q)) → (load disk cwd path = .error e ↔
      (∃ f, disk.resolve cwd path = .error f ∧ e = .path f) ∨ ∃ file way last,
        disk.resolve cwd path = .ok file ∧ Leads disk cwd file way last ∧ (way.files ++ [last]).Nodup ∧
        visit disk cwd last = .error e)) ∧
    (∀ documents key, (ofDocuments documents).rules = documents.flatMap rulesOf ∧
      (ofDocuments documents).semantic? key = (documents.flatMap semanticOf).reverse.lookup key) ∧
    (∀ fuel text, Disk.nameBound ≤ fuel →
      disk.followText fuel ⟨"", []⟩ text [] = disk.followText Disk.nameBound ⟨"", []⟩ text []) ∧
    ∀ tree : Tree, disk = tree.disk → cwd.Settled → ∀ r file, r.Proper →
      (disk.resolve cwd r = .ok file ↔ r.Known ∧ file = (cwd.join r).downward) := by
  have hmerged (documents : List Members) (key : Str) :=
    And.intro (rules_ofDocuments documents) (semantic?_ofDocuments documents key)
  have hfollowed (fuel : Nat) (text : Str) (hfuel : Disk.nameBound ≤ fuel) :
      disk.followText fuel ⟨"", []⟩ text [] = disk.followText Disk.nameBound ⟨"", []⟩ text [] :=
    Disk.followText_enough ⟨.inl rfl, List.forall_mem_nil _⟩ hfuel
  have hunlinked (tree : Tree) (hdisk : disk = tree.disk) (hcwd : cwd.Settled) (r file : Route) (hr : r.Proper) :
      disk.resolve cwd r = .ok file ↔ r.Known ∧ file = (cwd.join r).downward :=
    hdisk ▸ Disk.resolve_unlinked tree hcwd hr
  cases hfile : disk.resolve cwd path with
  | error f =>
    have hload : load disk cwd path = .error (.path f) := by
      rw [load, hfile]
      rfl
    rw [hload]
    refine ⟨?_, ?_, ?_, hmerged, hfollowed, hunlinked⟩
    · simp
    · simp
    · intro e he
      simp [eq_comm]
  | ok file =>
    refine ⟨?_, ?_, ?_, hmerged, hfollowed, hunlinked⟩
    · intro t
      rw [load_eq_ok_iff hfile]
      simp
    · rw [load_includeCycle_iff hfile]
      simp
    · intro e he
      rw [load_unfit_iff hfile he]
      simp

end

/-- A theme on two others. -/
def layered : Disk := Tree.disk ⟨[
  (["a"], .file (Text.encodeUtf8 "\x7b\"name\":\"T\",\"include\":\"b\"\x7d".toList)),
  (["b"], .file (Text.encodeUtf8
    "\x7b\"include\":\"c\",\"semanticTokenColors\":\x7b\"v\":\"x\"\x7d\x7d".toList)),
  (["c"], .file (Text.encodeUtf8 "\x7b\"semanticTokenColors\":\x7b\"v\":\"y\",\"w\":\"z\"\x7d\x7d".toList))]⟩

/-- A theme on a link to itself. -/
def circular : Disk where
  link? name := if name = Text.encodeUtf8 "/l".toList then some (Text.encodeUtf8 "a".toList) else none
  isLoop _ := false
  read := Tree.readName ⟨[(["a"], .file (Text.encodeUtf8 "\x7b\"include\":\"l\"\x7d".toList))]⟩
  link?_long name h := by
    rw [if_neg]
    rintro rfl
    exact absurd h (by decide)
  read_long _ h := if_pos h

theorem load_follows_includes_layered :
    load layered ⟨"/", []⟩ ⟨"", ["a"]⟩ = .ok {
      name := "T"
      semantic := [("v", { foreground := some ("x" : Str) }), ("w", { foreground := some ("z" : Str) })] } ∧
    (∃ q, load circular ⟨"/", []⟩ ⟨"", ["a"]⟩ = .error (.theme (.includeCycle q))) ∧
    load Tree.empty.disk ⟨"/", []⟩ ⟨"", ["a"]⟩ =
      .error (.theme (.unreadable ⟨"/", ["a"]⟩ ⟨.missing, "/a"⟩)) := by
  have htop : visit layered ⟨"/", []⟩ ⟨"/", ["a"]⟩ = .ok
      ([("name", .string "T"), ("include", .string "b")], some ⟨"/", ["b"]⟩) :=
    visit_eq_ok.mpr ⟨by cbv, by decide +kernel⟩
  have hmiddle : visit layered ⟨"/", []⟩ ⟨"/", ["b"]⟩ = .ok
      ([("include", .string "c"), ("semanticTokenColors", .object [("v", .string "x")])],
        some ⟨"/", ["c"]⟩) :=
    visit_eq_ok.mpr ⟨by cbv, by decide +kernel⟩
  have hbase : visit layered ⟨"/", []⟩ ⟨"/", ["c"]⟩ = .ok
      ([("semanticTokenColors", .object [("v", .string "y"), ("w", .string "z")])], none) :=
    visit_eq_ok.mpr ⟨by cbv, by decide +kernel⟩
  have hagain : visit circular ⟨"/", []⟩ ⟨"/", ["a"]⟩ = .ok
      ([("include", .string "l")], some ⟨"/", ["a"]⟩) :=
    visit_eq_ok.mpr ⟨by cbv, by decide +kernel⟩
  have hmissing : visit Tree.empty.disk ⟨"/", []⟩ ⟨"/", ["a"]⟩ =
      .error (.theme (.unreadable ⟨"/", ["a"]⟩ ⟨.missing, "/a"⟩)) := by
    rfl
  have hroot : Route.Settled ⟨"/", []⟩ :=
    ⟨rfl, ⟨.inr (.inl rfl), List.forall_mem_nil _⟩, List.forall_mem_nil _⟩
  have hproper : Route.Proper ⟨"", ["a"]⟩ :=
    ⟨.inl rfl, by simpa using (⟨by decide, by decide, by decide⟩ : IsName [CodePoint.char 'a'])⟩
  have hknown : Route.Known ⟨"", ["a"]⟩ := by simp [Route.Known, CodePoint.inName_char]
  have hfile : layered.resolve ⟨"/", []⟩ ⟨"", ["a"]⟩ = .ok ⟨"/", ["a"]⟩ :=
    ((load_follows_includes layered ⟨"/", []⟩ ⟨"", ["a"]⟩).2.2.2.2.2 _ rfl hroot _ _ hproper).mpr ⟨hknown, rfl⟩
  refine ⟨?_, ?_, ?_⟩
  · refine ((load_follows_includes layered ⟨"/", []⟩ ⟨"", ["a"]⟩).1 _).mpr
      ⟨⟨"/", ["a"]⟩, _, ⟨"/", ["c"]⟩, _, _, hfile,
        .onward htop (.onward hmiddle (.here _)), by decide, hbase, (visit_eq_ok.mp htop).1, ?_⟩
    decide +kernel
  · exact (load_follows_includes circular ⟨"/", []⟩ ⟨"", ["a"]⟩).2.1.mpr
      ⟨⟨"/", ["a"]⟩, _, ⟨"/", ["a"]⟩, by decide +kernel, .onward hagain (.here _), List.mem_cons_self⟩
  · exact ((load_follows_includes Tree.empty.disk ⟨"/", []⟩ ⟨"", ["a"]⟩).2.2.1 _ (by simp)).mpr
      (.inr ⟨⟨"/", ["a"]⟩, [], ⟨"/", ["a"]⟩, by decide +kernel, .here _, by decide, hmissing⟩)

end Highlighter.Theme

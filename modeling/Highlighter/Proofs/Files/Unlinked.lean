import Highlighter.Proofs.Files.Links
import Highlighter.Proofs.Text.Encoding
import Mathlib.Data.List.TakeWhile

/-! Paths where there are no links. There a path is followed name by name to what it is without double dots, which
is found without asking for anything that is stored. So paths of characters, which know of no links, lead to the
same. -/

namespace Highlighter

open Highlighter.Files (Disk Followed PathFault Route Trail)

namespace CodePoint

/-- A code point that can be in the name of a file. -/
def InName (p : CodePoint) : Prop := ∃ piece, p.nameBytes? = some piece ∧ 0 ∉ piece

theorem inName_char {c : Char} : (char c).InName ↔ c ≠ '\x00' := by
  have hchar : (char c).InName ↔ 0 ∉ Text.encodeChar c := by
    constructor
    · rintro ⟨_, ⟨⟩, h⟩
      exact h
    · exact fun h => ⟨_, rfl, h⟩
  have hzero : c = '\x00' ↔ c.toNat = 0 := by
    constructor
    · rintro rfl
      rfl
    · intro h
      rw [← Char.ofNat_toNat c, h]
  have hbyte {n : Nat} (h : n < 256) : (0 : UInt8) = n.toUInt8 ↔ n = 0 := by
    rw [← UInt8.toNat_inj, Text.toNat_toUInt8 h]
    exact eq_comm
  have hvalid := Text.toNat_valid c
  rw [hchar, not_iff_not, hzero, Text.encodeChar]
  split_ifs with hone htwo hthree
  · rw [List.mem_singleton, hbyte (by omega)]
  · rw [List.mem_cons, List.mem_singleton, hbyte (by omega), hbyte (by omega)]
    omega
  · rw [List.mem_cons, List.mem_cons, List.mem_singleton, hbyte (by omega), hbyte (by omega), hbyte (by omega)]
    omega
  · rw [List.mem_cons, List.mem_cons, List.mem_cons, List.mem_singleton, hbyte (by omega), hbyte (by omega),
      hbyte (by omega), hbyte (by omega)]
    omega

theorem inName_slash : (char '/').InName := inName_char.mpr (by decide)

theorem inName_dot : (char '.').InName := inName_char.mpr (by decide)

end CodePoint

namespace Str

variable {s : Str}

/-- The texts of names. -/
theorem exists_name_iff : (∃ bytes, s.name = .ok bytes) ↔ ∀ p ∈ s.toList, p.InName := by
  simp only [name_eq_ok]
  generalize s.toList = points
  induction points with
  | nil => exact ⟨fun _ => nofun, fun _ => ⟨_, [], .nil, nofun, rfl⟩⟩
  | cons p points ih =>
    rw [List.forall_mem_cons, ← ih]
    constructor
    · rintro ⟨_, _, hpieces, hzero, rfl⟩
      cases hpieces with | cons hpiece hpieces => ?_
      rw [List.flatten_cons, List.mem_append, not_or] at hzero
      exact ⟨⟨_, hpiece, hzero.1⟩, _, _, hpieces, hzero.2, rfl⟩
    · rintro ⟨⟨piece, hpiece, hfirst⟩, _, pieces, hpieces, hzero, rfl⟩
      refine ⟨_, piece :: pieces, .cons hpiece hpieces, ?_, rfl⟩
      rw [List.flatten_cons, List.mem_append, not_or]
      exact ⟨hfirst, hzero⟩

end Str

namespace Files

section
variable {α : Type} [BEq α] {slash dot up : α} {s t done xs ys : List α}

theorem resolveOnto_append : resolveOnto up done (xs ++ ys) = resolveOnto up (resolveOnto up done xs) ys := by
  induction xs generalizing done with
  | nil => rfl
  | cons x xs ih => rw [List.cons_append, resolveOnto, resolveOnto, ih]

variable [LawfulBEq α]

theorem rootOf_eq_empty_iff : rootOf slash s = "" ↔ s.head? ≠ some slash := by
  cases s with
  | nil => simp [rootOf]
  | cons c rest =>
    by_cases hc : c = slash
    · subst hc
      rw [rootOf, List.takeWhile_cons_of_pos (by simp)]
      simp only [List.length_cons, List.head?_cons, ne_eq, not_true_eq_false, iff_false]
      split <;> simp_all
    · have hnone : (c :: rest).takeWhile (· == slash) = [] := List.takeWhile_cons_of_neg (by simpa using hc)
      rw [rootOf, hnone]
      simp [hc]

theorem namesIn_append_cons :
    namesIn slash dot (s ++ slash :: t) = namesIn slash dot s ++ namesIn slash dot t := by
  rw [namesIn, List.splitOn_append_cons_self, List.filter_append]
  rfl

end

namespace Route

variable {r here cwd : Route} {name : List CodePoint} {names : List (List CodePoint)} {done : List Str}

/-- A path whose names the system knows. -/
def Known (r : Route) : Prop := ∀ part ∈ r.parts, ∀ p ∈ part.toList, p.InName

theorem known_ofStr (text : Str) : (ofStr text).Known ↔ ∃ name, text.name = .ok name := by
  have hsame {p : CodePoint} (hout : ¬ p.InName) :
      (∃ name ∈ namesIn (.char '/') (.char '.') text.toList, p ∈ name) ↔ p ∈ text.toList :=
    exists_mem_namesIn (fun h => hout (h ▸ CodePoint.inName_slash)) (fun h => hout (h ▸ CodePoint.inName_dot))
  rw [Str.exists_name_iff]
  unfold Known ofStr
  rw [List.forall_mem_map]
  constructor
  · intro h p hp
    by_contra hout
    obtain ⟨name, hname, hmem⟩ := (hsame hout).mpr hp
    exact hout (h name hname p hmem)
  · intro h name hname p hp
    by_contra hout
    exact hout (h p ((hsame hout).mp ⟨name, hname, hp⟩))

theorem known_add : (here.add name).Known ↔ here.Known ∧ ∀ p ∈ name, p.InName := by
  simp [Known, add, or_imp, forall_and]

theorem Known.up (h : r.Known) : r.up.Known := by
  have hup : ∀ p ∈ (".." : Str).toList, p.InName := by simp [CodePoint.inName_dot]
  unfold Route.up
  split
  · split
    · exact h
    · intro part hpart
      rw [List.mem_singleton.mp hpart]
      exact hup
  · split
    · rename_i last hlast _
      intro part hpart
      rcases List.mem_append.mp hpart with hpart | hpart
      · exact h part hpart
      · rw [List.mem_singleton.mp hpart]
        exact h last (List.mem_of_getLast? hlast)
    · exact fun part hpart => h part (List.dropLast_subset _ hpart)

/-- A path from the root on whose names the system knows. -/
structure Settled (r : Route) : Prop where
  root : r.root = "/"
  proper : r.Proper
  known : r.Known

/-- The path from the root on without double dots. -/
def downward (r : Route) : Route := ⟨"/", (resolveOnto (".." : Str) [] r.parts).reverse⟩

theorem mem_downward {part : Str} (h : part ∈ r.downward.parts) : part ∈ r.parts := by
  rcases mem_resolveOnto (List.mem_reverse.mp h) with h | ⟨h, -⟩
  · cases h
  · exact h

theorem Proper.downward (h : r.Proper) : r.downward.Proper :=
  ⟨.inr (.inl rfl), fun part hpart => h.names part (mem_downward hpart)⟩

theorem Known.downward (h : r.Known) : r.downward.Known := fun part hpart => h part (mem_downward hpart)

/-- A path with one more name: a double dot leads up. -/
def onto (here : Route) (name : List CodePoint) : Route :=
  if name == [.char '.', .char '.'] then here.up else here.add name

theorem Proper.onto (h : here.Proper) (hname : IsName name) : (here.onto name).Proper := by
  unfold Route.onto
  split
  · exact h.up
  · exact h.add hname

theorem root_onto (here : Route) (name : List CodePoint) : (here.onto name).root = here.root := by
  unfold onto up
  split
  · split
    · split <;> rfl
    · split <;> rfl
  · rfl

theorem root_foldl_onto (here : Route) (names : List (List CodePoint)) :
    (names.foldl onto here).root = here.root := by
  induction names generalizing here with
  | nil => rfl
  | cons name names ih => rw [List.foldl_cons, ih, root_onto]

/-- A double dot takes away what it would take away later. -/
theorem resolveOnto_onto (hdone : here.root ≠ "" → done = []) :
    resolveOnto (".." : Str) done (here.onto name).parts =
      resolveOnto (".." : Str) (resolveOnto ".." done here.parts) [Str.ofList name] := by
  rw [← resolveOnto_append]
  unfold onto
  split
  · rename_i hname
    rw [beq_iff_eq] at hname
    have hup : Str.ofList name = ".." := by
      rw [hname]
      rfl
    rw [hup]
    unfold Route.up
    split
    · rename_i hnone
      rw [List.getLast?_eq_none_iff] at hnone
      split
      · rename_i hroot
        rw [hdone (by simpa [isAbsolute] using hroot), hnone]
        rfl
      · rw [hnone]
        rfl
    · rename_i last hlast
      split
      · rename_i hlastUp
        rw [beq_iff_eq] at hlastUp
        rw [hlastUp]
      · rename_i hlastDown
        obtain ⟨init, hinit⟩ := List.getLast?_eq_some_iff.mp hlast
        have hback (before : List Str) : resolveOnto (".." : Str) before [last, ".."] = before := by
          rw [resolveOnto, if_neg hlastDown, resolveOnto, if_pos (by simp)]
          rfl
        rw [hinit, parent, hinit, List.dropLast_concat, List.append_assoc, List.singleton_append,
          resolveOnto_append, hback]
  · rfl

theorem resolveOnto_foldl_onto (hdone : here.root ≠ "" → done = []) :
    resolveOnto (".." : Str) done (names.foldl onto here).parts =
      resolveOnto (".." : Str) (resolveOnto ".." done here.parts) (names.map Str.ofList) := by
  induction names generalizing here with
  | nil => rfl
  | cons name names ih =>
    rw [List.foldl_cons, ih (by rwa [root_onto]), resolveOnto_onto hdone, ← resolveOnto_append]
    rfl

/-- The names of a text behind those of a directory. -/
theorem namesIn_joinText {base text : List CodePoint} (h : text.head? ≠ some (.char '/')) :
    namesIn (.char '/') (.char '.') (joinText base text) =
      namesIn (.char '/') (.char '.') base ++ namesIn (.char '/') (.char '.') text := by
  rw [joinText, if_neg (by simpa using h)]
  split
  · rename_i hbase
    rw [Bool.or_eq_true, List.isEmpty_iff, beq_iff_eq] at hbase
    rcases hbase with rfl | hbase
    · rfl
    · obtain ⟨init, rfl⟩ := List.getLast?_eq_some_iff.mp hbase
      rw [List.append_assoc, List.singleton_append, namesIn_append_cons, namesIn_append_cons]
      simp [namesIn]
  · exact namesIn_append_cons

theorem rootOf_joinText {base text : List CodePoint} (h : text.head? ≠ some (.char '/')) :
    rootOf (.char '/') (joinText base text) = rootOf (.char '/') base := by
  have htext : text.takeWhile (· == CodePoint.char '/') = [] := by
    cases text with
    | nil => rfl
    | cons p rest => exact List.takeWhile_cons_of_neg (by simpa using h)
  have hfront : (joinText base text).takeWhile (· == CodePoint.char '/') =
      base.takeWhile (· == CodePoint.char '/') := by
    rw [joinText, if_neg (by simpa using h)]
    split
    · rw [List.takeWhile_append, htext, List.append_nil]
      split
      · rename_i hall
        exact ((List.takeWhile_prefix _).eq_of_length hall).symm
      · rfl
    · rename_i hbase
      rw [Bool.or_eq_true, List.isEmpty_iff, beq_iff_eq, not_or] at hbase
      rw [List.takeWhile_append, if_neg]
      intro hall
      have hslashes := List.takeWhile_eq_self_iff.mp ((List.takeWhile_prefix _).eq_of_length hall)
      have hlast := hslashes _ (List.getLast_mem hbase.1)
      rw [beq_iff_eq] at hlast
      exact hbase.2 (by rw [List.getLast?_eq_some_getLast hbase.1, hlast])
  rw [rootOf, rootOf, hfront]

theorem join_of_root (h : r.root ≠ "") : cwd.join r = r := if_pos (by simpa [isAbsolute] using h)

theorem join_of_no_root (h : r.root = "") : cwd.join r = { cwd with parts := cwd.parts ++ r.parts } :=
  if_neg (by simp [isAbsolute, h])

/-- What is read of a text behind that of a directory. -/
theorem ofStr_joinText (hcwd : cwd.Proper) (hr : r.Proper) :
    ofStr (.ofList (joinText cwd.text.toList r.text.toList)) = cwd.join r := by
  have hroot : rootOf (.char '/') r.text.toList = r.root := congrArg root hr.ofStr_text
  have hparts : (namesIn (.char '/') (.char '.') r.text.toList).map Str.ofList = r.parts :=
    congrArg parts hr.ofStr_text
  have hbaseRoot : rootOf (.char '/') cwd.text.toList = cwd.root := congrArg root hcwd.ofStr_text
  have hbaseParts : (namesIn (.char '/') (.char '.') cwd.text.toList).map Str.ofList = cwd.parts :=
    congrArg parts hcwd.ofStr_text
  by_cases habsolute : r.root = ""
  · have hhead : r.text.toList.head? ≠ some (.char '/') := rootOf_eq_empty_iff.mp (hroot.trans habsolute)
    rw [join_of_no_root habsolute, ofStr, rootOf_joinText hhead, namesIn_joinText hhead,
      List.map_append, hbaseRoot, hbaseParts, hparts]
  · have hhead : r.text.toList.head? = some (.char '/') := by
      by_contra h
      exact habsolute (hroot.symm.trans (rootOf_eq_empty_iff.mpr h))
    rw [join_of_root habsolute, joinText, if_pos (by simp [hhead])]
    exact hr.ofStr_text

theorem Proper.join (hcwd : cwd.Proper) (hr : r.Proper) : (cwd.join r).Proper := by
  unfold Route.join
  split
  · exact hr
  · exact ⟨hcwd.root, fun part hpart => (List.mem_append.mp hpart).elim (hcwd.names part) (hr.names part)⟩

theorem Known.join (hcwd : cwd.Known) (hr : r.Known) : (cwd.join r).Known := by
  unfold Route.join
  split
  · exact hr
  · exact fun part hpart => (List.mem_append.mp hpart).elim (hcwd part) (hr part)

theorem Proper.foldl_onto (h : here.Proper) (hnames : ∀ name ∈ names, IsName name) :
    (names.foldl Route.onto here).Proper := by
  induction names generalizing here with
  | nil => exact h
  | cons name names ih =>
    rw [List.forall_mem_cons] at hnames
    exact ih (h.onto hnames.1) hnames.2

/-- Where a path starts: at the root, or nowhere yet. -/
def origin (r : Route) : Route := ⟨if r.isAbsolute then "/" else "", []⟩

theorem proper_origin (r : Route) : r.origin.Proper := by
  unfold origin
  split
  · exact ⟨.inr (.inl rfl), List.forall_mem_nil _⟩
  · exact ⟨.inl rfl, List.forall_mem_nil _⟩

theorem known_origin (r : Route) : r.origin.Known := List.forall_mem_nil _

/-- A path read name by name. -/
def trodden (r : Route) : Route := (r.parts.map Str.toList).foldl onto r.origin

theorem Proper.trodden (h : r.Proper) : r.trodden.Proper :=
  Proper.foldl_onto (proper_origin r) (List.forall_mem_map.mpr h.names)

/-- Double dots that are followed at once lead where they lead when they are taken out in the end. -/
theorem downward_join_trodden (hroot : cwd.root = "/") : (cwd.join r.trodden).downward = (cwd.join r).downward ∧
    (cwd.join r.trodden).root = "/" := by
  have hnames : (r.parts.map Str.toList).map Str.ofList = r.parts := by
    rw [List.map_map]
    exact List.map_id _
  by_cases hrelative : r.root = ""
  · have hgone : r.trodden = (r.parts.map Str.toList).foldl onto ⟨"", []⟩ := by
      simp [trodden, origin, isAbsolute, hrelative]
    have hstay : r.trodden.root = "" := by rw [hgone, root_foldl_onto]
    rw [join_of_no_root hstay, join_of_no_root hrelative, downward, downward, resolveOnto_append,
      resolveOnto_append, hgone, resolveOnto_foldl_onto (fun h => absurd rfl h), hnames]
    exact ⟨rfl, hroot⟩
  · have hgone : r.trodden = (r.parts.map Str.toList).foldl onto ⟨"/", []⟩ := by
      simp [trodden, origin, isAbsolute, hrelative]
    have hstay : r.trodden.root = "/" := by rw [hgone, root_foldl_onto]
    rw [join_of_root (by simp [hstay]), join_of_root hrelative, downward, downward, hgone,
      resolveOnto_foldl_onto (fun _ => rfl), hnames]
    exact ⟨rfl, hgone ▸ hstay⟩

end Route

namespace Disk

variable {tree : Tree} {cwd r here file : Route} {fuel : Nat} {trail : Trail} {followed : Followed}
  {names : List (List CodePoint)} {follow : Route → Str → Trail → Except PathFault Followed}

open Route (onto)

theorem target?_unlinked (r : Route) : tree.disk.target? r = r.text.name.map fun _ => none := rfl

/-- The names that are followed, where there are no links. -/
theorem followNames_unlinked (hnames : ∀ name ∈ names, .char '/' ∉ name) (hhere : here.Proper)
    (hknown : here.Known) :
    followNames tree.disk follow here trail names = .ok followed ↔
      let kept := names.filter fun name => !(name.isEmpty || name == [.char '.'])
      (∀ name ∈ kept, ∀ p ∈ name, p.InName) ∧ followed = .done (kept.foldl onto here) trail := by
  dsimp only
  induction names generalizing here with
  | nil => simp [followNames, eq_comm]
  | cons name names ih =>
    rw [List.forall_mem_cons] at hnames
    rw [followNames_cons]
    split
    · rename_i hdropped
      rw [List.filter_cons_of_neg (by simp only [hdropped]; decide)]
      exact ih hnames.2 hhere hknown
    rename_i hkept
    have hname : IsName name := by
      simp only [Bool.or_eq_true, List.isEmpty_iff, beq_iff_eq, not_or] at hkept
      exact ⟨hkept.1, hkept.2, hnames.1⟩
    rw [List.filter_cons_of_pos (by simpa using hkept), List.forall_mem_cons, List.foldl_cons]
    split
    · rename_i hup
      have honto : here.onto name = here.up := if_pos hup
      have hdots : ∀ p ∈ name, p.InName := by
        rw [eq_of_beq hup]
        simp [CodePoint.inName_dot]
      rw [honto, ih hnames.2 hhere.up hknown.up, and_assoc]
      exact (and_iff_right hdots).symm
    · rename_i hdown
      have honto : here.onto name = here.add name := if_neg hdown
      rw [honto, target?_unlinked]
      have hadd := Route.known_ofStr (here.add name).text
      rw [(hhere.add hname).ofStr_text, Route.known_add] at hadd
      cases hbytes : (here.add name).text.name with
      | error f =>
        have hunknown : ¬ ∀ p ∈ name, p.InName := fun h => by
          obtain ⟨bytes, h⟩ := hadd.mp ⟨hknown, h⟩
          rw [hbytes] at h
          cases h
        simp [hunknown, Except.map, bind, Except.bind]
      | ok bytes =>
        have hin := hadd.mpr ⟨bytes, hbytes⟩
        dsimp only [Except.map, bind, Except.bind]
        rw [ih hnames.2 (hhere.add hname) (Route.known_add.mpr hin), and_assoc]
        exact (and_iff_right hin.2).symm

theorem followText_unlinked (hr : r.Proper) :
    followText tree.disk (fuel + 1) ⟨"", []⟩ r.toStr trail = .ok followed ↔
      r.Known ∧ followed = .done r.trodden trail := by
  have hparts : (namesIn (.char '/') (.char '.') r.toStr.toList).map Str.ofList = r.parts :=
    congrArg Route.parts hr.ofStr_toStr
  have hnames : namesIn (.char '/') (.char '.') r.toStr.toList = r.parts.map Str.toList := by
    rw [← hparts, List.map_map]
    exact (List.map_id _).symm
  have hroot : rootOf (.char '/') r.toStr.toList = r.root := congrArg Route.root hr.ofStr_toStr
  have hstart : (if r.toStr.toList.head? == some (.char '/') then ⟨"/", []⟩ else ⟨"", []⟩) = r.origin := by
    rw [Route.origin, Route.isAbsolute, ← hroot]
    by_cases hhead : r.toStr.toList.head? = some (.char '/')
    · have hfilled : rootOf (CodePoint.char '/') r.toStr.toList ≠ "" := fun h => rootOf_eq_empty_iff.mp h hhead
      rw [if_pos (by simpa using hhead), if_pos (by simpa using hfilled)]
    · rw [if_neg (by simpa using hhead), if_neg (by simpa using rootOf_eq_empty_iff.mpr hhead)]
  rw [followText, hstart, followNames_unlinked (fun name hname => not_mem_splitOn hname) r.proper_origin
    r.known_origin]
  dsimp only
  rw [← namesIn, hnames, List.forall_mem_map]
  rfl

/-- Where there are no links, a path whose names the system knows leads to what it is without double dots, and
any other path nowhere. -/
theorem resolve_unlinked (tree : Tree) (hcwd : cwd.Settled) (hr : r.Proper) :
    tree.disk.resolve cwd r = .ok file ↔ r.Known ∧ file = (cwd.join r).downward := by
  obtain ⟨fuel, hfuel⟩ : ∃ fuel, nameBound = fuel + 1 :=
    Nat.exists_eq_add_one.mpr ((Nat.zero_le _).trans_lt Trail.sound_nil.count_lt)
  have hfollow (followed : Followed) : followText tree.disk (fuel + 1) ⟨"", []⟩ r.toStr [] = .ok followed ↔
      r.Known ∧ followed = .done r.trodden [] := followText_unlinked hr
  unfold resolve
  rw [hfuel]
  by_cases hr' : r.Known
  · obtain ⟨name, hname⟩ : ∃ name, (cwd.join r).downward.toStr.name = .ok name := by
      rw [← Route.known_ofStr, (hcwd.proper.join hr).downward.ofStr_toStr]
      exact (hcwd.known.join hr').downward
    obtain ⟨hdown, hjoined⟩ := Route.downward_join_trodden (r := r) hcwd.root
    have hfull := Route.ofStr_joinText hcwd.proper hr.trodden
    have hfound : (⟨rootOf (.char '/') (joinText cwd.text.toList r.trodden.text.toList),
        (resolveOnto (".." : Str) [] ((namesIn (.char '/') (.char '.')
          (joinText cwd.text.toList r.trodden.text.toList)).map .ofList)).reverse⟩ : Route) =
        (cwd.join r).downward := by
      rw [← hdown, ← hfull]
      exact congrArg (Route.mk · _) ((congrArg Route.root hfull).trans hjoined)
    rw [(hfollow _).mpr ⟨hr', rfl⟩]
    dsimp only [bind, Except.bind, Followed.text]
    rw [hfound, hname]
    exact ⟨fun h => ⟨hr', (Except.ok.inj h).symm⟩, fun h => congrArg Except.ok h.2.symm⟩
  · cases h : followText tree.disk (fuel + 1) ⟨"", []⟩ r.toStr [] with
    | error f => simp [hr', bind, Except.bind]
    | ok followed => exact absurd ((hfollow followed).mp h).1 hr'

end Disk

namespace Path

variable {p q base : Path} {part : String}

theorem isName_of_isPart (h : IsPart part) : IsName (part : Str).toList where
  filled hnil := h.filled (by simpa using hnil)
  dotless hdot := by
    refine h.dotless (Str.ofString_inj.mp ?_)
    ext1
    exact hdot
  slashless hslash := h.slashless (by simpa using hslash)

theorem proper_ofPath (hroot : p.root = "" ∨ p.root = "/" ∨ p.root = "//") (hp : p.Proper) : (p : Route).Proper :=
  ⟨hroot, List.forall_mem_map.mpr fun part hpart => isName_of_isPart (hp part hpart)⟩

theorem proper_route (s : String) : (ofString s : Route).Proper :=
  proper_ofPath (Route.rootOf_cases _ _) (proper_ofString s)

theorem known_ofPath : (p : Route).Known ↔ p.fault? = none := by
  rw [fault?_eq_none]
  unfold Route.Known Route.ofPath
  rw [List.forall_mem_map]
  simp only [Str.toList_ofString, List.forall_mem_map, CodePoint.inName_char]
  exact forall₂_congr fun part _ => ⟨fun h hmem => h _ hmem rfl, fun h c hc heq => h (heq ▸ hc)⟩

theorem Resolved.settled (h : base.Resolved) : (base : Route).Settled :=
  ⟨h.root, proper_ofPath (.inr (.inl h.root)) h.proper, known_ofPath.mpr h.faultless⟩

theorem join_ofPath (p q : Path) : ((p.join q : Path) : Route) = (p : Route).join q := by
  unfold join Route.join
  change _ = if q.isAbsolute then _ else _
  split
  · rfl
  · simp [Route.ofPath]

theorem map_resolveOnto (done parts : List String) :
    (resolveOnto ".." done parts).map Str.ofString =
      resolveOnto (".." : Str) (done.map Str.ofString) (parts.map Str.ofString) := by
  induction parts generalizing done with
  | nil => rfl
  | cons part parts ih =>
    rw [List.map_cons, resolveOnto, resolveOnto, ih, Str.ofString_beq]
    split <;> simp

/-- Where there are no links, a path leads to the same whether it is read as one of characters or not. -/
theorem resolve_ofPath (tree : Tree) {file : Route} (hbase : base.Resolved) (hp : (p : Route).Proper) :
    tree.disk.resolve base p = .ok file ↔ ∃ q, resolve base p = .ok q ∧ file = q := by
  have hdown : ((base.join p : Path) : Route).downward =
      (⟨"/", (resolveOnto ".." [] (base.join p).parts).reverse⟩ : Path) := by
    rw [Route.downward, Route.ofPath, Route.ofPath, List.map_reverse, map_resolveOnto]
    rfl
  rw [Disk.resolve_unlinked tree hbase.settled hp, ← join_ofPath, hdown, known_ofPath,
    ← fault?_join hbase.faultless, resolve]
  split
  · rename_i hfault
    simp [hfault]
  · rename_i hfault
    simp [hfault]

end Path
end Files
end Highlighter

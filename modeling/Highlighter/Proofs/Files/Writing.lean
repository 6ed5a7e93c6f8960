import Highlighter.Proofs.Files.Paths
import Mathlib.Data.List.Induction

/-! What writing does to a tree of files. Directories and files stay what they are, only the places that
were written hold something new, and what was written once can be written again. -/

namespace Highlighter.Files

open Highlighter.Text (Bytes)

namespace Tree

/-- Two trees hold the same everywhere. -/
def Same (t u : Tree) : Prop := ∀ place, u.entry? place = t.entry? place

/-- Every directory stays a directory and every file a file. -/
structure Grows (t u : Tree) : Prop where
  directory : ∀ place, t.entry? place = some .directory → u.entry? place = some .directory
  file : ∀ place b, t.entry? place = some (.file b) → ∃ b', u.entry? place = some (.file b')

/-- A tree after contents were written at places, the last of them first. Beside them only directories
were made. -/
structure Wrote (writes : List (Place × Bytes)) (t u : Tree) : Prop where
  grows : t.Grows u
  written : ∀ place b, writes.lookup place = some b → u.entry? place = some (.file b)
  kept : ∀ place, writes.lookup place = none →
    u.entry? place = t.entry? place ∨ t.entry? place = none ∧ u.entry? place = some .directory

/-- Whatever is listed lies in a directory. -/
def Rooted (t : Tree) : Prop := ∀ x ∈ t.entries, t.entry? x.1.dropLast = some .directory

/-- Nothing was written but at some of the places. -/
def Touched (places : List Place) (t u : Tree) : Prop :=
  ∃ writes, (∀ w ∈ writes, w.1 ∈ places) ∧ Wrote writes t u

section
variable {t u v : Tree} {places morePlaces : List Place} {place other : Place} {p : Path} {b : Bytes} {e : Entry}
  {s : String} {text : Option String} {writes more : List (Place × Bytes)}

/-! ### Trees that grow -/

theorem Grows.refl (t : Tree) : t.Grows t := ⟨fun _ h => h, fun _ b h => ⟨b, h⟩⟩

theorem Grows.trans (h : t.Grows u) (h' : u.Grows v) : t.Grows v where
  directory place hplace := h'.directory place (h.directory place hplace)
  file place b hplace := by
    obtain ⟨b', hb'⟩ := h.file place b hplace
    exact h'.file place b' hb'

/-- A way that leads somewhere, or is barred, stays as it is; only what is missing may come to be. -/
theorem walk_of_grows (h : t.Grows u) {parts : List String} {r : Except Fault Place}
    (hr : t.walk place parts = r) (hmissing : r ≠ .error .missing) : u.walk place parts = r := by
  induction parts generalizing place with
  | nil => exact hr
  | cons part rest ih =>
    rw [walk] at hr ⊢
    cases hplace : t.entry? place with
    | none =>
      rw [hplace] at hr
      exact absurd hr.symm hmissing
    | some e =>
      rw [hplace] at hr
      cases e with
      | file b =>
        obtain ⟨b', hb'⟩ := h.file place b hplace
        rw [hb']
        exact hr
      | directory =>
        rw [h.directory place hplace]
        dsimp only at hr ⊢
        split
        · rename_i hlong
          rwa [if_pos hlong] at hr
        · rename_i hlong
          rw [if_neg hlong] at hr
          exact ih hr

theorem locate_of_grows (h : t.Grows u) {r : Except Fault Place} (hr : t.locate p = r)
    (hmissing : r ≠ .error .missing) : u.locate p = r := by
  unfold locate at hr ⊢
  split
  · rename_i hlong
    rwa [if_pos hlong] at hr
  · rename_i hlong
    rw [if_neg hlong] at hr
    exact walk_of_grows h hr hmissing

theorem locate_ok_of_grows (h : t.Grows u) (hp : t.locate p = .ok place) : u.locate p = .ok place :=
  locate_of_grows h hp nofun

/-- Without double dots a path leads to the place its parts name. -/
theorem walk_upless {parts : List String} (hup : ".." ∉ parts) (h : t.walk place parts = .ok other) :
    other = place ++ parts := by
  induction parts generalizing place with
  | nil =>
    cases h
    rw [List.append_nil]
  | cons part rest ih =>
    simp only [List.mem_cons, not_or] at hup
    rw [walk] at h
    split at h
    · cases h
    · cases h
    · split at h
      · cases h
      · rw [if_neg (by simpa using Ne.symm hup.1)] at h
        rw [ih hup.2 h, List.append_assoc]
        rfl

theorem locate_resolved (hp : p.Resolved) (h : t.locate p = .ok place) : place = p.parts := by
  unfold locate at h
  split at h
  · cases h
  · exact walk_upless hp.upless h

/-! ### One entry -/

theorem lookup_map_set {κ ν : Type} [BEq κ] [LawfulBEq κ] [DecidableEq κ] (entries : List (κ × ν))
    (key other : κ) (v : ν) :
    (entries.map fun x => if x.1 == key then (key, v) else x).lookup other =
      if other = key then (if entries.any (·.1 == key) then some v else none)
      else entries.lookup other := by
  induction entries with
  | nil => simp
  | cons x entries ih =>
    rw [List.map_cons, List.lookup_cons, ih, List.any_cons, List.lookup_cons]
    by_cases hx : x.1 = key
    · subst hx
      by_cases hother : other = x.1
      · simp [hother]
      · simp [hother, beq_eq_false_iff_ne.mpr hother]
    · have hkey : (x.1 == key) = false := beq_eq_false_iff_ne.mpr hx
      by_cases hother : other = key
      · subst hother
        have hne : (other == x.1) = false := beq_eq_false_iff_ne.mpr (Ne.symm hx)
        simp only [hkey, hne, Bool.false_or, if_true, Bool.false_eq_true, if_false]
      · simp [hkey, hother]

theorem entry?_set (hplace : place ≠ []) : Tree.entry? (t.set place e) other =
    if other = place then some e else t.entry? other := by
  unfold entry?
  by_cases hroot : other = []
  · subst hroot
    simp [Ne.symm hplace]
  · have hempty : other.isEmpty = false := by simpa using hroot
    rw [hempty]
    simp only [Bool.false_eq_true, if_false, set]
    split
    · rename_i hany
      rw [lookup_map_set, hany, if_pos rfl]
    · rename_i hany
      rw [List.lookup_append]
      by_cases hother : other = place
      · subst hother
        have hnone : t.entries.lookup other = none := by
          rw [List.lookup_eq_none_iff]
          intro x hx
          have hne : x.1 ≠ other := fun heq => hany (List.any_eq_true.mpr ⟨x, hx, by simpa using heq⟩)
          simpa using Ne.symm hne
        simp [hnone]
      · rw [List.lookup_cons, beq_eq_false_iff_ne.mpr hother]
        simp [hother]

theorem entry?_root (t : Tree) : t.entry? [] = some .directory := rfl

theorem grows_set (hplace : place ≠ []) (h : ∀ old, t.entry? place = some old →
    (old = .directory ↔ e = .directory)) : t.Grows (t.set place e) where
  directory other hother := by
    rw [entry?_set hplace]
    split
    · rename_i heq
      subst heq
      rw [(h _ hother).mp rfl]
    · exact hother
  file other b hother := by
    rw [entry?_set hplace]
    split
    · rename_i heq
      subst heq
      cases e with
      | file b' => exact ⟨b', rfl⟩
      | directory => exact absurd ((h _ hother).mpr rfl) nofun
    · exact ⟨b, hother⟩

/-! ### Writes -/

theorem Wrote.refl (t : Tree) : Wrote [] t t where
  grows := .refl t
  written _ _ h := by cases h
  kept _ _ := .inl rfl

theorem Wrote.trans (h : Wrote writes t u) (h' : Wrote more u v) : Wrote (more ++ writes) t v where
  grows := h.grows.trans h'.grows
  written place b hb := by
    rw [List.lookup_append] at hb
    cases hmore : more.lookup place with
    | some b' =>
      rw [hmore] at hb
      cases hb
      exact h'.written place _ hmore
    | none =>
      rw [hmore] at hb
      have hu := h.written place b hb
      rcases h'.kept place hmore with hv | ⟨hnone, -⟩
      · rw [hv, hu]
      · rw [hu] at hnone
        cases hnone
  kept place hnone := by
    rw [List.lookup_append] at hnone
    cases hmore : more.lookup place with
    | some b' =>
      rw [hmore] at hnone
      cases hnone
    | none =>
      rw [hmore] at hnone
      rcases h'.kept place hmore with hv | ⟨hu, hv⟩
      · rcases h.kept place hnone with hu | ⟨ht, hu⟩
        · exact .inl (hv.trans hu)
        · exact .inr ⟨ht, hv.trans hu⟩
      · rcases h.kept place hnone with hu' | ⟨-, hu'⟩
        · exact .inr ⟨hu'.symm.trans hu, hv⟩
        · rw [hu'] at hu
          cases hu

theorem wrote_file (hplace : place ≠ []) (h : t.entry? place ≠ some .directory) :
    Wrote [(place, b)] t (t.set place (.file b)) where
  grows := grows_set hplace fun old hold =>
    ⟨by rintro rfl; exact absurd hold h, nofun⟩
  written other c hc := by
    rw [List.lookup_cons] at hc
    rw [entry?_set hplace]
    by_cases hother : other = place
    · subst hother
      simp only [beq_self_eq_true] at hc
      cases hc
      rw [if_pos rfl]
    · rw [beq_eq_false_iff_ne.mpr hother] at hc
      cases hc
  kept other hnone := by
    rw [entry?_set hplace, if_neg]
    · exact .inl rfl
    · rintro rfl
      simp at hnone

theorem wrote_directory (hplace : place ≠ []) (h : t.entry? place = none) :
    Wrote [] t (t.set place .directory) where
  grows := grows_set hplace fun old hold => by rw [h] at hold; cases hold
  written _ _ hb := by cases hb
  kept other _ := by
    rw [entry?_set hplace]
    split
    · rename_i heq
      subst heq
      exact .inr ⟨h, rfl⟩
    · exact .inl rfl

theorem makeFrom_wrote {made : Bool} {parts : List String} (h : t.makeFrom p made place parts = .ok u) :
    Wrote [] t u := by
  induction parts generalizing t place made with
  | nil =>
    rw [makeFrom] at h
    cases h
    exact .refl _
  | cons part rest ih =>
    rw [makeFrom] at h
    split at h
    · cases h
    split at h
    · exact ih h
    · cases h
    · rename_i hnone
      have hroot {place : Place} (hnone : t.entry? place = none) : place ≠ [] := by
        rintro rfl
        cases hnone
      exact (wrote_directory (hroot hnone) hnone).trans (ih h)

theorem makeDirectories_wrote (h : t.makeDirectories p = .ok u) : Wrote [] t u := by
  unfold makeDirectories at h
  split at h
  · cases h
  · exact makeFrom_wrote h

/-- Directories that were made are there, so making them again changes nothing. -/
theorem makeFrom_again {made made' : Bool} {parts : List String}
    (h : t.makeFrom p made place parts = .ok u) (hv : u.Grows v) :
    v.makeFrom p made' place parts = .ok v := by
  induction parts generalizing t place made made' with
  | nil => rfl
  | cons part rest ih =>
    rw [makeFrom] at h ⊢
    split at h
    · cases h
    rename_i hlong
    rw [if_neg hlong]
    split at h
    · rename_i hdirectory
      have hthere := hv.directory _ ((makeFrom_wrote h).grows.directory _ hdirectory)
      rw [hthere]
      exact ih h
    · cases h
    · rename_i hnone
      have hroot {place : Place} (hnone : t.entry? place = none) : place ≠ [] := by
        rintro rfl
        cases hnone
      have hmade : Tree.entry? (t.set (if part == ".." then place.dropLast else place ++ [part]) .directory)
          (if part == ".." then place.dropLast else place ++ [part]) = some .directory := by
        rw [entry?_set (hroot hnone), if_pos rfl]
      have hthere := hv.directory _ ((makeFrom_wrote h).grows.directory _ hmade)
      rw [hthere]
      exact ih h

theorem makeDirectories_again (h : t.makeDirectories p = .ok u) (hv : u.Grows v) :
    v.makeDirectories p = .ok v := by
  unfold makeDirectories at h ⊢
  split at h
  · cases h
  · rename_i hlong
    rw [if_neg hlong]
    exact makeFrom_again h hv

theorem write_wrote (h : t.write p b = .ok u) :
    ∃ place, t.locate p = .ok place ∧ Wrote [(place, b)] t u := by
  unfold write at h
  dsimp only at h
  split at h
  · cases h
  · rename_i place hplace
    have hroot : place ≠ [] := by
      rintro rfl
      rw [entry?_root] at h
      cases h
    refine ⟨place, hplace, ?_⟩
    split at h
    · cases h
    · rename_i b' hfile
      cases h
      exact wrote_file hroot (by rw [hfile]; nofun)
    · rename_i hnone hparent
      cases h
      exact wrote_file hroot (by rw [hnone]; nofun)
    · cases h
    · cases h

theorem writeText_wrote (h : t.writeText p text = .ok u) : ∃ s, text = some s ∧
    ∃ place, t.locate p = .ok place ∧ Wrote [(place, Text.encodeUtf8 s.toList)] t u := by
  cases text with
  | some s => exact ⟨s, rfl, write_wrote (mapError_eq_ok.mp h)⟩
  | none =>
    obtain ⟨left, -, h⟩ := bind_eq_ok.mp h
    cases h

theorem writeText_left {left : Tree} (h : t.writeText p text = .error (.unencodable left)) :
    ∃ place, t.locate p = .ok place ∧ Wrote [(place, [])] t left := by
  cases text with
  | some s =>
    obtain ⟨e, -, h⟩ := mapError_eq_error.mp h
    cases h
  | none =>
    rw [writeText] at h
    cases hwrite : t.write p [] with
    | ok u =>
      rw [hwrite] at h
      cases h
      exact write_wrote hwrite
    | error e =>
      rw [hwrite] at h
      cases h

/-- What was stored: the text is at the place of the path, and nothing else is written. -/
theorem store_wrote (h : t.store p text = .ok u) : ∃ s, text = some s ∧
    ∃ place, u.locate p = .ok place ∧ Wrote [(place, Text.encodeUtf8 s.toList)] t u := by
  obtain ⟨made, hmade, h⟩ := bind_eq_ok.mp h
  obtain ⟨s, hs, place, hplace, hwrote⟩ := writeText_wrote h
  exact ⟨s, hs, place, locate_ok_of_grows hwrote.grows hplace,
    (makeDirectories_wrote (mapError_eq_ok.mp hmade)).trans hwrote⟩

theorem store_left {left : Tree} (h : t.store p text = .error (.unencodable left)) :
    ∃ place, left.locate p = .ok place ∧ Wrote [(place, [])] t left := by
  unfold store at h
  cases hmade : t.makeDirectories p.parent with
  | error e =>
    rw [hmade] at h
    cases h
  | ok made =>
    rw [hmade] at h
    obtain ⟨place, hplace, hwrote⟩ := writeText_left h
    exact ⟨place, locate_ok_of_grows hwrote.grows hplace, (makeDirectories_wrote hmade).trans hwrote⟩

/-! ### Reading -/

theorem read_eq_ok : t.read p = .ok b ↔ ∃ place, t.locate p = .ok place ∧
    t.entry? place = some (.file b) := by
  unfold read
  cases hplace : t.locate p with
  | error f => simp
  | ok place =>
    cases hentry : t.entry? place with
    | none => simp [hentry]
    | some e => cases e <;> simp [hentry]

/-! ### Searching -/

theorem find?_eq_some : t.find? p = .ok (some e) ↔
    p.fault? = none ∧ ∃ place, t.locate p = .ok place ∧ t.entry? place = some e := by
  unfold find?
  cases p.fault? with
  | some f => simp
  | none =>
    cases t.locate p with
    | ok place => simp
    | error f => cases f <;> simp

theorem find?_eq_error {x : FileError} : t.find? p = .error x ↔
    p.fault? = none ∧ t.locate p = .error .nameTooLong ∧ x = ⟨.nameTooLong, p.toString⟩ := by
  unfold find?
  cases p.fault? with
  | some f => simp
  | none =>
    cases t.locate p with
    | ok place => simp
    | error f => cases f <;> simp [eq_comm]

/-- What is there stays there. -/
theorem Grows.find?_some (h : t.Grows u) (ht : t.find? p = .ok (some e)) :
    ∃ e', u.find? p = .ok (some e') := by
  obtain ⟨hfault, place, hplace, he⟩ := find?_eq_some.mp ht
  have hplace' := locate_ok_of_grows h hplace
  cases e with
  | directory => exact ⟨_, find?_eq_some.mpr ⟨hfault, place, hplace', h.directory place he⟩⟩
  | file b =>
    obtain ⟨b', hb'⟩ := h.file place b he
    exact ⟨_, find?_eq_some.mpr ⟨hfault, place, hplace', hb'⟩⟩

theorem Grows.find?_error {x : FileError} (h : t.Grows u) (ht : t.find? p = .error x) :
    u.find? p = .error x := by
  obtain ⟨hfault, hplace, rfl⟩ := find?_eq_error.mp ht
  exact find?_eq_error.mpr ⟨hfault, locate_of_grows h hplace nofun, rfl⟩

/-- What is not there was not there before. -/
theorem Grows.find?_none (h : t.Grows u) (hu : u.find? p = .ok none) : t.find? p = .ok none := by
  cases ht : t.find? p with
  | error x => cases (h.find?_error ht).symm.trans hu
  | ok found =>
    cases found with
    | none => rfl
    | some e =>
      obtain ⟨e', he'⟩ := h.find?_some ht
      cases he'.symm.trans hu

theorem has_of_find? (h : u.find? p = t.find? p) : u.has p = t.has p := by rw [has, h, has]

/-- What is found alike is read alike. -/
theorem read_of_find? (h : u.find? p = t.find? p) (hthere : t.has p = .ok true) : u.read p = t.read p := by
  cases ht : t.find? p with
  | error x =>
    rw [has, ht] at hthere
    cases hthere
  | ok found =>
    cases found with
    | none =>
      rw [has, ht] at hthere
      cases hthere
    | some e =>
      obtain ⟨-, place, hplace, he⟩ := find?_eq_some.mp ht
      obtain ⟨-, place', hplace', he'⟩ := find?_eq_some.mp (h.trans ht)
      unfold read
      rw [hplace, hplace']
      simp only [he, he']

/-- What is read is there. -/
theorem has_of_read (hp : p.fault? = none) (h : t.read p = .ok b) : t.has p = .ok true := by
  obtain ⟨place, hplace, hfile⟩ := read_eq_ok.mp h
  rw [has, find?, hp, hplace]
  simp only [hfile]
  rfl

/-! ### Places that were touched -/

theorem Touched.refl (places : List Place) (t : Tree) : Touched places t t := ⟨[], nofun, .refl t⟩

theorem Touched.trans (h : Touched places t u) (h' : Touched places u v) : Touched places t v := by
  obtain ⟨writes, hwrites, hw⟩ := h
  obtain ⟨more, hmore, hm⟩ := h'
  refine ⟨more ++ writes, fun w hw => ?_, hw.trans hm⟩
  rcases List.mem_append.mp hw with hw | hw
  · exact hmore w hw
  · exact hwrites w hw

theorem Touched.mono (h : Touched places t u) (hsub : ∀ place ∈ places, place ∈ morePlaces) :
    Touched morePlaces t u := by
  obtain ⟨writes, hwrites, hw⟩ := h
  exact ⟨writes, fun w hw => hsub _ (hwrites w hw), hw⟩

theorem Touched.grows (h : Touched places t u) : t.Grows u := by
  obtain ⟨_, _, hw⟩ := h
  exact hw.grows

/-- A file at another place is left alone. -/
theorem Touched.file (h : Touched places t u) (hplace : place ∉ places)
    (hfile : t.entry? place = some (.file b)) : u.entry? place = some (.file b) := by
  obtain ⟨writes, hwrites, hw⟩ := h
  have hnone : writes.lookup place = none := by
    rw [List.lookup_eq_none_iff]
    intro w hw
    have hne : place ≠ w.1 := fun heq => hplace (heq ▸ hwrites w hw)
    simpa using hne
  rcases hw.kept place hnone with hu | ⟨ht, -⟩
  · rw [hu, hfile]
  · rw [hfile] at ht
    cases ht

/-- No file came to be at another place. -/
theorem Touched.file_before (h : Touched places t u) (hplace : place ∉ places)
    (hfile : u.entry? place = some (.file b)) : t.entry? place = some (.file b) := by
  obtain ⟨writes, hwrites, hw⟩ := h
  have hnone : writes.lookup place = none := by
    rw [List.lookup_eq_none_iff]
    intro w hw
    have hne : place ≠ w.1 := fun heq => hplace (heq ▸ hwrites w hw)
    simpa using hne
  rcases hw.kept place hnone with hu | ⟨-, hu⟩
  · rw [← hu, hfile]
  · rw [hfile] at hu
    cases hu

theorem Wrote.touched (h : Wrote [(place, b)] t u) : Touched [place] t u :=
  ⟨_, by simp, h⟩

theorem Rooted.parent (h : t.Rooted) {e : Entry} (hroot : place ≠ []) (he : t.entry? place = some e) :
    t.entry? place.dropLast = some .directory := by
  unfold entry? at he
  rw [if_neg (by simpa using hroot)] at he
  obtain ⟨before, after, hentries, -⟩ := List.lookup_eq_some_iff.mp he
  exact h (place, e) (by simp [hentries])

theorem Rooted.directory (h : t.Rooted) {parts : List String} (hparts : parts ≠ []) {e : Entry}
    (he : t.entry? (place ++ parts) = some e) : t.entry? place = some .directory := by
  induction parts using List.reverseRecOn generalizing e with
  | nil => exact absurd rfl hparts
  | append_singleton front last ih =>
    have hparent := h.parent (by simp) he
    rw [← List.append_assoc, List.dropLast_concat] at hparent
    cases front with
    | nil => simpa using hparent
    | cons part front => exact ih (by simp) hparent

/-- Where something is stored, a path that is no longer than allowed leads. -/
theorem Rooted.walk (h : t.Rooted) {parts : List String} (hup : ".." ∉ parts) {e : Entry}
    (he : t.entry? (place ++ parts) = some e) (hu : u.walk place parts = .ok (place ++ parts)) :
    t.walk place parts = .ok (place ++ parts) := by
  induction parts generalizing place with
  | nil => simp [Tree.walk]
  | cons part rest ih =>
    simp only [List.mem_cons, not_or] at hup
    rw [Tree.walk] at hu ⊢
    rw [h.directory (by simp) he]
    dsimp only
    split at hu
    · cases hu
    · cases hu
    · split at hu
      · cases hu
      · rename_i hlong
        rw [if_neg (by simpa using Ne.symm hup.1)] at hu
        rw [if_neg hlong, if_neg (by simpa using Ne.symm hup.1)]
        have hsplit : place ++ part :: rest = (place ++ [part]) ++ rest := by simp
        rw [hsplit] at he hu ⊢
        exact ih hup.2 he hu

theorem Touched.read (h : Touched places t u) (hp : p.Resolved) (hplace : p.parts ∉ places)
    (hread : t.read p = .ok b) : u.read p = .ok b := by
  obtain ⟨place, hlocate, hfile⟩ := read_eq_ok.mp hread
  obtain rfl := locate_resolved hp hlocate
  exact read_eq_ok.mpr ⟨_, locate_ok_of_grows h.grows hlocate, h.file hplace hfile⟩

/-- What is read elsewhere is read as before. -/
theorem Touched.read_iff (h : Touched places t u) (ht : t.Rooted) (hp : p.Resolved)
    (hplace : p.parts ∉ places) : u.read p = .ok b ↔ t.read p = .ok b := by
  refine ⟨fun hread => ?_, h.read hp hplace⟩
  obtain ⟨place, hlocate, hfile⟩ := read_eq_ok.mp hread
  obtain rfl := locate_resolved hp hlocate
  have hbefore := h.file_before hplace hfile
  refine read_eq_ok.mpr ⟨_, ?_, hbefore⟩
  unfold locate at hlocate ⊢
  split at hlocate
  · cases hlocate
  · rename_i hlong
    rw [if_neg hlong]
    have hthere : t.entry? ([] ++ p.parts) = some (.file b) := hbefore
    exact ht.walk hp.upless hthere hlocate

/-- What was stored is read. -/
theorem store_read (h : t.store p (some s) = .ok u) : u.read p = .ok (Text.encodeUtf8 s.toList) := by
  obtain ⟨_, ⟨⟩, place, hplace, hw⟩ := store_wrote h
  exact read_eq_ok.mpr ⟨place, hplace, hw.written place _ List.lookup_cons_self⟩

theorem store_wrote_parts (hp : p.Resolved) (h : t.store p text = .ok u) :
    ∃ s, text = some s ∧ Wrote [(p.parts, Text.encodeUtf8 s.toList)] t u := by
  obtain ⟨s, hs, place, hplace, hw⟩ := store_wrote h
  rw [locate_resolved hp hplace] at hw
  exact ⟨s, hs, hw⟩

theorem store_touched (hp : p.Resolved) (h : t.store p text = .ok u) : Touched [p.parts] t u := by
  obtain ⟨s, -, hw⟩ := store_wrote_parts hp h
  exact hw.touched

theorem store_left_touched (hp : p.Resolved) {left : Tree}
    (h : t.store p text = .error (.unencodable left)) : Touched [p.parts] t left := by
  obtain ⟨place, hplace, hw⟩ := store_left h
  rw [locate_resolved hp hplace] at hw
  exact hw.touched

/-! ### Storing again -/

/-- A file is at a path, in directories that are there. -/
structure Stored (t : Tree) (p : Path) : Prop where
  directories : t.makeDirectories p.parent = .ok t
  located : t.locate p = .ok p.parts
  file : ∃ b, t.entry? p.parts = some (.file b)

theorem Stored.grows (h : t.Stored p) (hu : t.Grows u) : u.Stored p where
  directories := makeDirectories_again h.directories hu
  located := locate_ok_of_grows hu h.located
  file := by
    obtain ⟨b, hb⟩ := h.file
    exact hu.file _ b hb

theorem stored_of_store (hp : p.Resolved) (h : t.store p text = .ok u) : u.Stored p := by
  obtain ⟨made, hmade, hwrite⟩ := bind_eq_ok.mp h
  obtain ⟨s, -, place, hplace, hw⟩ := writeText_wrote hwrite
  obtain rfl := locate_resolved hp hplace
  exact {
    directories := makeDirectories_again (mapError_eq_ok.mp hmade) hw.grows
    located := locate_ok_of_grows hw.grows hplace
    file := ⟨_, hw.written _ _ List.lookup_cons_self⟩ }

theorem Stored.filled (h : t.Stored p) : p.parts ≠ [] := by
  obtain ⟨b, hb⟩ := h.file
  rintro hroot
  rw [hroot, entry?_root] at hb
  cases hb

theorem Stored.wrote (h : t.Stored p) : Wrote [(p.parts, b)] t (t.set p.parts (.file b)) := by
  obtain ⟨b', hb'⟩ := h.file
  exact wrote_file h.filled (by rw [hb']; nofun)

theorem Stored.read_iff (h : t.Stored p) : t.read p = .ok b ↔ t.entry? p.parts = some (.file b) := by
  rw [read_eq_ok, h.located]
  simp

/-- What is stored can be stored again, and then nothing else changes. -/
theorem Stored.store (h : t.Stored p) (s : String) :
    t.store p (some s) = .ok (t.set p.parts (.file (Text.encodeUtf8 s.toList))) := by
  obtain ⟨b, hfile⟩ := h.file
  have hwrite : t.write p (Text.encodeUtf8 s.toList) =
      .ok (t.set p.parts (.file (Text.encodeUtf8 s.toList))) := by
    unfold write
    rw [h.located]
    simp only [hfile]
  refine bind_eq_ok.mpr ⟨t, ?_, ?_⟩
  · rw [h.directories]
    rfl
  · rw [writeText, hwrite]
    rfl

end

end Tree

end Highlighter.Files

import Highlighter.Config.Loading

/-! The paths that a configuration gives. They are resolved: they start at the root and have neither
double dots nor parts that no file can be named by. -/

namespace Highlighter.Files

/-- A text that can be a part of a path: it is neither empty nor a single dot, and has no slash. -/
structure IsPart (part : String) : Prop where
  filled : part ≠ ""
  dotless : part ≠ "."
  slashless : '/' ∉ part.toList

/-- A computation in steps gives a value if both steps do. -/
theorem bind_eq_ok {ε α β : Type} {x : Except ε α} {f : α → Except ε β} {b : β} :
    x >>= f = .ok b ↔ ∃ a, x = .ok a ∧ f a = .ok b := by
  cases x with
  | error e => exact ⟨nofun, nofun⟩
  | ok a => exact ⟨fun h => ⟨a, rfl, h⟩, by rintro ⟨_, ⟨⟩, h⟩; exact h⟩

theorem mapError_eq_ok {ε δ α : Type} {f : ε → δ} {x : Except ε α} {a : α} :
    x.mapError f = .ok a ↔ x = .ok a := by
  cases x with
  | error e => exact ⟨nofun, nofun⟩
  | ok b => exact ⟨fun h => by cases h; rfl, fun h => by cases h; rfl⟩

/-- A computation in steps fails if the first step does, or the second on what the first gave. -/
theorem bind_eq_error {ε α β : Type} {x : Except ε α} {f : α → Except ε β} {e : ε} :
    x >>= f = .error e ↔ x = .error e ∨ ∃ a, x = .ok a ∧ f a = .error e := by
  cases x with
  | error e' =>
    constructor
    · intro h
      cases h
      exact .inl rfl
    · rintro (h | ⟨_, h, _⟩)
      · cases h
        rfl
      · cases h
  | ok a =>
    constructor
    · intro h
      exact .inr ⟨a, rfl, h⟩
    · rintro (h | ⟨_, ⟨⟩, h⟩)
      · cases h
      · exact h

theorem mapError_eq_error {ε δ α : Type} {f : ε → δ} {x : Except ε α} {e : δ} :
    x.mapError f = .error e ↔ ∃ e', x = .error e' ∧ f e' = e := by
  cases x with
  | error e' => exact ⟨fun h => ⟨e', rfl, by cases h; rfl⟩, by rintro ⟨_, ⟨⟩, rfl⟩; rfl⟩
  | ok a => exact ⟨nofun, by rintro ⟨_, h, _⟩; cases h⟩

/-- Every value of a list that was made item by item was made of an item. -/
theorem exists_of_mapM {ε α β : Type} {f : α → Except ε β} {xs : List α} {ys : List β} {y : β}
    (h : xs.mapM f = .ok ys) (hy : y ∈ ys) : ∃ x ∈ xs, f x = .ok y := by
  induction xs generalizing ys with
  | nil =>
    rw [List.mapM_nil] at h
    cases h
    cases hy
  | cons x xs ih =>
    rw [List.mapM_cons, bind_eq_ok] at h
    obtain ⟨z, hz, h⟩ := h
    obtain ⟨zs, hzs, h⟩ := bind_eq_ok.mp h
    cases h
    rcases List.mem_cons.mp hy with rfl | hy
    · exact ⟨x, List.mem_cons_self, hz⟩
    · obtain ⟨w, hw, hf⟩ := ih hzs hy
      exact ⟨w, List.mem_cons_of_mem _ hw, hf⟩

/-! ### Names in a text -/

section
variable {α : Type} [BEq α] [LawfulBEq α] {slash dot x : α} {s name : List α}

/-- The pieces of a text hold its items, except for the one between them. -/
theorem exists_mem_splitOn (hx : x ≠ slash) : (∃ piece ∈ s.splitOn slash, x ∈ piece) ↔ x ∈ s := by
  induction s with
  | nil => simp
  | cons c rest ih =>
    obtain ⟨first, others, hpieces⟩ := List.exists_cons_of_ne_nil (List.splitOn_ne_nil slash rest)
    rw [hpieces] at ih
    rw [List.splitOn_cons_eq_if_modifyHead, hpieces, List.mem_cons, ← ih]
    split
    · rename_i hc
      have hne : x ≠ c := fun h => hx (h.trans (by simpa using hc))
      simp [hne]
    · simp [or_assoc]

theorem not_mem_splitOn {piece : List α} (h : piece ∈ s.splitOn slash) : slash ∉ piece := by
  induction s generalizing piece with
  | nil =>
    rw [List.splitOn_nil, List.mem_singleton] at h
    simp [h]
  | cons c rest ih =>
    obtain ⟨first, others, hpieces⟩ := List.exists_cons_of_ne_nil (List.splitOn_ne_nil slash rest)
    rw [hpieces] at ih
    rw [List.splitOn_cons_eq_if_modifyHead, hpieces] at h
    split at h
    · rcases List.mem_cons.mp h with rfl | h
      · simp
      · exact ih h
    · rename_i hc
      rcases List.mem_cons.mp h with rfl | h
      · simp only [List.mem_cons, not_or]
        exact ⟨fun heq => hc (by simp [← heq]), ih List.mem_cons_self⟩
      · exact ih (List.mem_cons_of_mem _ h)

theorem mem_namesIn : name ∈ namesIn slash dot s ↔ name ∈ s.splitOn slash ∧ name ≠ [] ∧ name ≠ [dot] := by
  simp [namesIn]

theorem not_mem_namesIn (h : name ∈ namesIn slash dot s) : slash ∉ name := not_mem_splitOn (mem_namesIn.mp h).1

/-- What the names of a text hold. -/
theorem exists_mem_namesIn (hslash : x ≠ slash) (hdot : x ≠ dot) :
    (∃ name ∈ namesIn slash dot s, x ∈ name) ↔ x ∈ s := by
  rw [← exists_mem_splitOn hslash]
  constructor
  · rintro ⟨name, hname, hx⟩
    exact ⟨name, (mem_namesIn.mp hname).1, hx⟩
  · rintro ⟨piece, hpiece, hx⟩
    refine ⟨piece, mem_namesIn.mpr ⟨hpiece, ?_, ?_⟩, hx⟩
    · rintro rfl
      cases hx
    · rintro rfl
      exact hdot (List.mem_singleton.mp hx)

theorem rootOf_of_not_mem (h : slash ∉ s) : rootOf slash s = "" := by
  have hnone : s.takeWhile (· == slash) = [] := by
    cases s with
    | nil => rfl
    | cons c rest =>
      rw [List.mem_cons, not_or] at h
      exact List.takeWhile_cons_of_neg (by simpa using Ne.symm h.1)
  rw [rootOf, hnone]
  rfl

theorem namesIn_of_not_mem (h : slash ∉ s) (hs : s ≠ []) (hdot : s ≠ [dot]) : namesIn slash dot s = [s] := by
  rw [namesIn, List.splitOn_eq_singleton h]
  simp [hs, hdot]

theorem mem_resolveOnto {up part : α} {done parts : List α} (h : part ∈ resolveOnto up done parts) :
    part ∈ done ∨ part ∈ parts ∧ part ≠ up := by
  induction parts generalizing done with
  | nil => exact .inl h
  | cons first rest ih =>
    rw [resolveOnto] at h
    rcases ih h with h | ⟨h, hup⟩
    · split at h
      · exact .inl (List.mem_of_mem_drop h)
      · rename_i hfirst
        rcases List.mem_cons.mp h with rfl | h
        · exact .inr ⟨List.mem_cons_self, by simpa using hfirst⟩
        · exact .inl h
    · exact .inr ⟨List.mem_cons_of_mem _ h, hup⟩

end

namespace Path

/-- All that a path read from a text is. -/
def Proper (p : Path) : Prop := ∀ part ∈ p.parts, IsPart part

structure Resolved (p : Path) : Prop where
  root : p.root = "/"
  proper : p.Proper
  upless : ".." ∉ p.parts
  faultless : p.fault? = none

section
variable {p q base : Path} {part name : String}

/-! ### Paths from texts -/

theorem proper_ofString (s : String) : (ofString s).Proper := by
  intro part h
  obtain ⟨piece, hpiece, rfl⟩ := List.mem_map.mp h
  obtain ⟨-, hfilled, hdotless⟩ := mem_namesIn.mp hpiece
  refine ⟨fun h => hfilled ?_, fun h => hdotless ?_, ?_⟩
  · simpa using congrArg String.toList h
  · simpa using congrArg String.toList h
  · rw [String.toList_ofList]
    exact not_mem_namesIn hpiece

theorem ofString_of_isPart (h : IsPart name) : ofString name = ⟨"", [name]⟩ := by
  have hnonempty : name.toList ≠ [] := fun heq => h.filled (String.toList_eq_nil_iff.mp heq)
  have hdot : name.toList ≠ ['.'] := fun heq => h.dotless (by
    rw [← String.ofList_toList (s := name), heq])
  rw [ofString, rootOf_of_not_mem h.slashless, namesIn_of_not_mem h.slashless hnonempty hdot]
  simp

/-- A part is added at the end. -/
theorem child_of_isPart (h : IsPart name) (p : Path) :
    p.child name = { p with parts := p.parts ++ [name] } := by
  rw [child, ofString_of_isPart h]
  rfl

/-! ### Resolving -/

theorem fault?_eq_none : p.fault? = none ↔ ∀ part ∈ p.parts, '\x00' ∉ part.toList := by
  simp [fault?]

theorem resolved_of_resolve (hbase : base.Proper) (hp : p.Proper) (h : resolve base p = .ok q) :
    q.Resolved := by
  unfold resolve at h
  dsimp only at h
  split at h
  · cases h
  · rename_i hfault
    cases h
    rw [fault?_eq_none] at hfault
    have hfull : (base.join p).Proper := by
      unfold join
      split
      · exact hp
      · intro part hpart
        rcases List.mem_append.mp hpart with hpart | hpart
        · exact hbase part hpart
        · exact hp part hpart
    have hmem {part : String} (hpart : part ∈ (resolveOnto ".." [] (base.join p).parts).reverse) :
        part ∈ (base.join p).parts ∧ part ≠ ".." := by
      rcases mem_resolveOnto (List.mem_reverse.mp hpart) with h | h
      · cases h
      · exact h
    exact {
      root := rfl
      proper := fun part hpart => hfull part (hmem hpart).1
      upless := fun h => (hmem h).2 rfl
      faultless := fault?_eq_none.mpr fun part hpart => hfault part (hmem hpart).1 }

/-! ### Paths that no file can have -/

theorem fault?_ofString {s : String} : (ofString s).fault? = none ↔ '\x00' ∉ s.toList := by
  rw [fault?_eq_none, ← exists_mem_namesIn (by decide : '\x00' ≠ '/') (by decide : '\x00' ≠ '.')]
  simp [ofString]

theorem resolve_eq_error {f : PathFault} : resolve base p = .error f ↔ (base.join p).fault? = some f := by
  unfold resolve
  dsimp only
  split
  · rename_i hfault
    simp [hfault]
  · rename_i hfault
    simp [hfault]

/-- What a path leads to can be the path of a file. -/
theorem faultless_of_resolve (h : resolve base p = .ok q) : q.fault? = none := by
  unfold resolve at h
  dsimp only at h
  split at h
  · cases h
  · rename_i hfault
    cases h
    rw [fault?_eq_none] at hfault ⊢
    intro part hpart
    rcases mem_resolveOnto (List.mem_reverse.mp hpart) with h | ⟨h, -⟩
    · cases h
    · exact hfault part h

theorem faultless_parent (h : p.fault? = none) : p.parent.fault? = none := by
  rw [fault?_eq_none] at h ⊢
  exact fun part hpart => h part (List.dropLast_subset _ hpart)

theorem fault?_join (hbase : base.fault? = none) : (base.join p).fault? = none ↔ p.fault? = none := by
  rw [fault?_eq_none] at hbase
  rw [fault?_eq_none, fault?_eq_none]
  unfold join
  split
  · exact Iff.rfl
  · simp only [List.mem_append]
    exact ⟨fun h part hpart => h part (.inr hpart), fun h part hpart => hpart.elim (hbase part) (h part)⟩

/-- A text leads to no file exactly if it holds the character that ends a path. -/
theorem resolve_ofString_error_iff {s : String} (hbase : base.fault? = none) :
    (∃ f, resolve base (ofString s) = .error f) ↔ '\x00' ∈ s.toList := by
  rw [← Decidable.not_not (p := '\x00' ∈ s.toList), ← fault?_ofString, ← fault?_join hbase]
  simp only [resolve_eq_error]
  exact Option.ne_none_iff_exists'.symm

theorem Resolved.ext (hp : p.Resolved) (hq : q.Resolved) (h : p.parts = q.parts) : p = q := by
  obtain ⟨root, parts⟩ := p
  obtain ⟨root', parts'⟩ := q
  cases hp.root.trans hq.root.symm
  cases h
  rfl

theorem Resolved.parent (h : p.Resolved) : p.parent.Resolved where
  root := h.root
  proper part hpart := h.proper part (List.dropLast_subset _ hpart)
  upless hpart := h.upless (List.dropLast_subset _ hpart)
  faultless := fault?_eq_none.mpr fun part hpart =>
    fault?_eq_none.mp h.faultless part (List.dropLast_subset _ hpart)

theorem Resolved.child (h : p.Resolved) (hname : IsPart name) (hup : name ≠ "..")
    (hfault : '\x00' ∉ name.toList) : (p.child name).Resolved := by
  rw [child_of_isPart hname]
  have hmem {P : String → Prop} (hp : ∀ part ∈ p.parts, P part) (hn : P name) :
      ∀ part ∈ p.parts ++ [name], P part := by
    intro part hpart
    rcases List.mem_append.mp hpart with hpart | hpart
    · exact hp part hpart
    · rw [List.mem_singleton.mp hpart]
      exact hn
  exact {
    root := h.root
    proper := hmem h.proper hname
    upless := fun hmem => by
      rcases List.mem_append.mp hmem with hpart | hpart
      · exact h.upless hpart
      · exact hup (List.mem_singleton.mp hpart).symm
    faultless := fault?_eq_none.mpr (hmem (fault?_eq_none.mp h.faultless) hfault) }

end

end Path

end Highlighter.Files

namespace Highlighter.Config

open Highlighter.Files (IsPart Path)

variable {file cwd path : Path} {m : Config.Model} {c : Config} {tree : Files.Tree}

/-- The paths of a configuration that a run works on. -/
structure PathsResolved (c : Config) : Prop where
  files : ∀ f ∈ c.files, f.Resolved
  outDir : c.outDir.Resolved
  snapshotDir : c.snapshotDir.Resolved

theorem ofModel_resolved (hfile : file.Resolved) (h : ofModel file m = .ok c) : c.PathsResolved := by
  have hplace {s : String} {p : Path} (hp : Path.resolve file.parent (.ofString s) = .ok p) : p.Resolved :=
    Path.resolved_of_resolve hfile.parent.proper (Path.proper_ofString s) hp
  have hout : (file.parent.child "out").Resolved :=
    hfile.parent.child ⟨by decide, by decide, by decide⟩ (by decide) (by decide)
  have hsnapshots : (file.parent.child "snapshots").Resolved :=
    hfile.parent.child ⟨by decide, by decide, by decide⟩ (by decide) (by decide)
  unfold ofModel at h
  simp only [Files.bind_eq_ok] at h
  obtain ⟨grammar, -, extras, -, files, hfiles, outDir, houtDir, snapshotDir, hsnapshotDir, h⟩ := h
  cases h
  refine ⟨fun f hf => ?_, ?_, ?_⟩
  · obtain ⟨s, -, hs⟩ := Files.exists_of_mapM hfiles hf
    exact hplace hs
  · split at houtDir
    · exact hplace houtDir
    · cases houtDir
      exact hout
  · split at hsnapshotDir
    · exact hplace hsnapshotDir
    · cases hsnapshotDir
      exact hsnapshots

theorem load_resolved (hcwd : cwd.Proper) (hpath : path.Proper) (h : load tree cwd path = .ok c) :
    c.PathsResolved := by
  unfold load at h
  obtain ⟨file, hfile, h⟩ := Files.bind_eq_ok.mp h
  obtain ⟨text, -, h⟩ := Files.bind_eq_ok.mp h
  have hresolved := Path.resolved_of_resolve hcwd hpath (Files.mapError_eq_ok.mp hfile)
  split at h
  · cases h
  · cases h
  · split at h
    · cases h
    · exact ofModel_resolved hresolved (Files.mapError_eq_ok.mp h)

end Highlighter.Config

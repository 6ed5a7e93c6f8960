import Highlighter.Files.Disk
import Highlighter.Proofs.Files.Paths
import Mathlib.Data.List.Dedup
import Mathlib.Data.List.Forall2
import Mathlib.Data.List.Nodup
import Mathlib.Data.Nat.Digits.Defs

/-! Links followed to their ends. A path from which a file is read or at which a link is found has a text that is
not too long, and of such texts there are so many and no more. So links are followed within each other only up to
that number, and the fuel for it is never used up. -/

namespace Highlighter

open Highlighter.Files (Disk Followed PathFault Route Trail bind_eq_ok greatestPathSize)
open Highlighter.Text (Bytes)

namespace CodePoint

theorem ofCode_code (p : CodePoint) : ofCode p.code = p := by
  cases p with
  | char c => exact ofCode_toNat c
  | lone n => exact ofCode_lone n

theorem code_injective : Function.Injective code :=
  Function.LeftInverse.injective ofCode_code

theorem code_lt (p : CodePoint) : p.code + 1 < 0x200000 := by
  cases p with
  | char c =>
    have hvalid : c.toNat < 0xD800 ∨ 0xDFFF < c.toNat ∧ c.toNat < 0x110000 := c.valid
    simp only [code]
    omega
  | lone n =>
    simp only [code, firstSurrogate]
    omega

theorem nameBytes?_ne_nil {p : CodePoint} {piece : Bytes} (h : p.nameBytes? = some piece) : piece ≠ [] := by
  cases p with
  | char c =>
    cases h
    unfold Text.encodeChar
    dsimp only
    split_ifs <;> simp
  | lone n =>
    rw [nameBytes?, Option.ite_none_right_eq_some] at h
    cases h.2
    simp

end CodePoint

namespace Str

variable {s t : Str} {n : Nat} {bytes : Bytes}

/-- A text as a number. Its digits are the code points, counted from one. -/
def number (s : Str) : Nat := Nat.ofDigits 0x200000 (s.toList.map fun p => p.code + 1)

theorem digit_lt {d : Nat} (h : d ∈ s.toList.map fun p => p.code + 1) : d < 0x200000 := by
  obtain ⟨p, -, rfl⟩ := List.mem_map.mp h
  exact p.code_lt

theorem number_injective : Function.Injective number := by
  have hdigits (s : Str) : Nat.digits 0x200000 s.number = s.toList.map fun p => p.code + 1 := by
    refine Nat.digits_ofDigits _ (by decide) _ (fun d hd => digit_lt hd) (fun hne => ?_)
    obtain ⟨p, -, hp⟩ := List.mem_map.mp (List.getLast_mem hne)
    rw [← hp]
    exact Nat.succ_ne_zero _
  intro s t h
  have hcodes : s.toList.map (fun p => p.code + 1) = t.toList.map fun p => p.code + 1 := by
    rw [← hdigits, ← hdigits, h]
  have hinj : Function.Injective fun p : CodePoint => p.code + 1 :=
    fun p q hpq => CodePoint.code_injective (Nat.succ.inj hpq)
  exact Str.ext (hinj.list_map hcodes)

theorem number_lt (h : s.length ≤ n) : s.number < 0x200000 ^ n := by
  have hlength := Nat.ofDigits_lt_base_pow_length (by decide) fun d hd => digit_lt (s := s) hd
  rw [List.length_map] at hlength
  exact hlength.trans_le (Nat.pow_le_pow_right (by decide) h)

theorem mapM_nameBytes?_eq_some {points : List CodePoint} {pieces : List Bytes} :
    points.mapM CodePoint.nameBytes? = some pieces ↔
      List.Forall₂ (fun p piece => p.nameBytes? = some piece) points pieces := by
  induction points generalizing pieces with
  | nil => simp [eq_comm]
  | cons p points ih =>
    simp only [List.mapM_cons, Option.bind_eq_bind, Option.bind_eq_some_iff, ih, Option.pure_def,
      Option.some.injEq]
    constructor
    · rintro ⟨piece, hpiece, others, hothers, rfl⟩
      exact .cons hpiece hothers
    · rintro (_ | ⟨hpiece, hothers⟩)
      exact ⟨_, hpiece, _, hothers, rfl⟩

/-- The bytes of a name are those of its code points, none of them zero. -/
theorem name_eq_ok : s.name = .ok bytes ↔ ∃ pieces,
    List.Forall₂ (fun p piece => p.nameBytes? = some piece) s.toList pieces ∧ 0 ∉ pieces.flatten ∧
      bytes = pieces.flatten := by
  simp only [← mapM_nameBytes?_eq_some]
  unfold name
  split
  · rename_i hnone
    simp [hnone]
  · rename_i pieces hpieces
    simp only [hpieces, Option.some.injEq, exists_eq_left']
    split
    · rename_i hzero
      simp only [List.contains_iff_mem] at hzero
      simp [hzero]
    · rename_i hzero
      simp only [List.contains_iff_mem] at hzero
      rw [Except.ok.injEq]
      exact ⟨fun h => ⟨hzero, h.symm⟩, fun h => h.2.symm⟩

/-- Every code point takes a byte at least. -/
theorem length_le_of_name (h : s.name = .ok bytes) : s.length ≤ bytes.length := by
  obtain ⟨pieces, hpieces, -, rfl⟩ := name_eq_ok.mp h
  rw [length]
  clear h
  generalize s.toList = points at hpieces ⊢
  induction hpieces with
  | nil => exact Nat.zero_le _
  | cons hpiece hpieces ih =>
    have hfilled := List.length_pos_iff.mpr (CodePoint.nameBytes?_ne_nil hpiece)
    rw [List.flatten_cons, List.length_append, List.length_cons]
    omega

theorem pow_lt_nameBound (n : Nat) : 0x200000 ^ n < Nat.pow 2 (21 * (n + 1)) := by
  have hpow : Nat.pow 2 (21 * (n + 1)) = 0x200000 ^ (n + 1) := Nat.pow_mul 2 21 (n + 1)
  rw [hpow]
  exact Nat.pow_lt_pow_right (by decide) (Nat.lt_succ_self n)

/-- There are fewer texts that are not too long than the fuel allows for. -/
theorem length_lt_nameBound {texts : List Str} (hnodup : texts.Nodup)
    (hshort : ∀ s ∈ texts, s.length ≤ greatestPathSize) : texts.length < Disk.nameBound := by
  have hsub : texts.map number ⊆ List.range (0x200000 ^ greatestPathSize) := by
    intro n hn
    obtain ⟨s, hs, rfl⟩ := List.mem_map.mp hn
    exact List.mem_range.mpr (number_lt (hshort s hs))
  have hlength := (hnodup.map number_injective).length_le_of_subset hsub
  rw [List.length_map, List.length_range] at hlength
  have hbound := pow_lt_nameBound greatestPathSize
  unfold Disk.nameBound
  exact hlength.trans_lt hbound

end Str

namespace Files

/-- A text that can be a name in a path: it is neither empty nor a single dot, and has no slash. -/
structure IsName (name : List CodePoint) : Prop where
  filled : name ≠ []
  dotless : name ≠ [.char '.']
  slashless : .char '/' ∉ name

namespace Route

/-- All that a path read from a text is. -/
structure Proper (r : Route) : Prop where
  root : r.root = "" ∨ r.root = "/" ∨ r.root = "//"
  names : ∀ part ∈ r.parts, IsName part.toList

variable {r s : Route} {name : List CodePoint}

theorem rootOf_cases {α : Type} [BEq α] (slash : α) (text : List α) :
    rootOf slash text = "" ∨ rootOf slash text = "/" ∨ rootOf slash text = "//" := by
  unfold rootOf
  split <;> simp

theorem isName_of_mem_namesIn {text : List CodePoint} (h : name ∈ namesIn (.char '/') (.char '.') text) :
    IsName name := by
  obtain ⟨hpiece, hfilled, hdotless⟩ := mem_namesIn.mp h
  exact ⟨hfilled, hdotless, not_mem_splitOn hpiece⟩

theorem namesIn_slash (text : List CodePoint) :
    namesIn (.char '/') (.char '.') (.char '/' :: text) = namesIn (.char '/') (.char '.') text := by
  simp [namesIn, List.splitOn_cons_eq_if_modifyHead]

/-- Names are read back where slashes part them. -/
theorem namesIn_intercalate {names : List (List CodePoint)} (h : ∀ name ∈ names, IsName name) :
    namesIn (.char '/') (.char '.') ([CodePoint.char '/'].intercalate names) = names := by
  by_cases hnil : names = []
  · rw [hnil]
    rfl
  · rw [namesIn, List.splitOn_intercalate _ (fun name hname => (h name hname).slashless) hnil]
    refine List.filter_eq_self.mpr fun name hname => ?_
    simp [(h name hname).filled, (h name hname).dotless]

theorem takeWhile_intercalate {names : List (List CodePoint)} (h : ∀ name ∈ names, IsName name) :
    ([CodePoint.char '/'].intercalate names).takeWhile (· == .char '/') = [] := by
  cases names with
  | nil => rfl
  | cons first rest =>
    obtain ⟨hfilled, -, hslashless⟩ := h first List.mem_cons_self
    obtain ⟨p, points, rfl⟩ := List.exists_cons_of_ne_nil hfilled
    rw [List.mem_cons, not_or] at hslashless
    have hp : ¬ (p == CodePoint.char '/') = true := by simpa using Ne.symm hslashless.1
    cases rest with
    | nil =>
      rw [List.intercalate_singleton]
      exact List.takeWhile_cons_of_neg hp
    | cons second rest =>
      rw [List.intercalate_cons_cons]
      exact List.takeWhile_cons_of_neg hp

/-- A path is read back from its text. -/
theorem Proper.ofStr_text (h : r.Proper) : ofStr r.text = r := by
  obtain ⟨root, parts⟩ := r
  have hnames : ∀ name ∈ parts.map Str.toList, IsName name := List.forall_mem_map.mpr h.names
  have hback : (parts.map Str.toList).map Str.ofList = parts := by
    rw [List.map_map]
    exact List.map_id parts
  have htext : (text ⟨root, parts⟩).toList =
      root.toList.map .char ++ [CodePoint.char '/'].intercalate (parts.map Str.toList) := rfl
  have hfront := takeWhile_intercalate hnames
  have hrest := namesIn_intercalate hnames
  rw [ofStr, htext, Route.mk.injEq]
  rcases h.root with rfl | rfl | rfl
  · refine ⟨by simp [rootOf, hfront], ?_⟩
    exact (congrArg (List.map Str.ofList) hrest).trans hback
  · refine ⟨by simp [rootOf, hfront], ?_⟩
    exact (congrArg (List.map Str.ofList) ((namesIn_slash _).trans hrest)).trans hback
  · refine ⟨by simp [rootOf, hfront], ?_⟩
    exact (congrArg (List.map Str.ofList)
      ((namesIn_slash _).trans ((namesIn_slash _).trans hrest))).trans hback

theorem text_injective (hr : r.Proper) (hs : s.Proper) (h : r.text = s.text) : r = s := by
  rw [← hr.ofStr_text, h, hs.ofStr_text]

theorem Proper.ofStr_toStr (h : r.Proper) : ofStr r.toStr = r := by
  unfold toStr
  split
  · rename_i hempty
    rw [beq_iff_eq] at hempty
    have hr := h.ofStr_text
    rw [hempty] at hr
    exact hr
  · exact h.ofStr_text

theorem toStr_injective (hr : r.Proper) (hs : s.Proper) (h : r.toStr = s.toStr) : r = s := by
  rw [← hr.ofStr_toStr, h, hs.ofStr_toStr]

theorem isName_up : IsName (".." : Str).toList := ⟨by decide, by decide, by decide⟩

theorem Proper.add (h : r.Proper) (hname : IsName name) : (r.add name).Proper := by
  refine ⟨h.root, fun part hpart => ?_⟩
  rcases List.mem_append.mp hpart with hpart | hpart
  · exact h.names part hpart
  · rw [List.mem_singleton.mp hpart]
    exact hname

theorem Proper.up (h : r.Proper) : r.up.Proper := by
  unfold Route.up
  split
  · split
    · exact h
    · refine ⟨h.root, fun part hpart => ?_⟩
      rw [List.mem_singleton.mp hpart]
      exact isName_up
  · rename_i last hlast
    split
    · refine ⟨h.root, fun part hpart => ?_⟩
      rcases List.mem_append.mp hpart with hpart | hpart
      · exact h.names part hpart
      · rw [List.mem_singleton.mp hpart]
        exact h.names last (List.mem_of_getLast? hlast)
    · exact ⟨h.root, fun part hpart => h.names part (List.dropLast_subset _ hpart)⟩

end Route

namespace Trail

/-- A trail holds links whose texts are not too long, and what it says of them are paths. -/
structure Sound (trail : Trail) : Prop where
  link : ∀ x ∈ trail, x.1.Proper ∧ x.1.text.length ≤ greatestPathSize
  found : ∀ x ∈ trail, ∀ route ∈ x.2, route.Proper

/-- How many links are on it. -/
def count (trail : Trail) : Nat := (trail.map (·.1)).dedup.length

variable {trail : Trail} {r found : Route}

theorem sound_nil : Sound [] := ⟨nofun, nofun⟩

theorem Sound.cons (h : Sound trail) {given : Option Route} (hr : r.Proper)
    (hshort : r.text.length ≤ greatestPathSize) (hgiven : ∀ route ∈ given, route.Proper) :
    Sound ((r, given) :: trail) where
  link := List.forall_mem_cons.mpr ⟨⟨hr, hshort⟩, h.link⟩
  found := List.forall_mem_cons.mpr ⟨hgiven, h.found⟩

theorem Sound.count_lt (h : Sound trail) : count trail < Disk.nameBound := by
  have hproper : ∀ r ∈ (trail.map (·.1)).dedup, r.Proper ∧ r.text.length ≤ greatestPathSize := by
    intro r hr
    obtain ⟨x, hx, rfl⟩ := List.mem_map.mp (List.mem_dedup.mp hr)
    exact h.link x hx
  have hnodup : ((trail.map (·.1)).dedup.map Route.text).Nodup := by
    refine List.Nodup.map_on (fun r hr s hs heq => ?_) (List.nodup_dedup _)
    exact Route.text_injective (hproper r hr).1 (hproper s hs).1 heq
  have hlength := Str.length_lt_nameBound hnodup
    (List.forall_mem_map.mpr fun r hr => (hproper r hr).2)
  rwa [List.length_map] at hlength

theorem count_new {given : Option Route} (h : trail.lookup r = none) :
    count ((r, given) :: trail) = count trail + 1 := by
  have hnew : r ∉ trail.map (·.1) := by
    intro hmem
    obtain ⟨x, hx, rfl⟩ := List.mem_map.mp hmem
    simpa using List.lookup_eq_none_iff.mp h x hx
  rw [count, List.map_cons, List.dedup_cons_of_notMem hnew, List.length_cons]
  rfl

theorem count_le_cons (x : Route × Option Route) : count trail ≤ count (x :: trail) := by
  unfold count
  by_cases hmem : x.1 ∈ trail.map (·.1)
  · rw [List.map_cons, List.dedup_cons_of_mem hmem]
  · rw [List.map_cons, List.dedup_cons_of_notMem hmem]
    exact Nat.le_succ _

end Trail

namespace Disk

open Trail (Sound count)

/-- What following a path leaves: a path that was found, and a trail with no link less. -/
def Kept (trail : Trail) (x : Except PathFault Followed) : Prop :=
  ∀ found after, x = .ok (.done found after) → found.Proper ∧ Sound after ∧ count trail ≤ count after

section
variable {disk : Disk} {cwd r here file : Route} {target text : Str} {trail : Trail} {fuel : Nat}
  {names : List (List CodePoint)} {follow other : Route → Str → Trail → Except PathFault Followed}

/-- A link is found only under a name that is not too long. -/
theorem length_of_target? (h : disk.target? r = .ok (some target)) : r.text.length ≤ greatestPathSize := by
  unfold target? at h
  cases hname : r.text.name with
  | error f =>
    rw [hname] at h
    cases h
  | ok name =>
    have hlength := Str.length_le_of_name hname
    rw [hname] at h
    by_contra hlong
    have hnone := disk.link?_long name (by omega)
    rw [Except.map, hnone] at h
    cases h

theorem followNames_cons (name : List CodePoint) : followNames disk follow here trail (name :: names) =
    if name.isEmpty || name == [.char '.'] then followNames disk follow here trail names
    else if name == [.char '.', .char '.'] then followNames disk follow here.up trail names
    else disk.target? (here.add name) >>= fun
      | none => followNames disk follow (here.add name) trail names
      | some target =>
        match trail.lookup (here.add name) with
        | some (some found) => followNames disk follow found trail names
        | some none => .ok (.stuck (joinRest (here.add name).text.toList names))
        | none => follow here target ((here.add name, none) :: trail) >>= fun
          | .stuck text => .ok (.stuck (joinRest text names))
          | .done found after =>
            followNames disk follow found ((here.add name, some found) :: after) names := rfl

/-- Names are followed the same whatever follows the links that are not on the trail, as long as it does so the
same. -/
theorem followNames_congr {most : Nat} (hfollow : ∀ here target after, here.Proper → Sound after →
      most < count after → Kept after (follow here target after) ∧
        follow here target after = other here target after)
    (hnames : ∀ name ∈ names, .char '/' ∉ name) (hhere : here.Proper) (htrail : Sound trail)
    (hmost : most ≤ count trail) :
    Kept trail (followNames disk follow here trail names) ∧
      followNames disk follow here trail names = followNames disk other here trail names := by
  induction names generalizing here trail with
  | nil =>
    refine ⟨?_, rfl⟩
    rintro found after ⟨⟩
    exact ⟨hhere, htrail, Nat.le_refl _⟩
  | cons name names ih =>
    rw [List.forall_mem_cons] at hnames
    rw [followNames_cons, followNames_cons]
    split
    · exact ih hnames.2 hhere htrail hmost
    split
    · exact ih hnames.2 hhere.up htrail hmost
    rename_i hdropped _
    have hname : IsName name := by
      simp only [Bool.or_eq_true, List.isEmpty_iff, beq_iff_eq, not_or] at hdropped
      exact ⟨hdropped.1, hdropped.2, hnames.1⟩
    have hnext := hhere.add hname
    cases htarget : disk.target? (here.add name) with
    | error f => exact ⟨nofun, rfl⟩
    | ok target? =>
      cases target? with
      | none => exact ih hnames.2 hnext htrail hmost
      | some target =>
        have hshort := length_of_target? htarget
        dsimp only [bind, Except.bind]
        split
        · rename_i found hknown
          obtain ⟨before, after, hsplit, -⟩ := List.lookup_eq_some_iff.mp hknown
          have hmem : (here.add name, some found) ∈ trail := by simp [hsplit]
          exact ih hnames.2 (htrail.found _ hmem _ rfl) htrail hmost
        · exact ⟨nofun, rfl⟩
        · rename_i hnew
          have hcount : count ((here.add name, none) :: trail) = count trail + 1 := Trail.count_new hnew
          have hsound : Sound ((here.add name, none) :: trail) := htrail.cons hnext hshort nofun
          obtain ⟨hkept, hsame⟩ := hfollow here target _ hhere hsound (by omega)
          rw [← hsame]
          cases hgone : follow here target ((here.add name, none) :: trail) with
          | error f => exact ⟨nofun, rfl⟩
          | ok gone =>
            cases gone with
            | stuck text => exact ⟨nofun, rfl⟩
            | done found after =>
              obtain ⟨hfound, hafter, hless⟩ := hkept found after hgone
              have hlonger : count after ≤ count ((here.add name, some found) :: after) :=
                Trail.count_le_cons _
              have hsound : Sound ((here.add name, some found) :: after) :=
                hafter.cons hnext hshort (by simpa using hfound)
              obtain ⟨hrest, heq⟩ := ih hnames.2 hfound hsound (by omega)
              refine ⟨fun last final hlast => ?_, heq⟩
              obtain ⟨hproper, hfinal, hmore⟩ := hrest last final hlast
              exact ⟨hproper, hfinal, by omega⟩

/-- One more unit of fuel changes nothing where there is enough for the links that are not on the trail. -/
theorem followText_succ (hhere : here.Proper) (htrail : Sound trail) (hfuel : nameBound ≤ count trail + fuel) :
    Kept trail (followText disk fuel here text trail) ∧
      followText disk fuel here text trail = followText disk (fuel + 1) here text trail := by
  induction fuel generalizing here text trail with
  | zero => exact absurd htrail.count_lt (by omega)
  | succ fuel ih =>
    rw [followText, followText]
    refine followNames_congr (fun here target after hhere hafter hmore => ?_)
      (fun name hname => not_mem_splitOn hname) ?_ htrail (Nat.le_refl (count trail))
    · exact ih hhere hafter (by omega)
    · split
      · exact ⟨.inr (.inl rfl), nofun⟩
      · exact hhere

/-- The fuel is never used up: with any more of it a path is followed the same. -/
theorem followText_enough (hhere : here.Proper) (hfuel : nameBound ≤ fuel) :
    followText disk fuel here text [] = followText disk nameBound here text [] := by
  induction fuel, hfuel using Nat.le_induction with
  | base => rfl
  | succ fuel hfuel ih => rw [← (followText_succ hhere Trail.sound_nil (by omega)).2, ih]

/-- What a path is resolved to has proper names, none of them a double dot, and a form in bytes. -/
theorem proper_of_resolve (h : disk.resolve cwd r = .ok file) :
    file.Proper ∧ (".." : Str) ∉ file.parts ∧ ∃ name, file.toStr.name = .ok name := by
  unfold resolve at h
  obtain ⟨followed, -, h⟩ := bind_eq_ok.mp h
  obtain ⟨name, hname, h⟩ := bind_eq_ok.mp h
  split at h
  · cases h
  cases h
  have hpart {part : Str} (hpart : part ∈ (resolveOnto (".." : Str) []
      ((namesIn (.char '/') (.char '.') (joinText cwd.text.toList followed.text)).map Str.ofList)).reverse) :
      IsName part.toList ∧ part ≠ ".." := by
    rcases mem_resolveOnto (List.mem_reverse.mp hpart) with hdone | ⟨hmem, hup⟩
    · cases hdone
    · obtain ⟨piece, hpiece, rfl⟩ := List.mem_map.mp hmem
      exact ⟨Route.isName_of_mem_namesIn hpiece, hup⟩
  exact ⟨⟨Route.rootOf_cases _ _, fun part hmem => (hpart hmem).1⟩, fun hmem => (hpart hmem).2 rfl, name, hname⟩

end

end Disk

end Files

end Highlighter

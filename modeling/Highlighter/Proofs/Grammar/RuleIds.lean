import Highlighter.Grammar.Loading

/-! A rule is known by its id. Whatever is read from a document lies at a place of its own there, and the
grammars of a tokenizer have numbers of their own. -/

namespace Highlighter.Grammar

open Highlighter.Json (Value Members)

/-- The rules that are written directly in a rule. -/
def Rule.children (r : Rule) : List Rule :=
  r.patterns ++ (r.captures ++ r.beginCaptures ++ r.endCaptures ++ r.whileCaptures).map (·.2)

/-- A rule is the other or is written in it, however deeply. -/
inductive Rule.Within : Rule → Rule → Prop
  | refl (r : Rule) : Rule.Within r r
  | child {x s r : Rule} (mem : s ∈ r.children) (within : Rule.Within x s) : Rule.Within x r

theorem Rule.Within.trans {x y z : Rule} (h₁ : x.Within y) (h₂ : y.Within z) : x.Within z := by
  induction h₂ with
  | refl => exact h₁
  | child mem _ ih => exact .child mem ih

theorem Rule.within_of_child {s r : Rule} (h : s ∈ r.children) : s.Within r := .child h (.refl s)

/-- All that is written in a rule lies at places below one, and two rules at one place are the same. -/
structure Placed (g : Nat) (place : List Nat) (r : Rule) : Prop where
  grammar_eq : ∀ x : Rule, x.Within r → x.id.grammar = g
  below : ∀ x : Rule, x.Within r → place <+: x.id.place
  distinct : ∀ x y : Rule, x.Within r → y.Within r → x.id = y.id → x = y

/-- Rules that lie one level below a place, at most one at each place. -/
def Spread (g : Nat) (place : List Nat) (rs : List Rule) : Prop :=
  ∃ sits : Nat → Nat → Rule → Prop, (∀ k i r s, sits k i r → sits k i s → r = s) ∧
    ∀ r ∈ rs, ∃ k i, sits k i r ∧ Placed g (place ++ [k, i]) r

variable {g : Nat} {place : List Nat} {rs : List Rule}

theorem Spread.grammar_eq (h : Spread g place rs) {r x : Rule} (hr : r ∈ rs) (hx : x.Within r) :
    x.id.grammar = g := by
  obtain ⟨_, -, hat⟩ := h
  obtain ⟨_, _, -, hp⟩ := hat r hr
  exact hp.grammar_eq x hx

theorem Spread.below (h : Spread g place rs) {r x : Rule} (hr : r ∈ rs) (hx : x.Within r) :
    ∃ k i, place ++ [k, i] <+: x.id.place := by
  obtain ⟨_, -, hat⟩ := h
  obtain ⟨k, i, -, hp⟩ := hat r hr
  exact ⟨k, i, hp.below x hx⟩

theorem Spread.distinct (h : Spread g place rs) {r s x y : Rule} (hr : r ∈ rs) (hs : s ∈ rs)
    (hx : x.Within r) (hy : y.Within s) (he : x.id = y.id) : x = y := by
  obtain ⟨sits, hone, hat⟩ := h
  obtain ⟨k, i, hri, hpr⟩ := hat r hr
  obtain ⟨k', i', hsi, hps⟩ := hat s hs
  have hlength : (place ++ [k, i]).length = (place ++ [k', i']).length := by simp
  have heq : place ++ [k, i] = place ++ [k', i'] :=
    (List.prefix_of_prefix_length_le (hpr.below x hx) (he ▸ hps.below y hy)
      (Nat.le_of_eq hlength)).eq_of_length
      hlength
  obtain ⟨rfl, rfl⟩ : k = k' ∧ i = i' := by simpa using heq
  obtain rfl := hone k i r s hri hsi
  exact hpr.distinct x y hx hy he

/-- A rule at a place with its children spread below that place. -/
theorem Placed.of_spread {r : Rule} (hid : r.id = ⟨g, place⟩) (h : Spread g place r.children) :
    Placed g place r := by
  have hlonger {x s : Rule} (hs : s ∈ r.children) (hx : x.Within s) : r.id ≠ x.id := by
    obtain ⟨k, i, hp⟩ := h.below hs hx
    intro he
    have hle := hp.length_le
    rw [← he, hid] at hle
    rw [List.length_append] at hle
    exact absurd hle (by simp)
  refine ⟨fun x hx => ?_, fun x hx => ?_, fun x y hx hy he => ?_⟩
  · cases hx with
    | refl => rw [hid]
    | child hs hx => exact h.grammar_eq hs hx
  · cases hx with
    | refl => simp [hid]
    | child hs hx =>
      obtain ⟨k, i, hp⟩ := h.below hs hx
      exact (List.prefix_append place [k, i]).trans hp
  · cases hx with
    | refl =>
      cases hy with
      | refl => rfl
      | child hs hy => exact absurd he (hlonger hs hy)
    | child hs hx =>
      cases hy with
      | refl => exact absurd he.symm (hlonger hs hx)
      | child hs' hy => exact h.distinct hs hs' hx hy he

/-! ### Reading -/

theorem ok_of_bind {α β ε : Type} {x : Except ε α} {f : α → Except ε β} {b : β}
    (h : x >>= f = .ok b) : ∃ a, x = .ok a ∧ f a = .ok b := by
  cases x with
  | error e => cases h
  | ok a => exact ⟨a, rfl, h⟩

theorem mem_filterMapM {α β ε : Type} {f : α → Except ε (Option β)} {l : List α} {bs : List β} {b : β}
    (h : l.filterMapM f = .ok bs) (hb : b ∈ bs) : ∃ a ∈ l, f a = .ok (some b) := by
  induction l generalizing bs with
  | nil =>
    cases h
    cases hb
  | cons a l ih =>
    rw [List.filterMapM_cons] at h
    cases ha : f a with
    | error e => rw [ha] at h; cases h
    | ok found =>
      rw [ha] at h
      cases hl : l.filterMapM f with
      | error e => rw [hl] at h; cases found <;> cases h
      | ok rest =>
        rw [hl] at h
        cases found with
        | none =>
          cases h
          obtain ⟨a', ha', he⟩ := ih hl hb
          exact ⟨a', List.mem_cons_of_mem a ha', he⟩
        | some b' =>
          cases h
          rcases List.mem_cons.mp hb with rfl | hb
          · exact ⟨a, List.mem_cons_self, ha⟩
          · obtain ⟨a', ha', he⟩ := ih hl hb
            exact ⟨a', List.mem_cons_of_mem a ha', he⟩

/-- The item of an array, or the value of an object, at an index. -/
def itemAt (i : Nat) : Option Value → Option Value
  | some (.array items) => items[i]?
  | some (.object members) => (members[i]?).map (·.2)
  | _ => none

variable {read : List Nat → Members → Except ReadError Rule}

theorem mem_patternsOf {v : Option Value} (h : patternsOf read place v = .ok rs) {r : Rule}
    (hr : r ∈ rs) :
    ∃ i members, itemAt i v = some (.object members) ∧ read (place ++ [0, i]) members = .ok r := by
  unfold patternsOf at h
  split at h
  · obtain ⟨⟨v, i⟩, hv, he⟩ := mem_filterMapM h hr
    rw [List.mem_zipIdx_iff_getElem?] at hv
    dsimp only at he
    split at he
    · rename_i members
      refine ⟨i, members, hv, ?_⟩
      cases hread : read (place ++ [0, i]) members with
      | error e => rw [hread] at he; cases he
      | ok s => rw [hread] at he; cases he; rfl
    · cases he
  · cases h
    cases hr

theorem mem_capturesOf {v : Option Value} {kind : Nat} {captures : Captures}
    (h : capturesOf read place kind v = .ok captures) {r : Rule} (hr : r ∈ captures.map (·.2)) :
    ∃ i members, itemAt i v = some (.object members) ∧
      read (place ++ [kind, i]) members = .ok r := by
  obtain ⟨⟨n, r⟩, hr', rfl⟩ := List.mem_map.mp hr
  unfold capturesOf at h
  split at h
  · obtain ⟨⟨⟨key, v⟩, i⟩, hv, he⟩ := mem_filterMapM h hr'
    rw [List.mem_zipIdx_iff_getElem?] at hv
    dsimp only at he hv
    split at he
    · rename_i members
      refine ⟨i, members, by rw [itemAt, hv]; rfl, ?_⟩
      split at he
      · cases hn : groupNumber key with
        | error e => rw [hn] at he; cases he
        | ok m =>
          cases hread : read (place ++ [kind, i]) members with
          | error e => rw [hn, hread] at he; cases he
          | ok s => rw [hn, hread] at he; cases he; rfl
      · cases he
    · cases he
  · cases h
    cases hr'

theorem mem_repositoryOf {v : Option Value} {repository : List (Str × Rule)}
    (h : repositoryOf read v = .ok repository) {r : Rule} (hr : r ∈ repository.map (·.2)) :
    ∃ i members, itemAt i v = some (.object members) ∧ read [1, i] members = .ok r := by
  obtain ⟨⟨key, r⟩, hr', rfl⟩ := List.mem_map.mp hr
  unfold repositoryOf at h
  split at h
  · obtain ⟨⟨⟨key, v⟩, i⟩, hv, he⟩ := mem_filterMapM h hr'
    rw [List.mem_zipIdx_iff_getElem?] at hv
    dsimp only at he hv
    split at he
    · rename_i members
      refine ⟨i, members, by rw [itemAt, hv]; rfl, ?_⟩
      cases hread : read [1, i] members with
      | error e => rw [hread] at he; cases he
      | ok s => rw [hread] at he; cases he; rfl
    · cases he
  · cases h
    cases hr'

/-- What is read below a place of a document is spread there. -/
theorem Spread.of_read {v : Nat → Option Value}
    (hread : ∀ place members r, read place members = .ok r → Placed g place r)
    (h : ∀ r ∈ rs, ∃ k i members, itemAt i (v k) = some (.object members) ∧
      read (place ++ [k, i]) members = .ok r) : Spread g place rs := by
  refine ⟨fun k i r => ∃ members, itemAt i (v k) = some (.object members) ∧
    read (place ++ [k, i]) members = .ok r, ?_, fun r hr => ?_⟩
  · rintro k i r s ⟨members, hv, hr⟩ ⟨members', hv', hs⟩
    rw [hv] at hv'
    cases hv'
    rw [hr] at hs
    cases hs
    rfl
  · obtain ⟨k, i, members, hv, hr⟩ := h r hr
    exact ⟨k, i, ⟨members, hv, hr⟩, hread _ _ _ hr⟩

/-- The members of a rule's document that hold rules, in the order of the places they give. -/
def ruleMember : Nat → String
  | 0 => "patterns"
  | 1 => "captures"
  | 2 => "beginCaptures"
  | 3 => "endCaptures"
  | _ => "whileCaptures"

theorem readRule_placed {g depth : Nat} {place : List Nat} {members : Members} {r : Rule}
    (h : readRule g depth place members = .ok r) : Placed g place r := by
  induction depth generalizing place members r with
  | zero => cases h
  | succ depth ih =>
    rw [readRule] at h
    dsimp only at h
    obtain ⟨captures, hc, h⟩ := ok_of_bind h
    obtain ⟨beginCaptures, hb, h⟩ := ok_of_bind h
    obtain ⟨endCaptures, he, h⟩ := ok_of_bind h
    obtain ⟨whileCaptures, hw, h⟩ := ok_of_bind h
    obtain ⟨patterns, hp, h⟩ := ok_of_bind h
    cases h
    have hread : ∀ place members r, readRule g depth place members = .ok r → Placed g place r :=
      fun _ _ _ => ih
    refine .of_spread rfl (.of_read (v := fun k => Json.find? members (ruleMember k)) hread
      fun s hs => ?_)
    rcases List.mem_append.mp hs with hs | hs
    · exact ⟨0, mem_patternsOf hp hs⟩
    · obtain ⟨c, hmem, rfl⟩ := List.mem_map.mp hs
      have hcases : c ∈ captures ∨ c ∈ beginCaptures ∨ c ∈ endCaptures ∨ c ∈ whileCaptures := by
        simp only [List.mem_append] at hmem
        grind
      rcases hcases with hmem | hmem | hmem | hmem
      · exact ⟨1, mem_capturesOf hc (List.mem_map_of_mem hmem)⟩
      · exact ⟨2, mem_capturesOf hb (List.mem_map_of_mem hmem)⟩
      · exact ⟨3, mem_capturesOf he (List.mem_map_of_mem hmem)⟩
      · exact ⟨4, mem_capturesOf hw (List.mem_map_of_mem hmem)⟩

end Highlighter.Grammar

namespace Highlighter.Grammar

open Highlighter.Json (Value Members)

/-- The rules of a grammar that are written in no other. -/
def roots (g : Grammar) : List Rule := g.patterns ++ g.repository.map (·.2)

def Has (g : Grammar) (r : Rule) : Prop := ∃ root ∈ g.roots, r.Within root

/-- The rules of a grammar carry its number, and no two carry one id. -/
structure Identified (g : Grammar) : Prop where
  grammar_eq : ∀ r, g.Has r → r.id.grammar = g.number
  distinct : ∀ r s, g.Has r → g.Has s → r.id = s.id → r = s

theorem Has.child {g : Grammar} {r s : Rule} (h : g.Has r) (hs : s ∈ r.children) : g.Has s := by
  obtain ⟨root, hroot, hr⟩ := h
  exact ⟨root, hroot, (Rule.within_of_child hs).trans hr⟩

/-- Patterns below one place and a repository beside it. -/
theorem Identified.of_spread {g : Grammar} (hp : Spread g.number [0] g.patterns)
    (hr : Spread g.number [] (g.repository.map (·.2)))
    (hrepository : ∀ r ∈ g.repository.map (·.2), ∀ x : Rule, x.Within r → [1] <+: x.id.place) :
    g.Identified := by
  have hpatterns {r x : Rule} (hr : r ∈ g.patterns) (hx : x.Within r) : [0] <+: x.id.place := by
    obtain ⟨k, i, h⟩ := hp.below hr hx
    exact (List.prefix_append [0] [k, i]).trans h
  have hapart {r s x y : Rule} (hr : r ∈ g.patterns) (hs : s ∈ g.repository.map (·.2))
      (hx : x.Within r) (hy : y.Within s) : x.id ≠ y.id := by
    intro he
    have h₀ := hpatterns hr hx
    have h₁ := hrepository s hs y hy
    rw [he] at h₀
    obtain ⟨t, ht⟩ := h₀
    obtain ⟨u, hu⟩ := h₁
    rw [← ht] at hu
    cases hu
  refine ⟨fun x ⟨r, hroot, hx⟩ => ?_, fun x y ⟨r, hroot, hx⟩ ⟨s, hroot', hy⟩ he => ?_⟩
  · rcases List.mem_append.mp hroot with hroot | hroot
    · exact hp.grammar_eq hroot hx
    · exact hr.grammar_eq hroot hx
  · rcases List.mem_append.mp hroot with hroot | hroot
    · rcases List.mem_append.mp hroot' with hroot' | hroot'
      · exact hp.distinct hroot hroot' hx hy he
      · exact absurd he (hapart hroot hroot' hx hy)
    · rcases List.mem_append.mp hroot' with hroot' | hroot'
      · exact absurd he.symm (hapart hroot' hroot hy hx)
      · exact hr.distinct hroot hroot' hx hy he

theorem ofDocument_identified {number : Nat} {scope : Option String} {members : Members}
    {g : Grammar} (h : ofDocument number scope members = .ok g) :
    g.number = number ∧ g.Identified := by
  unfold ofDocument at h
  dsimp only at h
  split at h
  · cases h
  · obtain ⟨patterns, hp, h⟩ := ok_of_bind h
    obtain ⟨repository, hr, h⟩ := ok_of_bind h
    cases h
    have hread : ∀ place members r, readRule number deepestNesting place members = .ok r →
        Placed number place r := fun _ _ _ => readRule_placed
    refine ⟨rfl, .of_spread ?_ ?_ ?_⟩
    · exact .of_read (v := fun _ => Json.find? members "patterns") hread
        fun r hr => ⟨0, mem_patternsOf hp hr⟩
    · exact .of_read (v := fun _ => Json.find? members "repository") hread
        fun s hs => ⟨1, mem_repositoryOf hr hs⟩
    · intro r hmem x hx
      obtain ⟨i, inner, -, hr⟩ := mem_repositoryOf hr hmem
      exact (List.prefix_append [1] [i]).trans ((readRule_placed hr).below x hx)

/-- A grammar that is loaded is that of a document. -/
theorem load_document {tree : Files.Tree} {number : Nat} {path : Files.Path} {scope : Option String}
    {g : Grammar} (h : load tree number path scope = .ok g) :
    ∃ members, ofDocument number scope members = .ok g := by
  unfold load at h
  split at h
  · cases h
  · obtain ⟨bytes, -, h⟩ := ok_of_bind h
    obtain ⟨document, -, h⟩ := ok_of_bind h
    split at h
    · rename_i members
      cases hd : ofDocument number scope members with
      | error e => rw [hd] at h; cases h
      | ok g' => rw [hd] at h; cases h; exact ⟨members, hd⟩
    · cases h

theorem load_identified {tree : Files.Tree} {number : Nat} {path : Files.Path}
    {scope : Option String} {g : Grammar} (h : load tree number path scope = .ok g) :
    g.number = number ∧ g.Identified := by
  obtain ⟨members, hd⟩ := load_document h
  exact ofDocument_identified hd

end Highlighter.Grammar

namespace Highlighter

open Highlighter.Grammar

/-- Grammars with numbers of their own, each with ids for its rules. -/
structure Library.WellFormed (l : Library) : Prop where
  numbers : ∀ e ∈ l.grammars, ∀ f ∈ l.grammars, e.2.number = f.2.number → e.2 = f.2
  identified : ∀ e ∈ l.grammars, e.2.Identified

/-- The rule belongs to one of the grammars. -/
def Library.Has (l : Library) (g : Grammar) (r : Rule) : Prop :=
  (∃ scope, (scope, g) ∈ l.grammars) ∧ g.Has r

namespace Library

variable {l : Library} {g g' : Grammar} {r s : Rule}

theorem Has.child (h : l.Has g r) (hs : s ∈ r.children) : l.Has g s := ⟨h.1, h.2.child hs⟩

theorem Has.grammar_eq (hl : l.WellFormed) (h : l.Has g r) : r.id.grammar = g.number := by
  obtain ⟨⟨scope, hg⟩, hr⟩ := h
  exact (hl.identified _ hg).grammar_eq r hr

theorem Has.unique (hl : l.WellFormed) (hr : l.Has g r) (hs : l.Has g' s) (he : r.id = s.id) :
    g = g' ∧ r = s := by
  have hnumber : g.number = g'.number := by
    rw [← hr.grammar_eq hl, ← hs.grammar_eq hl, he]
  obtain ⟨⟨scope, hg⟩, hr⟩ := hr
  obtain ⟨⟨scope', hg'⟩, hs⟩ := hs
  obtain rfl : g = g' := hl.numbers _ hg _ hg' hnumber
  exact ⟨rfl, (hl.identified _ hg).distinct r s hr hs he⟩

/-- A grammar is found under its number. -/
theorem byNumber?_eq (hl : l.WellFormed) {scope : Str} (hg : (scope, g) ∈ l.grammars) :
    l.byNumber? g.number = some g := by
  unfold byNumber?
  cases hf : l.grammars.find? (·.2.number == g.number) with
  | none => exact absurd (List.find?_eq_none.mp hf _ hg) (by simp)
  | some e =>
    have hnumber : e.2.number = g.number := by simpa using List.find?_some hf
    simpa using hl.numbers _ (List.mem_of_find?_eq_some hf) _ hg hnumber

theorem find?_mem {scope : Str} (h : l.find? scope = some g) : (scope, g) ∈ l.grammars := by
  obtain ⟨before, after, he, -⟩ := List.lookup_eq_some_iff.mp h
  rw [he]
  exact List.mem_append_right before List.mem_cons_self

end Library

/-! ### Pattern lists -/

/-- A list of patterns and the grammar in which it is written. -/
abbrev Grammar.PatternList := Grammar × List Grammar.Rule

def Grammar.PatternList.key (a : PatternList) : ListKey := listKey a.1 a.2

namespace Library

variable {l : Library} {a b : Grammar.PatternList}

/-- One grammar alone. -/
theorem WellFormed.single {main scope : Str} {g : Grammar} (h : g.Identified) :
    WellFormed ⟨main, [(scope, g)]⟩ := by
  refine ⟨fun e he f hf _ => ?_, fun e he => ?_⟩
  · rw [List.mem_singleton.mp he, List.mem_singleton.mp hf]
  · rw [List.mem_singleton.mp he]
    exact h

/-- The pattern lists of a library: those of its grammars and rules, and rules that stand alone. -/
inductive Lists (l : Library) : Grammar.PatternList → Prop
  | grammar {scope : Str} {g : Grammar} (mem : (scope, g) ∈ l.grammars) : Lists l (g, g.patterns)
  | patterns {g : Grammar} {r : Rule} (has : l.Has g r) : Lists l (g, r.patterns)
  | entry {g : Grammar} {r : Rule} (has : l.Has g r) : Lists l (g, [r])

theorem Lists.grammar_mem (h : l.Lists a) : ∃ scope, (scope, a.1) ∈ l.grammars := by
  cases h with
  | grammar mem => exact ⟨_, mem⟩
  | patterns has => exact has.1
  | entry has => exact has.1

theorem Lists.has (h : l.Lists a) : ∀ r ∈ a.2, l.Has a.1 r := by
  intro r hr
  cases h with
  | grammar mem => exact ⟨⟨_, mem⟩, r, List.mem_append_left _ hr, .refl r⟩
  | patterns has => exact has.child (List.mem_append_left _ hr)
  | entry has => exact List.mem_singleton.mp hr ▸ has

theorem eq_of_ids (hl : l.WellFormed) {g : Grammar} {rs ss : List Rule} (hr : ∀ r ∈ rs, l.Has g r)
    (hs : ∀ s ∈ ss, l.Has g s) (h : rs.map (·.id) = ss.map (·.id)) : rs = ss := by
  induction rs generalizing ss with
  | nil => exact (List.map_eq_nil_iff.mp h.symm).symm
  | cons r rs ih =>
    obtain ⟨s, rest, rfl, hid, hrest⟩ := List.map_eq_cons_iff.mp h.symm
    have hfirst := ((hs s List.mem_cons_self).unique hl (hr r List.mem_cons_self) hid).2
    have htail := ih (fun x hx => hr x (List.mem_cons_of_mem r hx))
      (fun x hx => hs x (List.mem_cons_of_mem s hx)) hrest.symm
    rw [hfirst, htail]

/-- A pattern list is known by its key. -/
theorem Lists.key_inj (hl : l.WellFormed) (ha : l.Lists a) (hb : l.Lists b) (h : a.key = b.key) :
    a = b := by
  obtain ⟨hnumber, hids⟩ := Grammar.ListKey.mk.inj h
  obtain ⟨_, hag⟩ := ha.grammar_mem
  obtain ⟨_, hbg⟩ := hb.grammar_mem
  have hgrammar : a.1 = b.1 := hl.numbers _ hag _ hbg hnumber
  exact Prod.ext hgrammar (eq_of_ids hl ha.has (hgrammar ▸ hb.has) hids)

end Library

/-! ### Loading -/

/-- What the loading of extra grammars keeps: all numbers given out are below the next one. -/
structure Library.Numbered (next : Nat) (l : Library) : Prop where
  wellFormed : l.WellFormed
  below : ∀ e ∈ l.grammars, e.2.number < next

namespace Tokenizer

variable {main : Str} {next : Nat} {grammars loaded : List (Str × Grammar)} {g : Grammar}

theorem numbered_add (h : Library.Numbered next ⟨main, grammars⟩) (hn : g.number = next)
    (hg : g.Identified) (hmem : ∀ e ∈ loaded, e.2 = g ∨ e ∈ grammars) :
    Library.Numbered (next + 1) ⟨main, loaded⟩ := by
  refine ⟨⟨fun e he f hf hnumber => ?_, fun e he => ?_⟩, fun e he => ?_⟩
  · rcases hmem e he with heq | he
    · rcases hmem f hf with hfeq | hf
      · rw [heq, hfeq]
      · have := h.below f hf
        rw [heq] at hnumber
        omega
    · rcases hmem f hf with hfeq | hf
      · have := h.below e he
        rw [hfeq] at hnumber
        omega
      · exact h.wellFormed.numbers e he f hf hnumber
  · rcases hmem e he with heq | he
    · exact heq ▸ hg
    · exact h.wellFormed.identified e he
  · rcases hmem e he with heq | he
    · rw [heq]; omega
    · have := h.below e he
      omega

/-- What holds of grammars with any other put among them under the next number holds of them with the extra
ones. -/
theorem loadExtras_preserves {P : Nat → List (Str × Grammar) → Prop} {tree : Files.Tree}
    {extras absent : List (String × Files.Path)} (hskip : ∀ n grammars, P n grammars → P (n + 1) grammars)
    (hadd : ∀ n grammars more scope path g, P n grammars → Grammar.load tree n path (some scope) = .ok g →
      (∀ e ∈ more, e = ((scope : Str), g) ∨ e ∈ grammars) → P (n + 1) more)
    (h : P next grammars) (hl : (loadExtras tree next extras grammars absent).1 = .ok loaded) :
    ∃ last, P last loaded := by
  induction extras generalizing next grammars absent with
  | nil =>
    cases hl
    exact ⟨next, h⟩
  | cons extra extras ih =>
    obtain ⟨scope, path⟩ := extra
    rw [loadExtras] at hl
    split at hl
    · cases hl
    · exact ih (hskip _ _ h) hl
    · split at hl
      · cases hl
      · rename_i g hg
        refine ih (hadd _ _ _ scope path g h hg fun e he => ?_) hl
        dsimp only at he
        split at he
        · obtain ⟨f, hf, rfl⟩ := List.mem_map.mp he
          split
          · exact .inl rfl
          · exact .inr hf
        · rcases List.mem_append.mp he with he | he
          · exact .inr he
          · exact .inl (List.mem_singleton.mp he)

theorem loadExtras_wellFormed {tree : Files.Tree} {extras : List (String × Files.Path)}
    {absent : List (String × Files.Path)} (h : Library.Numbered next ⟨main, grammars⟩)
    (hl : (loadExtras tree next extras grammars absent).1 = .ok loaded) :
    Library.WellFormed ⟨main, loaded⟩ := by
  suffices h : ∃ last, Library.Numbered last ⟨main, loaded⟩ from h.elim fun _ h => h.wellFormed
  refine loadExtras_preserves (P := fun n grammars => Library.Numbered n ⟨main, grammars⟩) ?_ ?_ h hl
  · exact fun n grammars h => ⟨h.wellFormed, fun e he => Nat.lt_succ_of_lt (h.below e he)⟩
  · intro n grammars more scope path g h hg hmem
    obtain ⟨hnumber, hidentified⟩ := Grammar.load_identified hg
    exact numbered_add h hnumber hidentified fun e he => (hmem e he).imp_left fun heq => congrArg Prod.snd heq

/-- A tokenizer is made over grammars that are well-formed. -/
theorem loadWith_made {engine : Engine} {tree : Files.Tree} {path : Files.Path} {scope : String}
    {extras : List (String × Files.Path)} {t : Tokenizer} {notes : List Note}
    (h : loadWith engine tree path scope extras = (.ok t, notes)) :
    ∃ library c, library.WellFormed ∧ ofLibrary engine scope library = (.ok t, c) := by
  unfold loadWith at h
  split at h
  · cases h
  · rename_i g hg
    obtain ⟨hn, hi⟩ := Grammar.load_identified hg
    have hfirst : Library.Numbered 1 ⟨scope, [(scope, g)]⟩ := by
      refine ⟨.single hi, fun e he => ?_⟩
      rw [List.mem_singleton.mp he, hn]
      exact Nat.zero_lt_one
    dsimp only at h
    split at h
    · cases h
    · rename_i loaded hloaded
      cases hmade : ofLibrary engine scope ⟨scope, loaded⟩ with
      | mk result c =>
        rw [hmade] at h
        cases h
        exact ⟨_, c, loadExtras_wellFormed hfirst hloaded, hmade⟩

end Tokenizer

end Highlighter

import Highlighter.Proofs.Grammar.RuleIds

/-! How many rules and pattern lists there are. All rules of a tokenizer's grammars are counted, so rules
with different ids are no more than the count. -/

namespace Highlighter.Grammar

mutual

/-- A rule and all that are written in it. -/
def Rule.all : Rule → List Rule
  | r@⟨_, _, _, _, _, _, _, a, b, c, d, _, patterns⟩ =>
    r :: (allCaptured a ++ allCaptured b ++ allCaptured c ++ allCaptured d ++ allWithin patterns)

def allWithin : List Rule → List Rule
  | [] => []
  | r :: rs => r.all ++ allWithin rs

def allCaptured : List (Nat × Rule) → List Rule
  | [] => []
  | c :: cs => c.2.all ++ allCaptured cs

end

mutual

theorem Rule.length_all : (r : Rule) → r.all.length = r.count
  | ⟨_, _, _, _, _, _, _, a, b, c, d, _, patterns⟩ => by
    simp only [Rule.all, Rule.count, List.length_cons, List.length_append, length_allCaptured a,
      length_allCaptured b, length_allCaptured c, length_allCaptured d, length_allWithin patterns]
    omega

theorem length_allWithin : (rs : List Rule) → (allWithin rs).length = countAll rs
  | [] => rfl
  | r :: rs => by
    rw [allWithin, countAll, List.length_append, Rule.length_all r, length_allWithin rs]

theorem length_allCaptured : (cs : List (Nat × Rule)) → (allCaptured cs).length = countCaptures cs
  | [] => rfl
  | c :: cs => by
    rw [allCaptured, countCaptures, List.length_append, Rule.length_all c.2, length_allCaptured cs]

end

theorem mem_allWithin {rs : List Rule} {r x : Rule} (hr : r ∈ rs) (h : x ∈ r.all) :
    x ∈ allWithin rs := by
  induction rs with
  | nil => cases hr
  | cons s rs ih =>
    rw [allWithin, List.mem_append]
    rcases List.mem_cons.mp hr with rfl | hr
    · exact .inl h
    · exact .inr (ih hr)

theorem mem_allCaptured {cs : List (Nat × Rule)} {r x : Rule} (hr : r ∈ cs.map (·.2))
    (h : x ∈ r.all) : x ∈ allCaptured cs := by
  induction cs with
  | nil => cases hr
  | cons c cs ih =>
    rw [allCaptured, List.mem_append]
    rcases List.mem_cons.mp hr with rfl | hr
    · exact .inl h
    · exact .inr (ih hr)

theorem Rule.mem_all_self (r : Rule) : r ∈ r.all := by
  cases r
  rw [Rule.all]
  exact List.mem_cons_self

theorem Rule.mem_all_of_child {r s x : Rule} (hs : s ∈ r.children) (h : x ∈ s.all) : x ∈ r.all := by
  cases r with
  | mk rid name m b e w content captures beginCaptures endCaptures whileCaptures inc patterns =>
    simp only [Rule.children, List.map_append, List.mem_append] at hs
    simp only [Rule.all, List.mem_cons, List.mem_append]
    right
    rcases hs with hs | ((hs | hs) | hs) | hs
    · exact .inr (mem_allWithin hs h)
    · exact .inl (.inl (.inl (.inl (mem_allCaptured hs h))))
    · exact .inl (.inl (.inl (.inr (mem_allCaptured hs h))))
    · exact .inl (.inl (.inr (mem_allCaptured hs h)))
    · exact .inl (.inr (mem_allCaptured hs h))

theorem Rule.Within.mem_all {x r : Rule} (h : x.Within r) : x ∈ r.all := by
  induction h with
  | refl => exact Rule.mem_all_self _
  | child mem _ ih => exact Rule.mem_all_of_child mem ih

def all (g : Grammar) : List Rule := allWithin g.patterns ++ allWithin (g.repository.map (·.2))

theorem length_all (g : Grammar) : g.all.length = g.ruleCount := by
  rw [all, List.length_append, length_allWithin, length_allWithin, ruleCount]

theorem Has.mem_all {g : Grammar} {r : Rule} (h : g.Has r) : r ∈ g.all := by
  obtain ⟨root, hroot, hr⟩ := h
  rw [all, List.mem_append]
  exact (List.mem_append.mp hroot).imp (mem_allWithin · hr.mem_all) (mem_allWithin · hr.mem_all)

end Highlighter.Grammar

namespace Highlighter.Library

open Highlighter.Grammar (PatternList Rule RuleId)

variable {l : Library} {g : Grammar} {r : Rule}

/-- All rules of a library, each with its grammar. -/
def all (l : Library) : List (Grammar × Rule) := l.grammars.flatMap fun e => e.2.all.map (e.2, ·)

theorem length_all (l : Library) : l.all.length = l.ruleCount := by
  unfold all ruleCount
  induction l.grammars with
  | nil => rfl
  | cons e es ih =>
    rw [List.flatMap_cons, List.length_append, ih, List.length_map, Grammar.length_all,
      List.foldr_cons]

theorem Has.mem_all (h : l.Has g r) : (g, r) ∈ l.all := by
  obtain ⟨⟨scope, hg⟩, hr⟩ := h
  exact List.mem_flatMap.mpr ⟨_, hg, List.mem_map_of_mem hr.mem_all⟩

def ids (l : Library) : List RuleId := l.all.map (·.2.id)

theorem length_ids (l : Library) : l.ids.length = l.ruleCount := by
  rw [ids, List.length_map, length_all]

theorem Has.mem_ids (h : l.Has g r) : r.id ∈ l.ids := List.mem_map_of_mem h.mem_all

/-- All pattern lists of a library, some of them more than once. -/
def patternLists (l : Library) : List PatternList :=
  l.grammars.map (fun e => (e.2, e.2.patterns)) ++ l.all.map (fun x => (x.1, x.2.patterns)) ++
    l.all.map fun x => (x.1, [x.2])

theorem length_patternLists (l : Library) :
    l.patternLists.length + 1 = Grammar.Library.listBound l := by
  simp only [patternLists, Grammar.Library.listBound, List.length_append, List.length_map, length_all]
  omega

theorem Lists.mem {a : PatternList} (h : l.Lists a) : a ∈ l.patternLists := by
  unfold patternLists
  rw [List.mem_append, List.mem_append]
  cases h with
  | grammar mem => exact .inl (.inl (List.mem_map_of_mem mem))
  | patterns has => exact .inl (.inr (List.mem_map_of_mem has.mem_all))
  | entry has => exact .inr (List.mem_map_of_mem has.mem_all)

end Highlighter.Library

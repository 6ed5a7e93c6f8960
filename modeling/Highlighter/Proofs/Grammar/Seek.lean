import Highlighter.Proofs.Grammar.EngineContract
import Highlighter.Proofs.Grammar.Outcome

/-! What one search of a rule can come to. Either a rule starts that the rule offers, or the rule itself
ends; there is no third way for a search to go on. -/

namespace Highlighter.Grammar

open Highlighter.Pattern (Match Regex Text)

variable {engine : Engine} {line : Text} {rule : Compiled} {ending : Option Regex} {position : Nat}
  {c c' : Compiler} {event : Event}

/-- What a search of a rule comes to. -/
inductive Sought (engine : Engine) (line : Text) (rule : Compiled) (ending : Option Regex)
    (position : Nat) (c c' : Compiler) : Event → Prop
  | starts {choice index m candidate target closing}
      (offers : rule.form.choice? = some choice)
      (hit : engine.searchAny choice.regexes line position = .ok (some (index, m)))
      (taken : choice.candidates[index]? = some candidate)
      (ready : Returns (compileRule engine candidate.rule) c target c')
      (begins : Returns (startRule engine line m target) c' (.starts m target closing) c') :
      Sought engine line rule ending position c c' (.starts m target closing)
  | ends {content beginCaptures endCaptures template choice pattern m}
      (form : rule.form = .beginEnd content beginCaptures endCaptures template choice)
      (closes : ending = some pattern)
      (hit : engine.search pattern line position = .ok (some m))
      (kept : c' = c) :
      Sought engine line rule ending position c c' (.ends m endCaptures)

/-- The source of a pattern can be written in bytes, and is read as a regular expression. -/
def Engine.Reads (engine : Engine) (source : Str) (r : Regex) : Prop :=
  ∃ text : String, source = text ∧ engine.read text = .ok r

theorem readPattern_state {source : Str} {r : Regex} (h : Returns (readPattern engine source) c r c') :
    engine.Reads source r ∧ c' = c := by
  unfold readPattern at h
  split at h
  · rename_i text htext
    obtain ⟨hr, hc⟩ := Returns.answer h
    exact ⟨⟨text, Str.text?_eq_some.mp htext, hr⟩, hc.symm⟩
  · exact absurd h Returns.throw

theorem endingFor_state {m : Match} {template : Str} {r : Regex}
    (h : Returns (endingFor engine m line template) c r c') : c' = c := by
  unfold endingFor at h
  split at h
  · exact (readPattern_state h).2
  · exact absurd h Returns.throw

theorem startRule_starts {m : Match} {target : Compiled}
    (h : Returns (startRule engine line m target) c event c') :
    c' = c ∧ ∃ closing, event = .starts m target closing := by
  unfold startRule at h
  split at h
  · exact absurd h Returns.throw
  · obtain ⟨rfl, hc⟩ := Returns.pure h
    exact ⟨hc.symm, _, rfl⟩
  · obtain ⟨closing, c₁, he, rest⟩ := Returns.bind h
    obtain rfl := endingFor_state he
    obtain ⟨rfl, hc⟩ := Returns.pure rest
    exact ⟨hc.symm, _, rfl⟩
  · obtain ⟨closing, c₁, he, rest⟩ := Returns.bind h
    obtain rfl := endingFor_state he
    obtain ⟨rfl, hc⟩ := Returns.pure rest
    exact ⟨hc.symm, _, rfl⟩

theorem findChoice_found {choice : Choice} {found : Option (Rule × Match)}
    (h : Returns (findChoice engine choice line position) c found c') :
    c' = c ∧ ∀ rule m, found = some (rule, m) → ∃ index candidate,
      engine.searchAny choice.regexes line position = .ok (some (index, m)) ∧
      choice.candidates[index]? = some candidate ∧ candidate.rule = rule := by
  unfold findChoice at h
  obtain ⟨answered, c₁, ha, h⟩ := Returns.bind h
  obtain ⟨hs, rfl⟩ := Returns.answer ha
  split at h
  · obtain ⟨rfl, rfl⟩ := Returns.pure h
    exact ⟨rfl, fun _ _ he => by cases he⟩
  · obtain ⟨rfl, rfl⟩ := Returns.pure h
    refine ⟨rfl, fun rule n he => ?_⟩
    obtain ⟨candidate, hc, he⟩ := Option.map_eq_some_iff.mp he
    cases he
    exact ⟨_, candidate, hs, hc, rfl⟩

theorem findChoice_none {choice : Choice} (h : engine.searchAny choice.regexes line position = .ok none) :
    Returns (findChoice engine choice line position) c none c := by
  unfold findChoice
  rw [h]
  rfl

theorem searchAny_nil (text : Text) (position : Nat) :
    Engine.standard.searchAny [] text position = .ok none := by
  have hfrom (start fuel attempt position : Nat) (book : Pattern.CounterBook) :
      Pattern.searchAnyFrom [] text start fuel attempt position book = .ok none := by
    induction fuel generalizing attempt position with
    | zero => rfl
    | succ fuel ih => exact ih _ _
  change Pattern.searchAny [] text position = .ok none
  unfold Pattern.searchAny
  split
  · rfl
  · exact hfrom _ _ _ _ _

/-- Taking what a choice has found starts the rule that was found. -/
theorem takeChoice_sought {choice : Choice} {answered : Option (Rule × Match)} {c₁ : Compiler}
    (hc : rule.form.choice? = some choice)
    (hf : Returns (findChoice engine choice line position) c answered c₁)
    (h : Returns (takeChoice engine line answered) c₁ (some event) c') :
    Sought engine line rule ending position c c' event := by
  obtain ⟨rfl, hfound⟩ := findChoice_found hf
  unfold takeChoice at h
  split at h
  · obtain ⟨he, _⟩ := Returns.pure h
    cases he
  · rename_i rule m
    obtain ⟨target, c₂, ht, h⟩ := Returns.bind h
    obtain ⟨started, c₃, hs, h⟩ := Returns.bind h
    obtain ⟨he, rfl⟩ := Returns.pure h
    cases he
    obtain ⟨rfl, closing, rfl⟩ := startRule_starts hs
    obtain ⟨index, candidate, hhit, hi, rfl⟩ := hfound rule m rfl
    exact .starts hc hhit hi ht hs

theorem seek_sought (h : Returns (seek engine line rule ending position) c (some event) c') :
    Sought engine line rule ending position c c' event := by
  unfold seek at h
  split at h
  · exact absurd h Returns.throw
  · rename_i choice hf
    obtain ⟨answered, c₁, ha, h⟩ := Returns.bind h
    exact takeChoice_sought (by rw [hf]; rfl) ha h
  · rename_i choice hf
    obtain ⟨answered, c₁, ha, h⟩ := Returns.bind h
    exact takeChoice_sought (by rw [hf]; rfl) ha h
  · rename_i endCaptures template choice hf
    have hoffers : rule.form.choice? = some choice := by rw [hf]; rfl
    split at h
    · exact absurd h Returns.throw
    · obtain ⟨answered, c₁, ha, h⟩ := Returns.bind h
      obtain ⟨hs, rfl⟩ := Returns.answer ha
      split at h
      · obtain ⟨answered, c₂, hc, h⟩ := Returns.bind h
        exact takeChoice_sought hoffers hc h
      · rename_i m
        split at h
        · obtain ⟨he', rfl⟩ := Returns.pure h
          cases he'
          exact .ends hf rfl hs rfl
        · obtain ⟨answered, c₂, hc, h⟩ := Returns.bind h
          split at h
          · obtain ⟨he', rfl⟩ := Returns.pure h
            cases he'
            exact .ends hf rfl hs (findChoice_found hc).1
          · split at h
            · obtain ⟨he', rfl⟩ := Returns.pure h
              cases he'
              exact .ends hf rfl hs (findChoice_found hc).1
            · exact takeChoice_sought hoffers hc h

/-- The match of an event. -/
def Event.hit : Event → Match
  | .ends m _ => m
  | .starts m _ _ => m

theorem follow_hit (stack : Stack) (event : Event) : (stack.follow event).hit = event.hit := by
  cases event with
  | ends => rfl
  | starts =>
    unfold Stack.follow
    dsimp only
    split <;> rfl

/-- What is found lies between the position of the search and the end of the line. -/
theorem Sought.lies (hs : engine.Sound) (h : Sought engine line rule ending position c c' event) :
    event.hit.Lies position line.size := by
  cases h with
  | starts offers hit taken ready begins => exact hs.searchAny hit
  | ends form closes hit kept => exact hs.search hit

end Highlighter.Grammar

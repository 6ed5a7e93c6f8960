import Highlighter.Proofs.Grammar.Standing
import Highlighter.Proofs.Grammar.Termination
import Mathlib.Data.List.Chain

/-! The stack of open rules over a whole document. Its lowest frame is the root's and stays; every other
frame lies within the one below it; and the rules that a line must continue are those that the frames hold,
from the bottom up, each with its height. -/

namespace Highlighter.Grammar

open Highlighter.Pattern (Match Regex Text)

/-- What a rule of this form adds to the scope of what it contains. -/
def Form.contentName : Form → Scope
  | .beginEnd contentName _ _ _ _ => contentName
  | .beginWhile contentName _ _ _ _ => contentName
  | _ => []

/-- A rule of this form needs a pattern that is read only when it is opened. -/
def Form.HasEnding : Form → Prop
  | .beginEnd _ _ _ _ _ => True
  | .beginWhile _ _ _ _ _ => True
  | _ => False

/-- The rule of a frame and the height of the frame, if a line must continue the rule. -/
def Frame.goesOn? (x : Frame × Nat) : Option (Compiled × Nat) :=
  match x.1.rule.form with
  | .beginWhile _ _ _ _ _ => some (x.1.rule, x.2)
  | _ => none

/-- The rules that a line must continue, as the frames of a stack have them. -/
def Stack.goingOn (s : Stack) : List (Compiled × Nat) := (s.rising.zipIdx 1).filterMap Frame.goesOn?

/-- A stack that stands on a root. -/
structure Stack.WellNested (root : Frame) (s : Stack) : Prop where
  root : s.rising.head? = some root
  nested : s.rising.IsChain fun below f =>
    f.scope = below.scope ++ f.rule.name ++ f.rule.form.contentName
  endings : ∀ f ∈ s.rising, f.rule.form.HasEnding → f.ending.isSome
  whiles : s.whiles = s.goingOn

variable {engine : Engine} {line : Text} {cut : Cut} {c d : Compiler} {root f : Frame} {s : Stack}
  {position : Nat} {event : Event}

theorem Form.IsWhile.hasEnding {form : Form} (h : form.IsWhile) : form.HasEnding := by
  cases form with
  | beginWhile => trivial
  | _ => exact h.elim

theorem Frame.goesOn?_eq_some {x : Frame × Nat} {w : Compiled × Nat} :
    Frame.goesOn? x = some w ↔ x.1.rule.form.IsWhile ∧ (x.1.rule, x.2) = w := by
  unfold Frame.goesOn?
  split <;> rename_i hform <;> simp [Form.IsWhile, hform]

theorem Frame.goesOn?_eq_none {x : Frame × Nat} : Frame.goesOn? x = none ↔ ¬ x.1.rule.form.IsWhile := by
  unfold Frame.goesOn?
  split <;> rename_i hform <;> simp [Form.IsWhile, hform]

namespace Stack

theorem goingOn_of_rising {t : Stack} {fs : List Frame} (h : t.rising = s.rising ++ fs) :
    t.goingOn = s.goingOn ++ (fs.zipIdx (s.height + 1)).filterMap Frame.goesOn? := by
  rw [goingOn, goingOn, h, List.zipIdx_append, List.filterMap_append, length_rising, Nat.add_comm 1]

/-- The heights of the rules that a line must continue increase. -/
theorem pairwise_goingOn : s.goingOn.Pairwise (·.2 < ·.2) := by
  have hheights : (s.rising.zipIdx 1).Pairwise (·.2 < ·.2) := by
    rw [← List.pairwise_map, List.zipIdx_map_snd]
    exact List.pairwise_lt_range'
  refine List.Pairwise.filterMap _ (fun x y hxy v hv w hw => ?_) hheights
  obtain ⟨-, rfl⟩ := Frame.goesOn?_eq_some.mp hv
  obtain ⟨-, rfl⟩ := Frame.goesOn?_eq_some.mp hw
  exact hxy

/-- Exactly the rules are listed that a line must continue, each with the height of its frame. -/
theorem mem_goingOn {rule : Compiled} {n : Nat} : (rule, n) ∈ s.goingOn ↔
    ∃ i f, n = i + 1 ∧ s.rising[i]? = some f ∧ f.rule.form.IsWhile ∧ f.rule = rule := by
  simp only [goingOn, List.mem_filterMap, Prod.exists, List.mem_zipIdx_iff_le_and_getElem?_sub,
    Frame.goesOn?_eq_some, Prod.mk.injEq]
  constructor
  · rintro ⟨f, m, ⟨hm, hf⟩, hwhile, rfl, rfl⟩
    exact ⟨m - 1, f, by omega, hf, hwhile, rfl⟩
  · rintro ⟨i, f, rfl, hf, hwhile, rfl⟩
    exact ⟨f, i + 1, ⟨by omega, hf⟩, hwhile, rfl, rfl⟩

/-- The rules listed before one of them are those of the frames below it. -/
theorem goingOn_split {done rest : List (Compiled × Nat)} {rule : Compiled} {n : Nat}
    (h : s.goingOn = done ++ (rule, n) :: rest) : ∃ i f, n = i + 1 ∧ s.rising[i]? = some f ∧ f.rule = rule ∧
      f.rule.form.IsWhile ∧ ((s.rising.take i).zipIdx 1).filterMap Frame.goesOn? = done := by
  obtain ⟨before, after, hall, hbefore, hafter⟩ := List.filterMap_eq_append_iff.mp h
  obtain ⟨passed, ⟨f, m⟩, others, rfl, hpassed, hw, -⟩ := List.filterMap_eq_cons_iff.mp hafter
  obtain ⟨hwhile, hrule⟩ := Frame.goesOn?_eq_some.mp hw
  cases hrule
  rw [← List.append_assoc] at hall
  obtain ⟨lower, upper, hrising, hlower, hupper⟩ := List.zipIdx_eq_append_iff.mp hall
  obtain ⟨g, above, rfl, hg, -⟩ := List.zipIdx_eq_cons_iff.mp hupper.symm
  cases hg
  refine ⟨lower.length, f, Nat.add_comm 1 _, by simp [hrising], rfl, hwhile, ?_⟩
  rw [hrising, List.take_left, ← hlower, List.filterMap_append, hbefore,
    List.filterMap_eq_nil_iff.mpr hpassed, List.append_nil]

namespace WellNested

/-- One more frame on top, within the one that was there. -/
theorem grow {t : Stack} (h : s.WellNested root) (hrising : t.rising = s.rising ++ [f])
    (hwhiles : t.whiles = s.whiles ++ (Frame.goesOn? (f, s.height + 1)).toList)
    (hscope : f.scope = s.top.scope ++ f.rule.name ++ f.rule.form.contentName)
    (hending : f.rule.form.HasEnding → f.ending.isSome) : t.WellNested root where
  root := by
    rw [hrising, List.head?_append, h.root]
    rfl
  nested := by
    rw [hrising, List.isChain_append]
    refine ⟨h.nested, .singleton f, fun below hbelow g hg => ?_⟩
    rw [rising_top, List.getLast?_concat] at hbelow
    cases hbelow
    cases hg
    exact hscope
  endings g hg := by
    rw [hrising] at hg
    rcases List.mem_append.mp hg with hg | hg
    · exact h.endings g hg
    · rw [List.mem_singleton.mp hg]
      exact hending
  whiles := by
    rw [hwhiles, goingOn_of_rising hrising, h.whiles]
    rfl

/-- Only the lowest frames, at least one. -/
theorem shrink {t : Stack} {n : Nat} (h : s.WellNested root) (hn : 0 < n)
    (hrising : t.rising = s.rising.take n) (hwhiles : t.whiles = t.goingOn) : t.WellNested root where
  root := by
    rw [hrising, List.head?_take, if_neg (Nat.ne_of_gt hn), h.root]
  nested := hrising ▸ h.nested.take n
  endings f hf := h.endings f (List.mem_of_mem_take (hrising ▸ hf))
  whiles := hwhiles

theorem pop (h : s.WellNested root) (hbelow : s.below ≠ []) (hends : ¬ s.top.rule.form.IsWhile) :
    s.pop.WellNested root := by
  have hpop : s.pop.rising = s.below.reverse := rising_pop hbelow
  have hrising : s.rising = s.pop.rising ++ [s.top] := by rw [hpop, rising_top]
  refine h.shrink (List.length_pos_iff.mpr hbelow) ?_ ?_
  · rw [hrising, hpop, List.take_left' List.length_reverse]
  · rw [whiles_pop, h.whiles, goingOn_of_rising hrising]
    have hnone : Frame.goesOn? (s.top, s.pop.height + 1) = none := Frame.goesOn?_eq_none.mpr hends
    simp [hnone]

/-- A frame whose rule has an ending stands on another. -/
theorem below_ne_nil (h : s.WellNested root) (hroot : ¬ root.rule.form.HasEnding)
    (hends : s.top.rule.form.HasEnding) : s.below ≠ [] := by
  intro hbelow
  have hlowest := h.root
  rw [rising_top, hbelow] at hlowest
  cases hlowest
  exact hroot hends

end WellNested

end Stack

/-! ### Searches -/

/-- A rule that needs a pattern of its own is started with one. -/
theorem startRule_closing {m n : Match} {target : Compiled} {closing : Option Regex}
    (h : Returns (startRule engine line m target) c (.starts n target closing) d)
    (htarget : target.form.HasEnding) : closing.isSome := by
  unfold startRule at h
  split at h
  · exact absurd h Returns.throw
  · rename_i hform
    rw [hform] at htarget
    exact htarget.elim
  all_goals
    obtain ⟨regex, c₁, -, h⟩ := Returns.bind h
    obtain ⟨he, -⟩ := Returns.pure h
    cases he
    rfl

/-- Whatever a search comes to, the stack stays well nested. -/
theorem Sought.wellNested (hroot : ¬ root.rule.form.HasEnding) (hs : s.WellNested root)
    (h : Sought engine line s.top.rule s.top.ending position c d event) :
    (s.follow event).stack.WellNested root := by
  cases h with
  | @starts choice index m candidate target closing offers hit taken ready begins =>
    have hclosing := startRule_closing begins
    cases hform : target.form with
    | patternsOnly => simpa only [Stack.follow, hform] using hs
    | single => simpa only [Stack.follow, hform] using hs
    | beginEnd contentName =>
      simp only [Stack.follow, hform]
      refine hs.grow Stack.rising_push ?_ ?_ hclosing
      · simp [Stack.push, Frame.goesOn?, hform]
      · simp [Form.contentName, hform]
    | beginWhile contentName =>
      simp only [Stack.follow, hform]
      have hrising : (s.pushWhile ⟨s.top.scope ++ target.name ++ contentName, target, closing⟩).rising =
          s.rising ++ [⟨s.top.scope ++ target.name ++ contentName, target, closing⟩] := Stack.rising_push
      refine hs.grow hrising ?_ ?_ hclosing
      · simp [Stack.pushWhile, Stack.push, Stack.height, Stack.frames, Frame.goesOn?, hform]
      · simp [Form.contentName, hform]
  | ends form closes hit kept =>
    have hending : s.top.rule.form.HasEnding := by rw [form]; trivial
    have hends : ¬ s.top.rule.form.IsWhile := by rw [form]; exact id
    exact hs.pop (hs.below_ne_nil hroot hending) hends

theorem advance_wellNested {next : Advance} (hroot : ¬ root.rule.form.HasEnding) (hs : s.WellNested root)
    (h : Returns (advance engine cut line s position) c (some next) d) : next.stack.WellNested root := by
  obtain ⟨found, c₁, hseek, h⟩ := Returns.bind h
  cases found with
  | none => cases (Returns.pure h).1
  | some event =>
    obtain ⟨regions, c₂, -, h⟩ := Returns.bind h
    cases (Returns.pure h).1
    exact (seek_sought hseek).wellNested hroot hs

theorem searchLoop_wellNested {fuel : Nat} {regions : List Region} {final : Advance}
    (hroot : ¬ root.rule.form.HasEnding) (hs : s.WellNested root)
    (h : Returns (searchLoop engine cut line fuel s position regions) c final d) :
    final.stack.WellNested root := by
  induction fuel generalizing s position regions c with
  | zero => exact absurd h Returns.throw
  | succ fuel ih =>
    obtain ⟨found, c₁, hturn, h⟩ := Returns.bind h
    cases found with
    | none =>
      obtain ⟨rfl, -⟩ := Returns.pure h
      exact hs
    | some next =>
      dsimp only at h
      split at h
      · obtain ⟨rfl, -⟩ := Returns.pure h
        exact hs
      · exact ih (advance_wellNested hroot hs hturn) h

/-! ### The start of a line -/

/-- Conditions hold one after another, each from where the match of the one before ends. -/
inductive Continues (engine : Engine) (line : Text) (s : Stack) :
    List (Compiled × Nat) → Nat → Nat → Prop
  | nil {position : Nat} : Continues engine line s [] position position
  | cons {rule : Compiled} {i position last : Nat} {rest : List (Compiled × Nat)} {f : Frame}
      {regex : Regex} {m : Match} (frame : s.rising[i]? = some f) (condition : f.ending = some regex)
      (holds : engine.matchAt regex line position = .ok (some m))
      (others : Continues engine line s rest m.stop last) :
      Continues engine line s ((rule, i + 1) :: rest) position last

/-- How a line goes on with a stack: with the whole of it, or, where a condition fails, with the frames
below that of the condition and the rules that were continued before it. -/
inductive Resumes (engine : Engine) (line : Text) (s : Stack) : Advance → Prop
  | whole {position : Nat} {regions : List Region} (all : Continues engine line s s.whiles 0 position) :
      Resumes engine line s ⟨s, position, regions⟩
  | below {rule : Compiled} {i position : Nat} {held rest : List (Compiled × Nat)} {f : Frame}
      {regex : Regex} {t : Stack} {regions : List Region} (lowest : 0 < i)
      (split : s.whiles = held ++ (rule, i + 1) :: rest)
      (before : Continues engine line s held 0 position)
      (frame : s.rising[i]? = some f) (condition : f.ending = some regex)
      (fails : engine.matchAt regex line position = .ok none)
      (rising : t.rising = s.rising.take i) (whiles : t.whiles = held) :
      Resumes engine line s ⟨t, position, regions⟩

theorem Continues.append {rule : Compiled} {i start : Nat} {held : List (Compiled × Nat)}
    {regex : Regex} {m : Match} (h : Continues engine line s held start position)
    (hframe : s.rising[i]? = some f) (hcondition : f.ending = some regex)
    (hholds : engine.matchAt regex line position = .ok (some m)) :
    Continues engine line s (held ++ [(rule, i + 1)]) start m.stop := by
  induction h with
  | nil => exact .cons hframe hcondition hholds .nil
  | cons frame condition holds _ ih => exact .cons frame condition holds (ih hholds)

/-- A rule that a line must continue does not stand lowest. -/
theorem Stack.WellNested.lowest_pos {i : Nat} (hs : s.WellNested root)
    (hroot : ¬ root.rule.form.HasEnding) (hf : s.rising[i]? = some f) (hwhile : f.rule.form.IsWhile) :
    0 < i := by
  refine Nat.pos_of_ne_zero ?_
  rintro rfl
  have hlowest := hs.root
  rw [List.head?_eq_getElem?, hf] at hlowest
  cases hlowest
  exact hroot hwhile.hasEnding

theorem continueWhiles_resumes {done rest : List (Compiled × Nat)} {regions : List Region} {start : Advance}
    (hroot : ¬ root.rule.form.HasEnding) (hs : s.WellNested root) (hsplit : s.whiles = done ++ rest)
    (hdone : Continues engine line s done 0 position)
    (h : Returns (continueWhiles engine cut line s rest done position regions) c start d) :
    Resumes engine line s start ∧ start.stack.WellNested root := by
  induction rest generalizing done position regions c with
  | nil =>
    obtain ⟨rfl, -⟩ := Returns.pure h
    rw [List.append_nil] at hsplit
    exact ⟨.whole (hsplit ▸ hdone), hs⟩
  | cons w rest ih =>
    obtain ⟨rule, n⟩ := w
    obtain ⟨i, f, rfl, hf, rfl, hwhile, hbefore⟩ := Stack.goingOn_split (hs.whiles ▸ hsplit)
    have hpos := hs.lowest_pos hroot hf hwhile
    have htop := Stack.top_lowest hf
    unfold continueWhiles at h
    dsimp only at h
    rw [htop] at h
    split at h
    · rename_i condition whileCaptures hcondition hform
      obtain ⟨answered, c₁, ha, h⟩ := Returns.bind h
      obtain ⟨hmatch, rfl⟩ := Returns.answer ha
      split at h
      · obtain ⟨rfl, -⟩ := Returns.pure h
        have hheight : i < s.height := Stack.length_rising ▸ (List.getElem?_eq_some_iff.mp hf).1
        have hrising := Stack.rising_pop_lowest hpos hheight
        refine ⟨.below hpos hsplit hdone hf hcondition hmatch hrising rfl, ?_⟩
        refine hs.shrink hpos hrising ?_
        have hlisted : Stack.goingOn { (s.lowest (i + 1)).pop with whiles := done } =
            (((s.lowest (i + 1)).pop.rising).zipIdx 1).filterMap Frame.goesOn? := rfl
        rw [hlisted, hrising, hbefore]
      · obtain ⟨found, c₂, -, h⟩ := Returns.bind h
        exact ih (by rw [hsplit, List.append_assoc]; rfl) (hdone.append hf hcondition hmatch) h
    · exact absurd h Returns.throw

/-- A line leaves the stack well nested. -/
theorem divideLine_wellNested {allowed : Allowance} {depth : Nat} {after : Stack} {regions : List Region}
    (hroot : ¬ root.rule.form.HasEnding) (hs : s.WellNested root)
    (h : Returns (divideLine engine allowed depth s line) c (after, regions) d) : after.WellNested root := by
  cases depth with
  | zero => exact absurd h Returns.throw
  | succ depth =>
    rw [divideLine, searchLine] at h
    obtain ⟨start, c₁, hstart, h⟩ := Returns.bind h
    obtain ⟨_, c₂, -, h⟩ := Returns.bind h
    obtain ⟨final, c₃, hfinal, h⟩ := Returns.bind h
    cases (Returns.pure h).1
    obtain ⟨-, hs'⟩ := continueWhiles_resumes hroot hs rfl .nil hstart
    exact searchLoop_wellNested hroot hs' hfinal

end Highlighter.Grammar

namespace Highlighter.Tokenizer

open Highlighter.Grammar
open Highlighter.Pattern (Match Text)

/-- What a tokenizer comes to in the course of documents: between lines, at the start of a line after the
rules that it continues, and between the searches of a line. -/
inductive Reaches (t : Tokenizer) : Compiler → Stack → Prop
  | between {c : Compiler} {stack : Stack} (comes : t.Comes c stack) : Reaches t c stack
  | resumed {c d : Compiler} {stack : Stack} {line : Text} {cut : Cut} {start : Advance}
      (comes : t.Comes c stack)
      (resumed : Returns (continueWhiles t.engine cut line stack stack.whiles [] 0 []) c start d) :
      Reaches t d start.stack
  | searched {c d : Compiler} {stack : Stack} {line : Text} {cut : Cut} {position : Nat} {next : Advance}
      (before : Reaches t c stack)
      (turned : Returns (advance t.engine cut line stack position) c (some next) d) :
      Reaches t d next.stack

variable {t : Tokenizer} {c : Compiler} {stack : Stack}

theorem rootStack_wellNested (hroot : ¬ t.root.form.HasEnding) :
    t.rootStack.WellNested t.rootStack.top where
  root := rfl
  nested := .singleton _
  endings f hf hending := by
    cases List.mem_singleton.mp hf
    exact absurd hending hroot
  whiles := by
    have hnone : Frame.goesOn? (t.rootStack.top, 1) = none :=
      Frame.goesOn?_eq_none.mpr fun hwhile => hroot hwhile.hasEnding
    change [] = [(t.rootStack.top, 1)].filterMap Frame.goesOn?
    rw [List.filterMap_cons_none hnone, List.filterMap_nil]

theorem Comes.wellNested (hroot : ¬ t.root.form.HasEnding) (h : t.Comes c stack) :
    stack.WellNested t.rootStack.top := by
  induction h with
  | start => exact rootStack_wellNested hroot
  | line before divided ih => exact divideLine_wellNested hroot ih divided
  | document before ih => exact rootStack_wellNested hroot

theorem Reaches.wellNested (hroot : ¬ t.root.form.HasEnding) (h : t.Reaches c stack) :
    stack.WellNested t.rootStack.top := by
  induction h with
  | between comes => exact comes.wellNested hroot
  | resumed comes resumed => exact (continueWhiles_resumes hroot (comes.wellNested hroot) rfl .nil resumed).2
  | searched before turned ih => exact advance_wellNested hroot ih turned

/-- Whatever a tokenizer comes to in the course of documents, the stack is well nested on the root, which is
never closed, and lists the rules that a line must continue from the bottom up. Where a line fails to continue
one, its frame and all above it are gone, and the frames below it are as they were. -/
theorem reaches_wellNested {engine : Engine} {scope : String} {library : Library} {made : Compiler}
    (h : ofLibrary engine scope library = (.ok t, made)) :
    (∀ c stack, t.Reaches c stack →
      stack.WellNested t.rootStack.top ∧
      stack.whiles.Pairwise (·.2 < ·.2) ∧
      (∀ rule n, (rule, n) ∈ stack.whiles ↔
        ∃ i f, n = i + 1 ∧ stack.rising[i]? = some f ∧ f.rule.form.IsWhile ∧ f.rule = rule) ∧
      ∀ line position m captures d,
        Returns (seek t.engine line stack.top.rule stack.top.ending position) c (some (.ends m captures)) d →
        stack.below ≠ []) ∧
    ∀ c d stack line cut start, t.Comes c stack →
      Returns (continueWhiles t.engine cut line stack stack.whiles [] 0 []) c start d →
      Resumes t.engine line stack start := by
  obtain ⟨g, -, -, hmade⟩ := ofLibrary_made h
  obtain ⟨choice, hchoice, -⟩ := compileRoot_made hmade
  have hroot : ¬ t.root.form.HasEnding := by
    rw [hchoice]
    exact id
  refine ⟨fun c stack hreaches => ?_, fun c d stack line cut start hcomes hstart => ?_⟩
  · have hnested := hreaches.wellNested hroot
    refine ⟨hnested, hnested.whiles ▸ Stack.pairwise_goingOn, fun rule n => ?_, ?_⟩
    · rw [hnested.whiles, Stack.mem_goingOn]
    · intro line position m captures d hseek
      cases seek_sought hseek with
      | ends form => exact hnested.below_ne_nil hroot (by rw [form]; trivial)
  · exact (continueWhiles_resumes hroot (hcomes.wellNested hroot) rfl .nil hstart).1

/-- The height of a stack after lines, with the heights at which the next line must continue a rule. -/
def heightsAfter (t : Tokenizer) : List Text → Compiler → Stack → Option (Nat × List Nat)
  | [], _, stack => some (stack.height, stack.whiles.map (·.2))
  | line :: lines, c, stack =>
    match outcome (divideLine t.engine searchBound captureDepth stack line) c with
    | (.ok (after, _), d) => heightsAfter t lines d after
    | (.error _, _) => none

theorem Comes.heightsAfter {lines : List Text} {heights : Nat × List Nat} (h : t.Comes c stack)
    (hlines : t.heightsAfter lines c stack = some heights) :
    ∃ d after, t.Comes d after ∧ after.height = heights.1 ∧ after.whiles.map (·.2) = heights.2 := by
  induction lines generalizing c stack with
  | nil =>
    cases hlines
    exact ⟨c, stack, h, rfl, rfl⟩
  | cons line lines ih =>
    rw [Tokenizer.heightsAfter] at hlines
    split at hlines
    · rename_i after regions d hline
      exact ih (h.line hline) hlines
    · cases hlines

/-- A tree with one grammar: quotations, which all their lines begin with a mark, and brackets in them, which
may contain quotations. -/
def quotations : Files.Tree :=
  let grammar := ["\x7b\"scopeName\":\"s\",\"patterns\":[\x7b\"begin\":\"> \",\"while\":\"> \",",
    "\"name\":\"q\",\"patterns\":[\x7b\"begin\":\"<\",\"end\":\"/\",\"name\":\"b\",",
    "\"contentName\":\"i\",\"patterns\":[\x7b\"include\":\"$self\"\x7d]\x7d]\x7d]\x7d"]
  ⟨[(["g.json"], .file (Text.encodeUtf8 (grammar.flatMap String.toList)))]⟩

/-- After `> <> <` two quotations are open, each with a bracket in it; a second line `> ` continues the outer
one alone. -/
theorem reaches_wellNested_quotations : ∃ t notes c stack d after,
    load quotations (.ofString "g.json") "s" [] = (.ok t, notes) ∧
      t.Comes c stack ∧ stack.height = 5 ∧ stack.whiles.map (·.2) = [2, 4] ∧
      stack.WellNested t.rootStack.top ∧
      t.Comes d after ∧ after.height = 3 ∧ after.whiles.map (·.2) = [2] ∧
      after.WellNested t.rootStack.top := by
  have hrun : resultOf (load quotations (.ofString "g.json") "s" [])
      (fun t => .ok (t.heightsAfter [searched "> <> <"] t.compiler t.rootStack,
        t.heightsAfter [searched "> <> <", searched "> "] t.compiler t.rootStack)) =
      some (some (5, [2, 4]), some (3, [2])) := by decide +kernel
  obtain ⟨t, notes, ht, h⟩ := resultOf_eq hrun
  obtain ⟨library, made, -, hmade⟩ := loadWith_made ht
  obtain ⟨hfirst, hsecond⟩ := Prod.mk.inj (Except.ok.inj h)
  obtain ⟨c, stack, hcomes, hheight, hwhiles⟩ := Comes.start.heightsAfter hfirst
  obtain ⟨d, after, hcomes', hheight', hwhiles'⟩ := Comes.start.heightsAfter hsecond
  refine ⟨t, notes, c, stack, d, after, ht, hcomes, hheight, hwhiles, ?_, hcomes', hheight', hwhiles', ?_⟩
  · exact ((reaches_wellNested hmade).1 c stack (.between hcomes)).1
  · exact ((reaches_wellNested hmade).1 d after (.between hcomes')).1

end Highlighter.Tokenizer

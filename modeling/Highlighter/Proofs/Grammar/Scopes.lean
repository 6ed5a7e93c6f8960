import Highlighter.Proofs.Grammar.Outcome

/-! Scopes below other scopes. What all scopes of a stack start with is written in front of the scopes of
all regions, and is of no other consequence. -/

namespace Highlighter.Grammar

open Highlighter.Pattern (Match Span Text)

def Region.onto (base : Scope) (r : Region) : Region := { r with scope := base ++ r.scope }

def Frame.onto (base : Scope) (f : Frame) : Frame := { f with scope := base ++ f.scope }

def Stack.onto (base : Scope) (s : Stack) : Stack :=
  { s with top := s.top.onto base, below := s.below.map (·.onto base) }

def Found.onto (base : Scope) (f : Found) : Found :=
  { f with stack := f.stack.onto base, scope := base ++ f.scope }

def Progress.onto (base : Scope) (p : Progress) : Progress :=
  { p with regions := p.regions.map (·.onto base) }

def Advance.onto (base : Scope) (a : Advance) : Advance :=
  { a with stack := a.stack.onto base, regions := a.regions.map (·.onto base) }

variable {engine : Engine} {base scope : Scope} {line : Text} {stack : Stack} {position : Nat}

/-! ### Regions -/

@[simp] theorem Region.onto_start (r : Region) : (r.onto base).start = r.start := rfl
@[simp] theorem Region.onto_stop (r : Region) : (r.onto base).stop = r.stop := rfl
@[simp] theorem Region.onto_scope (r : Region) : (r.onto base).scope = base ++ r.scope := rfl

theorem gap_onto (start stop : Nat) (scope : Scope) :
    gap start stop (base ++ scope) = (gap start stop scope).map (·.onto base) := by
  unfold gap
  split <;> rfl

theorem splice_onto (old : Region) (start stop : Nat) (inner : List Region) :
    splice (old.onto base) start stop (inner.map (·.onto base)) =
      (splice old start stop inner).map (·.onto base) := by
  simp [splice, gap_onto]

theorem shift_onto (offset : Nat) (regions : List Region) :
    (regions.map (·.onto base)).map (·.shift offset) =
      (regions.map (·.shift offset)).map (·.onto base) := by
  simp [Region.shift, Region.onto]

theorem holder?_onto : ∀ (reversed after : List Region),
    holder? position (reversed.map (·.onto base)) (after.map (·.onto base)) =
      (holder? position reversed after).map fun (before, old, rest) =>
        (before.map (·.onto base), old.onto base, rest.map (·.onto base))
  | [], _ => rfl
  | [r], _ => rfl
  | r :: s :: reversed, after => by
    have ih := holder?_onto (s :: reversed) (r :: after)
    simp only [List.map_cons] at ih
    rw [List.map_cons, List.map_cons, holder?, holder?, Region.onto_stop, ih]
    split
    · rfl
    · simp

/-! ### Matches -/

/-- Dividing a text below another scope gives the same regions below that scope. -/
def Division.Onto (divide : Division) : Prop := ∀ text base scope rule,
  divide text (base ++ scope) rule = List.map (·.onto base) <$> divide text scope rule

def Cut.Onto (cut : Cut) : Prop := ∀ base scope m captures,
  cut (base ++ scope) m captures = List.map (·.onto base) <$> cut scope m captures

variable {divide : Division} {cut : Cut}

theorem addSpan_onto (hd : divide.Onto) {span : Span} {rule : Rule} {p : Progress} :
    addSpan engine divide line (base ++ scope) span rule (p.onto base) =
      Progress.onto base <$> addSpan engine divide line scope span rule p := by
  have hdivide (text scope rule) := hd text base scope rule
  have hholder : holder? span.start (p.regions.map (·.onto base)).reverse [] =
      (holder? span.start p.regions.reverse []).map fun (before, old, rest) =>
        (before.map (·.onto base), old.onto base, rest.map (·.onto base)) := by
    rw [← List.map_reverse]
    exact holder?_onto _ []
  unfold addSpan
  by_cases hs : span.start < p.covered
  · simp only [Progress.onto, if_pos hs, hholder]
    cases holder? span.start p.regions.reverse [] with
    | none => simp
    | some found => simp [-List.map_map, hdivide, shift_onto, splice_onto, Progress.onto]
  · simp [-List.map_map, Progress.onto, if_neg hs, hdivide, shift_onto, gap_onto]

theorem addCapture_onto (hd : divide.Onto) {m : Match} {capture : Nat × Rule} {p : Progress} :
    addCapture engine divide line (base ++ scope) m capture (p.onto base) =
      Progress.onto base <$> addCapture engine divide line scope m capture p := by
  unfold addCapture
  split
  · split
    · simp
    · exact addSpan_onto hd
  · simp

theorem addCaptures_onto (hd : divide.Onto) {m : Match} {captures : Captures} {p : Progress} :
    captures.foldlM (fun p capture => addCapture engine divide line (base ++ scope) m capture p)
        (p.onto base) =
      Progress.onto base <$>
        captures.foldlM (fun p capture => addCapture engine divide line scope m capture p) p := by
  induction captures generalizing p with
  | nil => simp
  | cons capture captures ih => simp [addCapture_onto hd, ih]

theorem divideMatch_onto (hd : divide.Onto) :
    Cut.Onto (divideMatch (addCapture engine divide line)) := by
  intro base scope m captures
  have hstart : (⟨[], m.start⟩ : Progress) = Progress.onto base ⟨[], m.start⟩ := rfl
  unfold divideMatch
  rw [hstart, addCaptures_onto hd, bind_map_left, map_bind]
  refine bind_congr fun p => ?_
  simp [Progress.onto, gap_onto]

/-! ### Stacks -/

theorem top_scope_onto : (stack.onto base).top.scope = base ++ stack.top.scope := rfl

theorem height_onto : (stack.onto base).height = stack.height := by simp [Stack.onto, Stack.height]

theorem frames_onto : (stack.onto base).frames = stack.frames.map (·.onto base) := rfl

theorem pop_onto : (stack.onto base).pop = stack.pop.onto base := by
  obtain ⟨top, below, whiles⟩ := stack
  cases below <;> rfl

theorem lowest_onto (n : Nat) : (stack.onto base).lowest n = (stack.lowest n).onto base := by
  unfold Stack.lowest
  rw [height_onto, frames_onto, ← List.map_drop]
  cases stack.frames.drop (stack.height - n) <;> rfl

theorem frame_same_onto (f g : Frame) : (f.onto base).same (g.onto base) = f.same g := by
  have hscope : (base ++ f.scope == base ++ g.scope) = (f.scope == g.scope) := by
    rw [Bool.eq_iff_iff]
    simp
  simp [Frame.onto, Frame.same, hscope]

theorem same_onto (s t : Stack) : (s.onto base).same (t.onto base) = s.same t := by
  unfold Stack.same
  rw [height_onto, height_onto, frames_onto, frames_onto, List.zip_map, List.all_map]
  congr 3
  funext ⟨f, g⟩
  exact frame_same_onto f g

theorem follow_onto (event : Event) :
    (stack.onto base).follow event = (stack.follow event).onto base := by
  cases event with
  | ends m captures =>
    simp only [Stack.follow, Found.onto, pop_onto]
    rfl
  | starts m target ending =>
    unfold Stack.follow
    dsimp only
    split <;>
      simp [Found.onto, Stack.onto, Frame.onto, Stack.push, Stack.pushWhile, Stack.frames,
        Stack.height]

/-! ### Lines -/

theorem advance_onto (hc : cut.Onto) :
    advance engine cut line (stack.onto base) position =
      Option.map (·.onto base) <$> advance engine cut line stack position := by
  have hcut (scope m captures) := hc base scope m captures
  unfold advance
  rw [map_bind]
  refine congrArg _ (funext fun answered => ?_)
  cases answered with
  | none => simp
  | some event =>
    simp only [follow_onto, top_scope_onto]
    simp [Found.onto, hcut, Advance.onto, gap_onto]

theorem searchLoop_onto (hc : cut.Onto) {fuel : Nat} {regions : List Region} :
    searchLoop engine cut line fuel (stack.onto base) position (regions.map (·.onto base)) =
      Advance.onto base <$> searchLoop engine cut line fuel stack position regions := by
  induction fuel generalizing stack position regions with
  | zero => simp [searchLoop]
  | succ fuel ih =>
    rw [searchLoop, searchLoop, advance_onto hc, map_bind, bind_map_left]
    refine congrArg _ (funext fun answered => ?_)
    cases answered with
    | none => simp [Advance.onto]
    | some next =>
      have hnext : regions.map (·.onto base) ++ (next.onto base).regions =
          (regions ++ next.regions).map (·.onto base) := by
        simp [Advance.onto]
      have hstack : (next.onto base).stack = next.stack.onto base := rfl
      have hposition : (next.onto base).position = next.position := rfl
      dsimp only [Option.map]
      rw [hnext, hstack, hposition, same_onto, ih]
      split
      · simp [Advance.onto]
      · rfl

theorem continueWhiles_onto (hc : cut.Onto) {whiles done : List (Compiled × Nat)}
    {regions : List Region} :
    continueWhiles engine cut line (stack.onto base) whiles done position
        (regions.map (·.onto base)) =
      Advance.onto base <$> continueWhiles engine cut line stack whiles done position regions := by
  induction whiles generalizing done position regions with
  | nil => simp [continueWhiles, Advance.onto]
  | cons w whiles ih =>
    obtain ⟨rule, height⟩ := w
    have hcut (scope m captures) := hc base scope m captures
    rw [continueWhiles, continueWhiles, lowest_onto, pop_onto, top_scope_onto]
    have hending : ((stack.lowest height).onto base).top.ending = (stack.lowest height).top.ending :=
      rfl
    rw [hending]
    split
    · rw [map_bind]
      refine congrArg _ (funext fun answered => ?_)
      cases answered with
      | none => simp [Advance.onto, Stack.onto]
      | some m =>
        dsimp only
        rw [hcut, bind_map_left, map_bind]
        refine bind_congr fun found => ?_
        rw [← List.map_append, ih]
    · simp

theorem searchLine_onto (hc : cut.Onto) :
    searchLine engine searchBound cut (stack.onto base) line =
      (fun (after, regions) => (after.onto base, regions.map (·.onto base))) <$>
        searchLine engine searchBound cut stack line := by
  have hstart : continueWhiles engine cut line (stack.onto base) stack.whiles [] 0 [] =
      Advance.onto base <$> continueWhiles engine cut line stack stack.whiles [] 0 [] := by
    rw [← continueWhiles_onto hc, List.map_nil]
  unfold searchLine
  have hwhiles : (stack.onto base).whiles = stack.whiles := rfl
  rw [hwhiles, hstart, map_bind, bind_map_left]
  refine bind_congr fun start => ?_
  rw [map_bind]
  refine bind_congr fun c => ?_
  have hbound : searchBound c.library (start.onto base).stack line =
      searchBound c.library start.stack line := by
    simp [searchBound, Advance.onto, height_onto]
  have hloop (fuel : Nat) : searchLoop engine cut line fuel (start.onto base).stack
      (start.onto base).position (start.onto base).regions =
        Advance.onto base <$>
          searchLoop engine cut line fuel start.stack start.position start.regions :=
    searchLoop_onto hc
  dsimp only
  rw [hbound, hloop, bind_map_left, map_bind]
  refine bind_congr fun final => ?_
  simp [Advance.onto, top_scope_onto, gap_onto]

theorem divideAlone_onto {divide : Stack → Text → Compile (Stack × List Region)}
    (hd : ∀ base stack line, divide (stack.onto base) line =
      (fun (after, regions) => (after.onto base, regions.map (·.onto base))) <$> divide stack line) :
    (divideAlone divide).Onto := by
  intro text base scope rule
  have hstack : (⟨⟨base ++ scope ++ rule.name, rule, none⟩, [], []⟩ : Stack) =
      Stack.onto base ⟨⟨scope ++ rule.name, rule, none⟩, [], []⟩ := by
    simp [Stack.onto, Frame.onto]
  simp only [divideAlone, hstack, hd]
  simp

theorem divideLine_onto {depth : Nat} (base : Scope) (stack : Stack) (line : Text) :
    divideLine engine searchBound depth (stack.onto base) line =
      (fun (after, regions) => (after.onto base, regions.map (·.onto base))) <$>
        divideLine engine searchBound depth stack line := by
  induction depth generalizing stack line base with
  | zero => simp [divideLine]
  | succ depth ih => exact searchLine_onto (divideMatch_onto (divideAlone_onto ih))

end Highlighter.Grammar

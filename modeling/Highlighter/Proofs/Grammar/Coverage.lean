import Highlighter.Proofs.Grammar.Document
import Highlighter.Proofs.Grammar.Overlap
import Highlighter.Proofs.Grammar.Seek

/-! The tokens of a document leave no character out. Each turn of a search covers all that lies between
the position before it and the position after it, and so does each division of a match; what is left at
the end of a line goes to the rule on top. All scopes start with the one the document starts with. -/

namespace Highlighter.Grammar

open Highlighter.Pattern (Match Span Text)

/-- Regions that leave no position of a stretch out, each with a scope that goes on from another. -/
structure Fills (base : Scope) (start stop : Nat) (rs : List Region) : Prop where
  covers : ∀ x, start ≤ x → x < stop → 0 < overlap rs x
  under : ∀ r ∈ rs, base <+: r.scope

theorem Fills.nil {base : Scope} {a : Nat} : Fills base a a [] :=
  ⟨fun x _ _ => by omega, fun _ hr => by cases hr⟩

theorem Fills.append {base : Scope} {a b c : Nat} {rs ss : List Region} (h₁ : Fills base a b rs)
    (h₂ : Fills base b c ss) : Fills base a c (rs ++ ss) := by
  refine ⟨fun x ha hc => ?_, fun r hr => ?_⟩
  · rw [overlap_append]
    by_cases hb : x < b
    · have := h₁.covers x ha hb
      omega
    · have := h₂.covers x (by omega) hc
      omega
  · rcases List.mem_append.mp hr with hr | hr
    · exact h₁.under r hr
    · exact h₂.under r hr

theorem Fills.gap {base scope : Scope} (h : base <+: scope) (a b : Nat) :
    Fills base a b (gap a b scope) := by
  refine ⟨fun x ha hb => by rw [overlap_gap, if_pos ⟨ha, hb⟩]; omega, fun r hr => ?_⟩
  unfold Grammar.gap at hr
  split at hr
  · rw [List.mem_singleton.mp hr]; exact h
  · cases hr

theorem Fills.of_prefix {base scope : Scope} {a b : Nat} {rs : List Region} (h : Fills scope a b rs)
    (hb : base <+: scope) : Fills base a b rs :=
  ⟨h.covers, fun r hr => hb.trans (h.under r hr)⟩

/-- A division fills the text under the scope it is given. -/
def Division.Fills (divide : Division) : Prop :=
  ∀ text scope rule c rs c', Returns (divide text scope rule) c rs c' →
    Grammar.Fills scope 0 text.size rs

theorem Division.Fills.covers {divide : Division} (h : divide.Fills) : divide.Covers :=
  fun text scope rule c rs c' hr x hx =>
    (h text scope rule c rs c' hr).covers x (Nat.zero_le x) hx

/-- The division of a match fills it under the scope it is given. -/
def Cut.Fills (cut : Cut) (size : Nat) : Prop :=
  ∀ scope m captures c rs c', m.Lies 0 size → Returns (cut scope m captures) c rs c' →
    Grammar.Fills scope m.start m.stop rs

variable {engine : Engine} {divide : Division} {cut : Cut} {line : Text} {base scope : Scope}
  {stack : Stack} {m : Match} {c c' : Compiler} {position : Nat}

theorem shift_under {rs : List Region} (offset : Nat) (h : ∀ r ∈ rs, scope <+: r.scope) :
    ∀ r ∈ rs.map (·.shift offset), scope <+: r.scope := by
  intro r hr
  obtain ⟨s, hs, rfl⟩ := List.mem_map.mp hr
  exact h s hs

theorem addSpan_under (hd : divide.Fills) {span : Span} {rule : Rule} {p q : Progress}
    (hp : ∀ r ∈ p.regions, scope <+: r.scope)
    (h : Returns (addSpan engine divide line scope span rule p) c q c') :
    ∀ r ∈ q.regions, scope <+: r.scope := by
  obtain ⟨compiled, c₁, inner, -, ⟨-, before, old, after, hh, hi, rfl⟩ | ⟨-, hi, rfl⟩⟩ :=
    addSpan_cases h
  · have hregions : p.regions = before ++ old :: after := by simpa using holder?_eq hh
    have hold : scope <+: old.scope := hp old (by simp [hregions])
    have hinner := shift_under span.start (hd _ _ _ _ _ _ hi).under
    intro r hr
    simp only [splice, List.mem_append] at hr
    rcases hr with (hr | (hr | hr) | hr) | hr
    · exact hp r (by simp [hregions, hr])
    · exact (Fills.gap hold _ _).under r hr
    · exact hold.trans (hinner r hr)
    · exact (Fills.gap hold _ _).under r hr
    · exact hp r (by simp [hregions, hr])
  · intro r hr
    simp only [List.mem_append] at hr
    rcases hr with (hr | hr) | hr
    · exact hp r hr
    · exact (Fills.gap List.prefix_rfl _ _).under r hr
    · exact shift_under span.start (hd _ _ _ _ _ _ hi).under r hr

theorem addCapture_under (hd : divide.Fills) {capture : Nat × Rule} {p q : Progress}
    (hp : ∀ r ∈ p.regions, scope <+: r.scope)
    (h : Returns (addCapture engine divide line scope m capture p) c q c') :
    ∀ r ∈ q.regions, scope <+: r.scope := by
  obtain ⟨rfl, -⟩ | ⟨span, -, -, h⟩ := addCapture_cases h
  · exact hp
  · exact addSpan_under hd hp h

theorem addCaptures_under (hd : divide.Fills) {captures : Captures} {p q : Progress}
    (hp : ∀ r ∈ p.regions, scope <+: r.scope)
    (h : Returns (captures.foldlM
      (fun p capture => addCapture engine divide line scope m capture p) p) c q c') :
    ∀ r ∈ q.regions, scope <+: r.scope := by
  induction captures generalizing p c with
  | nil =>
    obtain ⟨rfl, -⟩ := Returns.pure h
    exact hp
  | cons capture captures ih =>
    rw [List.foldlM_cons] at h
    obtain ⟨r, c₁, hr, rest⟩ := Returns.bind h
    exact ih (addCapture_under hd hp hr) rest

theorem divideMatch_fills (hd : divide.Fills) :
    Cut.Fills (divideMatch (addCapture engine divide line)) line.size := by
  intro scope m captures c rs c' hm h
  obtain ⟨p, c₁, hp, rest⟩ := Returns.bind h
  obtain ⟨rfl, rfl⟩ := Returns.pure rest
  have hext := addCaptures_extends hd.covers hm hp
  have hunder := addCaptures_under hd (by simp) hp
  refine Fills.append (b := p.covered) ⟨fun x hx hx' => ?_, hunder⟩ (.gap List.prefix_rfl _ _)
  have := hext.overlap_le x
  rw [if_pos ⟨hx, hx'⟩] at this
  omega

/-! ### Stacks -/

/-- All scopes on the stack go on from one. -/
def Stack.Under (base : Scope) (s : Stack) : Prop := ∀ f ∈ s.frames, base <+: f.scope

theorem Stack.Under.top (h : stack.Under base) : base <+: stack.top.scope :=
  h _ List.mem_cons_self

theorem Stack.Under.push {f : Frame} (h : stack.Under base) (hf : base <+: f.scope) :
    (stack.push f).Under base := by
  intro g hg
  rcases List.mem_cons.mp hg with rfl | hg
  · exact hf
  · exact h g hg

theorem Stack.Under.pop (h : stack.Under base) : stack.pop.Under base := by
  intro f hf
  unfold Stack.pop at hf
  split at hf
  · exact h f hf
  · rename_i g rest hb
    refine h f (List.mem_cons_of_mem _ ?_)
    rw [hb]
    exact hf

theorem Stack.Under.lowest (h : stack.Under base) (n : Nat) : (stack.lowest n).Under base := by
  intro f hf
  unfold Stack.lowest at hf
  split at hf
  · exact h f hf
  · rename_i g rest hb
    refine h f (List.mem_of_mem_drop (i := stack.height - n) ?_)
    rw [hb]
    exact hf

theorem Stack.Under.follow (h : stack.Under base) (event : Event) :
    (stack.follow event).stack.Under base ∧ base <+: (stack.follow event).scope := by
  have hscope {names : Scope} : base <+: stack.top.scope ++ names :=
    h.top.trans (List.prefix_append _ _)
  cases event with
  | ends m captures => exact ⟨h.pop, h.top⟩
  | starts m target ending =>
    unfold Stack.follow
    dsimp only
    split
    · exact ⟨h, hscope⟩
    · exact ⟨h, hscope⟩
    · exact ⟨h.push (hscope.trans (List.prefix_append _ _)), hscope⟩
    · exact ⟨h.push (hscope.trans (List.prefix_append _ _)), hscope⟩

/-! ### Lines -/

/-- One turn fills what lies between the position before it and the position after it. -/
theorem advance_fills (hs : engine.Sound) (hc : cut.Fills line.size) (hu : stack.Under base)
    {next : Advance} (h : Returns (advance engine cut line stack position) c (some next) c') :
    next.stack.Under base ∧ position ≤ next.position ∧ next.position ≤ line.size ∧
      Fills base position next.position next.regions := by
  obtain ⟨answered, c₁, hf, rest⟩ := Returns.bind h
  split at rest
  · obtain ⟨he, _⟩ := Returns.pure rest
    cases he
  · rename_i event
    obtain ⟨rs, c₂, hr, rest⟩ := Returns.bind rest
    obtain ⟨he, rfl⟩ := Returns.pure rest
    cases he
    obtain ⟨hstack, hscope⟩ := hu.follow event
    have hm := follow_hit stack event ▸ (seek_sought hf).lies hs
    have hcut := hc _ _ _ _ _ _ (hm.mono (Nat.zero_le _)) hr
    exact ⟨hstack, Nat.le_trans hm.from_le hm.start_le, hm.stop_le,
      (Fills.gap hu.top _ _).append (hcut.of_prefix hscope)⟩

/-- What is added to the regions on the way from one position to another fills what lies between. -/
structure Reaches (base : Scope) (size position : Nat) (regions : List Region) (last : Advance) :
    Prop where
  under : last.stack.Under base
  from_le : position ≤ last.position
  le_size : last.position ≤ size
  added : ∃ added, last.regions = regions ++ added ∧ Fills base position last.position added

theorem Reaches.refl {size : Nat} {regions : List Region} (hu : stack.Under base)
    (hp : position ≤ size) : Reaches base size position regions ⟨stack, position, regions⟩ :=
  ⟨hu, Nat.le_refl _, hp, [], (List.append_nil _).symm, .nil⟩

theorem Reaches.step {size next : Nat} {regions added : List Region} {last : Advance}
    (hp : position ≤ next) (ha : Fills base position next added)
    (h : Reaches base size next (regions ++ added) last) : Reaches base size position regions last := by
  obtain ⟨more, he, hm⟩ := h.added
  exact ⟨h.under, Nat.le_trans hp h.from_le, h.le_size, added ++ more,
    by rw [he, List.append_assoc], ha.append hm⟩

theorem continueWhiles_reaches (hs : engine.Sound) (hc : cut.Fills line.size)
    (hu : stack.Under base) {whiles done : List (Compiled × Nat)} {regions : List Region}
    {last : Advance} (hp : position ≤ line.size)
    (h : Returns (continueWhiles engine cut line stack whiles done position regions) c last c') :
    Reaches base line.size position regions last := by
  induction whiles generalizing done position regions c with
  | nil =>
    obtain ⟨rfl, -⟩ := Returns.pure h
    exact .refl hu hp
  | cons w whiles ih =>
    obtain ⟨rule, height⟩ := w
    rw [continueWhiles] at h
    split at h
    · obtain ⟨answered, c₁, ha, rest⟩ := Returns.bind h
      obtain ⟨hm, rfl⟩ := Returns.answer ha
      split at rest
      · obtain ⟨rfl, -⟩ := Returns.pure rest
        exact .refl (hu.lowest height).pop hp
      · rename_i m
        obtain ⟨found, c₂, hf, rest⟩ := Returns.bind rest
        obtain ⟨hlies, hstart⟩ := hs.matchAt hm
        have hfill := hc _ _ _ _ _ _ (hlies.mono (Nat.zero_le _)) hf
        rw [hstart] at hfill
        exact .step (Nat.le_trans hlies.from_le hlies.start_le)
          (hfill.of_prefix (hu.lowest height).top) (ih hlies.stop_le rest)
    · exact absurd h Returns.throw

theorem searchLoop_reaches (hs : engine.Sound) (hc : cut.Fills line.size) {fuel : Nat}
    {regions : List Region} {last : Advance} (hu : stack.Under base) (hp : position ≤ line.size)
    (h : Returns (searchLoop engine cut line fuel stack position regions) c last c') :
    Reaches base line.size position regions last := by
  induction fuel generalizing stack position regions c with
  | zero => exact absurd h Returns.throw
  | succ fuel ih =>
    rw [searchLoop] at h
    obtain ⟨answered, c₁, ha, rest⟩ := Returns.bind h
    split at rest
    · obtain ⟨rfl, -⟩ := Returns.pure rest
      exact .refl hu hp
    · rename_i next
      obtain ⟨hstack, hle, hsize, hfill⟩ := advance_fills hs hc hu ha
      dsimp only at rest
      split at rest
      · rename_i hsame
        obtain ⟨rfl, -⟩ := Returns.pure rest
        have hpos : next.position = position := by simp_all
        exact .step hle hfill (hpos ▸ .refl hu hsize)
      · exact .step hle hfill (ih hstack hsize rest)

theorem searchLine_fills (hs : engine.Sound) (hc : cut.Fills line.size) (hu : stack.Under base)
    {allowed : Allowance} {after : Stack} {rs : List Region}
    (h : Returns (searchLine engine allowed cut stack line) c (after, rs) c') :
    after.Under base ∧ Fills base 0 line.size rs := by
  unfold searchLine at h
  obtain ⟨start, c₁, hstart, rest⟩ := Returns.bind h
  obtain ⟨_, c₂, -, rest⟩ := Returns.bind rest
  obtain ⟨final, c₃, hfinal, rest⟩ := Returns.bind rest
  obtain ⟨he, -⟩ := Returns.pure rest
  cases he
  have hw := continueWhiles_reaches hs hc hu (Nat.zero_le _) hstart
  have hl := searchLoop_reaches hs hc hw.under hw.le_size hfinal
  obtain ⟨added, ha, hfill⟩ := hw.added
  obtain ⟨more, hm, hmore⟩ := hl.added
  rw [hm, ha, List.nil_append]
  exact ⟨hl.under, (hfill.append hmore).append (.gap hl.under.top _ _)⟩

/-- Dividing a text as a line of its own fills it under the scope it is given. -/
theorem divideAlone_fills {divide : Stack → Text → Compile (Stack × List Region)}
    (hd : ∀ {base stack line c after rs c'}, stack.Under base →
      Returns (divide stack line) c (after, rs) c' → Fills base 0 line.size rs) :
    (divideAlone divide).Fills := by
  intro text scope rule c rs c' hr
  obtain ⟨⟨inner, regions⟩, c₁, hi, rest⟩ := Returns.bind hr
  obtain ⟨rfl, rfl⟩ := Returns.pure rest
  refine hd (fun f hf => ?_) hi
  rw [List.mem_singleton.mp hf]
  exact List.prefix_append _ _

theorem divideLine_fills (hs : engine.Sound) {allowed : Allowance} {depth : Nat}
    (hu : stack.Under base) {after : Stack} {rs : List Region}
    (h : Returns (divideLine engine allowed depth stack line) c (after, rs) c') :
    after.Under base ∧ Fills base 0 line.size rs := by
  induction depth generalizing stack line base after rs c c' with
  | zero => exact absurd h Returns.throw
  | succ depth ih =>
    refine searchLine_fills hs (divideMatch_fills (divideAlone_fills ?_)) hu h
    intro base stack line c after rs c' hu h
    exact (ih hu h).2

/-! ### Documents -/

/-- Tokens of lines, the first of which has a number, that leave no character out, stay within their
lines, follow the lines' order, and go on from one scope. -/
structure Covering (base : Scope) (first : Nat) (lines : List Str) (tokens : List Token) : Prop where
  covers : ∀ n line, lines[n]? = some line → ∀ x : Nat, x < line.length →
    ∃ t ∈ tokens, t.line = (first + n : Nat) ∧ t.start ≤ x ∧ x < t.stop
  within : ∀ t ∈ tokens, ∃ n line, lines[n]? = some line ∧ t.line = (first + n : Nat) ∧
    0 ≤ t.start ∧ t.start < t.stop ∧ t.stop ≤ line.length
  in_order : tokens.Pairwise (·.line ≤ ·.line)
  under : ∀ t ∈ tokens, base <+: t.scopes

theorem tokenOf_eq_some {n length : Nat} {r : Region} {t : Token} :
    tokenOf n length r = some t ↔ r.start < min r.stop length ∧
      t = ⟨n, r.start, (min r.stop length : Nat), r.scope⟩ := by
  unfold tokenOf
  split
  · rename_i hlt
    simp [hlt, eq_comm]
  · rename_i hle
    simp [hle]

/-- The tokens of one line's regions. -/
theorem Covering.of_fills {n : Nat} {line : Str} {rs : List Region}
    (h : Fills base 0 (line.length + 1) rs) :
    Covering base n [line] (rs.filterMap (tokenOf n line.length)) := by
  have hmem {t : Token} (ht : t ∈ rs.filterMap (tokenOf n line.length)) :
      ∃ r ∈ rs, r.start < min r.stop line.length ∧
        t = ⟨n, r.start, (min r.stop line.length : Nat), r.scope⟩ := by
    obtain ⟨r, hr, ht⟩ := List.mem_filterMap.mp ht
    exact ⟨r, hr, tokenOf_eq_some.mp ht⟩
  refine ⟨?_, ?_, ?_, ?_⟩
  · intro k l hl x hx
    obtain ⟨rfl, rfl⟩ : k = 0 ∧ line = l := by simpa [List.getElem?_singleton] using hl
    obtain ⟨r, hr, hstart, hstop⟩ := overlap_pos.mp (h.covers x (Nat.zero_le x) (by omega))
    have hlt : r.start < min r.stop line.length := by omega
    refine ⟨_, List.mem_filterMap.mpr ⟨r, hr, tokenOf_eq_some.mpr ⟨hlt, rfl⟩⟩, rfl, ?_, ?_⟩
    · simp only; omega
    · simp only; omega
  · intro t ht
    obtain ⟨r, hr, hlt, rfl⟩ := hmem ht
    refine ⟨0, line, rfl, rfl, ?_, ?_, ?_⟩ <;> simp only <;> omega
  · refine List.pairwise_of_forall_mem_list ?_
    intro t ht u hu
    obtain ⟨r, -, -, rfl⟩ := hmem ht
    obtain ⟨s, -, -, rfl⟩ := hmem hu
    exact Int.le_refl _
  · intro t ht
    obtain ⟨r, hr, -, rfl⟩ := hmem ht
    exact h.under r hr

theorem Covering.cons {n : Nat} {line : Str} {lines : List Str} {ts us : List Token}
    (h : Covering base n [line] ts) (hs : Covering base (n + 1) lines us) :
    Covering base n (line :: lines) (ts ++ us) := by
  refine ⟨?_, ?_, ?_, ?_⟩
  · intro k l hl x hx
    cases k with
    | zero =>
      obtain ⟨t, ht, hcovers⟩ := h.covers 0 l hl x hx
      exact ⟨t, List.mem_append_left us ht, hcovers⟩
    | succ k =>
      obtain ⟨t, ht, hline, hcovers⟩ := hs.covers k l hl x hx
      exact ⟨t, List.mem_append_right ts ht, by rw [hline]; omega, hcovers⟩
  · intro t ht
    rcases List.mem_append.mp ht with ht | ht
    · obtain ⟨k, l, hl, hline, hwithin⟩ := h.within t ht
      obtain ⟨rfl, rfl⟩ : k = 0 ∧ line = l := by simpa [List.getElem?_singleton] using hl
      exact ⟨0, line, rfl, hline, hwithin⟩
    · obtain ⟨k, l, hl, hline, hwithin⟩ := hs.within t ht
      exact ⟨k + 1, l, hl, by rw [hline]; omega, hwithin⟩
  · refine List.pairwise_append.mpr ⟨h.in_order, hs.in_order, ?_⟩
    intro t ht u hu
    obtain ⟨k, l, hl, hline, -⟩ := h.within t ht
    obtain ⟨j, l', -, hline', -⟩ := hs.within u hu
    obtain ⟨rfl, -⟩ : k = 0 ∧ line = l := by simpa [List.getElem?_singleton] using hl
    omega
  · intro t ht
    rcases List.mem_append.mp ht with ht | ht
    · exact h.under t ht
    · exact hs.under t ht

theorem tokenizeLines_covering (hs : engine.Sound) {depth n : Nat} {lines : List Str}
    {tokens : List Token} (hu : stack.Under base)
    (h : Returns (tokenizeLines (divideLine engine searchBound depth) stack n lines) c tokens c') :
    Covering base n lines tokens := by
  induction lines generalizing stack n tokens c with
  | nil =>
    obtain ⟨rfl, -⟩ := Returns.pure h
    exact ⟨by simp, by simp, .nil, by simp⟩
  | cons line lines ih =>
    obtain ⟨text, after, regions, c₁, more, rfl, hd, hm, rfl⟩ := tokenizeLines_cons h
    obtain ⟨hafter, hfill⟩ := divideLine_fills hs hu hd
    rw [size_searched, ← Str.length_ofString] at hfill
    rw [← Str.length_ofString]
    exact (Covering.of_fills hfill).cons (ih hafter hm)

/-- The tokens of a document leave no character out, stay within their lines, come line by line, and
all lie under the scope of the main grammar, whatever documents came before. -/
theorem tokenize_covering (hs : engine.Sound) {scope : String} {library : Library} {t : Tokenizer}
    (ht : Tokenizer.ofLibrary engine scope library = (.ok t, c)) (documents : List Str)
    {content : Str} {tokens : List Token}
    (h : ((t.after documents).tokenize content).1 = .ok tokens) :
    ∃ g, library.mainGrammar? = some g ∧
      Covering [g.scopeName] 0 content.lines tokens := by
  obtain ⟨g, hg, rfl, hroot⟩ := Tokenizer.ofLibrary_made ht
  refine ⟨g, hg, ?_⟩
  rw [Tokenizer.after_eq] at h
  obtain ⟨c', hlines⟩ := Tokenizer.tokenizeBy_ok.mp h
  have hu : (Tokenizer.rootStack t).Under [g.scopeName] := by
    intro f hf
    rw [List.mem_singleton.mp hf]
    have hname : t.root.name = [g.scopeName] := Tokenizer.compileRoot_name hroot
    exact hname ▸ List.prefix_rfl
  exact tokenizeLines_covering hs hu hlines

/-- Calls whose arguments are divided on their own, and quoted text that may go over several lines. -/
def callsAndQuotes : Library :=
  let digit : Rule := { id := ⟨0, [0, 0, 1, 1, 0, 0]⟩, name := ["digit"], matchPattern := some "[0-9]" }
  let call : Rule :=
    { id := ⟨0, [0, 0]⟩, name := ["call"], matchPattern := some "([a-z])(\\((.)\\))"
      captures :=
        [(2, { id := ⟨0, [0, 0, 1, 0]⟩, name := ["arguments"] }),
         (3, { id := ⟨0, [0, 0, 1, 1]⟩, name := ["argument"], patterns := [digit] })] }
  let quoted : Rule :=
    { id := ⟨0, [0, 1]⟩, name := ["quoted"], beginPattern := some "'", endPattern := some "'"
      contentName := ["content"] }
  ⟨"s", [("s", ⟨0, "s", [call, quoted], []⟩)]⟩

theorem tokenize_covering_callsAndQuotes : ∃ t g tokens,
    ((Tokenizer.after t ["'"]).tokenize "f(1) 'a\nb'").1 = .ok tokens ∧ tokens.length = 9 ∧
      Covering [g] 0 ["f(1) 'a", "b'"] tokens := by
  let made := Tokenizer.ofLibrary Engine.standard.watch "s" callsAndQuotes
  let run (t : Tokenizer) := ((t.after ["'"]).tokenize "f(1) 'a\nb'").1
  have hrun : (Tokenizer.resultOf made run).map List.length = some 9 := by decide +kernel
  obtain ⟨tokens, htokens, hlength⟩ := Option.map_eq_some_iff.mp hrun
  obtain ⟨t, c, ht, h⟩ := Tokenizer.resultOf_eq htokens
  obtain ⟨g, -, hcovering⟩ := tokenize_covering Engine.standard.watch_sound ht _ h
  have hlines : ("f(1) 'a\nb'" : Str).lines = (["f(1) 'a", "b'"] : List Str) := by decide +kernel
  exact ⟨t, g.scopeName, tokens, h, hlength, hlines ▸ hcovering⟩

end Highlighter.Grammar

import Highlighter.Proofs.Grammar.Coverage
import Highlighter.Proofs.Grammar.Tiling

/-! When the tokens of a document do not overlap. A second tokenizer goes the same way but refuses a
group that does not fit: one that reaches out of the match, or out of the region in which it starts. The
tokens do not overlap exactly where it refuses nothing. -/

namespace Highlighter.Grammar

open Highlighter.Pattern (Match Span Text)

/-- Whether a group can be divided on its own without a part of the text being divided twice. -/
def fits (shown : Nat) (m : Match) (p : Progress) (span : Span) : Bool :=
  if span.start < p.covered then
    match holder? span.start p.regions.reverse [] with
    | none => true
    | some (_, old, _) => old.admits shown span
  else span.stop ≤ m.stop || shown ≤ m.stop

section
variable (engine : Engine)

/-- Adds one capture if its group fits; `divide` is given how much of the group's text is shown. -/
def addFitting (divide : Nat → Division) (shown : Nat) (line : Text) (scope : Scope) (m : Match)
    (capture : Nat × Rule) (p : Progress) : Compile Progress :=
  match m.group? capture.1 with
  | some (some span) =>
    if span.start == span.stop then return p
    else if fits shown m p span then
      addSpan engine (divide (shown - span.start)) line scope span capture.2 p
    else throw .noRegion
  | _ => return p

/-- Divides one line of which so many characters are shown, if all groups fit. -/
def divideFitting : Nat → Nat → Stack → Text → Compile (Stack × List Region)
  | 0, _, _, _ => throw .tooDeep
  | depth + 1, shown, stack, line =>
    let divide (shown : Nat) : Division := divideAlone (divideFitting depth shown)
    searchLine engine searchBound (divideMatch (addFitting engine divide shown line)) stack line

end

/-! ### Judging a step by a stricter one -/

/-- A stricter step either gives the answer, and the answer is tidy, or fails, and the answer clashes. -/
inductive Judged {ε σ α : Type} (strict : ExceptT ε (StateM σ) α) (s : σ) (a : α) (s' : σ)
    (Tidy Clash : Prop) : Prop
  | kept (returns : Returns strict s a s') (tidy : Tidy)
  | refused (fails : ∀ b s₁, ¬ Returns strict s b s₁) (clash : Clash)

namespace Judged

variable {ε σ α β : Type} {x : ExceptT ε (StateM σ) α} {f : α → ExceptT ε (StateM σ) β} {a : α} {b : β}
  {s s₁ s' : σ} {T K T' K' : Prop}

theorem pure (h : T) : Judged (Pure.pure a : ExceptT ε (StateM σ) α) s a s T K := .kept rfl h

theorem throw {e : ε} (h : K) : Judged (MonadExcept.throw e : ExceptT ε (StateM σ) α) s a s' T K :=
  .refused (fun _ _ => Returns.throw) h

theorem bind (hx : Judged x s a s₁ T K) (hf : T → Judged (f a) s₁ b s' T' K') (hk : K → K') :
    Judged (x >>= f) s b s' T' K' := by
  cases hx with
  | kept returns tidy =>
    cases hf tidy with
    | kept returns' tidy' => exact .kept (returns.bind_intro returns') tidy'
    | refused fails clash =>
      refine .refused (fun b s₂ h => ?_) clash
      obtain ⟨a', s₃, ha, rest⟩ := Returns.bind h
      obtain ⟨rfl, rfl⟩ := returns.unique ha
      exact fails b s₂ rest
  | refused fails clash =>
    refine .refused (fun b s₂ h => ?_) (hk clash)
    obtain ⟨a', s₃, ha, -⟩ := Returns.bind h
    exact fails a' s₃ ha

/-- A step that both take. -/
theorem after (hx : Returns x s a s₁) (hf : Judged (f a) s₁ b s' T K) :
    Judged (x >>= f) s b s' T K :=
  (Judged.kept hx trivial : Judged x s a s₁ True K).bind (fun _ => hf) id

theorem adapt {ε' : Type} {g : ε → ε'} (h : Judged x s a s' T K) :
    Judged (ExceptT.adapt g x) s a s' T K := by
  cases h with
  | kept returns tidy => exact .kept returns.adapt_intro tidy
  | refused fails clash => exact .refused (fun b s₁ hb => fails b s₁ hb.adapt) clash

end Judged

/-! ### Matches -/

/-- A position that is shown has two regions, or has one while regions that lie outside of the stretch
are still to come. -/
def Clash (shown size start stop : Nat) (rs : List Region) : Prop :=
  ∃ x, x < shown ∧ x < size ∧ 2 ≤ overlap rs x + if start ≤ x ∧ x < stop then 0 else 1

/-- A clash stays while regions are added that cover what the stretch grows by. -/
theorem Clash.grow {shown size a b a' b' : Nat} {rs ss : List Region} (h : Clash shown size a b rs)
    (hle : ∀ x < shown, x < size →
      overlap rs x + (if a ≤ x ∧ x < b then 0 else 1) ≤
        overlap ss x + if a' ≤ x ∧ x < b' then 0 else 1) :
    Clash shown size a' b' ss := by
  obtain ⟨x, hn, hx, htwo⟩ := h
  exact ⟨x, hn, hx, Nat.le_trans htwo (hle x hn hx)⟩

/-- The regions of a match so far tile what was covered, which lies in the match. -/
structure Neat (shown : Nat) (m : Match) (p : Progress) : Prop where
  tiled : Tiled shown m.start p.covered p.regions
  within : p.covered ≤ m.stop ∨ shown ≤ m.stop

/-- A division of a text, and a stricter one. -/
def Division.Judged (divide : Division) (strict : Nat → Division) : Prop :=
  ∀ shown text scope rule c rs c', Returns (divide text scope rule) c rs c' →
    Grammar.Judged (strict shown text scope rule) c rs c' (Tiled shown 0 text.size rs)
      (Clash shown text.size 0 text.size rs)

variable {engine : Engine} {divide : Division} {strict : Nat → Division} {line : Text} {scope : Scope}
  {m : Match} {c c' : Compiler} {shown : Nat}

/-- The regions of a group's text, moved to where the group lies. -/
theorem Tiled.moved {span : Span} {rs : List Region} (hle : span.start ≤ span.stop)
    (h : Tiled (shown - span.start) 0 (span.stop - span.start) rs) :
    Tiled shown span.start span.stop (rs.map (·.shift span.start)) := by
  have hshift := h.shift span.start
  rw [Nat.zero_add, Nat.sub_add_cancel hle] at hshift
  exact hshift.mono (by omega)

theorem Clash.moved {span : Span} {rs : List Region} (hsize : span.stop ≤ line.size)
    (h : Clash (shown - span.start) (span.stop - span.start) 0 (span.stop - span.start) rs) :
    ∃ x, x < shown ∧ x < line.size ∧ 2 ≤ overlap (rs.map (·.shift span.start)) x := by
  obtain ⟨x, hn, hx, htwo⟩ := h
  rw [if_pos ⟨Nat.zero_le x, hx⟩] at htwo
  refine ⟨x + span.start, by omega, by omega, ?_⟩
  rw [overlap_shift, if_pos (by omega), Nat.add_sub_cancel]
  exact htwo

theorem addSpan_judged (hj : divide.Judged strict) {span : Span} {rule : Rule}
    {p q : Progress} (hsize : span.stop ≤ line.size) (hlt : span.start < span.stop)
    (hp : Neat shown m p) (hfits : fits shown m p span = true)
    (h : Returns (addSpan engine divide line scope span rule p) c q c') :
    Judged (addSpan engine (strict (shown - span.start)) line scope span rule p) c q c'
      (Neat shown m q) (Clash shown line.size m.start (min q.covered m.stop) q.regions) := by
  have htext : (line.extract span.start span.stop).size = span.stop - span.start := by
    rw [Array.size_extract]; omega
  have clashes {q : Progress} {inner : List Region}
      (hle : ∀ x, overlap (inner.map (·.shift span.start)) x ≤ overlap q.regions x)
      (hc : Clash (shown - span.start) (line.extract span.start span.stop).size 0
        (line.extract span.start span.stop).size inner) :
      Clash shown line.size m.start (min q.covered m.stop) q.regions := by
    rw [htext] at hc
    obtain ⟨x, hn, hx, htwo⟩ := hc.moved hsize
    exact ⟨x, hn, hx, Nat.le_add_right_of_le (Nat.le_trans htwo (hle x))⟩
  obtain ⟨compiled, c₁, inner, hr, hcase⟩ := addSpan_cases h
  refine .after hr ?_
  obtain ⟨hcov, before, old, after, hh, hi, rfl⟩ | ⟨hcov, hi, rfl⟩ := hcase
  · rw [if_pos hcov, hh]
    refine (hj (shown - span.start) _ _ _ _ _ _ hi).bind (fun htiled => .pure ?_) (clashes ?_)
    · rw [htext] at htiled
      have hadmits : old.admits shown span = true := by simpa [fits, hcov, hh] using hfits
      exact ⟨hp.tiled.splice hh hcov hadmits (htiled.moved (by omega)), hp.within⟩
    · intro x
      simp only [splice, overlap_append]
      omega
  · rw [if_neg (by omega)]
    refine (hj (shown - span.start) _ _ _ _ _ _ hi).bind (fun htiled => .pure ?_) (clashes ?_)
    · rw [htext] at htiled
      refine ⟨(hp.tiled.append (.gap (.inl hcov))).append (htiled.moved (by omega)), ?_⟩
      simpa [fits, show ¬ span.start < p.covered by omega] using hfits
    · intro x
      rw [overlap_append]
      omega

/-- A span that does not fit makes a clash. -/
theorem addSpan_clash (hd : divide.Covers) {span : Span} {rule : Rule} {p q : Progress}
    (hsize : span.stop ≤ line.size) (hlt : span.start < span.stop) (hp : Neat shown m p)
    (hfits : fits shown m p span = false)
    (h : Returns (addSpan engine divide line scope span rule p) c q c') :
    Clash shown line.size m.start (min q.covered m.stop) q.regions := by
  obtain ⟨compiled, c₁, inner, -, ⟨hcov, before, old, after, hh, hi, rfl⟩ | ⟨hcov, hi, rfl⟩⟩ :=
    addSpan_cases h
  · have hadmits : old.admits shown span = false := by simpa [fits, hcov, hh] using hfits
    obtain ⟨x, hn, hx, htwo⟩ :=
      hp.tiled.clash hh hcov hlt hadmits (covers_span hd hsize hi)
    refine ⟨x, hn, by omega, Nat.le_trans htwo ?_⟩
    simp only
    split <;> split <;> omega
  · have hmiss : m.stop < span.stop ∧ m.stop < shown := by
      simpa [fits, show ¬ span.start < p.covered by omega] using hfits
    have hwithin := hp.within
    refine ⟨m.stop, hmiss.2, by omega, ?_⟩
    have hspan := covers_span hd hsize hi m.stop
    simp only [overlap_append, overlap_gap]
    rw [if_neg (c := m.start ≤ m.stop ∧ _) (by omega)]
    split <;> omega

theorem addFitting_judged (hd : divide.Covers) (hj : divide.Judged strict)
    (hm : m.Lies 0 line.size) {capture : Nat × Rule} {p q : Progress} (hp : Neat shown m p)
    (h : Returns (addCapture engine divide line scope m capture p) c q c') :
    Judged (addFitting engine strict shown line scope m capture p) c q c' (Neat shown m q)
      (Clash shown line.size m.start (min q.covered m.stop) q.regions) := by
  unfold addFitting
  obtain ⟨rfl, rfl, hnone⟩ | ⟨span, hg, hne, h⟩ := addCapture_cases h
  · split
    · rename_i span hg
      rw [if_pos (by simpa using hnone span hg)]
      exact .pure hp
    · exact .pure hp
  · obtain ⟨hle, hsize⟩ := hm.group hg
    have hlt : span.start < span.stop := by omega
    rw [hg]
    simp only [beq_iff_eq, if_neg hne]
    split
    · rename_i hfits
      exact addSpan_judged hj hsize hlt hp hfits h
    · rename_i hfits
      exact .throw (addSpan_clash hd hsize hlt hp (by simpa using hfits) h)

theorem Clash.extends {p q : Progress}
    (h : Clash shown line.size m.start (min p.covered m.stop) p.regions) (he : Extends p q) :
    Clash shown line.size m.start (min q.covered m.stop) q.regions := by
  refine h.grow fun x _ _ => ?_
  have := he.overlap_le x
  split <;> split <;> split at this <;> omega

theorem addFittings_judged (hd : divide.Covers) (hj : divide.Judged strict)
    (hm : m.Lies 0 line.size) {captures : Captures} {p q : Progress} (hp : Neat shown m p)
    (h : Returns (captures.foldlM
      (fun p capture => addCapture engine divide line scope m capture p) p) c q c') :
    Judged (captures.foldlM
        (fun p capture => addFitting engine strict shown line scope m capture p) p) c q c'
      (Neat shown m q) (Clash shown line.size m.start (min q.covered m.stop) q.regions) := by
  induction captures generalizing p c with
  | nil =>
    obtain ⟨rfl, rfl⟩ := Returns.pure h
    exact .pure hp
  | cons capture captures ih =>
    rw [List.foldlM_cons] at h ⊢
    obtain ⟨r, c₁, hr, rest⟩ := Returns.bind h
    exact (addFitting_judged hd hj hm hp hr).bind (fun hr' => ih hr' rest)
      (·.extends (addCaptures_extends hd hm rest))

/-- A division of matches, and a stricter one. -/
def Cut.Judged (cut strict : Cut) (shown size : Nat) : Prop :=
  ∀ scope m captures c rs c', m.Lies 0 size → Returns (cut scope m captures) c rs c' →
    Grammar.Judged (strict scope m captures) c rs c' (Tiled shown m.start m.stop rs)
      (Clash shown size m.start m.stop rs)

theorem divideMatch_judged (hd : divide.Covers) (hj : divide.Judged strict) :
    Cut.Judged (divideMatch (addCapture engine divide line))
      (divideMatch (addFitting engine strict shown line)) shown line.size := by
  intro scope m captures c rs c' hm h
  obtain ⟨p, c₁, hp, rest⟩ := Returns.bind h
  obtain ⟨rfl, rfl⟩ := Returns.pure rest
  refine (addFittings_judged hd hj hm ⟨.nil _, .inl hm.start_le⟩ hp).bind
    (fun hneat => .pure (hneat.tiled.append (.gap hneat.within))) fun hc => ?_
  refine hc.grow fun x _ _ => ?_
  rw [overlap_append, overlap_gap]
  split <;> split <;> split <;> omega

/-! ### Lines -/

variable {cut strictCut : Cut} {stack : Stack} {position : Nat} {base : Scope}

theorem Clash.fill {size a b d : Nat} {rs added : List Region} (h : Clash shown size a b rs)
    (ha : Fills base b d added) : Clash shown size a d (rs ++ added) := by
  refine h.grow fun x _ _ => ?_
  have := ha.covers x
  rw [overlap_append]
  split <;> split <;> omega

/-- What clashes in a stretch clashes behind regions that tile all before it. -/
theorem Clash.behind {size a b : Nat} {rs added : List Region} (h : Clash shown size a b added)
    (ht : Tiled shown 0 a rs) : Clash shown size 0 b (rs ++ added) := by
  obtain ⟨x, hn, hx, htwo⟩ := h
  refine ⟨x, hn, hx, ?_⟩
  rw [overlap_append]
  by_cases ha : x < a
  · have := ht.covers (Nat.zero_le x) ha hn
    split at htwo <;> split <;> omega
  · split at htwo <;> split <;> omega

theorem advance_judged (hs : engine.Sound) (hj : cut.Judged strictCut shown line.size)
    {answered : Option Advance} (h : Returns (advance engine cut line stack position) c answered c') :
    Judged (advance engine strictCut line stack position) c answered c'
      (∀ next, answered = some next → Tiled shown position next.position next.regions)
      (∃ next, answered = some next ∧ Clash shown line.size position next.position next.regions) := by
  obtain ⟨event, c₁, hf, rest⟩ := Returns.bind h
  refine .after hf ?_
  cases event with
  | none =>
    obtain ⟨rfl, rfl⟩ := Returns.pure rest
    exact .pure (by simp)
  | some event =>
    obtain ⟨rs, c₂, hr, rest⟩ := Returns.bind rest
    obtain ⟨rfl, rfl⟩ := Returns.pure rest
    have hm := follow_hit stack event ▸ (seek_sought hf).lies hs
    refine (hj _ _ _ _ _ _ (hm.mono (Nat.zero_le _)) hr).bind (fun htiled => .pure ?_)
      fun hclash => ⟨_, rfl, hclash.grow fun x _ _ => ?_⟩
    · intro next he
      cases he
      exact (Tiled.gap (.inl hm.from_le)).append htiled
    · have hle := hm.start_le
      rw [overlap_append, overlap_gap]
      simp only
      split <;> split <;> split <;> omega

theorem Stack.under_nil (s : Stack) : s.Under [] := fun _ _ => List.nil_prefix

/-- What clashed before regions were added on the way to a position clashes with them as well. -/
theorem Clash.reaches {size : Nat} {regions : List Region} {last : Advance}
    (h : Clash shown size 0 position regions) (hr : Reaches base size position regions last) :
    Clash shown size 0 last.position last.regions := by
  obtain ⟨added, he, hfill⟩ := hr.added
  rw [he]
  exact h.fill hfill

theorem continueWhiles_judged (hs : engine.Sound) (hc : cut.Fills line.size)
    (hj : cut.Judged strictCut shown line.size) {whiles done : List (Compiled × Nat)}
    {regions : List Region} {last : Advance} (ht : Tiled shown 0 position regions)
    (h : Returns (continueWhiles engine cut line stack whiles done position regions) c last c') :
    Judged (continueWhiles engine strictCut line stack whiles done position regions) c last c'
      (Tiled shown 0 last.position last.regions) (Clash shown line.size 0 last.position last.regions) := by
  induction whiles generalizing done position regions c with
  | nil =>
    obtain ⟨rfl, rfl⟩ := Returns.pure h
    exact .pure ht
  | cons w whiles ih =>
    obtain ⟨rule, height⟩ := w
    rw [continueWhiles] at h ⊢
    split at h
    · obtain ⟨answered, c₁, ha, rest⟩ := Returns.bind h
      refine .after ha ?_
      obtain ⟨hm, rfl⟩ := Returns.answer ha
      split at rest
      · obtain ⟨rfl, rfl⟩ := Returns.pure rest
        exact .pure ht
      · rename_i m
        obtain ⟨found, c₂, hf, rest⟩ := Returns.bind rest
        obtain ⟨hlies, rfl⟩ := hs.matchAt hm
        refine (hj _ _ _ _ _ _ (hlies.mono (Nat.zero_le _)) hf).bind
          (fun htiled => ih (ht.append htiled) rest) fun hclash => ?_
        exact (hclash.behind ht).reaches
          (continueWhiles_reaches hs hc stack.under_nil hlies.stop_le rest)
    · exact absurd h Returns.throw

theorem searchLoop_judged (hs : engine.Sound) (hc : cut.Fills line.size)
    (hj : cut.Judged strictCut shown line.size) {fuel : Nat} {regions : List Region} {last : Advance}
    (ht : Tiled shown 0 position regions)
    (h : Returns (searchLoop engine cut line fuel stack position regions) c last c') :
    Judged (searchLoop engine strictCut line fuel stack position regions) c last c'
      (Tiled shown 0 last.position last.regions) (Clash shown line.size 0 last.position last.regions) := by
  induction fuel generalizing stack position regions c with
  | zero => exact absurd h Returns.throw
  | succ fuel ih =>
    rw [searchLoop] at h ⊢
    obtain ⟨answered, c₁, ha, rest⟩ := Returns.bind h
    refine (advance_judged hs hj ha).bind (fun htiled => ?_) ?_
    · cases answered with
      | none =>
        obtain ⟨rfl, rfl⟩ := Returns.pure rest
        exact .pure ht
      | some next =>
        have htiled := ht.append (htiled next rfl)
        dsimp only at rest ⊢
        split at rest
        · rename_i hsame
          rw [if_pos hsame]
          obtain ⟨rfl, rfl⟩ := Returns.pure rest
          have hpos : next.position = position := by simp_all
          exact .pure (hpos ▸ htiled)
        · rename_i hnot
          rw [if_neg hnot]
          exact ih htiled rest
    · rintro ⟨next, rfl, hclash⟩
      have hclash := hclash.behind ht
      dsimp only at rest
      split at rest
      · rename_i hsame
        obtain ⟨rfl, rfl⟩ := Returns.pure rest
        have hpos : next.position = position := by simp_all
        exact hpos ▸ hclash
      · obtain ⟨-, -, hsize, -⟩ := advance_fills hs hc stack.under_nil ha
        exact hclash.reaches (searchLoop_reaches hs hc (Stack.under_nil _) hsize rest)

theorem searchLine_judged (hs : engine.Sound) (hc : cut.Fills line.size)
    (hj : cut.Judged strictCut shown line.size) {allowed : Allowance} {after : Stack} {rs : List Region}
    (h : Returns (searchLine engine allowed cut stack line) c (after, rs) c') :
    Judged (searchLine engine allowed strictCut stack line) c (after, rs) c'
      (Tiled shown 0 line.size rs) (Clash shown line.size 0 line.size rs) := by
  unfold searchLine at h ⊢
  obtain ⟨start, c₁, hstart, rest⟩ := Returns.bind h
  obtain ⟨_, _, hget, rest⟩ := Returns.bind rest
  obtain ⟨rfl, rfl⟩ : c₁ = _ ∧ c₁ = _ := by simpa [Returns] using hget
  obtain ⟨final, c₂, hfinal, rest⟩ := Returns.bind rest
  obtain ⟨he, rfl⟩ := Returns.pure rest
  cases he
  have hw := continueWhiles_reaches hs hc stack.under_nil (Nat.zero_le _) hstart
  have hl := searchLoop_reaches hs hc hw.under hw.le_size hfinal
  have hend : Fills [] final.position line.size (gap final.position line.size final.stack.top.scope) :=
    .gap List.nil_prefix _ _
  refine (continueWhiles_judged hs hc hj (.nil 0) hstart).bind (fun ht => ?_) fun hclash =>
    (hclash.reaches hl).fill hend
  refine .after hget ?_
  exact (searchLoop_judged hs hc hj ht hfinal).bind
    (fun ht => .pure (ht.append (.gap (.inl hl.le_size)))) (·.fill hend)

theorem divideLine_judged (hs : engine.Sound) {depth : Nat} {after : Stack} {rs : List Region}
    (h : Returns (divideLine engine searchBound depth stack line) c (after, rs) c') :
    Judged (divideFitting engine depth shown stack line) c (after, rs) c'
      (Tiled shown 0 line.size rs) (Clash shown line.size 0 line.size rs) := by
  induction depth generalizing shown stack line after rs c c' with
  | zero => exact absurd h Returns.throw
  | succ depth ih =>
    have hd : (divideAlone (divideLine engine searchBound depth)).Fills :=
      divideAlone_fills fun hu h => (divideLine_fills hs hu h).2
    refine searchLine_judged hs (divideMatch_fills hd) (divideMatch_judged hd.covers ?_) h
    intro shown text scope rule c rs c' hr
    obtain ⟨⟨inner, regions⟩, c₁, hi, rest⟩ := Returns.bind hr
    obtain ⟨rfl, rfl⟩ := Returns.pure rest
    exact (ih hi).bind (fun ht => .pure ht) id

/-! ### Documents -/

/-- Tokens of one line each end before the next one starts. -/
def InOrder (tokens : List Token) : Prop :=
  tokens.Pairwise fun a b => a.line = b.line → a.stop ≤ b.start

theorem Tiled.inOrder {n : Nat} {a b : Nat} {rs : List Region} {length : Nat}
    (h : Tiled length a b rs) : InOrder (rs.filterMap (tokenOf n length)) := by
  induction h with
  | nil => exact .nil
  | @cons a next b scope rs lt rest ih =>
    rw [List.filterMap_cons]
    split
    · exact ih
    · rename_i t ht
      refine List.pairwise_cons.mpr ⟨fun u hu _ => ?_, ih⟩
      obtain ⟨r, hr, hu⟩ := List.mem_filterMap.mp hu
      obtain ⟨-, rfl⟩ := tokenOf_eq_some.mp ht
      obtain ⟨-, rfl⟩ := tokenOf_eq_some.mp hu
      have := rest.start_le hr
      simp only
      omega
  | @hidden a b rs ha hb hall =>
    have hnone : rs.filterMap (tokenOf n length) = [] := by
      refine List.filterMap_eq_nil_iff.mpr fun r hr => if_neg ?_
      have := hall r hr
      omega
    rw [hnone]
    exact .nil

theorem overlap_le_of_inOrder {n length x : Nat} {rs : List Region} (hx : x < length)
    (h : InOrder (rs.filterMap (tokenOf n length))) : overlap rs x ≤ 1 := by
  induction rs with
  | nil => exact Nat.zero_le _
  | cons r rs ih =>
    rw [overlap_cons]
    by_cases hr : r.start ≤ x ∧ x < r.stop
    · have ht : tokenOf n length r = some ⟨n, r.start, (min r.stop length : Nat), r.scope⟩ :=
        tokenOf_eq_some.mpr ⟨by omega, rfl⟩
      rw [List.filterMap_cons, ht] at h
      have hrest : overlap rs x = 0 := by
        refine Nat.eq_zero_of_not_pos fun hpos => ?_
        obtain ⟨s, hs, hstart, hstop⟩ := overlap_pos.mp hpos
        have hu : tokenOf n length s = some ⟨n, s.start, (min s.stop length : Nat), s.scope⟩ :=
          tokenOf_eq_some.mpr ⟨by omega, rfl⟩
        have := (List.pairwise_cons.mp h).1 _ (List.mem_filterMap.mpr ⟨s, hs, hu⟩) rfl
        simp only at this
        omega
      rw [if_pos hr]
      omega
    · rw [if_neg hr]
      refine ih ?_
      rw [List.filterMap_cons] at h
      split at h
      · exact h
      · exact (List.pairwise_cons.mp h).2

theorem inOrder_append {ts us : List Token} (h : ∀ t ∈ ts, ∀ u ∈ us, t.line < u.line) :
    InOrder (ts ++ us) ↔ InOrder ts ∧ InOrder us := by
  refine List.pairwise_append.trans ⟨fun ⟨hts, hus, _⟩ => ⟨hts, hus⟩, fun ⟨hts, hus⟩ => ⟨hts, hus, ?_⟩⟩
  intro t ht u hu he
  have := h t ht u hu
  omega

theorem tokenizeLines_judged (hs : engine.Sound) {depth n : Nat} {lines : List Str}
    {tokens : List Token}
    (h : Returns (tokenizeLines (divideLine engine searchBound depth) stack n lines) c tokens c') :
    Judged (tokenizeLines (fun stack line => divideFitting engine depth (line.size - 1) stack line)
      stack n lines) c tokens c' (InOrder tokens) (¬ InOrder tokens) := by
  induction lines generalizing stack n tokens c with
  | nil =>
    obtain ⟨rfl, rfl⟩ := Returns.pure h
    exact .pure .nil
  | cons line lines ih =>
    obtain ⟨text, after, regions, c₁, more, rfl, hd, hm, rfl⟩ := tokenizeLines_cons h
    have hlines {t u : Token} (ht : t ∈ regions.filterMap (tokenOf n text.length)) (hu : u ∈ more) :
        t.line < u.line := by
      obtain ⟨r, -, ht⟩ := List.mem_filterMap.mp ht
      obtain ⟨-, rfl⟩ := tokenOf_eq_some.mp ht
      obtain ⟨k, _, -, hk, -⟩ := (tokenizeLines_covering hs after.under_nil hm).within u hu
      simp only [hk]
      omega
    rw [inOrder_append fun t ht u hu => hlines ht hu]
    have hj : Judged (divideFitting engine depth ((searched text).size - 1) stack (searched text)) c
        (after, regions) c₁ _ _ := divideLine_judged hs hd
    rw [tokenizeLines, Str.text?_ofString]
    refine hj.adapt.bind (fun ht => ?_) fun hclash => ?_
    · refine (ih hm).bind (fun hmore => .pure ⟨?_, hmore⟩) fun hmore h => hmore h.2
      rw [size_searched, Nat.add_sub_cancel] at ht
      exact ht.inOrder
    · rintro ⟨hfirst, -⟩
      obtain ⟨x, hn, hx, htwo⟩ := hclash
      rw [size_searched, Nat.add_sub_cancel] at hn
      rw [if_pos ⟨Nat.zero_le x, hx⟩] at htwo
      have := overlap_le_of_inOrder hn hfirst
      omega

end Highlighter.Grammar

namespace Highlighter.Tokenizer

open Highlighter.Grammar

/-- Tokenizes a document if all groups of its matches fit. -/
def tokenizeFitting (t : Tokenizer) (content : Str) :
    Except LoadFailure (List Token) × Tokenizer × List Note :=
  t.tokenizeBy (fun stack line => divideFitting t.engine captureDepth (line.size - 1) stack line)
    content

end Highlighter.Tokenizer

namespace Highlighter.Grammar

/-- The tokens of a document are in order and do not overlap exactly where all groups of the matches fit:
each lies in its match, and in the region of the match in which it starts, as far as it is shown. -/
theorem tokenize_inOrder_iff {t : Tokenizer} (hs : t.engine.Sound) {content : Str}
    {tokens : List Token} (h : (t.tokenize content).1 = .ok tokens) :
    InOrder tokens ↔ (t.tokenizeFitting content).1 = .ok tokens := by
  obtain ⟨c, h⟩ := Tokenizer.tokenizeBy_ok.mp h
  cases tokenizeLines_judged hs h with
  | kept returns hin =>
    exact ⟨fun _ => Tokenizer.tokenizeBy_ok.mpr ⟨c, returns⟩, fun _ => hin⟩
  | refused fails hout =>
    refine ⟨fun hin => absurd hin hout, fun hfit => ?_⟩
    obtain ⟨c', hfit⟩ := Tokenizer.tokenizeBy_ok.mp hfit
    exact absurd hfit (fails tokens c')

theorem tokenize_inOrder_callsAndQuotes : ∃ t tokens,
    (Tokenizer.tokenize t "f(1) 'a\nb'").1 = .ok tokens ∧ tokens.length = 9 ∧ InOrder tokens := by
  let made := Tokenizer.ofLibrary Engine.standard.watch "s" callsAndQuotes
  let run (t : Tokenizer) := (t.tokenize "f(1) 'a\nb'").1
  let fitting (t : Tokenizer) := (t.tokenizeFitting "f(1) 'a\nb'").1
  have hrun : (Tokenizer.resultOf made run).map List.length = some 9 := by decide +kernel
  have hfitting : Tokenizer.resultOf made fitting = Tokenizer.resultOf made run := by decide +kernel
  obtain ⟨tokens, htokens, hlength⟩ := Option.map_eq_some_iff.mp hrun
  obtain ⟨t, c, ht, h⟩ := Tokenizer.resultOf_eq htokens
  obtain ⟨t', c', ht', hfit⟩ := Tokenizer.resultOf_eq (hfitting.trans htokens)
  obtain ⟨rfl, rfl⟩ : t = t' ∧ c = c' := by simpa using ht.symm.trans ht'
  obtain ⟨g, -, he, -⟩ := Tokenizer.ofLibrary_made ht
  exact ⟨t, tokens, h, hlength,
    (tokenize_inOrder_iff (he ▸ Engine.standard.watch_sound) h).mpr hfit⟩

/-- A tree with one grammar, whose only rule captures text that lies ahead of its match. -/
def lookingAhead : Files.Tree :=
  let grammar := "\x7b\"scopeName\": \"s\", \"patterns\": [" ++
    "\x7b\"match\": \"a(?=(b))\", \"name\": \"m\", \"captures\": \x7b\"1\": \x7b\"name\": \"c\"\x7d\x7d\x7d]\x7d"
  ⟨[(["g.json"], .file (Text.encodeUtf8 grammar.toList))]⟩

theorem tokenize_lookingAhead : ∃ t notes tokens,
    Tokenizer.load lookingAhead (.ofString "g.json") "s" [] = (.ok t, notes) ∧
      (t.tokenize "ab").1 = .ok tokens ∧
      tokens = [⟨0, 0, 1, ["s", "m"]⟩, ⟨0, 1, 2, ["s", "m", "c"]⟩, ⟨0, 1, 2, ["s"]⟩] ∧
      ¬ InOrder tokens := by
  let made := Tokenizer.load lookingAhead (.ofString "g.json") "s" []
  let run (t : Tokenizer) := (t.tokenize "ab").1
  have hrun : Tokenizer.resultOf made run =
      some [⟨0, 0, 1, ["s", "m"]⟩, ⟨0, 1, 2, ["s", "m", "c"]⟩, ⟨0, 1, 2, ["s"]⟩] := by
    decide +kernel
  obtain ⟨t, notes, ht, h⟩ := Tokenizer.resultOf_eq hrun
  refine ⟨t, notes, _, ht, h, rfl, ?_⟩
  simp [InOrder]

end Highlighter.Grammar

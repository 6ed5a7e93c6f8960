import Highlighter.Proofs.Grammar.Stopping
import Highlighter.Proofs.Grammar.Tiling

/-! Groups that lie in one another. Where the rules of a match's groups carry names alone, and no two groups
lie across one another, the regions of the match follow one another, and each has the names of all the groups
that it lies in. -/

namespace Highlighter.Pattern

def Span.holds (s : Span) (x : Nat) : Bool := s.start ≤ x && x < s.stop

/-- The one lies in the other, or is the same. -/
def Span.Within (s t : Span) : Prop := t.start ≤ s.start ∧ s.stop ≤ t.stop

/-- The one ends before the other begins. -/
def Span.Apart (s t : Span) : Prop := s.stop ≤ t.start ∨ t.stop ≤ s.start

instance (s t : Span) : Decidable (s.Within t) := inferInstanceAs (Decidable (_ ∧ _))
instance (s t : Span) : Decidable (s.Apart t) := inferInstanceAs (Decidable (_ ∨ _))

end Highlighter.Pattern

namespace Highlighter.Grammar

open Highlighter.Pattern (Match Span Text)

/-- The rule carries names and nothing that could match. -/
structure Rule.NamesOnly (r : Rule) : Prop where
  matchPattern : r.matchPattern = none
  beginPattern : r.beginPattern = none
  patterns : r.patterns = []

/-- The span of a group, if the group took part in the match and is not empty. -/
def filled? (m : Match) (n : Nat) : Option Span :=
  match m.group? n with
  | some (some span) => if span.start = span.stop then none else some span
  | _ => none

/-- The spans of the listed groups that are filled, each with its rule, as they are listed. -/
def taken (m : Match) (captures : Captures) : List (Span × Rule) :=
  captures.filterMap fun x => (filled? m x.1).map (·, x.2)

/-- The names of the spans that hold a position, in the order of the spans. -/
def namesAt (spans : List (Span × Rule)) (x : Nat) : Scope :=
  (spans.filter (·.1.holds x)).flatMap (·.2.name)

/-- Each region begins where the one before it ends, from one position to another, and none is empty. -/
inductive Consecutive : Nat → Nat → List Region → Prop
  | nil (start : Nat) : Consecutive start start []
  | cons {start next stop : Nat} {scope : Scope} {rs : List Region} (lt : start < next)
      (rest : Consecutive next stop rs) : Consecutive start stop (⟨start, next, scope⟩ :: rs)

/-- The start of the match, or the start or the end of a span. -/
def Edge (m : Match) (spans : List (Span × Rule)) (x : Nat) : Prop :=
  x = m.start ∨ ∃ s ∈ spans, x = s.1.start ∨ x = s.1.stop

/-- A match that was divided by some spans: each position has the names of those that hold it. -/
structure Labelled (base : Scope) (m : Match) (spans : List (Span × Rule)) (p : Progress) : Prop where
  tiled : Tiled (m.stop + 1) m.start p.covered p.regions
  covered_le : p.covered ≤ m.stop
  covered_edge : Edge m spans p.covered
  edges : ∀ r ∈ p.regions, Edge m spans r.start ∧ Edge m spans r.stop
  scopes : ∀ r ∈ p.regions, ∀ x, r.holds x → r.scope = base ++ namesAt spans x
  spans : ∀ s ∈ spans, s.1.start < s.1.stop ∧ s.1.stop ≤ p.covered

variable {engine : Engine} {divide : Division} {line : Text} {base scope : Scope} {m : Match} {span : Span}
  {rule r : Rule} {spans : List (Span × Rule)} {p : Progress} {c d : Compiler} {compiled : Compiled}
  {captures : Captures} {x : Nat}

theorem Tiled.consecutive {n a b : Nat} {rs : List Region} (h : Tiled n a b rs) (hb : b < n) :
    Consecutive a b rs := by
  induction h with
  | nil a => exact .nil a
  | cons lt _ ih => exact .cons lt (ih hb)
  | hidden => omega

theorem mem_gap {start stop : Nat} {r : Region} (h : r ∈ gap start stop scope) :
    start < stop ∧ r = ⟨start, stop, scope⟩ := by
  unfold gap at h
  split at h
  · exact ⟨‹_›, List.mem_singleton.mp h⟩
  · cases h

theorem Region.holds_iff {r : Region} : r.holds x = true ↔ r.start ≤ x ∧ x < r.stop := by
  simp [Region.holds]

theorem namesAt_concat (h : span.start ≤ x ∧ x < span.stop) :
    namesAt (spans ++ [(span, rule)]) x = namesAt spans x ++ rule.name := by
  have hholds : span.holds x = true := by simp [Span.holds, h]
  simp [namesAt, hholds]

theorem namesAt_concat_of_not (h : x < span.start ∨ span.stop ≤ x) :
    namesAt (spans ++ [(span, rule)]) x = namesAt spans x := by
  have hholds : span.holds x = false := by
    simp only [Span.holds, Bool.and_eq_false_iff, decide_eq_false_iff_not]
    omega
  simp [namesAt, hholds]

namespace Edge

theorem concat (h : Edge m spans x) : Edge m (spans ++ [(span, rule)]) x :=
  h.imp_right fun ⟨s, hs, hx⟩ => ⟨s, List.mem_append_left _ hs, hx⟩

theorem start : Edge m (spans ++ [(span, rule)]) span.start :=
  .inr ⟨_, List.mem_append_right _ (List.mem_singleton_self _), .inl rfl⟩

theorem stop : Edge m (spans ++ [(span, rule)]) span.stop :=
  .inr ⟨_, List.mem_append_right _ (List.mem_singleton_self _), .inr rfl⟩

/-- No edge lies inside a span that lies in each of the spans or apart from it. -/
theorem outside (h : Edge m spans x) (hm : m.start ≤ span.start)
    (hspans : ∀ s ∈ spans, s.1.start < s.1.stop)
    (hfree : ∀ s ∈ spans, span.Within s.1 ∨ s.1.Apart span) : x ≤ span.start ∨ span.stop ≤ x := by
  rcases h with rfl | ⟨s, hs, hx⟩
  · exact .inl hm
  · have hlt := hspans s hs
    have := hfree s hs
    unfold Span.Within Span.Apart at this
    omega

end Edge

/-! ### One group -/

/-- What stands in place of a region of a tiling in which a span was divided. -/
inductive Piece (regions : List Region) (old : Region) (span : Span) (scope : Scope) (r : Region) : Prop
  | kept (mem : r ∈ regions) (apart : r.stop ≤ span.start ∨ span.stop ≤ r.start)
  | before (start : r.start = old.start) (stop : r.stop = span.start) (scope : r.scope = old.scope)
  | inside (start : r.start = span.start) (stop : r.stop = span.stop) (scope : r.scope = scope)
  | after (start : r.start = span.stop) (stop : r.stop = old.stop) (scope : r.scope = old.scope)

theorem Tiled.piece {n a b : Nat} {before after : List Region} {old r : Region}
    (h : Tiled n a b (before ++ old :: after)) (hb : b < n) (hstart : old.start ≤ span.start)
    (hstop : span.stop ≤ old.stop)
    (hr : r ∈ before ++ Grammar.splice old span.start span.stop [⟨span.start, span.stop, scope⟩] ++ after) :
    Piece (before ++ old :: after) old span scope r := by
  obtain ⟨k, hbefore, hrest⟩ := h.of_append
  have hk := hrest.within hb List.mem_cons_self
  cases hrest with
  | hidden => omega
  | cons lt rest =>
    simp only at hk hstart hstop
    rcases List.mem_append.mp hr with hr | hr
    · rcases List.mem_append.mp hr with hr | hr
      · have := hbefore.within (by omega) hr
        exact .kept (List.mem_append_left _ hr) (.inl (by omega))
      · simp only [Grammar.splice, List.mem_append, List.mem_singleton] at hr
        rcases hr with (hr | rfl) | hr
        · obtain ⟨-, rfl⟩ := mem_gap hr
          exact .before rfl rfl rfl
        · exact .inside rfl rfl rfl
        · obtain ⟨-, rfl⟩ := mem_gap hr
          exact .after rfl rfl rfl
    · have := rest.within hb hr
      exact .kept (List.mem_append_right _ (List.mem_cons_of_mem _ hr)) (.inr (by omega))

namespace Labelled

theorem start (h : m.start ≤ m.stop) : Labelled base m [] ⟨[], m.start⟩ where
  tiled := .nil _
  covered_le := h
  covered_edge := .inl rfl
  edges := nofun
  scopes := nofun
  spans := nofun

/-- A span that lies in each span before it or apart from it divides the region that it starts in. -/
theorem divided {before after : List Region} {old : Region} (hp : Labelled base m spans p)
    (hm : m.start ≤ span.start) (hlt : span.start < span.stop) (hcovered : span.start < p.covered)
    (hfree : ∀ s ∈ spans, span.Within s.1 ∨ s.1.Apart span)
    (hh : holder? span.start p.regions.reverse [] = some (before, old, after)) :
    Labelled base m (spans ++ [(span, rule)])
      ⟨before ++ splice old span.start span.stop [⟨span.start, span.stop, old.scope ++ rule.name⟩] ++ after,
        p.covered⟩ := by
  have hnonempty := fun s hs => (hp.spans s hs).1
  have hle := hp.covered_le
  obtain ⟨hstart, hin⟩ := hp.tiled.holds (by omega) hm hcovered hh
  have hregions : p.regions = before ++ old :: after := by simpa using holder?_eq hh
  have hold : old ∈ p.regions := hregions ▸ List.mem_append_right _ List.mem_cons_self
  have hedges := hp.edges old hold
  have hstop : span.stop ≤ old.stop := by
    have := hedges.2.outside hm hnonempty hfree
    omega
  have hstop' : span.stop ≤ p.covered := by
    have := hp.covered_edge.outside hm hnonempty hfree
    omega
  have htiled := hp.tiled
  rw [hregions] at htiled
  have hpiece {r : Region} (hr : r ∈ before ++
      splice old span.start span.stop [⟨span.start, span.stop, old.scope ++ rule.name⟩] ++ after) :=
    htiled.piece (Nat.lt_succ_of_le hle) hstart hstop hr
  rw [← hregions] at hpiece
  refine ⟨?_, hle, hp.covered_edge.concat, fun r hr => ?_, fun r hr x hx => ?_, fun s hs => ?_⟩
  · refine hp.tiled.splice hh hcovered ?_ (.cons hlt (.nil _))
    simp [Region.admits, hstart, hstop]
  · cases hpiece hr with
    | kept mem => exact ⟨(hp.edges r mem).1.concat, (hp.edges r mem).2.concat⟩
    | before start stop => exact ⟨start ▸ hedges.1.concat, stop ▸ .start⟩
    | inside start stop => exact ⟨start ▸ .start, stop ▸ .stop⟩
    | after start stop => exact ⟨start ▸ .stop, stop ▸ hedges.2.concat⟩
  · have hscope (hx : old.start ≤ x ∧ x < old.stop) : old.scope = base ++ namesAt spans x :=
      hp.scopes old hold x (Region.holds_iff.mpr hx)
    have hbounds := Region.holds_iff.mp hx
    cases hpiece hr with
    | kept mem apart => rw [namesAt_concat_of_not (by omega), hp.scopes r mem x hx]
    | before start stop scope => rw [namesAt_concat_of_not (by omega), scope, hscope (by omega)]
    | inside start stop scope =>
      rw [namesAt_concat (by omega), scope, hscope (by omega), List.append_assoc]
    | after start stop scope => rw [namesAt_concat_of_not (by omega), scope, hscope (by omega)]
  · rcases List.mem_append.mp hs with hs | hs
    · exact hp.spans s hs
    · obtain rfl := List.mem_singleton.mp hs
      exact ⟨hlt, hstop'⟩

theorem namesAt_behind (hp : Labelled base m spans p) (hx : p.covered ≤ x) : namesAt spans x = [] := by
  have hnone : spans.filter (·.1.holds x) = [] := by
    refine List.filter_eq_nil_iff.mpr fun s hs => ?_
    have := (hp.spans s hs).2
    simp only [Span.holds, Bool.and_eq_true, decide_eq_true_eq]
    omega
  rw [namesAt, hnone, List.flatMap_nil]

/-- A span behind all that was covered is taken under the scope of the match. -/
theorem behind (hp : Labelled base m spans p) (hlt : span.start < span.stop) (hm : span.stop ≤ m.stop)
    (hcovered : p.covered ≤ span.start) :
    Labelled base m (spans ++ [(span, rule)])
      ⟨p.regions ++ gap p.covered span.start base ++ [⟨span.start, span.stop, base ++ rule.name⟩],
        span.stop⟩ := by
  have hgap : Tiled (m.stop + 1) p.covered span.start (gap p.covered span.start base) := .gap (.inl hcovered)
  have htiled := hp.tiled.append hgap
  refine ⟨htiled.append (.cons hlt (.nil _)), hm, .stop, fun r hr => ?_, fun r hr x hx => ?_, fun s hs => ?_⟩
  · simp only [List.mem_append, List.mem_singleton] at hr
    rcases hr with (hr | hr) | rfl
    · exact ⟨(hp.edges r hr).1.concat, (hp.edges r hr).2.concat⟩
    · obtain ⟨-, rfl⟩ := mem_gap hr
      exact ⟨hp.covered_edge.concat, .start⟩
    · exact ⟨.start, .stop⟩
  · have hbounds := Region.holds_iff.mp hx
    simp only [List.mem_append, List.mem_singleton] at hr
    rcases hr with (hr | hr) | rfl
    · have := hp.tiled.within (Nat.lt_succ_of_le hp.covered_le) hr
      rw [namesAt_concat_of_not (by omega), hp.scopes r hr x hx]
    · obtain ⟨-, rfl⟩ := mem_gap hr
      simp only at hbounds
      rw [namesAt_concat_of_not (by omega), hp.namesAt_behind (by omega), List.append_nil]
    · simp only at hbounds
      rw [namesAt_concat hbounds, hp.namesAt_behind (by omega), List.nil_append]
  · rcases List.mem_append.mp hs with hs | hs
    · have := hp.spans s hs
      simp only
      omega
    · obtain rfl := List.mem_singleton.mp hs
      exact ⟨hlt, Nat.le_refl _⟩

/-- Adding a group whose rule carries names alone labels its span. -/
theorem addSpan (hp : Labelled base m spans p) (hm : m.start ≤ span.start) (hlt : span.start < span.stop)
    (hm' : span.stop ≤ m.stop) (hfree : ∀ s ∈ spans, span.Within s.1 ∨ s.1.Apart span)
    (hcompile : Returns (compileRule engine rule) c compiled d)
    (hinner : ∀ scope, Returns (divide (line.extract span.start span.stop) scope compiled) d
      [⟨0, span.stop - span.start, scope ++ rule.name⟩] d) :
    ∃ q, Returns (addSpan engine divide line base span rule p) c q d ∧
      Labelled base m (spans ++ [(span, rule)]) q := by
  have hshift (scope : Scope) : [Region.mk 0 (span.stop - span.start) scope].map (·.shift span.start) =
      [⟨span.start, span.stop, scope⟩] := by
    simp [Region.shift, Nat.sub_add_cancel (Nat.le_of_lt hlt)]
  by_cases hcovered : span.start < p.covered
  · have hne : p.regions.reverse ≠ [] := by
      intro hnil
      have hcovers := hp.tiled.covers hm hcovered (by omega)
      rw [List.reverse_eq_nil_iff.mp hnil, overlap_nil] at hcovers
      exact Nat.lt_irrefl 0 hcovers
    obtain ⟨⟨before, old, after⟩, hh⟩ := Option.ne_none_iff_exists'.mp (holder?_ne_none (x := span.start) hne)
    refine ⟨_, ?_, hp.divided hm hlt hcovered hfree hh⟩
    refine hcompile.bind_intro ?_
    rw [if_pos hcovered, hh]
    refine (hinner old.scope).bind_intro ?_
    rw [hshift]
    rfl
  · refine ⟨_, ?_, hp.behind hlt hm' (by omega)⟩
    refine hcompile.bind_intro ?_
    rw [if_neg hcovered]
    refine (hinner base).bind_intro ?_
    rw [hshift]
    rfl

/-- What no span covers is left to the scope of the match. -/
theorem finish (hp : Labelled base m spans p) :
    Consecutive m.start m.stop (p.regions ++ gap p.covered m.stop base) ∧
      ∀ r ∈ p.regions ++ gap p.covered m.stop base, ∀ x, r.holds x → r.scope = base ++ namesAt spans x := by
  refine ⟨(hp.tiled.append (.gap (.inl hp.covered_le))).consecutive (Nat.lt_succ_self _), fun r hr x hx => ?_⟩
  rcases List.mem_append.mp hr with hr | hr
  · exact hp.scopes r hr x hx
  · obtain ⟨-, rfl⟩ := mem_gap hr
    have hbounds := Region.holds_iff.mp hx
    rw [hp.namesAt_behind hbounds.1, List.append_nil]

end Labelled

/-! ### Rules that carry names alone -/

/-- Lists of no patterns are kept as such. -/
def Compiler.Blank (c : Compiler) : Prop := ∀ e ∈ c.lists, e.1.rules = [] → e.2 = []

theorem lasting_blank : Lasting (fun e => e.1.rules = [] → e.2 = []) fun _ => True where
  none := trivial
  own _ := trivial
  opened _ _ := rfl
  kept _ := trivial
  joined {g rules parts} hlength _ hnone := by
    have hrules : rules = [] := List.map_eq_nil_iff.mp hnone
    rw [hrules] at hlength
    rw [List.length_eq_zero_iff.mp hlength]
    rfl

/-- What stays true of a compiler whose rules are being used: what is kept is right, and there is a base. -/
structure Compiler.Serves (engine : Engine) (c : Compiler) : Prop where
  faithful : c.Faithful engine
  blank : c.Blank
  base : c.library.base? ≠ none

theorem choiceOf_nil : Returns (choiceOf engine []) c ⟨[], []⟩ c := rfl

/-- A rule that carries names alone is made ready as one that offers nothing. -/
theorem compileRule_namesOnly (hc : c.Serves engine) (hr : c.Met r) (hnames : r.NamesOnly) :
    ∃ d, Returns (compileRule engine r) c ⟨r.id, r.name, .patternsOnly ⟨[], []⟩⟩ d ∧ d.Serves engine ∧
      c.Grows d := by
  obtain ⟨hp, hfaithful⟩ := compileRule_prepared hc.faithful hr
  have hkeeps : Upholds _ (fun _ => True) (compileRule engine r) := compileRule_upholds lasting_blank
  have hblank := (hkeeps c hc.blank).1
  have hprepares := hp.prepares hc.base
  have hserves : Compiler.Serves engine (outcome (compileRule engine r) c).2 :=
    ⟨hfaithful, hblank, by rw [hp.grows.library_eq]; exact hc.base⟩
  refine ⟨_, Prod.ext ?_ rfl, hserves, hp.grows⟩
  rw [Compiler.Prepares, hnames.matchPattern, if_neg (by simp)] at hprepares
  obtain ⟨candidates, hkept, hresult⟩ := hprepares
  obtain ⟨n, -, hlookup⟩ := Option.bind_eq_some_iff.mp hkept
  obtain ⟨before, after, he, -⟩ := List.lookup_eq_some_iff.mp hlookup
  have hnone : candidates = [] :=
    hblank _ (he ▸ List.mem_append_right before List.mem_cons_self) (by rw [hnames.patterns]; rfl)
  rw [hresult, hnone, choiceOf_nil]
  simp [Except.map, Compiled.ofChoice, hnames.beginPattern]

/-- Under a rule that offers nothing a text is one region. -/
theorem parts_patternsOnly {text : Text} {depth : Nat} {origin : Option RuleId} {name : Scope}
    (hnone : ∀ text position, engine.searchAny [] text position = .ok none)
    (hsize : 0 < text.size) :
    Returns (parts engine searchBound (depth + 1) text scope ⟨origin, name, .patternsOnly ⟨[], []⟩⟩) c
      [⟨0, text.size, scope ++ name⟩] c := by
  let stack : Stack := { top := ⟨scope ++ name, ⟨origin, name, .patternsOnly ⟨[], []⟩⟩, none⟩ }
  have hstart (cut : Cut) : Returns (continueWhiles engine cut text stack stack.whiles [] 0 []) c
      ⟨stack, 0, []⟩ c := rfl
  have hlibrary : Returns (get : Compile Compiler) c c c := rfl
  have hfind : Returns (findChoice engine ⟨[], []⟩ text 0) c none c := findChoice_none (hnone text 0)
  have hturn (cut : Cut) : Returns (advance engine cut text stack 0) c none c :=
    (hfind.bind_intro rfl : Returns (seek engine text stack.top.rule none 0) c none c).bind_intro rfl
  have hloop (cut : Cut) : Returns (searchLoop engine cut text (searchBound c.library stack text) stack 0 [])
      c ⟨stack, 0, []⟩ c := by
    obtain ⟨n, hn⟩ : ∃ n, searchBound c.library stack text = n + 1 :=
      Nat.exists_eq_add_one_of_ne_zero (by simp [searchBound, Stack.height])
    rw [hn]
    exact (hturn cut).bind_intro rfl
  have hline : Returns (divideLine engine searchBound (depth + 1) stack text) c
      (stack, [⟨0, text.size, scope ++ name⟩]) c := by
    rw [divideLine, searchLine]
    refine (hstart _).bind_intro ?_
    refine hlibrary.bind_intro ?_
    refine (hloop _).bind_intro ?_
    rw [gap, if_pos hsize]
    rfl
  exact hline.bind_intro rfl

/-! ### Matches -/

theorem filled?_eq_some {n : Nat} (h : filled? m n = some span) :
    m.group? n = some (some span) ∧ span.start ≠ span.stop := by
  unfold filled? at h
  split at h
  · rename_i hgroup
    split at h
    · cases h
    · cases h
      exact ⟨hgroup, ‹_›⟩
  · cases h

theorem map_taken : (taken m captures).map (·.1) = (captures.map (·.1)).filterMap (filled? m) := by
  simp [taken, List.map_filterMap, List.filterMap_map, Function.comp_def]

theorem addCapture_of_none {capture : Nat × Rule} (h : filled? m capture.1 = none) :
    Returns (addCapture engine divide line base m capture p) c p c := by
  unfold filled? at h
  unfold addCapture
  cases hgroup : m.group? capture.1 with
  | none => rfl
  | some span? =>
    cases span? with
    | none => rfl
    | some span =>
      rw [hgroup] at h
      dsimp only at h ⊢
      split at h
      · rename_i he
        rw [if_pos (beq_iff_eq.mpr he)]
        rfl
      · cases h

theorem addCapture_of_some {capture : Nat × Rule} {q : Progress} (h : filled? m capture.1 = some span)
    (hadd : Returns (addSpan engine divide line base span capture.2 p) c q d) :
    Returns (addCapture engine divide line base m capture p) c q d := by
  obtain ⟨hgroup, hne⟩ := filled?_eq_some h
  unfold addCapture
  rw [hgroup]
  dsimp only
  rw [if_neg (by simpa using hne)]
  exact hadd

/-- A group whose rule carries names alone labels its span, if that does not lie across one that was added
before. -/
theorem addCapture_labelled {depth : Nat} {capture : Nat × Rule}
    (hnone : ∀ text position, engine.searchAny [] text position = .ok none)
    (hm : m.Lies 0 line.size) (hc : c.Serves engine)
    (hmet : c.Met capture.2) (hnames : capture.2.NamesOnly) (hp : Labelled base m spans p)
    (hfilled : filled? m capture.1 = some span) (hinside : m.start ≤ span.start ∧ span.stop ≤ m.stop)
    (hfree : ∀ s ∈ spans, span.Within s.1 ∨ s.1.Apart span) :
    ∃ q d, Returns (addCapture engine (parts engine searchBound (depth + 1)) line base m capture p) c q d ∧
      d.Serves engine ∧ c.Grows d ∧ Labelled base m (spans ++ [(span, capture.2)]) q := by
  obtain ⟨hgroup, hne⟩ := filled?_eq_some hfilled
  obtain ⟨hle, hsize⟩ := hm.group hgroup
  have hlt : span.start < span.stop := Nat.lt_of_le_of_ne hle hne
  obtain ⟨d, hcompile, hd, hgrows⟩ := compileRule_namesOnly hc hmet hnames
  have htext : (line.extract span.start span.stop).size = span.stop - span.start := by
    rw [Array.size_extract, Nat.min_eq_left hsize]
  have hinner (scope : Scope) : Returns (parts engine searchBound (depth + 1)
      (line.extract span.start span.stop) scope ⟨capture.2.id, capture.2.name, .patternsOnly ⟨[], []⟩⟩) d
      [⟨0, span.stop - span.start, scope ++ capture.2.name⟩] d := by
    rw [← htext]
    exact parts_patternsOnly hnone (htext ▸ Nat.sub_pos_of_lt hlt)
  obtain ⟨q, hq, hlabelled⟩ := hp.addSpan hinside.1 hlt hinside.2 hfree hcompile hinner
  exact ⟨q, d, addCapture_of_some hfilled hq, hd, hgrows, hlabelled⟩

/-- Adding groups whose rules carry names alone labels their spans, as long as no span lies across one that
was added before it. -/
theorem addCaptures_labelled {depth : Nat}
    (hnone : ∀ text position, engine.searchAny [] text position = .ok none)
    (hm : m.Lies 0 line.size) (hc : c.Serves engine)
    (hcaptures : ∀ x ∈ captures, c.Met x.2 ∧ x.2.NamesOnly) (hp : Labelled base m spans p)
    (hinside : ∀ s ∈ taken m captures, m.start ≤ s.1.start ∧ s.1.stop ≤ m.stop)
    (hnested : (spans ++ taken m captures).Pairwise fun a b => b.1.Within a.1 ∨ a.1.Apart b.1) :
    ∃ q d, Returns (captures.foldlM (fun p capture =>
        addCapture engine (parts engine searchBound (depth + 1)) line base m capture p) p) c q d ∧
      Labelled base m (spans ++ taken m captures) q := by
  induction captures generalizing spans p c with
  | nil => exact ⟨p, c, rfl, by rwa [taken, List.filterMap_nil, List.append_nil]⟩
  | cons capture captures ih =>
    obtain ⟨⟨hfirst, hnames⟩, hrest⟩ := List.forall_mem_cons.mp hcaptures
    cases hfilled : filled? m capture.1 with
    | none =>
      have hall : taken m (capture :: captures) = taken m captures :=
        List.filterMap_cons_none (by rw [hfilled]; rfl)
      rw [hall] at hinside hnested ⊢
      obtain ⟨q, d, hq, hlabelled⟩ := ih hc hrest hp hinside hnested
      refine ⟨q, d, ?_, hlabelled⟩
      rw [List.foldlM_cons]
      exact (addCapture_of_none hfilled).bind_intro hq
    | some span =>
      have hall : taken m (capture :: captures) = (span, capture.2) :: taken m captures :=
        List.filterMap_cons_some (by rw [hfilled]; rfl)
      rw [hall, List.append_cons] at hnested ⊢
      rw [hall] at hinside
      obtain ⟨hspan, hothers⟩ := List.forall_mem_cons.mp hinside
      have hfree : ∀ t ∈ spans, span.Within t.1 ∨ t.1.Apart span := fun t ht =>
        (List.pairwise_append.mp (List.pairwise_append.mp hnested).1).2.2 t ht _ (List.mem_singleton_self _)
      obtain ⟨q, d, hq, hd, hgrows, hlabelled⟩ :=
        addCapture_labelled hnone hm hc hfirst hnames hp hfilled hspan hfree
      have hmet : ∀ x ∈ captures, d.Met x.2 ∧ x.2.NamesOnly := fun x hx =>
        ⟨(hrest x hx).1.grows hgrows, (hrest x hx).2⟩
      obtain ⟨q', d', hq', hlabelled'⟩ := ih hd hmet hlabelled hothers hnested
      refine ⟨q', d', ?_, hlabelled'⟩
      rw [List.foldlM_cons]
      exact hq.bind_intro hq'

/-- In whatever state a tokenizer is, what it keeps is right and the captures of a rule that was made ready
were met. -/
theorem serves_of_ready {tree : Files.Tree} {path : Files.Path} {name : String}
    {extras : List (String × Files.Path)} {notes : List Tokenizer.Note} {t : Tokenizer} {id : RuleId}
    {k : Compiled} (h : Tokenizer.loadWith engine tree path name extras = (.ok t, notes))
    (hc : t.compiler.Makes engine c) (hk : c.compiled.lookup id = some k) :
    c.Serves engine ∧ ∀ x ∈ k.form.captures, c.Met x.2 := by
  obtain ⟨rfl, hknows⟩ := Tokenizer.loadWith_knows h
  obtain ⟨library, made, -, hmade⟩ := Tokenizer.loadWith_made h
  obtain ⟨g, -, -, hroot⟩ := Tokenizer.ofLibrary_made hmade
  have hfaithful := hc.faithful hknows.faithful
  obtain ⟨hbase, hmet, -⟩ := hfaithful.ready id k hk
  have hblank : t.compiler.Blank := by
    have hkeeps : Upholds _ (fun _ => True) (compileRoot t.engine g) := compileRoot_upholds lasting_blank
    have hstart := (hkeeps { library } nofun).1
    rwa [show outcome (compileRoot t.engine g) { library } = (.ok t.root, t.compiler) from hroot] at hstart
  exact ⟨⟨hfaithful, hc.keeps lasting_blank hblank, hbase⟩, fun x hx => hmet x.2 (.inr ⟨x, hx, rfl⟩)⟩

/-- Whatever rule was made ready and whatever matched, if the captures carry names alone, and the groups that
are filled lie inside the match and each in those listed before it or apart from them, then the regions of
the match follow one another from its start to its end, and each has the names of the groups that it lies
in, as they are listed. -/
theorem divideMatch_namesAt {tree : Files.Tree} {path : Files.Path} {name : String}
    {extras : List (String × Files.Path)} {notes : List Tokenizer.Note} {t : Tokenizer} {id : RuleId}
    {k : Compiled} {depth : Nat} (hnone : ∀ text position, engine.searchAny [] text position = .ok none)
    (h : Tokenizer.loadWith engine tree path name extras = (.ok t, notes))
    (hc : t.compiler.Makes engine c) (hk : c.compiled.lookup id = some k)
    (hcaptures : ∀ x ∈ captures, x ∈ k.form.captures ∧ x.2.NamesOnly)
    (hm : m.Lies 0 line.size)
    (hinside : ∀ s ∈ taken m captures, m.start ≤ s.1.start ∧ s.1.stop ≤ m.stop)
    (hnested : (taken m captures).Pairwise fun a b => b.1.Within a.1 ∨ a.1.Apart b.1) :
    ∃ rs d,
      Returns (divideMatch (addCapture engine (parts engine searchBound (depth + 1)) line) base m captures)
        c rs d ∧
      Consecutive m.start m.stop rs ∧
      ∀ r ∈ rs, ∀ x, r.holds x → r.scope = base ++ namesAt (taken m captures) x := by
  obtain ⟨hserves, hmet⟩ := serves_of_ready h hc hk
  have hall : ∀ x ∈ captures, c.Met x.2 ∧ x.2.NamesOnly := fun x hx =>
    ⟨hmet x (hcaptures x hx).1, (hcaptures x hx).2⟩
  have hstart : Labelled base m [] ⟨[], m.start⟩ := .start hm.start_le
  obtain ⟨q, d, hq, hlabelled⟩ := addCaptures_labelled hnone hm hserves hall hstart hinside hnested
  rw [List.nil_append] at hlabelled
  obtain ⟨hconsecutive, hscopes⟩ := hlabelled.finish
  exact ⟨_, d, hq.bind_intro rfl, hconsecutive, hscopes⟩

/-- A tree with one grammar, whose rule has groups in a group and one apart from them. -/
def groupsInGroup : Files.Tree :=
  let grammar := ["\x7b\"scopeName\":\"s\",\"patterns\":[\x7b\"match\":\"(a(b)(c))d(e)\",\"name\":\"m\",",
    "\"captures\":\x7b\"1\":\x7b\"name\":\"x\"\x7d,\"2\":\x7b\"name\":\"y\"\x7d,\"3\":\x7b\"name\":\"z\"\x7d,",
    "\"4\":\x7b\"name\":\"w\"\x7d\x7d\x7d]\x7d"]
  ⟨[(["g.json"], .file (Text.encodeUtf8 (grammar.flatMap String.toList)))]⟩

instance (r : Rule) : Decidable r.NamesOnly :=
  decidable_of_iff (r.matchPattern = none ∧ r.beginPattern = none ∧ r.patterns.isEmpty) <| by
    rw [List.isEmpty_iff]
    exact ⟨fun h => ⟨h.1, h.2.1, h.2.2⟩, fun h => ⟨h.1, h.2, h.3⟩⟩

/-- What a line has made ready: the numbers and names of a rule's captures, and whether they carry names
alone. -/
def readyCaptures (line : Text) (id : RuleId) (t : Tokenizer) :
    Except LoadFailure (Option (List (Nat × Scope) × Bool)) :=
  match outcome (divideLine t.engine searchBound captureDepth t.rootStack line) t.compiler with
  | (.ok _, c) => .ok <| (c.compiled.lookup id).map fun k =>
    (k.form.captures.map fun x => (x.1, x.2.name), k.form.captures.all fun x => x.2.NamesOnly)
  | (.error f, _) => .error (.rule f)

theorem readyCaptures_eq {t : Tokenizer} {id : RuleId} {found : List (Nat × Scope) × Bool} (ht : t.Knows)
    (h : readyCaptures line id t = .ok (some found)) : ∃ c k, t.compiler.Makes t.engine c ∧
      c.compiled.lookup id = some k ∧ k.form.captures.map (fun x => (x.1, x.2.name)) = found.1 ∧
      k.form.captures.all (fun x => x.2.NamesOnly) = found.2 := by
  unfold readyCaptures at h
  split at h
  · rename_i after c hline
    obtain ⟨k, hk, hfound⟩ := Option.map_eq_some_iff.mp (Except.ok.inj h)
    have hmakes : t.compiler.Makes t.engine
        (outcome (divideLine t.engine searchBound captureDepth t.rootStack line) t.compiler).2 :=
      (divideLine_lockstep.moves t.compiler ht.rootStack).makes
    rw [hline] at hmakes
    cases hfound
    exact ⟨c, k, hmakes, hk, rfl, rfl⟩
  · cases h

/-- The match of the grammar's one rule in a line `abcde`. -/
def matchOfGroups : Match := ⟨0, 5, [some ⟨0, 3⟩, some ⟨1, 2⟩, some ⟨2, 3⟩, some ⟨4, 5⟩]⟩

theorem divideMatch_namesAt_groupsInGroup : ∃ t notes c k,
    Tokenizer.load groupsInGroup (.ofString "g.json") "s" [] = (.ok t, notes) ∧
      t.compiler.Makes t.engine c ∧ c.compiled.lookup ⟨0, [0, 0, 0]⟩ = some k ∧
      k.form.captures.map (fun x => (x.1, x.2.name)) = [(1, (["x"] : Scope)), (2, ["y"]), (3, ["z"]), (4, ["w"])] ∧
      ∃ rs d, Returns (divideMatch (addCapture t.engine (parts t.engine searchBound 1) (searched "abcde"))
          ["s", "m"] matchOfGroups k.form.captures) c rs d ∧
        Consecutive 0 5 rs ∧ ∀ r ∈ rs, ∀ x, r.holds x →
          r.scope = (["s", "m"] : Scope) ++ namesAt (taken matchOfGroups k.form.captures) x := by
  have hrun : Tokenizer.resultOf (Tokenizer.load groupsInGroup (.ofString "g.json") "s" [])
      (readyCaptures (searched "abcde") ⟨0, [0, 0, 0]⟩) =
      some (some ([(1, (["x"] : Scope)), (2, ["y"]), (3, ["z"]), (4, ["w"])], true)) := by decide +kernel
  obtain ⟨t, notes, ht, h⟩ := Tokenizer.resultOf_eq hrun
  obtain ⟨he, hknows⟩ := Tokenizer.loadWith_knows ht
  obtain ⟨c, k, hmakes, hk, hgroups, hnames⟩ := readyCaptures_eq hknows h
  have hspans : (taken matchOfGroups k.form.captures).map (·.1) = [⟨0, 3⟩, ⟨1, 2⟩, ⟨2, 3⟩, ⟨4, 5⟩] := by
    have hnumbers : k.form.captures.map (·.1) = [1, 2, 3, 4] := by
      have := congrArg (List.map (·.1)) hgroups
      rwa [List.map_map] at this
    rw [map_taken, hnumbers]
    decide
  have hinside : ∀ span ∈ (taken matchOfGroups k.form.captures).map (·.1),
      0 ≤ span.start ∧ span.stop ≤ 5 := by
    rw [hspans]
    decide
  have hnested : ((taken matchOfGroups k.form.captures).map (·.1)).Pairwise fun a b =>
      b.Within a ∨ a.Apart b := by
    rw [hspans]
    decide
  have hnamesOnly : ∀ x ∈ k.form.captures, x ∈ k.form.captures ∧ x.2.NamesOnly := fun x hx =>
    ⟨hx, by simpa using List.all_eq_true.mp hnames x hx⟩
  refine ⟨t, notes, c, k, ht, hmakes, hk, hgroups, ?_⟩
  rw [he] at hmakes ⊢
  exact divideMatch_namesAt searchAny_nil ht hmakes hk hnamesOnly
    (Pattern.Match.lies_sound (by decide)) (fun s hs => hinside s.1 (List.mem_map_of_mem hs))
    (List.pairwise_map.mp hnested)

end Highlighter.Grammar

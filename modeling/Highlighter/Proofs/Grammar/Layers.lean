import Highlighter.Proofs.Grammar.Census
import Highlighter.Proofs.Grammar.Lockstep
import Mathlib.Logic.Relation

/-! Pattern lists in layers. A list that is asked for while it is being flattened is taken as empty, and
what was flattened from that is kept. Where no two lists lead to each other that only happens to a list
within itself, so what is kept for a list does not depend on which of the others was asked for first. -/

namespace Highlighter.Grammar

variable {l : Library} {g : Grammar} {r : Rule} {a b p : PatternList} {c d : Compiler}
  {opened : List PatternList} {fuel n : Nat} {cs ds : List Candidate}

/-! ### Where lists lead -/

/-- What a rule offers by itself. -/
def own (r : Rule) : List Candidate :=
  match r.include with
  | some _ => []
  | none =>
    match r.matchPattern, r.beginPattern with
    | some pattern, _ | none, some pattern => [⟨pattern, r⟩]
    | none, none => []

/-- The pattern list that a rule stands for. -/
def next? (l : Library) (g : Grammar) (r : Rule) : Option PatternList :=
  match r.include with
  | some reference =>
    match resolveInclude l g reference with
    | .rules other rules => some (other, rules)
    | _ => none
  | none =>
    match r.matchPattern, r.beginPattern with
    | none, none => if r.patterns.isEmpty then none else some (g, r.patterns)
    | _, _ => none

/-- One list holds a rule that stands for the other. -/
def Precedes (l : Library) (a b : PatternList) : Prop := ∃ r ∈ a.2, next? l a.1 r = some b

/-- No two lists lead to each other. -/
def Layered (l : Library) : Prop :=
  ∀ a b, l.Lists a → Relation.TransGen (Precedes l) a b → Relation.TransGen (Precedes l) b a → a = b

theorem next?_lists (hr : l.Has g r) (h : next? l g r = some b) : l.Lists b := by
  unfold next? at h
  split at h
  · split at h
    · rename_i other rules hresolve
      cases h
      exact resolveInclude_lists hr.1 hresolve
    · cases h
  · split at h
    · split at h
      · cases h
      · cases h
        exact .patterns hr
    · cases h

/-- What a pattern list leads to is a pattern list. -/
theorem leads_lists (ha : l.Lists a) (hab : Relation.ReflTransGen (Precedes l) a b) : l.Lists b := by
  induction hab with
  | refl => exact ha
  | tail _ hprecedes ih =>
    obtain ⟨s, hs, hnext⟩ := hprecedes
    exact next?_lists (ih.has s hs) hnext

/-- How many lists lead on from a list, one from the other, up to a bound. -/
def reach (l : Library) : Nat → PatternList → Nat
  | 0, _ => 0
  | n + 1, a => (a.2.filterMap (next? l a.1)).foldr
      (fun b most => max most (if b.key = a.key then 0 else reach l n b + 1)) 0

/-- The check behind `Layered`: each list reaches further than those that it leads to, except itself. -/
def inLayers (l : Library) : Bool :=
  let reach := reach l (Library.listBound l)
  l.patternLists.all fun a => a.2.all fun r =>
    (next? l a.1 r).all fun b => b.key == a.key || reach b < reach a

theorem inLayers_sound (hw : l.WellFormed) (h : inLayers l = true) : Layered l := by
  have hstep {a b : PatternList} (ha : l.Lists a) (hab : Precedes l a b) :
      l.Lists b ∧ (b = a ∨ reach l (Library.listBound l) b < reach l (Library.listBound l) a) := by
    obtain ⟨r, hr, hnext⟩ := hab
    have hb := next?_lists (ha.has r hr) hnext
    have hchecked := List.all_eq_true.mp (List.all_eq_true.mp h a ha.mem) r hr
    simp only [hnext, Option.all_some, Bool.or_eq_true, beq_iff_eq, decide_eq_true_eq] at hchecked
    exact ⟨hb, hchecked.imp (hb.key_inj hw ha) id⟩
  have hsteps {a b : PatternList} (ha : l.Lists a) (hab : Relation.TransGen (Precedes l) a b) :
      l.Lists b ∧ (b = a ∨ reach l (Library.listBound l) b < reach l (Library.listBound l) a) := by
    induction hab with
    | single hab => exact hstep ha hab
    | tail _ hbc ih =>
      obtain ⟨hb, hab⟩ := ih
      obtain ⟨hc, hbc⟩ := hstep hb hbc
      refine ⟨hc, ?_⟩
      rcases hab with rfl | hab
      · exact hbc
      · rcases hbc with rfl | hbc
        · exact .inr hab
        · exact .inr (Nat.lt_trans hbc hab)
  intro a b ha hab hba
  obtain ⟨hb, rfl | hlt⟩ := hsteps ha hab
  · rfl
  · rcases (hsteps hb hba).2 with rfl | hlt'
    · rfl
    · exact absurd hlt (Nat.lt_asymm hlt')

theorem contribution_next {lists : Grammar → List Rule → Compile (List Candidate)}
    (h : next? c.library g r = some b) :
    outcome (contribution lists g r) c = outcome (lists b.1 b.2) c := by
  unfold next? at h
  unfold contribution
  cases hinclude : r.include with
  | some reference =>
    rw [hinclude] at h
    dsimp only at h ⊢
    rw [outcome_bind_ok outcome_get]
    cases hresolve : resolveInclude c.library g reference <;> rw [hresolve] at h <;> cases h
    rfl
  | none =>
    rw [hinclude] at h
    cases hmatch : r.matchPattern <;> cases hbegin : r.beginPattern <;> rw [hmatch, hbegin] at h <;>
      dsimp only at h <;> try cases h
    split at h
    · cases h
    · rename_i hpatterns
      cases h
      dsimp only
      rw [if_neg hpatterns]

theorem contribution_own {lists : Grammar → List Rule → Compile (List Candidate)}
    (h : next? c.library g r = none) (hd : Returns (contribution lists g r) c cs d) :
    cs = own r ∧ d.library = c.library ∧ d.lists = c.lists := by
  unfold next? at h
  unfold contribution at hd
  unfold own
  cases hinclude : r.include with
  | some reference =>
    rw [hinclude] at h hd
    rw [Returns, outcome_bind_ok outcome_get] at hd
    dsimp only at h hd ⊢
    split at h
    · cases h
    · rename_i hrules
      split at hd
      · rename_i other rules hresolve
        exact absurd hresolve (hrules other rules)
      · obtain ⟨_, d', hnote, rest⟩ := Returns.bind hd
        obtain ⟨rfl, rfl⟩ := Returns.pure rest
        rw [Returns, noteMissing, outcome_modify] at hnote
        obtain rfl := (Prod.mk.inj hnote).2
        split <;> exact ⟨rfl, rfl, rfl⟩
      · exact absurd hd Returns.throw
  | none =>
    rw [hinclude] at h hd
    dsimp only at h hd ⊢
    cases hmatch : r.matchPattern with
    | some pattern =>
      rw [hmatch] at hd
      cases hd
      exact ⟨rfl, rfl, rfl⟩
    | none =>
      cases hbegin : r.beginPattern with
      | some pattern =>
        rw [hmatch, hbegin] at hd
        cases hd
        exact ⟨rfl, rfl, rfl⟩
      | none =>
        rw [hmatch, hbegin] at h hd
        dsimp only at h hd
        split at h
        · rename_i hempty
          rw [if_pos hempty] at hd
          obtain ⟨rfl, rfl⟩ := Returns.pure hd
          exact ⟨rfl, rfl, rfl⟩
        · cases h

/-! ### What a list comes to -/

/-- What a rule of a list comes to, given what lists come to. A list within itself adds nothing. -/
def offered (l : Library) (lists : PatternList → List Candidate) (a : PatternList) (r : Rule) :
    List Candidate :=
  match next? l a.1 r with
  | none => own r
  | some b => if b.key = a.key then [] else lists b

/-- What a list comes to, lists within lists being followed to a depth. -/
def expand (l : Library) : Nat → PatternList → List Candidate
  | 0, _ => []
  | n + 1, a => a.2.flatMap (offered l (expand l n) a)

/-- All there is to a list, however deep its lists are followed. -/
def Settled (l : Library) (a : PatternList) (cs : List Candidate) : Prop :=
  ∃ n, ∀ m, n ≤ m → expand l m a = cs

theorem Settled.unique (h : Settled l a cs) (h' : Settled l a ds) : cs = ds := by
  obtain ⟨n, hn⟩ := h
  obtain ⟨m, hm⟩ := h'
  rw [← hn (max n m) (Nat.le_max_left n m), hm (max n m) (Nat.le_max_right n m)]

/-! ### Flattening -/

/-- Lists that are being flattened, the last one first, each within the next; the first of them has a rule
that stands for the list that is asked for. -/
inductive Path (l : Library) : List PatternList → PatternList → Prop
  | start {a : PatternList} (lists : l.Lists a) : Path l [] a
  | next {opened : List PatternList} {a b : PatternList} (path : Path l opened a) (new : a ∉ opened)
      (precedes : Precedes l a b) : Path l (a :: opened) b

namespace Path

theorem lists (h : Path l opened a) : l.Lists a := by
  induction h with
  | start lists => exact lists
  | next path new precedes ih =>
    obtain ⟨r, hr, hnext⟩ := precedes
    exact next?_lists (ih.has r hr) hnext

theorem reaches (h : Path l opened a) (hp : p ∈ opened) :
    l.Lists p ∧ Relation.TransGen (Precedes l) p a := by
  induction h with
  | start => cases hp
  | next path new precedes ih =>
    rcases List.mem_cons.mp hp with rfl | hp
    · exact ⟨path.lists, .single precedes⟩
    · exact ⟨(ih hp).1, (ih hp).2.tail precedes⟩

theorem nodup (h : Path l opened a) : opened.Nodup := by
  induction h with
  | start => exact .nil
  | next path new precedes ih => exact List.nodup_cons.mpr ⟨new, ih⟩

/-- In layers, only the innermost list can be asked for once more. -/
theorem again (hl : Layered l) (h : Path l (p :: opened) b) (hb : b ∈ p :: opened) : b = p := by
  cases h with
  | next path new precedes =>
    rcases List.mem_cons.mp hb with rfl | hb
    · rfl
    · obtain ⟨hlists, hreaches⟩ := path.reaches hb
      exact hl b p hlists hreaches (.single precedes)

theorem length_le (h : Path l opened a) : opened.length ≤ l.patternLists.length :=
  h.nodup.length_le_of_subset fun _ hp => (h.reaches hp).1.mem

end Path

/-- While lists are being flattened they are empty, and all others that are kept are all there. -/
structure Flattening (l : Library) (opened : List PatternList) (c : Compiler) : Prop where
  library_eq : c.library = l
  empty : ∀ a ∈ opened, c.lists.lookup a.key = some []
  settled : ∀ a, l.Lists a → a ∉ opened → ∀ cs, c.lists.lookup a.key = some cs → Settled l a cs

theorem Flattening.congr (h : Flattening l opened c) (hlibrary : d.library = c.library)
    (hlists : d.lists = c.lists) : Flattening l opened d :=
  ⟨hlibrary.trans h.library_eq, fun a ha => hlists ▸ h.empty a ha,
    fun a hl ha cs hcs => h.settled a hl ha cs (hlists ▸ hcs)⟩

theorem Flattening.open (hw : l.WellFormed) (h : Flattening l opened c) (ha : l.Lists a)
    (hnew : c.lists.lookup a.key = none) :
    Flattening l (a :: opened) { c with lists := (a.key, []) :: c.lists } := by
  refine ⟨h.library_eq, fun b hb => ?_, fun b hl hb cs hcs => ?_⟩
  · by_cases he : b.key = a.key
    · rw [he]
      exact List.lookup_cons_self
    · rcases List.mem_cons.mp hb with rfl | hb
      · exact absurd rfl he
      · exact (lookup_other he).trans (h.empty b hb)
  · have he : b.key ≠ a.key := fun he => hb (List.mem_cons.mpr (.inl (hl.key_inj hw ha he)))
    rw [lookup_other he] at hcs
    exact h.settled b hl (fun hm => hb (List.mem_cons_of_mem a hm)) cs hcs

theorem Flattening.close (hw : l.WellFormed) (h : Flattening l (a :: opened) c) (ha : l.Lists a)
    (hnew : a ∉ opened) (hopened : ∀ p ∈ opened, l.Lists p) (hcs : Settled l a cs) :
    Flattening l opened { c with lists := (a.key, cs) :: c.lists } := by
  refine ⟨h.library_eq, fun b hb => ?_, fun b hl hb ds hds => ?_⟩
  · have he : b.key ≠ a.key := by
      intro he
      obtain rfl := (hopened b hb).key_inj hw ha he
      exact hnew hb
    exact (lookup_other he).trans (h.empty b (List.mem_cons_of_mem a hb))
  · by_cases he : b.key = a.key
    · obtain rfl := hl.key_inj hw ha he
      change ((b.key, cs) :: c.lists).lookup b.key = some ds at hds
      rw [List.lookup_cons_self] at hds
      cases hds
      exact hcs
    · change ((a.key, cs) :: c.lists).lookup b.key = some ds at hds
      rw [lookup_other he] at hds
      refine h.settled b hl (fun hm => ?_) ds hds
      rcases List.mem_cons.mp hm with rfl | hm
      · exact he rfl
      · exact hb hm

/-- Flattening what a path leads to: a list on the path adds nothing, and others come to all there is. -/
def Flattens (l : Library) (opened : List PatternList) (a : PatternList)
    (flattened : Compile (List Candidate)) : Prop :=
  ∀ {c cs d}, Flattening l opened c → Returns flattened c cs d →
    Flattening l opened d ∧ (a ∈ opened → cs = []) ∧ (a ∉ opened → Settled l a cs)

theorem contribution_offered {lists : Grammar → List Rule → Compile (List Candidate)}
    (hw : l.WellFormed) (hl : Layered l) (path : Path l opened a) (hnew : a ∉ opened)
    (hlists : ∀ b, Path l (a :: opened) b → Flattens l (a :: opened) b (lists b.1 b.2))
    (hr : r ∈ a.2) (hc : Flattening l (a :: opened) c)
    (h : Returns (contribution lists a.1 r) c cs d) :
    Flattening l (a :: opened) d ∧ ∃ n, ∀ m, n ≤ m → offered l (expand l m) a r = cs := by
  cases hnext : next? l a.1 r with
  | none =>
    obtain ⟨rfl, hlibrary, hkept⟩ := contribution_own (hc.library_eq ▸ hnext) h
    exact ⟨hc.congr hlibrary hkept, 0, fun m _ => by rw [offered, hnext]⟩
  | some b =>
    rw [Returns, contribution_next (hc.library_eq ▸ hnext)] at h
    have hpath : Path l (a :: opened) b := .next path hnew ⟨r, hr, hnext⟩
    obtain ⟨hd, hagain, hsettled⟩ := hlists b hpath hc h
    refine ⟨hd, ?_⟩
    by_cases hb : b ∈ a :: opened
    · obtain rfl := hpath.again hl hb
      refine ⟨0, fun m _ => ?_⟩
      rw [offered, hnext, hagain hb]
      exact if_pos rfl
    · obtain ⟨n, hn⟩ := hsettled hb
      refine ⟨n, fun m hm => ?_⟩
      have hkey : b.key ≠ a.key := by
        intro he
        obtain rfl := hpath.lists.key_inj hw path.lists he
        exact hb List.mem_cons_self
      rw [offered, hnext, ← hn m hm]
      exact if_neg hkey

theorem contributions_offered {lists : Grammar → List Rule → Compile (List Candidate)}
    (hw : l.WellFormed) (hl : Layered l) (path : Path l opened a) (hnew : a ∉ opened)
    (hlists : ∀ b, Path l (a :: opened) b → Flattens l (a :: opened) b (lists b.1 b.2))
    {rules : List Rule} (hr : ∀ r ∈ rules, r ∈ a.2) (hc : Flattening l (a :: opened) c)
    {parts : List (List Candidate)} (h : Returns (rules.mapM (contribution lists a.1)) c parts d) :
    Flattening l (a :: opened) d ∧ ∃ n, ∀ m, n ≤ m →
      rules.flatMap (offered l (expand l m) a) = parts.flatten := by
  induction rules generalizing c parts with
  | nil =>
    obtain ⟨rfl, rfl⟩ := Returns.pure h
    exact ⟨hc, 0, fun _ _ => rfl⟩
  | cons r rules ih =>
    rw [List.mapM_cons] at h
    obtain ⟨part, c₁, hpart, rest⟩ := Returns.bind h
    obtain ⟨others, c₂, hothers, rest⟩ := Returns.bind rest
    obtain ⟨rfl, rfl⟩ := Returns.pure rest
    obtain ⟨hc₁, n, hn⟩ :=
      contribution_offered hw hl path hnew hlists (hr r List.mem_cons_self) hc hpart
    obtain ⟨hc₂, m, hm⟩ := ih (fun s hs => hr s (List.mem_cons_of_mem r hs)) hc₁ hothers
    refine ⟨hc₂, max n m, fun k hk => ?_⟩
    rw [List.flatMap_cons, List.flatten_cons, hn k (Nat.le_trans (Nat.le_max_left n m) hk),
      hm k (Nat.le_trans (Nat.le_max_right n m) hk)]

/-- Flattening in layers leads to all there is; the fuel is enough, since the lists on the way differ. -/
theorem flatten_flattens (hw : l.WellFormed) (hl : Layered l) (path : Path l opened a)
    (hfuel : l.patternLists.length < fuel + opened.length) :
    Flattens l opened a (flatten fuel a.1 a.2) := by
  induction fuel generalizing opened a with
  | zero =>
    have := path.length_le
    omega
  | succ fuel ih =>
    intro c cs d hc h
    rw [Returns] at h
    by_cases ha : a ∈ opened
    · rw [flatten_known (hc.empty a ha)] at h
      cases h
      exact ⟨hc, fun _ => rfl, fun hnew => absurd ha hnew⟩
    · cases hkept : c.lists.lookup a.key with
      | some candidates =>
        rw [flatten_known hkept] at h
        cases h
        exact ⟨hc, fun hm => absurd hm ha, fun _ => hc.settled a path.lists ha _ hkept⟩
      | none =>
        rw [flatten_new hkept] at h
        split at h
        · rename_i parts c₁ hparts
          cases h
          have hlists (b : PatternList) (hb : Path l (a :: opened) b) :
              Flattens l (a :: opened) b (flatten fuel b.1 b.2) :=
            ih hb (by rw [List.length_cons]; omega)
          obtain ⟨hc₁, n, hn⟩ := contributions_offered hw hl path ha hlists (fun _ hr => hr)
            (hc.open hw path.lists hkept) hparts
          have hsettled : Settled l a parts.flatten := by
            refine ⟨n + 1, fun m hm => ?_⟩
            obtain ⟨m, rfl⟩ : ∃ k, m = k + 1 := ⟨m - 1, by omega⟩
            rw [expand, hn m (Nat.le_of_succ_le_succ hm)]
          exact ⟨hc₁.close hw path.lists ha (fun p hp => (path.reaches hp).1) hsettled,
            fun hm => absurd hm ha, fun _ => hsettled⟩
        · cases h

/-- There is fuel for all lists before the first of them is flattened. -/
theorem Library.patternLists_lt :
    l.patternLists.length < Library.listBound l + ([] : List PatternList).length := by
  have := l.length_patternLists
  rw [List.length_nil]
  omega

theorem candidatesOf_flattens (hw : l.WellFormed) (hl : Layered l) (ha : l.Lists a)
    (hc : Flattening l [] c) (h : Returns (candidatesOf a.1 a.2) c cs d) : Flattening l [] d := by
  rw [Returns, candidatesOf, outcome_bind_ok outcome_get, hc.library_eq] at h
  exact (flatten_flattens hw hl (.start ha) Library.patternLists_lt hc h).1

/-! ### Making rules ready -/

variable {engine : Engine}

theorem setHomes_lists {captures : Captures} (h : Returns (setHomes captures g) c () d) :
    d.library = c.library ∧ d.lists = c.lists := by
  induction captures generalizing c with
  | nil =>
    obtain ⟨-, rfl⟩ := Returns.pure h
    exact ⟨rfl, rfl⟩
  | cons x captures ih =>
    change Returns (setHome x.2 g >>= fun _ => setHomes captures g) c () d at h
    obtain ⟨_, c₁, hfirst, rest⟩ := Returns.bind h
    cases hfirst
    have hrest := ih rest
    exact hrest

theorem compileIn_flattens (hl : Layered l) (hc : c.Listed) (h : Flattening l [] c) (hr : l.Has g r)
    (hb : l.base? ≠ none) : Flattening l [] (outcome (compileIn engine g r) c).2 := by
  have hhomes (captures : Captures) {d : Compiler} (hd : d.Listed) (h : Flattening l [] d)
      (hk : ∀ x ∈ captures, x.2 ∈ r.children) :
      ∃ e, Returns (setHomes captures g) d () e ∧ Flattening l [] e := by
    obtain ⟨e, he, -⟩ := setHomes_gathered hd fun x hx => h.library_eq ▸ hr.child (hk x hx)
    obtain ⟨hlibrary, hlists⟩ := setHomes_lists he
    exact ⟨e, he, h.congr hlibrary hlists⟩
  have hlibrary := h.library_eq
  unfold compileIn
  by_cases hm : r.matchPattern.isSome
  · obtain ⟨e, he, hflat⟩ := hhomes r.captures hc h fun x hx => single_child hx
    rw [if_pos hm, outcome_bind_ok (outcome_pure _)]
    dsimp only [Form.captures]
    rw [outcome_bind_ok he, outcome_pure]
    exact hflat
  · rw [if_neg hm]
    have hgathered := candidatesOf_gathered hc fun s hs =>
      hlibrary ▸ hr.child (List.mem_append_left _ hs)
    obtain ⟨cs, hcs⟩ := hgathered.total (hlibrary ▸ hb)
    obtain ⟨c₁, hreturns⟩ : ∃ c₁, Returns (candidatesOf g r.patterns) c cs c₁ := ⟨_, Prod.ext hcs rfl⟩
    have hflat := candidatesOf_flattens (hlibrary ▸ hc.wellFormed) hl (.patterns hr) h hreturns
    have hlisted : c₁.Listed := by
      rw [show outcome (candidatesOf g r.patterns) c = (.ok cs, c₁) from hreturns] at hgathered
      exact hgathered.listed
    obtain ⟨result, -, hchoice⟩ : Stateless (choiceOf engine cs) := .choiceOf
    cases result with
    | error e =>
      rw [outcome_bind_ok hreturns, outcome_bind_error (hchoice c₁)]
      exact hflat
    | ok choice =>
      obtain ⟨e, he, hflat⟩ := hhomes (Compiled.ofChoice r choice).form.captures hlisted hflat
        fun x hx => ofChoice_child hx
      rw [outcome_bind_ok hreturns, outcome_bind_ok (hchoice c₁), outcome_bind_ok (outcome_pure _),
        outcome_bind_ok he, outcome_pure]
      exact hflat

theorem compileRule_flattens (hl : Layered l) (hc : c.Faithful engine) (hr : c.Met r)
    (h : Flattening l [] c) : Flattening l [] (outcome (compileRule engine r) c).2 := by
  cases hb : c.library.base? with
  | none =>
    rw [compileRule_noBase hc hb]
    exact h
  | some base =>
    unfold compileRule
    rw [outcome_bind_ok outcome_get]
    cases hk : c.compiled.lookup r.id with
    | some k => exact h
    | none =>
      obtain ⟨g, hg, hn⟩ := id hr
      dsimp only
      rw [hb]
      dsimp only
      rw [homeOf_eq hc.toListed hg hn]
      have hbase : l.base? ≠ none := by simp [← h.library_eq, hb]
      have hflat : Flattening l [] (outcome (compileIn engine g r) c).2 :=
        compileIn_flattens hl hc.toListed h (h.library_eq ▸ hg) hbase
      rcases hcompile : outcome (compileIn engine g r) c with ⟨e | k, d⟩ <;> rw [hcompile] at hflat
      · rw [outcome_bind_error hcompile]
        exact hflat
      · rw [outcome_bind_ok hcompile, outcome_bind_ok (outcome_modify _), outcome_pure]
        exact hflat.congr rfl rfl

theorem Compiler.Makes.flattens (hl : Layered l) (h : c.Makes engine d) (hc : Flattening l [] c) :
    Flattening l [] d := by
  induction h with
  | refl => exact hc
  | rule before faithful met ih => exact compileRule_flattens hl faithful met ih

/-- Lists that are all there agree. -/
theorem Flattening.agrees (hw : l.WellFormed) (hc : Flattening l [] c) (hd : Flattening l [] d) :
    c.Agrees d := by
  rintro r ⟨g, hr, hn⟩ ⟨g', hr', hn'⟩ cs ds hcs hds
  rw [hc.library_eq] at hr
  rw [hd.library_eq] at hr'
  obtain ⟨rfl, -⟩ := hr.unique hw hr' rfl
  rw [Compiler.kept?_eq hn] at hcs
  rw [Compiler.kept?_eq hn'] at hds
  have hsettled := hc.settled (g, r.patterns) (.patterns hr) List.not_mem_nil cs hcs
  exact hsettled.unique (hd.settled (g, r.patterns) (.patterns hr) List.not_mem_nil ds hds)

end Highlighter.Grammar

namespace Highlighter.Tokenizer

open Highlighter.Grammar

/-- What a tokenizer in layers keeps when it was just made is all there. -/
theorem loadWith_flattens {engine : Engine} {tree : Files.Tree} {path : Files.Path} {scope : String}
    {extras : List (String × Files.Path)} {notes : List Note} {t : Tokenizer}
    (h : loadWith engine tree path scope extras = (.ok t, notes)) (hl : Layered t.compiler.library) :
    Flattening t.compiler.library [] t.compiler := by
  obtain ⟨library, _, hw, hmade⟩ := loadWith_made h
  obtain ⟨g, hg, -, hroot⟩ := ofLibrary_made hmade
  have hlists : library.Lists (g, g.patterns) := .grammar (Library.find?_mem hg)
  obtain rfl : t.compiler.library = library := (compileRoot_knows (faithful_start hw) hlists.has hroot).2
  obtain ⟨choice, -, hlist⟩ := compileRoot_made hroot
  have hstart : Flattening t.compiler.library [] { library := t.compiler.library } :=
    ⟨rfl, by rintro a ⟨⟩, by rintro a - - cs ⟨⟩⟩
  exact candidatesOf_flattens hw hl hlists hstart hlist

end Highlighter.Tokenizer

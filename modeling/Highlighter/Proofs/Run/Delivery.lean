import Highlighter.Proofs.Snapshot.Validation
import Highlighter.Run.Delivery

/-! What is written for a source file, and when its snapshot is verified. -/

namespace Highlighter.Run

open Highlighter.Files (IsPart Path Place Tree)
open Highlighter.Text (Bytes)
open Highlighter.Files.Tree (Touched Wrote)
open Highlighter.Snapshot (Entry agrees fileText readValue)

/-! ### Names -/

/-- A source whose name files can be named for. -/
structure IsSource (p : Path) : Prop where
  slashless : '/' ∉ p.name.toList
  nulless : '\x00' ∉ p.name.toList

/-- The endings that are added to the name of a source. -/
inductive Ending where
  | tokens
  | view
  | comparison
  deriving DecidableEq, Repr

def Ending.text : Ending → String
  | .tokens => ".tokens.json"
  | .view => ".html"
  | .comparison => ".diff.html"

section
variable {c : Config} {p source other : Path} {base dir : Path} {ending : Ending} {name : String}

theorem isSource_of_proper (hp : p.Proper) (hfault : p.fault? = none) : IsSource p := by
  rw [Path.fault?_eq_none] at hfault
  unfold Path.Proper at hp
  cases hlast : p.parts.getLast? with
  | none => constructor <;> simp [Path.name, hlast]
  | some last =>
    have hmem := List.mem_of_getLast? hlast
    have hname : p.name = last := by simp [Path.name, hlast]
    exact ⟨hname ▸ (hp last hmem).slashless, hname ▸ hfault last hmem⟩

theorem Ending.plain (ending : Ending) : '/' ∉ ending.text.toList ∧ '\x00' ∉ ending.text.toList ∧
    3 ≤ ending.text.toList.length := by
  cases ending <;> decide

theorem length_named (name : String) (ending : Ending) : 3 ≤ (name ++ ending.text).toList.length := by
  have hending := ending.plain.2.2
  rw [String.toList_append, List.length_append]
  omega

theorem isPart_named (h : IsSource source) : IsPart (source.name ++ ending.text) := by
  have hlength := length_named source.name ending
  refine ⟨fun heq => ?_, fun heq => ?_, ?_⟩
  · rw [heq] at hlength
    exact absurd hlength (by decide)
  · rw [heq] at hlength
    exact absurd hlength (by decide)
  · rw [String.toList_append, List.mem_append, not_or]
    exact ⟨h.slashless, ending.plain.1⟩

theorem parts_named (h : IsSource source) (dir : Path) :
    (dir.child (source.name ++ ending.text)).parts = dir.parts ++ [source.name ++ ending.text] := by
  rw [Path.child_of_isPart (isPart_named h)]

theorem resolved_named (ending : Ending) (h : IsSource source) (hdir : dir.Resolved) :
    (dir.child (source.name ++ ending.text)).Resolved := by
  refine hdir.child (isPart_named h) (fun heq => ?_) ?_
  · have hlength := length_named source.name ending
    rw [heq] at hlength
    exact absurd hlength (by decide)
  · rw [String.toList_append, List.mem_append, not_or]
    exact ⟨h.nulless, ending.plain.2.1⟩

theorem Ending.getLast?_text (ending : Ending) :
    ending.text.toList.getLast? = some (if ending = .tokens then 'n' else 'l') := by
  cases ending <;> decide

/-- Named files are the same only in one directory and for one name. Tokens are no pages. -/
theorem named_parts_injective {dir' : Path} (ending ending' : Ending) (hs : IsSource source)
    (ho : IsSource other) (hending : ending = .tokens ∨ ending = ending')
    (h : (dir.child (source.name ++ ending.text)).parts = (dir'.child (other.name ++ ending'.text)).parts) :
    ending = ending' ∧ dir.parts = dir'.parts ∧ source.name = other.name := by
  rw [parts_named hs, parts_named ho] at h
  obtain ⟨hdir, hnames⟩ := List.append_inj' h rfl
  have hlist := congrArg String.toList (List.singleton_inj.mp hnames)
  rw [String.toList_append, String.toList_append] at hlist
  have hsame : ending = ending' := by
    rcases hending with rfl | rfl
    · have hlast := congrArg List.getLast? hlist
      rw [List.getLast?_append, List.getLast?_append, Ending.getLast?_text, Ending.getLast?_text] at hlast
      by_contra hne
      simp [Ne.symm hne] at hlast
    · rfl
  subst hsame
  exact ⟨rfl, hdir, String.toList_inj.mp (List.append_cancel_right hlist)⟩

end

/-! ### The places of a source -/

/-- All places of a source are resolved, and its pages lie apart from its tokens. -/
structure Places.Resolved (places : Places) : Prop where
  tokens : places.tokens.Resolved
  view : places.view.Resolved
  comparison : places.comparison.Resolved
  snapshot : places.snapshot.Resolved
  apart : places.tokens.parts ≠ places.view.parts
  apart_comparison : places.tokens.parts ≠ places.comparison.parts

section
variable {c : Config} {source other : Path}

/-- Sources of one name have the same places. -/
theorem placesOf_eq (h : source.name = other.name) : placesOf c source = placesOf c other := by
  rw [placesOf, placesOf, h]

theorem placesOf_resolved (hc : c.PathsResolved) (h : IsSource source) : (placesOf c source).Resolved where
  tokens := resolved_named .tokens h hc.outDir
  view := resolved_named .view h hc.outDir
  comparison := resolved_named .comparison h hc.outDir
  snapshot := resolved_named .tokens h hc.snapshotDir
  apart heq := by
    cases (named_parts_injective .tokens .view h h (.inl rfl) heq).1
  apart_comparison heq := by
    cases (named_parts_injective .tokens .comparison h h (.inl rfl) heq).1

end

/-! ### What is written -/

section
variable {tree left : Tree} {places : Places} {title : String} {text : Option String}
  {stored made : List Entry} {mode : Mode} {p page : Path} {verdict : Option Verdict}

theorem undelivered_touched {α : Type} {f : Files.WriteFault} (hp : p.Resolved)
    (h : tree.store p text = .error f) :
    Touched [p.parts] tree (undelivered (α := α) tree f).2 := by
  cases f with
  | file e => exact .refl _ _
  | unencodable left => exact Tree.store_left_touched hp h

theorem compareWith_touched (hp : page.Resolved) :
    Touched [page.parts] tree (compareWith tree page stored made).2 := by
  unfold compareWith
  split
  · exact .refl _ _
  rename_i directories hmade
  have hdirectories : Touched [page.parts] tree directories :=
    ⟨[], nofun, Tree.makeDirectories_wrote hmade⟩
  split
  · exact hdirectories
  split
  · exact hdirectories
  · rename_i left hwrite
    obtain ⟨place, hplace, hw⟩ := Tree.writeText_left hwrite
    rw [Tree.locate_resolved hp hplace] at hw
    exact hdirectories.trans hw.touched
  · rename_i written hwrite
    obtain ⟨s, -, place, hplace, hw⟩ := Tree.writeText_wrote hwrite
    rw [Tree.locate_resolved hp hplace] at hw
    exact hdirectories.trans hw.touched

/-- Verifying writes a comparison at most. -/
theorem verify_touched (tree : Tree) (made : List Entry) (hp : places.comparison.Resolved) :
    Touched [places.comparison.parts] tree (verify tree places made).2 := by
  unfold verify
  repeat' split
  all_goals first
    | exact .refl _ _
    | exact compareWith_touched hp

/-- Without snapshots to be updated, nothing is written but tokens, view and comparison, whatever becomes
of it. -/
theorem deliver_touched (tree : Tree) (title : Str) (made : List Entry) (hp : places.Resolved) :
    Touched [places.tokens.parts, places.view.parts, places.comparison.parts] tree
      (deliver tree places title made .verify).2 := by
  rw [deliver, Snapshot.save_eq]
  split
  · rename_i f hsave
    exact (undelivered_touched hp.tokens hsave).mono (by simp)
  rename_i first hsave
  have hfirst : Touched [places.tokens.parts, places.view.parts, places.comparison.parts] tree first :=
    (Tree.store_touched hp.tokens hsave).mono (by simp)
  dsimp only
  split
  · rename_i f hstore
    exact hfirst.trans ((undelivered_touched hp.view hstore).mono (by simp))
  · rename_i second hstore
    have hsecond : Touched [places.tokens.parts, places.view.parts, places.comparison.parts] first second :=
      (Tree.store_touched hp.view hstore).mono (by simp)
    exact hfirst.trans (hsecond.trans ((verify_touched second made hp.comparison).mono (by simp)))

/-- When files are delivered, the title can be written, tokens and view were stored and the snapshot was
seen to. -/
theorem deliver_eq_ok {title : Str} (h : deliver tree places title made mode = (.ok verdict, left)) :
    ∃ (shown : String) (first second : Tree), title = shown ∧
      tree.store places.tokens (some (fileText made)) = .ok first ∧
      first.store places.view (some (String.ofList (Page.view shown made))) = .ok second ∧
      settle second places made mode = (.ok verdict, left) := by
  rw [deliver, Snapshot.save_eq] at h
  split at h
  · rename_i f _
    cases f <;> cases h
  rename_i first hsave
  dsimp only at h
  split at h
  · rename_i f _
    cases f <;> cases h
  · rename_i second hstore
    obtain ⟨s, hs, -⟩ := Tree.store_wrote hstore
    obtain ⟨shown, hshown, rfl⟩ := Option.map_eq_some_iff.mp hs
    rw [hs] at hstore
    exact ⟨shown, first, second, Str.text?_eq_some.mp hshown, hsave, hstore, h⟩

/-! ### Updates -/

/-- What an update writes for a source, the last first. -/
def Places.writes (places : Places) (title : String) (made : List Entry) : List (Place × Bytes) :=
  [(places.snapshot.parts, Text.encodeUtf8 (fileText made).toList),
    (places.view.parts, Text.encodeUtf8 (String.ofList (Page.view title made)).toList),
    (places.tokens.parts, Text.encodeUtf8 (fileText made).toList)]

theorem Places.lookup_writes (places : Places) (title : String) (made : List Entry) (place : Place) :
    (places.writes title made).lookup place =
      if place = places.snapshot.parts then some (Text.encodeUtf8 (fileText made).toList)
      else if place = places.view.parts then
        some (Text.encodeUtf8 (String.ofList (Page.view title made)).toList)
      else if place = places.tokens.parts then some (Text.encodeUtf8 (fileText made).toList)
      else none := by
  have hcons {key : Place} {b : Bytes} {rest : List (Place × Bytes)} :
      ((key, b) :: rest).lookup place = if place = key then some b else rest.lookup place := by
    rw [List.lookup_cons]
    by_cases heq : place = key
    · rw [beq_iff_eq.mpr heq, if_pos heq]
    · rw [beq_eq_false_iff_ne.mpr heq, if_neg heq]
  rw [writes, hcons, hcons, hcons, List.lookup_nil]

/-- The files of a source are there. -/
structure Places.Written (places : Places) (tree : Tree) : Prop where
  tokens : tree.Stored places.tokens
  view : tree.Stored places.view
  snapshot : tree.Stored places.snapshot

theorem Places.Written.grows (h : places.Written tree) (hleft : tree.Grows left) : places.Written left where
  tokens := h.tokens.grows hleft
  view := h.view.grows hleft
  snapshot := h.snapshot.grows hleft

/-- An update writes tokens, view and snapshot, and nothing else. -/
theorem deliver_update (hp : places.Resolved)
    (h : deliver tree places title made .update = (.ok verdict, left)) : verdict = some .updated ∧
      Wrote (places.writes title made) tree left ∧ places.Written left := by
  obtain ⟨shown, first, second, htitle, hfirst, hsecond, hsettle⟩ := deliver_eq_ok h
  cases Str.ofString_inj.mp htitle
  rw [settle, Snapshot.save_eq] at hsettle
  split at hsettle
  · rename_i f _
    cases f <;> cases hsettle
  rename_i third hthird
  cases hsettle
  obtain ⟨_, ⟨⟩, hwroteFirst⟩ := Tree.store_wrote_parts hp.tokens hfirst
  obtain ⟨_, ⟨⟩, hwroteSecond⟩ := Tree.store_wrote_parts hp.view hsecond
  obtain ⟨_, ⟨⟩, hwroteThird⟩ := Tree.store_wrote_parts hp.snapshot hthird
  have hstoredFirst := Tree.stored_of_store hp.tokens hfirst
  have hstoredSecond := Tree.stored_of_store hp.view hsecond
  refine ⟨rfl, (hwroteFirst.trans hwroteSecond).trans hwroteThird, ?_⟩
  exact {
    tokens := (hstoredFirst.grows hwroteSecond.grows).grows hwroteThird.grows
    view := hstoredSecond.grows hwroteThird.grows
    snapshot := Tree.stored_of_store hp.snapshot hthird }

/-! ### Verdicts -/

theorem settle_verify_eq_ok (h : settle tree places made .verify = (.ok verdict, left)) :
    ∃ v, verdict = some v ∧ verify tree places made = (.ok v, left) := by
  unfold settle at h
  cases hverify : verify tree places made with
  | mk result after =>
    rw [hverify] at h
    cases result with
    | error f => cases h
    | ok v =>
      cases h
      exact ⟨v, rfl, rfl⟩

theorem compareWith_isFailure {v : Verdict} (h : compareWith tree page stored made = (.ok v, left)) :
    v.isFailure = true := by
  unfold compareWith at h
  repeat' split at h
  all_goals cases h <;> rfl

/-- A snapshot is verified exactly if what is stored agrees with the entries, and then nothing is
written. -/
theorem verify_eq_verified (hp : places.snapshot.Resolved) :
    verify tree places made = (.ok .verified, left) ↔ left = tree ∧
      ∃ v, readValue tree places.snapshot = .ok v ∧ agrees v made = true := by
  unfold verify
  cases hread : readValue tree places.snapshot with
  | error f =>
    refine ⟨fun h => ?_, by rintro ⟨-, _, ⟨⟩, -⟩⟩
    split at h <;> cases h
  | ok v =>
    obtain ⟨b, _, hb, -, -⟩ := Snapshot.readValue_eq_ok.mp hread
    rw [Tree.has_of_read hp.faultless hb]
    dsimp only
    split
    · rename_i hagrees
      refine ⟨fun h => ?_, fun h => by rw [h.1]⟩
      cases h
      exact ⟨rfl, v, rfl, hagrees⟩
    · rename_i hagrees
      refine ⟨fun h => ?_, by rintro ⟨-, _, ⟨⟩, h⟩; exact absurd h hagrees⟩
      split at h
      · cases h
      · cases compareWith_isFailure h

/-- Every verdict but that a snapshot is verified is a failure. -/
theorem verify_isFailure {v : Verdict} (h : verify tree places made = (.ok v, left)) :
    v.isFailure = true ∨ v = .verified := by
  unfold verify at h
  split at h
  · cases h
  · cases h
    exact .inl rfl
  split at h
  · cases h
    exact .inl rfl
  split at h
  · cases h
    exact .inr rfl
  split at h
  · cases h
    exact .inl rfl
  · exact .inl (compareWith_isFailure h)

/-- What is delivered without a failure is verified. -/
theorem deliver_verify_well {title : Str} (h : deliver tree places title made .verify = (.ok verdict, left))
    (hwell : verdict.any (·.isFailure) = false) : verdict = some .verified := by
  obtain ⟨shown, first, second, -, -, -, hsettle⟩ := deliver_eq_ok h
  obtain ⟨v, rfl, hverify⟩ := settle_verify_eq_ok hsettle
  rcases verify_isFailure hverify with hfailure | rfl
  · cases hfailure.symm.trans hwell
  · rfl

/-! ### Writing over -/

/-- A tree in which tokens and view of a source were written over. -/
def rewritten (tree : Tree) (places : Places) (title : String) (made : List Entry) : Tree :=
  (tree.set places.tokens.parts (.file (Text.encodeUtf8 (fileText made).toList))).set places.view.parts
    (.file (Text.encodeUtf8 (String.ofList (Page.view title made)).toList))

theorem entry?_rewritten (ht : tree.Stored places.tokens) (hv : tree.Stored places.view) {place : Place} :
    Tree.entry? (rewritten tree places title made) place =
      if place = places.view.parts then
        some (.file (Text.encodeUtf8 (String.ofList (Page.view title made)).toList))
      else if place = places.tokens.parts then some (.file (Text.encodeUtf8 (fileText made).toList))
      else tree.entry? place := by
  rw [rewritten, Tree.entry?_set hv.filled, Tree.entry?_set ht.filled]

theorem rewritten_wrote (title : String) (made : List Entry) (ht : tree.Stored places.tokens)
    (hv : tree.Stored places.view) :
    Wrote [(places.view.parts, Text.encodeUtf8 (String.ofList (Page.view title made)).toList),
      (places.tokens.parts, Text.encodeUtf8 (fileText made).toList)] tree
      (rewritten tree places title made) := by
  have hfirst := ht.wrote (b := Text.encodeUtf8 (fileText made).toList)
  exact hfirst.trans (hv.grows hfirst.grows).wrote

/-- Where tokens and view are there already, they are written over, and the snapshot is seen to. -/
theorem deliver_stored (ht : tree.Stored places.tokens) (hv : tree.Stored places.view) :
    deliver tree places title made mode = settle (rewritten tree places title made) places made mode := by
  have hfirst := ht.wrote (b := Text.encodeUtf8 (fileText made).toList)
  rw [deliver, Snapshot.save_eq, ht.store]
  dsimp only
  rw [Str.text?_ofString, Option.map_some, (hv.grows hfirst.grows).store]
  rfl

theorem deliver_stored_verified (hp : places.Resolved) (ht : tree.Stored places.tokens)
    (hv : tree.Stored places.view) :
    deliver tree places title made .verify = (.ok (some .verified), left) ↔
      left = rewritten tree places title made ∧
        ∃ v, readValue (rewritten tree places title made) places.snapshot = .ok v ∧ agrees v made = true := by
  rw [deliver_stored ht hv, ← verify_eq_verified hp.snapshot]
  constructor
  · intro h
    obtain ⟨v, ⟨⟩, hverify⟩ := settle_verify_eq_ok h
    exact hverify
  · intro h
    rw [settle, h]
    rfl

/-- A tree in which tokens, view and snapshot of a source were written over. -/
def refreshed (tree : Tree) (places : Places) (title : String) (made : List Entry) : Tree :=
  (rewritten tree places title made).set places.snapshot.parts
    (.file (Text.encodeUtf8 (fileText made).toList))

theorem refreshed_wrote (ht : tree.Stored places.tokens) (hv : tree.Stored places.view)
    (hs : tree.Stored places.snapshot) :
    Wrote (places.writes title made) tree (refreshed tree places title made) := by
  have hrewritten := rewritten_wrote title made ht hv
  exact hrewritten.trans (hs.grows hrewritten.grows).wrote

/-- Where all files of a source are there already, an update writes them over. -/
theorem deliver_update_stored (h : places.Written tree) :
    deliver tree places title made .update = (.ok (some .updated), refreshed tree places title made) := by
  have hsnapshot := h.snapshot.grows (rewritten_wrote title made h.tokens h.view).grows
  rw [deliver_stored h.tokens h.view, settle, Snapshot.save_eq, hsnapshot.store]
  rfl

end

end Highlighter.Run

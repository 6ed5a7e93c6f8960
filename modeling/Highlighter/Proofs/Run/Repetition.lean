import Highlighter.Proofs.Run.Verification

/-! The trees of two runs over the same sources, side by side: of one that updates snapshots, and of one that
verifies them afterwards. -/

namespace Highlighter.Run

open Highlighter.Files (Path Place Tree)
open Highlighter.Files.Tree (Wrote)
open Highlighter.Snapshot (Entry fileText readValue)

/-- The trees of a run that updates and of one that verifies, before the same file. The first run went from
a tree to another, from which the second set out. Where the trees differ, the first holds what it began with,
and the second what the first will come to. -/
structure Between (c : Config) (start final first second : Tree) : Prop where
  began : start.Grows first
  ends : first.Grows final
  grown : final.Grows second
  shrunk : second.Grows final
  contents : ∀ place, second.entry? place = first.entry? place ∨
    first.entry? place = start.entry? place ∧ second.entry? place = final.entry? place
  snapshots : c.outDir ≠ c.snapshotDir → ∀ p, IsSource p →
    second.entry? (placesOf c p).snapshot.parts = final.entry? (placesOf c p).snapshot.parts

section
variable {c : Config} {start final first second first' : Tree} {p : Path} {title : String}
  {made others : List Entry}

theorem Between.outset (h : start.Grows final) : Between c start final start final where
  began := .refl start
  ends := h
  grown := .refl final
  shrunk := .refl final
  contents _ := .inr ⟨rfl, rfl⟩
  snapshots _ _ _ := rfl

/-- What is in the end found as in the beginning is found alike in between. -/
theorem Between.find? (h : Between c start final first second) (hsame : final.find? p = start.find? p) :
    second.find? p = first.find? p := by
  cases hstart : start.find? p with
  | error x =>
    rw [h.began.find?_error hstart, h.grown.find?_error (h.ends.find?_error (h.began.find?_error hstart))]
  | ok found =>
    rw [hstart] at hsame
    cases found with
    | none => rw [h.ends.find?_none hsame, h.shrunk.find?_none hsame]
    | some e =>
      obtain ⟨hfault, place, hplace, he⟩ := Tree.find?_eq_some.mp hstart
      obtain ⟨-, place', hplace', he'⟩ := Tree.find?_eq_some.mp hsame
      have hfirst := Tree.locate_ok_of_grows h.began hplace
      have hfinal := Tree.locate_ok_of_grows h.ends hfirst
      have hsecond := Tree.locate_ok_of_grows h.grown hfinal
      cases hfinal.symm.trans hplace'
      rcases h.contents place with heq | ⟨heq, heq'⟩
      · obtain ⟨e', he'⟩ := h.began.find?_some hstart
        obtain ⟨-, place', hplace', hentry⟩ := Tree.find?_eq_some.mp he'
        cases hfirst.symm.trans hplace'
        rw [he']
        exact Tree.find?_eq_some.mpr ⟨hfault, place, hsecond, heq.trans hentry⟩
      · rw [Tree.find?_eq_some.mpr ⟨hfault, place, hfirst, heq.trans he⟩]
        exact Tree.find?_eq_some.mpr ⟨hfault, place, hsecond, heq'.trans he'⟩

theorem snapshot_ne_view (hp : IsSource p) (q : Path) (hq : IsSource q) :
    (placesOf c p).snapshot.parts ≠ (placesOf c q).view.parts := fun heq => by
  cases (named_parts_injective .tokens .view hp hq (.inl rfl) heq).1

/-- After a turn whose snapshot is still there in the end the trees are side by side again. -/
theorem Between.turn (h : Between c start final first second) (hc : c.PathsResolved) (hp : IsSource p)
    (hwrote : Wrote ((placesOf c p).writes title made) first first') (hends : first'.Grows final)
    (hwritten : (placesOf c p).Written final)
    (hheld : c.outDir = c.snapshotDir ∨ final.entry? (placesOf c p).snapshot.parts =
      some (.file (Text.encodeUtf8 (fileText made).toList))) :
    Between c start final first' (rewritten second (placesOf c p) title made) := by
  have hplaces := placesOf_resolved hc hp
  have ht := hwritten.tokens.grows h.grown
  have hv := hwritten.view.grows h.grown
  refine ⟨h.began.trans hwrote.grows, hends, h.grown.trans (rewritten_wrote title made ht hv).grows, ?_, ?_, ?_⟩
  · constructor
    · intro place hplace
      rw [entry?_rewritten ht hv] at hplace
      split at hplace
      · cases hplace
      split at hplace
      · cases hplace
      · exact h.shrunk.directory place hplace
    · intro place b hplace
      rw [entry?_rewritten ht hv] at hplace
      split at hplace
      · rename_i heq
        exact heq ▸ hwritten.view.file
      split at hplace
      · rename_i heq
        exact heq ▸ hwritten.tokens.file
      · exact h.shrunk.file place b hplace
  · intro place
    rw [entry?_rewritten ht hv]
    split
    · rename_i hview
      subst hview
      refine .inl (hwrote.written _ _ ?_).symm
      rw [Places.lookup_writes, if_neg (Ne.symm (snapshot_ne_view hp p hp)), if_pos rfl]
    split
    · rename_i hview htokens
      subst htokens
      refine .inl (hwrote.written _ _ ?_).symm
      rw [Places.lookup_writes, if_neg hview, if_pos rfl, ite_self]
    rename_i hview htokens
    by_cases hsnapshot : place = (placesOf c p).snapshot.parts
    · subst hsnapshot
      have hdir : c.outDir ≠ c.snapshotDir := fun heq =>
        htokens (congrArg Path.parts (snapshot_eq_tokens heq))
      refine .inl ?_
      rw [h.snapshots hdir p hp, hheld.resolve_left hdir]
      exact (hwrote.written _ _ List.lookup_cons_self).symm
    have hnone : ((placesOf c p).writes title made).lookup place = none := by
      rw [Places.lookup_writes, if_neg hsnapshot, if_neg hview, if_neg htokens]
    rcases hwrote.kept place hnone with heq | ⟨-, hdirectory⟩
    · rw [heq]
      exact h.contents place
    · rw [hdirectory]
      exact .inl (h.grown.directory place (hends.directory place hdirectory))
  · intro hdir q hq
    rw [entry?_rewritten ht hv, if_neg (snapshot_ne_view hq p hp), if_neg]
    · exact h.snapshots hdir q hq
    · intro heq
      have hparts := (named_parts_injective .tokens .tokens hq hp (.inl rfl) heq).2.1
      exact hdir (hc.outDir.ext hc.snapshotDir hparts.symm)

/-- Delivered again and verified, a file is written over where it was. -/
theorem Between.deliver_verified {left : Tree} (h : Between c start final first second)
    (hc : c.PathsResolved) (hp : IsSource p) (hwritten : (placesOf c p).Written final)
    (hdeliver : Run.deliver second (placesOf c p) title made .verify = (.ok (some .verified), left)) :
    left = rewritten second (placesOf c p) title made :=
  ((deliver_stored_verified (placesOf_resolved hc hp) (hwritten.tokens.grows h.grown)
    (hwritten.view.grows h.grown)).mp hdeliver).1

/-- A file that is delivered again is verified exactly if its snapshot is still there in the end, or has just
been written over. -/
theorem Between.deliver (h : Between c start final first second) (title : String) (hc : c.PathsResolved)
    (hp : IsSource p) (hwritten : (placesOf c p).Written final) (hmade : ∀ e ∈ made, e.Legible)
    (hothers : ∀ e ∈ others, e.Legible)
    (hfinal : final.entry? (placesOf c p).snapshot.parts =
      some (.file (Text.encodeUtf8 (fileText others).toList))) :
    Run.deliver second (placesOf c p) title made .verify =
        (.ok (some .verified), rewritten second (placesOf c p) title made) ↔
      c.outDir = c.snapshotDir ∨ final.entry? (placesOf c p).snapshot.parts =
        some (.file (Text.encodeUtf8 (fileText made).toList)) := by
  have ht := hwritten.tokens.grows h.grown
  have hv := hwritten.view.grows h.grown
  by_cases hdir : c.outDir = c.snapshotDir
  · refine ⟨fun _ => .inl hdir, fun _ => ?_⟩
    exact deliver_together hc hp hdir ht hv hmade
  · have hread : readValue second (placesOf c p).snapshot = .ok (Snapshot.toJson others) := by
      refine Snapshot.readValue_stored ?_ hothers
      rw [(hwritten.snapshot.grows h.grown).read_iff, h.snapshots hdir p hp]
      exact hfinal
    rw [deliver_apart hc hp hdir ht hv hread, Snapshot.agrees_toJson, hfinal]
    constructor
    · rintro rfl
      exact .inr rfl
    · intro heq
      have hbytes := Option.some.inj (heq.resolve_left hdir)
      exact Snapshot.fileBytes_injective hothers hmade (Files.Entry.file.inj hbytes)

end

end Highlighter.Run

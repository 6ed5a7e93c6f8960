import Highlighter.Proofs.Slips
import Highlighter.Proofs.Theme.Inclusion

/-! What can stop the loading of a theme, other than an error of its own: its path, or a file that it comes
to by what each file includes. -/

namespace Highlighter

open Highlighter.Files (Disk FileError PathFault Route)

def ThemeFailure.Told : ThemeFailure → Prop
  | .theme _ => True
  | .undecodable | .hugeInteger | .path _ | .file _ => False

theorem ThemeFailure.told_iff {f : ThemeFailure} : f.Told ↔ ∃ e, f = .theme e := by
  cases f <;> simp [Told]

namespace Theme

/-- What ends the program while one file of a theme is read. -/
inductive FileTrips (disk : Disk) (cwd file : Route) : Prop
  | bytes {name content : Text.Bytes} : file.toStr.name = .ok name → disk.read name = .ok content →
      Text.decodeUtf8? content = none → FileTrips disk cwd file
  | integer {text : List Char} {digits : Nat} : readText disk file = .ok (some text) →
      Json.read (plainJson text) = .error (.hugeInteger digits) → FileTrips disk cwd file
  | base {document : Json.Members} {name : Str} {f : PathFault} : readDocument disk file = .ok document →
      includeText? document = some name → disk.resolve cwd (file.parent.join (.ofStr name)) = .error f →
      FileTrips disk cwd file

/-- What ends the program while a theme is loaded: its path cannot be that of a file, or a file trips it
that comes after others, each of which includes the next. -/
inductive Trips (disk : Disk) (cwd path : Route) : Prop
  | path {f : PathFault} : disk.resolve cwd path = .error f → Trips disk cwd path
  | file {file last : Route} {way : Way} : disk.resolve cwd path = .ok file →
      Leads disk cwd file way last → (way.files ++ [last]).Nodup → FileTrips disk cwd last →
      Trips disk cwd path

variable {disk : Disk} {cwd path file last : Route} {document : Json.Members} {way : Way} {name : Text.Bytes}

theorem readDocument_slips (hname : file.toStr.name = .ok name) :
    Slips ThemeFailure.Told (readDocument disk file) ↔
      (∃ content, disk.read name = .ok content ∧ Text.decodeUtf8? content = none) ∨
      ∃ text digits, readText disk file = .ok (some text) ∧
        Json.read (plainJson text) = .error (.hugeInteger digits) := by
  unfold readDocument
  rw [slips_bind]
  cases hread : disk.read name with
  | error f =>
    have htext : readText disk file = .error (.theme (.unreadable file ⟨f, file.toStr⟩)) := by
      simp only [readText, hname, Except.mapError, bind, Except.bind, hread]
      rfl
    simp [htext, slips_error, ThemeFailure.Told]
  | ok content =>
    have htext : readText disk file = .ok ((Text.decodeUtf8? content).map Text.unifyLineEnds) := by
      simp only [readText, hname, Except.mapError, bind, Except.bind, hread]
      rfl
    rw [htext]
    cases hdecode : Text.decodeUtf8? content with
    | none => simp [slips_error, not_slips_ok, ThemeFailure.Told, hdecode, throw, throwThe, MonadExceptOf.throw]
    | some text =>
      simp only [Option.map_some, Except.ok.injEq, Option.some.injEq, exists_eq_left', hdecode, reduceCtorEq,
        false_or, not_slips_ok]
      cases hjson : Json.read (plainJson (Text.unifyLineEnds text)) with
      | error e =>
        cases e <;> simp [slips_error, ThemeFailure.Told, hjson, throw, throwThe, MonadExceptOf.throw]
      | ok v =>
        cases v <;>
          simp [slips_error, not_slips_ok, ThemeFailure.Told, hjson, throw, throwThe, MonadExceptOf.throw, pure,
            Except.pure]

theorem includeOf_eq_error {f : PathFault} : includeOf disk cwd file document = .error f ↔
    ∃ name, includeText? document = some name ∧
      disk.resolve cwd (file.parent.join (.ofStr name)) = .error f := by
  unfold includeOf
  cases includeText? document with
  | none => simp [pure, Except.pure]
  | some name =>
    cases hbase : disk.resolve cwd (file.parent.join (.ofStr name)) <;>
      simp [Option.mapM, hbase, Functor.map, Except.map]

theorem visit_slips (hname : file.toStr.name = .ok name) :
    Slips ThemeFailure.Told (visit disk cwd file) ↔ FileTrips disk cwd file := by
  unfold visit
  rw [slips_bind, readDocument_slips hname]
  constructor
  · rintro ((⟨content, hread, hdecode⟩ | ⟨text, digits, htext, hread⟩) | ⟨document, hread, h⟩)
    · exact .bytes hname hread hdecode
    · exact .integer htext hread
    · rcases slips_bind.mp h with h | ⟨found, -, h⟩
      · obtain ⟨f, hf, -⟩ := slips_mapError.mp h
        obtain ⟨other, hother, hbase⟩ := includeOf_eq_error.mp hf
        exact .base hread hother hbase
      · exact absurd h not_slips_ok
  · rintro (⟨hname', hread, hdecode⟩ | ⟨htext, hread⟩ | ⟨hread, hother, hbase⟩)
    · rw [hname] at hname'
      cases hname'
      exact .inl (.inl ⟨_, hread, hdecode⟩)
    · exact .inl (.inr ⟨_, _, htext, hread⟩)
    · have hf := includeOf_eq_error.mpr ⟨_, hother, hbase⟩
      exact .inr ⟨_, hread, slips_bind.mpr (.inl (slips_mapError.mpr ⟨_, hf, id⟩))⟩

/-- Whatever leads on from a file that has a name leads to a file that has one. -/
theorem Leads.named (h : Leads disk cwd file way last) (hfile : ∃ name, file.toStr.name = .ok name) :
    ∃ name, last.toStr.name = .ok name := by
  induction h with
  | here => exact hfile
  | onward hvisit _ ih =>
    obtain ⟨other, -, hbase⟩ := includeOf_eq_some.mp (visit_eq_ok.mp hvisit).2
    exact ih (Disk.proper_of_resolve hbase).2.2

theorem load_slips : Slips ThemeFailure.Told (load disk cwd path) ↔ Trips disk cwd path := by
  cases hfile : disk.resolve cwd path with
  | error f =>
    have hload : load disk cwd path = .error (.path f) := by
      rw [load, hfile]
      rfl
    rw [hload, slips_error]
    exact ⟨fun _ => .path hfile, fun _ => id⟩
  | ok file =>
    have hnamed := (Disk.proper_of_resolve hfile).2.2
    constructor
    · rintro ⟨e, he, htold⟩
      have hnot : ∀ q, e ≠ .theme (.includeCycle q) := by
        rintro q rfl
        exact htold trivial
      obtain ⟨way, last, hway, hnodup, hvisit⟩ := (load_unfit_iff hfile hnot).mp he
      obtain ⟨name, hname⟩ := hway.named hnamed
      exact .file hfile hway hnodup ((visit_slips hname).mp ⟨e, hvisit, htold⟩)
    · rintro (hf | ⟨hfile', hway, hnodup, htrips⟩)
      · rw [hfile] at hf
        cases hf
      · rw [hfile] at hfile'
        cases hfile'
        obtain ⟨name, hname⟩ := hway.named hnamed
        obtain ⟨e, hvisit, htold⟩ := (visit_slips hname).mpr htrips
        have hnot : ∀ q, e ≠ .theme (.includeCycle q) := by
          rintro q rfl
          exact htold trivial
        exact ⟨e, (load_unfit_iff hfile hnot).mpr ⟨_, _, hway, hnodup, hvisit⟩, htold⟩

end Theme

end Highlighter

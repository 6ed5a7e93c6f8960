import Highlighter.Command.Execution
import Highlighter.Proofs.Run.Delivery
import Highlighter.Proofs.Run.Highlighting

/-! The files of a run, one turn after the other. A run succeeds exactly if it comes to its files and none
of them fails. -/

namespace Highlighter.Command

open Highlighter.Files (Path Tree)
open Highlighter.Protocol (Host)
open Highlighter.Run (Mode Session placesOf)
open Highlighter.Run.Session (FileReport Highlighted)
open Highlighter.Snapshot (Entry)

/-- A file that was processed: what is reported of it, the title of its page, and the entries that were
made. -/
structure Turn where
  report : FileReport
  title : String
  entries : List Entry

variable {σ : Type}

/-- The turn of a file, unless it is skipped or fails to be processed. -/
def Work.turn? (h : Host σ) (mode : Mode) (w : Work σ) (path : Path) : Option Turn :=
  match w.tree.has path, (w.session.highlight h w.tree path).1,
    (w.session.process h mode w.tree path).1, w.session.title.text? with
  | .ok true, .ok made, .ok report, some title => some ⟨report, title, made.entries⟩
  | _, _, _, _ => none

/-- The turns of files, up to a failure that is not reported. -/
def Work.turns (h : Host σ) (s : Setting) (mode : Mode) : List Path → Work σ → List Turn
  | [], _ => []
  | path :: rest, w =>
    (w.turn? h mode path).toList ++
      match w.file h s mode path with
      | (none, w) => turns h s mode rest w
      | (some _, _) => []

/-- A run when it comes to its files, if it does. -/
def opened? (h : Host σ) (s : Setting) (mode : Mode) (config : String) (tree : Tree) (server : σ) :
    Option (Work σ) :=
  match Config.load tree s.machine.cwd (.ofString config) with
  | .error _ => none
  | .ok c =>
    match makePlaces tree c mode with
    | .error _ => none
    | .ok tree =>
      match Session.prepare tree s.machine c server with
      | (.error _, _) => none
      | (.ok session, _) =>
        match session.start h s.process with
        | (.error _, _) => none
        | (.ok (), session) =>
          some {
            session, tree
            lines := [.output "Initializing engines...",
              .output ("Starting LSP: " ++ " ".intercalate c.command)] }

/-- The turns of a run. -/
def turnsOf (h : Host σ) (s : Setting) (mode : Mode) (config : String) (tree : Tree) (server : σ) :
    List Turn :=
  match opened? h s mode config tree server with
  | none => []
  | some w => w.turns h s mode w.session.config.files

/-- A file that does not make a run fail: it is not there, or it is processed and nothing is wrong with
it. -/
inductive Handles (h : Host σ) (mode : Mode) (s : Session σ) (t : Tree) (path : Path) :
    List Turn → Session σ → Tree → Prop
  | skip (absent : t.has path = .ok false) : Handles h mode s t path [] s t
  | turn {title : String} {made : Highlighted} {report : FileReport} {after : Session σ} {left : Tree}
      (there : t.has path = .ok true) (titled : s.title = title)
      (highlighted : s.highlight h t path = (.ok made, after))
      (processed : s.process h mode t path = (.ok report, after, left))
      (well : report.isFailure = false) :
      Handles h mode s t path [⟨report, title, made.entries⟩] after left

/-- Files none of which makes a run fail. -/
inductive Passes (h : Host σ) (mode : Mode) :
    Session σ → Tree → List Path → List Turn → Session σ → Tree → Prop
  | nil (s : Session σ) (t : Tree) : Passes h mode s t [] [] s t
  | cons {s s' last : Session σ} {t t' left : Tree} {path : Path} {rest : List Path} {own turns : List Turn}
      (first : Handles h mode s t path own s' t') (others : Passes h mode s' t' rest turns last left) :
      Passes h mode s t (path :: rest) (own ++ turns) last left

section
variable {h : Host σ} {s : Setting} {mode : Mode} {w w' : Work σ} {path : Path} {paths : List Path}
  {turns own : List Turn} {session last : Session σ} {t tree left : Tree} {config : String} {server : σ}

/-- A file lets a run go on without a failure exactly if nothing is wrong with it. -/
theorem file_handles (hfile : w.file h s mode path = (none, w')) (hok : w'.failed = false) :
    w.failed = false ∧
      Handles h mode w.session w.tree path (w.turn? h mode path).toList w'.session w'.tree := by
  unfold Work.file at hfile
  unfold Work.turn?
  cases hhas : w.tree.has path with
  | error e => rw [hhas] at hfile; cases hfile
  | ok there =>
    rw [hhas] at hfile
    cases there with
    | false =>
      cases hfile
      exact ⟨hok, .skip hhas⟩
    | true =>
      dsimp only [Work.print] at hfile
      cases hprocess : w.session.process h mode w.tree path with
      | mk result rest =>
        obtain ⟨after, left⟩ := rest
        rw [hprocess] at hfile
        cases result with
        | error f =>
          dsimp only at hfile
          split at hfile
          · cases hfile
            cases hok
          · cases hfile
        | ok report =>
          cases hfile
          dsimp only at hok ⊢
          rw [Bool.or_eq_false_iff] at hok
          obtain ⟨made, verdict, hmade, hdeliver, -⟩ := Session.process_eq_ok.mp hprocess
          obtain ⟨title, -, -, htitle, -⟩ := Run.deliver_eq_ok hdeliver
          rw [hmade, htitle, Str.text?_ofString]
          exact ⟨hok.1, .turn hhas htitle hmade hprocess hok.2⟩

theorem handles_file (hfile : Handles h mode w.session w.tree path own session t) (hok : w.failed = false) :
    ∃ w', w.file h s mode path = (none, w') ∧ w'.failed = false ∧ w'.session = session ∧ w'.tree = t ∧
      (w.turn? h mode path).toList = own := by
  unfold Work.file Work.turn?
  cases hfile with
  | skip absent =>
    rw [absent]
    exact ⟨_, rfl, hok, rfl, rfl, rfl⟩
  | turn there titled highlighted processed well =>
    rw [there, highlighted, titled, Str.text?_ofString]
    dsimp only [Work.print]
    rw [processed]
    refine ⟨_, rfl, ?_, rfl, rfl, rfl⟩
    rw [Bool.or_eq_false_iff]
    exact ⟨hok, well⟩

theorem files_passes (hfiles : Work.files h s mode paths w = (none, w')) (hok : w'.failed = false) :
    w.failed = false ∧
      Passes h mode w.session w.tree paths (w.turns h s mode paths) w'.session w'.tree := by
  induction paths generalizing w with
  | nil =>
    cases hfiles
    exact ⟨hok, .nil _ _⟩
  | cons path rest ih =>
    rw [Work.files] at hfiles
    cases hfile : w.file h s mode path with
    | mk failure next =>
      rw [hfile] at hfiles
      cases failure with
      | some f => cases hfiles
      | none =>
        obtain ⟨hnext, hrest⟩ := ih hfiles
        obtain ⟨hfirst, hturn⟩ := file_handles hfile hnext
        refine ⟨hfirst, ?_⟩
        rw [Work.turns, hfile]
        exact .cons hturn hrest

theorem passes_files (hpass : Passes h mode session tree paths turns last left) (hsession : w.session = session)
    (htree : w.tree = tree) (hok : w.failed = false) :
    ∃ w', Work.files h s mode paths w = (none, w') ∧ w'.failed = false ∧ w'.tree = left ∧
      w.turns h s mode paths = turns := by
  induction hpass generalizing w with
  | nil session t => exact ⟨w, rfl, hok, htree, rfl⟩
  | cons first others ih =>
    subst hsession htree
    obtain ⟨next, hfile, hnext, hsession, htree, hown⟩ := handles_file (s := s) first hok
    obtain ⟨w', hfiles, hw', hleft, hturns⟩ := ih hsession htree hnext
    refine ⟨w', ?_, hw', hleft, ?_⟩
    · rw [Work.files, hfile]
      exact hfiles
    · rw [Work.turns, hfile, hown]
      exact congrArg _ hturns

/-! ### Runs -/

/-- A run that comes to its files has loaded all it needs and started its server. -/
theorem opened?_eq_some (hopened : opened? h s mode config tree server = some w) :
    ∃ c prepared remarks, Config.load tree s.machine.cwd (.ofString config) = .ok c ∧
      makePlaces tree c mode = .ok w.tree ∧
      Session.prepare w.tree s.machine c server = (.ok prepared, remarks) ∧
      prepared.start h s.process = (.ok (), w.session) := by
  unfold opened? at hopened
  split at hopened
  · cases hopened
  rename_i c hload
  split at hopened
  · cases hopened
  rename_i made hplaces
  split at hopened
  · cases hopened
  rename_i prepared remarks hprepare
  split at hopened
  · cases hopened
  rename_i started hstart
  cases hopened
  exact ⟨c, prepared, remarks, hload, hplaces, hprepare, hstart⟩

theorem exists_opened {c : Config} {prepared started : Session σ} {remarks : List Run.Remark}
    (hload : Config.load tree s.machine.cwd (.ofString config) = .ok c)
    (hplaces : makePlaces tree c mode = .ok left)
    (hprepare : Session.prepare left s.machine c server = (.ok prepared, remarks))
    (hstart : prepared.start h s.process = (.ok (), started)) :
    ∃ w, opened? h s mode config tree server = some w ∧ w.session = started ∧ w.tree = left := by
  unfold opened?
  rw [hload]
  dsimp only
  rw [hplaces]
  dsimp only
  rw [hprepare]
  dsimp only
  rw [hstart]
  exact ⟨_, rfl, rfl, rfl⟩

theorem stopped_exitCode {lines : List Line} {remarks : List Run.Remark} {f : Run.Failure} :
    (stopped s lines remarks tree server f).exitCode = 1 := by
  unfold stopped
  split <;> rfl

/-- A run goes through its files if it comes to them, and is no success otherwise. -/
theorem run_cases :
    (opened? h s mode config tree server = none ∧ (run h s mode config tree server).exitCode = 1) ∨
      ∃ w, opened? h s mode config tree server = some w ∧ w.failed = false ∧
        run h s mode config tree server =
          (Work.files h s mode w.session.config.files w).2.finish h mode
            (Work.files h s mode w.session.config.files w).1 := by
  unfold opened? run
  cases Config.load tree s.machine.cwd (.ofString config) with
  | error f => exact .inl ⟨rfl, stopped_exitCode⟩
  | ok c =>
    dsimp only
    unfold runConfig
    cases makePlaces tree c mode with
    | error e => exact .inl ⟨rfl, stopped_exitCode⟩
    | ok tree =>
      dsimp only
      cases Session.prepare tree s.machine c server with
      | mk prepared remarks =>
        cases prepared with
        | error f => exact .inl ⟨rfl, stopped_exitCode⟩
        | ok session =>
          dsimp only
          unfold runSession
          cases session.start h s.process with
          | mk started session =>
            cases started with
            | error f => exact .inl ⟨rfl, stopped_exitCode⟩
            | ok u => exact .inr ⟨_, rfl, rfl, rfl⟩

theorem finish_exitCode {failure : Option Run.Failure} :
    (w.finish h mode failure).exitCode = 0 ↔ failure = none ∧ w.failed = false := by
  unfold Work.finish Outcome.exitCode
  cases failure <;> cases w.failed <;> simp

/-- A run that succeeds comes to its files and passes through them. -/
theorem run_passes (hrun : (run h s mode config tree server).exitCode = 0) :
    ∃ w last, opened? h s mode config tree server = some w ∧
      Passes h mode w.session w.tree w.session.config.files (turnsOf h s mode config tree server) last
        (run h s mode config tree server).tree := by
  unfold turnsOf
  rcases run_cases with ⟨-, hexit⟩ | ⟨w, hopened, -, heq⟩
  · rw [hexit] at hrun
    cases hrun
  · rw [heq, finish_exitCode] at hrun
    rw [heq, hopened]
    exact ⟨w, _, rfl, (files_passes (Prod.ext hrun.1 rfl) hrun.2).2⟩

/-- A run that passes through its files succeeds. -/
theorem passes_run (hopened : opened? h s mode config tree server = some w)
    (hpass : Passes h mode w.session w.tree w.session.config.files turns last left) :
    (run h s mode config tree server).exitCode = 0 ∧ (run h s mode config tree server).tree = left ∧
      turnsOf h s mode config tree server = turns := by
  unfold turnsOf
  rcases run_cases with ⟨hnone, -⟩ | ⟨_, hopened', hfresh, heq⟩
  · cases hnone.symm.trans hopened
  · cases hopened'.symm.trans hopened
    obtain ⟨w', hfiles, hok, htree, hturns⟩ := passes_files (s := s) hpass rfl rfl hfresh
    rw [heq, finish_exitCode, hopened, hfiles]
    exact ⟨⟨rfl, hok⟩, htree, hturns⟩

end

end Highlighter.Command

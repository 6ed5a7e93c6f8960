import Highlighter.Proofs.Command.Repetition
import Highlighter.Proofs.Config.Trips
import Highlighter.Proofs.Grammar.Trips
import Highlighter.Proofs.Theme.Trips

/-! What can stop a start. Configurations, themes and grammars have errors of their own, which the user is
told of; everything else that goes wrong while they are loaded ends the program. -/

namespace Highlighter

open Highlighter.Files (Disk FileError Path PathFault Route Tree bind_eq_ok bind_eq_error mapError_eq_error)

namespace Command

open Highlighter.Protocol (Host)
open Highlighter.Run (Failure Mode Session themeOf)

/-- What ends the program while a run starts: its configuration, or under one that is loaded the grammars,
the place of the theme or the theme. -/
inductive Trips (s : Setting) (mode : Mode) (config : String) (tree : Tree) : Prop
  | config : Config.Trips tree s.machine.cwd (.ofString config) → Trips s mode config tree
  | grammars {c : Config} {made : Tree} :
      Config.load tree s.machine.cwd (.ofString config) = .ok c → makePlaces tree c mode = .ok made →
      Tokenizer.Trips .standard made c.grammar c.scopeName c.extraGrammars → Trips s mode config tree
  | place {c : Config} {made : Tree} {f : PathFault} :
      Config.load tree s.machine.cwd (.ofString config) = .ok c → makePlaces tree c mode = .ok made →
      Theme.locate made s.machine c.directory none c.theme = .error (.path f) → Trips s mode config tree
  | theme {c : Config} {made : Tree} {file : Path} :
      Config.load tree s.machine.cwd (.ofString config) = .ok c → makePlaces tree c mode = .ok made →
      Theme.locate made s.machine c.directory none c.theme = .ok file →
      Theme.Trips made.disk s.machine.cwd file → Trips s mode config tree

/-- A command that failed, and said so in its last line. -/
def Complains {σ : Type} (o : Outcome σ) : Prop :=
  (∃ lines text, o.lines = lines ++ [.error text]) ∧ o.failure = none ∧ o.exitCode = 1

variable {σ : Type} {h : Host σ} {s : Setting} {mode : Mode} {config : String} {tree made : Tree} {server : σ}
  {c : Config}

theorem stopped_complains {lines : List Line} {remarks : List Run.Remark} {f : Failure}
    (hreport : ∃ text, f.report? s.detail = some text) :
    Complains (stopped s lines remarks tree server f) := by
  obtain ⟨text, htext⟩ := hreport
  rw [stopped, htext]
  exact ⟨⟨lines, text, rfl⟩, rfl, rfl⟩

/-- The search for a theme fails as it is told, or because its path cannot be that of a file. -/
theorem locate_report {m : Machine} {base : Path} {directory : Option Path} {value : String}
    {f : ThemeFailure} (hlocate : Theme.locate tree m base directory value = .error f) :
    (∃ e, f = .path e) ∨ ∀ detail, ∃ text, (Failure.theme f).report? detail = some text := by
  unfold Theme.locate at hlocate
  split at hlocate
  · obtain ⟨e, -, rfl⟩ := mapError_eq_error.mp hlocate
    exact .inl ⟨e, rfl⟩
  right
  have hsearch {α : Type} {x : Except FileError α} {f : ThemeFailure} (h : x.mapError .file = .error f) :
      ∀ detail, ∃ text, (Failure.theme f).report? detail = some text := by
    obtain ⟨e, -, rfl⟩ := mapError_eq_error.mp h
    exact fun _ => ⟨_, rfl⟩
  extract_lets choose at hlocate
  have hchoose (found : Option Path) (h : choose found = .error f) :
      ∀ detail, ∃ text, (Failure.theme f).report? detail = some text := by
    cases found with
    | none =>
      cases h
      exact fun _ => ⟨_, rfl⟩
    | some directory =>
      rcases bind_eq_error.mp h with h | ⟨there, -, h⟩
      · exact hsearch h
      · split at h
        · cases h
        · cases h
          exact fun _ => ⟨_, rfl⟩
  split at hlocate
  · rename_i d
    exact hchoose (some d) hlocate
  · rcases bind_eq_error.mp hlocate with h | ⟨found, -, h⟩
    · exact hsearch h
    · exact hchoose found h

theorem themeOf_report {f : ThemeFailure}
    (hpath : ∀ e, Theme.locate made s.machine c.directory none c.theme ≠ .error (.path e))
    (htheme : ∀ file, Theme.locate made s.machine c.directory none c.theme = .ok file →
      ¬ Theme.Trips made.disk s.machine.cwd file) (h : themeOf made s.machine c = .error f) (detail : String) :
    ∃ text, (Failure.theme f).report? detail = some text := by
  rcases bind_eq_error.mp h with h | ⟨file, hfile, h⟩
  · rcases locate_report h with ⟨e, rfl⟩ | hreport
    · exact absurd h (hpath e)
    · exact hreport detail
  · have htold : f.Told := by
      by_contra htold
      exact htheme file hfile (Theme.load_slips.mp ⟨f, h, htold⟩)
    obtain ⟨e, rfl⟩ := ThemeFailure.told_iff.mp htold
    exact ⟨_, rfl⟩

/-- A run that nothing trips comes to its server, or says why it does not and fails. -/
theorem run_complains (htrips : ¬ Trips s mode config tree) :
    (∃ made lines session, run h s mode config tree server = runSession h s mode made lines session) ∨
      Complains (run h s mode config tree server) := by
  unfold run
  cases hconfig : Config.load tree s.machine.cwd (.ofString config) with
  | error f =>
    right
    have htold : f.Told := by
      by_contra htold
      exact htrips (.config (Config.load_slips.mp ⟨f, hconfig, htold⟩))
    obtain ⟨e, rfl⟩ := ConfigFailure.told_iff.mp htold
    exact stopped_complains ⟨_, rfl⟩
  | ok c =>
    dsimp only
    unfold runConfig
    cases hplaces : makePlaces tree c mode with
    | error e => exact .inr (stopped_complains ⟨_, rfl⟩)
    | ok made =>
      dsimp only
      unfold Session.prepare
      rcases hload : Tokenizer.load made c.grammar c.scopeName c.extraGrammars with ⟨f | tokenizer, notes⟩
      · right
        have htold : f.Told := by
          by_contra htold
          have hslips := Tokenizer.loadWith_slips.mp ⟨f, congrArg Prod.fst hload, htold⟩
          exact htrips (.grammars hconfig hplaces hslips)
        obtain ⟨e, rfl⟩ := LoadFailure.told_iff.mp htold
        exact stopped_complains ⟨_, rfl⟩
      dsimp only
      cases htheme : themeOf made s.machine c with
      | error f =>
        right
        refine stopped_complains (themeOf_report (fun e he => ?_) (fun file hfile h => ?_) htheme _)
        · exact htrips (.place hconfig hplaces he)
        · exact htrips (.theme hconfig hplaces hfile h)
      | ok theme => exact .inl ⟨made, _, _, rfl⟩

/-- A run whose configuration is tripped ends with that failure, and nothing is printed. -/
theorem run_of_config_trips (htrips : Config.Trips tree s.machine.cwd (.ofString config)) :
    (run h s mode config tree server).lines = [] ∧
      ∃ f, (run h s mode config tree server).failure = some (.config f) := by
  obtain ⟨f, hload, htold⟩ := Config.load_slips.mpr htrips
  have hreport : (Failure.config f).report? s.detail = none := by
    cases f with
    | config e => exact absurd trivial htold
    | _ => rfl
  unfold run
  rw [hload]
  dsimp only
  rw [stopped, hreport]
  exact ⟨rfl, f, rfl⟩

end Command

/-- Configurations, themes and tokenizers are made or fail with errors of their own exactly where nothing
trips their making, and a command that nothing trips comes to its server or says why it does not. -/
theorem startup_told {σ : Type} (h : Protocol.Host σ) (s : Command.Setting) (mode : Run.Mode)
    (config : String) (server : σ) (engine : Grammar.Engine) (tree : Tree) (cwd path : Path) (disk : Disk)
    (directory theme : Route) (scope : String) (extras : List (String × Path)) :
    ((∃ c, Config.load tree cwd path = .ok c) ∨ (∃ e, Config.load tree cwd path = .error (.config e)) ↔
      ¬ Config.Trips tree cwd path) ∧
    ((∃ t, Theme.load disk directory theme = .ok t) ∨ (∃ e, Theme.load disk directory theme = .error (.theme e)) ↔
      ¬ Theme.Trips disk directory theme) ∧
    ((∃ t, (Tokenizer.loadWith engine tree path scope extras).1 = .ok t) ∨
        (∃ e, (Tokenizer.loadWith engine tree path scope extras).1 = .error (.grammar e)) ↔
      ¬ Tokenizer.Trips engine tree path scope extras) ∧
    (¬ Command.Trips s mode config tree →
      (∃ made lines session, Command.run h s mode config tree server =
          Command.runSession h s mode made lines session) ∨
        Command.Complains (Command.run h s mode config tree server)) := by
  refine ⟨?_, ?_, ?_, Command.run_complains⟩
  · rw [← Config.load_slips, not_slips_iff]
    simp [ConfigFailure.told_iff]
  · rw [← Theme.load_slips, not_slips_iff]
    simp [ThemeFailure.told_iff]
  · rw [← Tokenizer.loadWith_slips, not_slips_iff]
    simp [LoadFailure.told_iff]

namespace Command.Workspace

open Highlighter.Protocol (ScriptedServer)
open Highlighter.Run.Workspace

theorem not_trips_outset : ¬ Trips setting .update "c.toml" (outset "1") := by
  have hmem : "1" ∈ ["1", "2"] := by decide
  have hconfig : Config.load (outset "1") setting.machine.cwd (.ofString "c.toml") =
      .ok (config "snapshots") := load_config hmem _ (by simp)
  have hplaces : makePlaces (outset "1") (config "snapshots") .update = .ok (outset "1") := rfl
  obtain ⟨remarks, hprepare⟩ := prepare_outset hmem
  obtain ⟨tokenizer, notes, theme, htokenizer, htheme, -⟩ := Run.Session.prepare_eq_ok.mp hprepare
  obtain ⟨file, hfile, htheme⟩ := bind_eq_ok.mp htheme
  rintro (h | ⟨hc, hp, h⟩ | ⟨hc, hp, h⟩ | ⟨hc, hp, hlocate, h⟩)
  · rw [← Config.load_slips, hconfig] at h
    exact not_slips_ok h
  all_goals
    cases hconfig.symm.trans hc
    cases hplaces.symm.trans hp
  · have hload : Tokenizer.loadWith .standard (outset "1") (config "snapshots").grammar
        (config "snapshots").scopeName (config "snapshots").extraGrammars = (.ok tokenizer, notes) := htokenizer
    rw [← Tokenizer.loadWith_slips, hload] at h
    exact not_slips_ok h
  · cases hfile.symm.trans h
  · cases hfile.symm.trans hlocate
    rw [← Theme.load_slips] at h
    exact not_slips_ok (htheme ▸ h)

theorem startup_told_outset :
    ¬ Trips setting .update "c.toml" (outset "1") ∧
      ((∃ made lines session, run ScriptedServer.host setting .update "c.toml" (outset "1") server =
          runSession ScriptedServer.host setting .update made lines session) ∨
        Complains (run ScriptedServer.host setting .update "c.toml" (outset "1") server)) := by
  obtain ⟨-, -, -, hrun⟩ := startup_told ScriptedServer.host setting .update "c.toml" server .standard
    (outset "1") machine.cwd (.ofString "c.toml") (outset "1").disk machine.cwd (Path.ofString "t.json") "s" []
  exact ⟨not_trips_outset, hrun not_trips_outset⟩

/-- A configuration and a theme of one byte that is no text, and a grammar that is a property list broken off. -/
def illegible : Files.Tree := ⟨[
  (["w"], .directory),
  (["w", "c.toml"], .file [0xff]),
  (["w", "t.json"], .file [0xff]),
  (["w", "g.plist"], .file (Text.encodeUtf8 "<plist>".toList))]⟩

theorem slips_illegible :
    Slips ConfigFailure.Told (Config.load illegible machine.cwd (.ofString "c.toml")) ∧
      Slips ThemeFailure.Told (Theme.load illegible.disk machine.cwd (Path.ofString "t.json")) ∧
      Slips LoadFailure.Told (Tokenizer.load illegible (.ofString "/w/g.plist") "s" []).1 := by
  have hlist : PropertyList.read (Text.encodeUtf8 "<plist>".toList) = .error .notWellFormed := rfl
  have hbyte : Text.decodeUtf8? [0xff] = none := rfl
  have hcwd : machine.cwd.Resolved :=
    ⟨rfl, Path.proper_ofString _, by decide, Path.fault?_ofString.mpr (by decide)⟩
  have hfile : illegible.disk.resolve machine.cwd (Path.ofString "t.json") = .ok ⟨"/", ["w", "t.json"]⟩ :=
    (Path.resolve_ofPath illegible hcwd (Path.proper_route _)).mpr ⟨⟨"/", ["w", "t.json"]⟩, rfl, rfl⟩
  have htheme : Theme.Trips illegible.disk machine.cwd (Path.ofString "t.json") :=
    .file hfile (.here _) (List.nodup_singleton _) (.bytes rfl rfl hbyte)
  exact ⟨Config.load_slips.mpr (.bytes rfl rfl hbyte), Theme.load_slips.mpr htheme,
    Tokenizer.loadWith_slips.mpr (.main (.list rfl rfl rfl hlist nofun))⟩

/-- No fault is told of: the command ends with it, and nothing is printed. -/
theorem startup_illegible :
    ¬ ((∃ c, Config.load illegible machine.cwd (.ofString "c.toml") = .ok c) ∨
      ∃ e, Config.load illegible machine.cwd (.ofString "c.toml") = .error (.config e)) ∧
    ¬ ((∃ t, Theme.load illegible.disk machine.cwd (Path.ofString "t.json") = .ok t) ∨
      ∃ e, Theme.load illegible.disk machine.cwd (Path.ofString "t.json") = .error (.theme e)) ∧
    ¬ ((∃ t, (Tokenizer.load illegible (.ofString "/w/g.plist") "s" []).1 = .ok t) ∨
      ∃ e, (Tokenizer.load illegible (.ofString "/w/g.plist") "s" []).1 = .error (.grammar e)) ∧
    (run ScriptedServer.host setting .update "c.toml" illegible server).lines = [] ∧
    ∃ f, (run ScriptedServer.host setting .update "c.toml" illegible server).failure = some (.config f) := by
  obtain ⟨hconfig, htheme, hgrammar⟩ := slips_illegible
  have htrips : Config.Trips illegible setting.machine.cwd (.ofString "c.toml") := Config.load_slips.mp hconfig
  obtain ⟨hlines, hfailure⟩ := run_of_config_trips htrips
  refine ⟨?_, ?_, ?_, hlines, hfailure⟩
  · simpa [not_slips_iff, ConfigFailure.told_iff] using not_not_intro hconfig
  · simpa [not_slips_iff, ThemeFailure.told_iff] using not_not_intro htheme
  · simpa [not_slips_iff, LoadFailure.told_iff] using not_not_intro hgrammar

end Command.Workspace

end Highlighter

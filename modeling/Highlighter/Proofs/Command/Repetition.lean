import Highlighter.Proofs.Command.Updating
import Highlighter.Proofs.Run.Likeness
import Highlighter.Proofs.Run.Repetition

/-! A run that verifies after one that updates. With sources, grammars and theme as they were, and a server
that answers as it did, every file comes to the same entries again. It is verified exactly if its snapshot
was not written over for another file of its name. -/

namespace Highlighter.Command

open Highlighter.Files (Path Place Tree)
open Highlighter.Files.Tree (Wrote)
open Highlighter.Protocol (AnswerAlike Host)
open Highlighter.Run
open Highlighter.Run.Session (FileReport Highlighted)
open Highlighter.Snapshot (Entry agrees fileText readValue)
open Highlighter.Text (Bytes)
/-! ### The same files again -/

/-- The turn as it is when the snapshot is verified. -/
def Turn.verified (turn : Turn) : Turn :=
  { turn with report := { turn.report with verdict := some .verified } }

/-- What is in the end at the place of a turn's snapshot is the snapshot of some entries. -/
def Turn.Snapshots (final : Tree) (turn : Turn) : Prop :=
  ∃ others : List Entry, (∀ e ∈ others, e.Legible) ∧
    final.entry? turn.report.places.snapshot.parts =
      some (.file (Text.encodeUtf8 (fileText others).toList))

section
variable {σ τ : Type} {h : Host σ} {h' : Host τ} {R : σ → τ → Prop} {c : Config} {s s' last : Session σ}
  {r r' : Session τ} {start t t' final second second' : Tree} {path : Path} {paths : List Path}
  {own own' turns turns' : List Turn}

/-- A file of an update that is handled again to be verified: it comes to the same entries, and it is verified
exactly if its snapshot is held. -/
theorem Handles.again (hh : AnswerAlike h h' R) (hc : c.PathsResolved) (hs : s.config = c)
    (hpath : path.Resolved) (hsame : final.find? path = start.find? path) (hsr : s.Alike R r)
    (hb : Between c start final t second) (hfirst : Handles h .update s t path own s' t')
    (hends : t'.Grows final) (hlegible : ∀ turn ∈ own, ∀ e ∈ turn.entries, e.Legible)
    (hsnapshots : ∀ turn ∈ own, turn.Snapshots final) :
    ((∃ own' r' second', Handles h' .verify r second path own' r' second') ↔ ∀ turn ∈ own, turn.Held c final) ∧
      ∀ own' r' second', Handles h' .verify r second path own' r' second' →
        own' = own.map Turn.verified ∧ s'.Alike R r' ∧ Between c start final t' second' := by
  have hfound := hb.find? hsame
  have hhas := Tree.has_of_find? hfound
  cases hfirst with
  | skip absent =>
    refine ⟨⟨fun _ => nofun, fun _ => ⟨_, _, _, .skip (hhas.trans absent)⟩⟩, ?_⟩
    intro own' r' second' hagain
    cases hagain with
    | skip => exact ⟨rfl, hsr, hb⟩
    | turn there => cases (hhas.trans absent).symm.trans there
  | @turn title made _ _ _ there titled highlighted processed well =>
    have hsource := isSource_of_proper hpath.proper hpath.faultless
    obtain ⟨_, verdict, hmade, hdeliver, rfl⟩ := Session.process_eq_ok.mp processed
    cases highlighted.symm.trans hmade
    subst hs
    rw [titled] at hdeliver
    obtain ⟨-, hwrote, hwritten⟩ := deliver_update (placesOf_resolved hc hsource) hdeliver
    replace hwritten := hwritten.grows hends
    have hmadeLegible := hlegible _ (List.mem_singleton.mpr rfl)
    obtain ⟨others, hothers, hfinal⟩ := hsnapshots _ (List.mem_singleton.mpr rfl)
    have hdelivered := hb.deliver title hc hsource hwritten hmadeLegible hothers hfinal
    -- the entries are the same, so all that can differ is what the snapshot is compared with
    have hboth := Session.highlight_both hh hsr (Tree.read_of_find? hfound there).symm
    rw [highlighted] at hboth
    obtain ⟨r₁, hr₁, halike⟩ : ∃ r₁, r.highlight h' second path = (.ok made, r₁) ∧ s'.Alike R r₁ :=
      ⟨_, Prod.ext hboth.result.symm rfl, hboth.alike⟩
    have hagain : ∀ own' r' second', Handles h' .verify r second path own' r' second' →
        deliver second (placesOf s.config path) title made.entries .verify = (.ok (some .verified), second') ∧
          own' = [⟨⟨path, placesOf s.config path, made.hasSemantic, some .verified⟩, title, made.entries⟩] ∧
          r' = r₁ := by
      intro own' r' second' hagain
      cases hagain with
      | skip absent => cases (hhas.trans there).symm.trans absent
      | turn _ titled' highlighted' processed' well' =>
        obtain ⟨_, verdict', hmade', hdeliver', rfl⟩ := Session.process_eq_ok.mp processed'
        cases hr₁.symm.trans hmade'
        cases highlighted'.symm.trans hmade'
        rw [← hsr.title, titled] at titled' hdeliver'
        cases Str.ofString_inj.mp titled'
        rw [← hsr.config] at hdeliver'
        obtain rfl := deliver_verify_well hdeliver' well'
        rw [← hsr.config]
        exact ⟨hdeliver', rfl, rfl⟩
    refine ⟨⟨?_, ?_⟩, ?_⟩
    · rintro ⟨own', r', second', hverify⟩ turn hturn
      obtain rfl := List.mem_singleton.mp hturn
      obtain ⟨hverified, -, -⟩ := hagain own' r' second' hverify
      obtain rfl := hb.deliver_verified hc hsource hwritten hverified
      exact hdelivered.mp hverified
    · intro hheld
      have hverified := hdelivered.mpr (hheld _ (List.mem_singleton.mpr rfl))
      have htitle := hsr.title.symm.trans titled
      have hprocess := Session.process_of_deliver hsr.config.symm htitle hr₁ hverified
      exact ⟨_, _, _, .turn (hhas.trans there) htitle hr₁ hprocess rfl⟩
    · intro own' r' second' hverify
      obtain ⟨hverified, rfl, rfl⟩ := hagain own' r' second' hverify
      obtain rfl := hb.deliver_verified hc hsource hwritten hverified
      exact ⟨rfl, halike, hb.turn hc hsource hwrote hends hwritten (hdelivered.mp hverified)⟩

/-- Files of an update that are handled again to be verified pass exactly if all their snapshots are held, and
then they come to the same entries. -/
theorem Passes.again (hh : AnswerAlike h h' R) (hc : c.PathsResolved) (hs : s.config = c)
    (hpass : Passes h .update s t paths turns last final)
    (hpaths : ∀ p ∈ paths, p.Resolved ∧ final.find? p = start.find? p) (hsr : s.Alike R r)
    (hb : Between c start final t second) (hlegible : ∀ turn ∈ turns, ∀ e ∈ turn.entries, e.Legible)
    (hsnapshots : ∀ turn ∈ turns, turn.Snapshots final) :
    ((∃ turns' last' left, Passes h' .verify r second paths turns' last' left) ↔
      ∀ turn ∈ turns, turn.Held c final) ∧
        ∀ turns' last' left, Passes h' .verify r second paths turns' last' left →
          turns' = turns.map Turn.verified := by
  induction hpass generalizing r second with
  | nil s t =>
    refine ⟨⟨fun _ => nofun, fun _ => ⟨_, _, _, .nil r second⟩⟩, ?_⟩
    intro turns' last' left hagain
    cases hagain
    rfl
  | @cons _ s' _ _ t' left _ _ _ _ first others ih =>
    have hrest (p : Path) (hp : p ∈ _) := hpaths p (List.mem_cons_of_mem _ hp)
    have hends := (others.update hc (first.keeps.config.trans hs) fun p hp => (hrest p hp).1).1.grows
    obtain ⟨hresolved, hsame⟩ := hpaths _ List.mem_cons_self
    obtain ⟨hfirst, hafter⟩ := first.again hh hc hs hresolved hsame hsr hb hends
      (fun turn hturn => hlegible turn (List.mem_append_left _ hturn))
      (fun turn hturn => hsnapshots turn (List.mem_append_left _ hturn))
    have hothers {r' : Session τ} {second' : Tree} (hsr' : s'.Alike R r')
        (hb' : Between c start left t' second') :=
      ih (first.keeps.config.trans hs) hrest hsr' hb'
        (fun turn hturn => hlegible turn (List.mem_append_right _ hturn))
        (fun turn hturn => hsnapshots turn (List.mem_append_right _ hturn))
    refine ⟨⟨?_, ?_⟩, ?_⟩
    · rintro ⟨_, last', left, hagain⟩ turn hturn
      cases hagain with
      | cons first' others' =>
        obtain ⟨-, hsr', hb'⟩ := hafter _ _ _ first'
        rcases List.mem_append.mp hturn with hturn | hturn
        · exact hfirst.mp ⟨_, _, _, first'⟩ turn hturn
        · exact (hothers hsr' hb').1.mp ⟨_, _, _, others'⟩ turn hturn
    · intro hheld
      obtain ⟨own', r', second', first'⟩ :=
        hfirst.mpr fun turn hturn => hheld turn (List.mem_append_left _ hturn)
      obtain ⟨-, hsr', hb'⟩ := hafter _ _ _ first'
      obtain ⟨turns', last', left, others'⟩ :=
        (hothers hsr' hb').1.mpr fun turn hturn => hheld turn (List.mem_append_right _ hturn)
      exact ⟨_, _, _, .cons first' others'⟩
    · intro _ last' left hagain
      cases hagain with
      | cons first' others' =>
        obtain ⟨hown, hsr', hb'⟩ := hafter _ _ _ first'
        rw [hown, (hothers hsr' hb').2 _ _ _ others', List.map_append]

end

/-! ### A whole run again -/

section
variable {t u : Tree} {number : Nat} {path : Path} {scope : String} {extras : List (String × Path)}

theorem grammar_of_read {name : Option String} (h : u.read path = t.read path) :
    Grammar.load u number path name = Grammar.load t number path name := by
  unfold Grammar.load
  rw [h]

theorem extras_of_read {grammars : List (Str × Grammar)} {absent : List (String × Path)}
    (h : ∀ e ∈ extras, u.has e.2 = t.has e.2 ∧ u.read e.2 = t.read e.2) :
    Tokenizer.loadExtras u number extras grammars absent =
      Tokenizer.loadExtras t number extras grammars absent := by
  induction extras generalizing number grammars absent with
  | nil => rfl
  | cons e rest ih =>
    obtain ⟨hhas, hread⟩ := h e List.mem_cons_self
    have hrest {number grammars absent} := @ih number grammars absent fun e he => h e (List.mem_cons_of_mem _ he)
    unfold Tokenizer.loadExtras
    simp only [hhas, grammar_of_read hread, hrest]

/-- A tokenizer is made of what is read of its grammars. -/
theorem tokenizer_of_read (hmain : u.read path = t.read path)
    (hextras : ∀ e ∈ extras, u.has e.2 = t.has e.2 ∧ u.read e.2 = t.read e.2) :
    Tokenizer.load u path scope extras = Tokenizer.load t path scope extras := by
  unfold Tokenizer.load Tokenizer.loadWith
  rw [grammar_of_read hmain]
  simp only [extras_of_read hextras]

end

/-- What a run loads and finds is as it was when it came to its files. -/
structure Unchanged (machine : Machine) (config : String) (c : Config) (before after : Tree) : Prop where
  config : Config.load after machine.cwd (.ofString config) = .ok c
  grammars : Tokenizer.load after c.grammar c.scopeName c.extraGrammars =
    Tokenizer.load before c.grammar c.scopeName c.extraGrammars
  theme : themeOf after machine c = themeOf before machine c
  sources : ∀ p ∈ c.files, after.find? p = before.find? p

section
variable {σ τ : Type} {h : Host σ} {h' : Host τ} {R : σ → τ → Prop} {s s' : Setting} {config : String}
  {c : Config} {tree opened left : Tree} {server : σ} {server' : τ} {w : Work σ}

/-- The directories of an update are there for a run that verifies. -/
theorem makePlaces_again (hopened : makePlaces tree c .update = .ok opened) (hleft : opened.Grows left) :
    makePlaces left c .verify = .ok left := by
  obtain ⟨first, hfirst, hsecond⟩ := Files.bind_eq_ok.mp hopened
  have hgrows := (Tree.makeDirectories_wrote (show first.makeDirectories c.snapshotDir = _ from hsecond)).grows
  exact Files.bind_eq_ok.mpr ⟨left, Tree.makeDirectories_again hfirst (hgrows.trans hleft), rfl⟩

/-- A run that verifies comes to its files as the update did. -/
theorem opened_again (hh : AnswerAlike h h' R) (hserver : R server server') (hmachine : s'.machine = s.machine)
    (hw : opened? h s .update config tree server = some w) (hleft : w.tree.Grows left)
    (hload : Config.load tree s.machine.cwd (.ofString config) = .ok c)
    (hsame : Unchanged s.machine config c w.tree left) :
    ∃ w', opened? h' s' .verify config left server' = some w' ∧ w.session.Alike R w'.session ∧
      w'.tree = left := by
  obtain ⟨c', prepared, remarks, hload', hplaces, hprepare, hstart⟩ := opened?_eq_some hw
  cases hload.symm.trans hload'
  obtain ⟨prepared', hprepare', hprepared⟩ :=
    Session.prepare_both hsame.grammars hsame.theme hserver hprepare
  obtain ⟨started', hstart', hstarted⟩ := Session.start_both s'.process hh hprepared hstart
  rw [← hmachine] at hprepare'
  obtain ⟨w', hw', hsession, htree⟩ := exists_opened (hmachine ▸ hsame.config)
    (makePlaces_again hplaces hleft) hprepare' hstart'
  exact ⟨w', hw', hsession ▸ hstarted, htree⟩

/-- After an update a run that verifies succeeds exactly if all snapshots are held, and then it comes to the
same entries. -/
theorem verify_after_update (hh : AnswerAlike h h' R) (hserver : R server server')
    (hmachine : s'.machine = s.machine) (hcwd : s.machine.cwd.Proper)
    (hload : Config.load tree s.machine.cwd (.ofString config) = .ok c)
    (hopened : makePlaces tree c .update = .ok opened)
    (hupdate : (run h s .update config tree server).exitCode = 0)
    (hsame : Unchanged s.machine config c opened (run h s .update config tree server).tree)
    (hlegible : ∀ turn ∈ turnsOf h s .update config tree server, ∀ e ∈ turn.entries, e.Legible) :
    ((run h' s' .verify config (run h s .update config tree server).tree server').exitCode = 0 ↔
      ∀ turn ∈ turnsOf h s .update config tree server,
        turn.Held c (run h s .update config tree server).tree) ∧
    ((run h' s' .verify config (run h s .update config tree server).tree server').exitCode = 0 →
      turnsOf h' s' .verify config (run h s .update config tree server).tree server' =
        (turnsOf h s .update config tree server).map Turn.verified) := by
  obtain ⟨title, hupdated⟩ := updated_of_run hcwd hload hopened hupdate
  obtain ⟨w, last, hw, hpass⟩ := run_passes hupdate
  generalize (run h s .update config tree server).tree = final at hsame hpass hupdated ⊢
  generalize turnsOf h s .update config tree server = turns at hlegible hpass hupdated ⊢
  obtain ⟨c', _, _, hload', hplaces, -, -⟩ := opened?_eq_some hw
  cases hload.symm.trans hload'
  cases hopened.symm.trans hplaces
  have hc := Config.load_resolved hcwd (Path.proper_ofString config) hload
  have hconfig := opened_config hw hload
  obtain ⟨w', hw', halike, htree⟩ := opened_again hh hserver hmachine hw hupdated.wrote.grows hload hsame
  have hconfig' : w'.session.config = c := halike.config.symm.trans hconfig
  have hsnapshots : ∀ turn ∈ turns, turn.Snapshots final := by
    intro turn hturn
    obtain ⟨other, hother, -, hentry⟩ := hupdated.final_text hturn (.inl rfl)
    exact ⟨other.entries, hlegible other hother, hentry⟩
  rw [hconfig] at hpass
  obtain ⟨hpasses, hturns⟩ := hpass.again hh hc hconfig (fun p hp => ⟨hc.files p hp, hsame.sources p hp⟩)
    halike (.outset hupdated.wrote.grows) hlegible hsnapshots
  have hverify (hexit : (run h' s' .verify config final server').exitCode = 0) :
      ∃ last' left, Passes h' .verify w'.session final c.files
        (turnsOf h' s' .verify config final server') last' left := by
    obtain ⟨_, last', hw'', hpass'⟩ := run_passes hexit
    cases hw'.symm.trans hw''
    rw [hconfig', htree] at hpass'
    exact ⟨last', _, hpass'⟩
  constructor
  · rw [← hpasses]
    constructor
    · intro hexit
      obtain ⟨last', left, hpass'⟩ := hverify hexit
      exact ⟨_, _, _, hpass'⟩
    · rintro ⟨turns', last', left, hpass'⟩
      rw [← hconfig', ← htree] at hpass'
      exact htree ▸ (passes_run hw' hpass').1
  · intro hexit
    obtain ⟨last', left, hpass'⟩ := hverify hexit
    exact hturns _ _ _ hpass'

/-- A run that verifies after one that updates, with all it reads as it was and a server that answers alike. It
succeeds exactly if outputs go to the directory of the snapshots or sources of one name came to the same
entries; then every file that was processed comes to the same entries and is verified. No output or snapshot of
the update is written over with something else exactly if sources of one name came to the same entries, as
they do where no two files have one name. -/
theorem run_verify_after_update (hh : AnswerAlike h h' R) (hserver : R server server')
    (hmachine : s'.machine = s.machine) (hcwd : s.machine.cwd.Proper)
    (hload : Config.load tree s.machine.cwd (.ofString config) = .ok c)
    (hopened : makePlaces tree c .update = .ok opened)
    (hupdate : (run h s .update config tree server).exitCode = 0)
    (hsame : Unchanged s.machine config c opened (run h s .update config tree server).tree)
    (hlegible : ∀ turn ∈ turnsOf h s .update config tree server, ∀ e ∈ turn.entries, e.Legible) :
    ((run h' s' .verify config (run h s .update config tree server).tree server').exitCode = 0 ↔
      c.outDir = c.snapshotDir ∨ AgreeByName (turnsOf h s .update config tree server)) ∧
    ((run h' s' .verify config (run h s .update config tree server).tree server').exitCode = 0 →
      turnsOf h' s' .verify config (run h s .update config tree server).tree server' =
        (turnsOf h s .update config tree server).map Turn.verified) ∧
    ((∀ turn ∈ turnsOf h s .update config tree server,
        turn.Kept (run h s .update config tree server).tree) ↔
      AgreeByName (turnsOf h s .update config tree server)) ∧
    ((c.files.map Path.name).Nodup → AgreeByName (turnsOf h s .update config tree server)) := by
  obtain ⟨title, hupdated⟩ := updated_of_run hcwd hload hopened hupdate
  obtain ⟨hexit, hturns⟩ :=
    verify_after_update hh hserver hmachine hcwd hload hopened hupdate hsame hlegible
  exact ⟨hexit.trans (hupdated.held_iff hlegible), hturns, hupdated.kept_iff hlegible,
    hupdated.agree_of_nodup⟩

end

/-! ### A workspace -/

namespace Workspace

open Highlighter.Protocol (ScriptedServer Unruled answerAlike_unruled)
open Highlighter.Run.Workspace

def setting : Setting := { machine, process := 1, detail := "" }

def server : ScriptedServer := { rules := [] }

theorem unruled_server : Unruled server server := ⟨rfl, [], rfl⟩

/-- The other source of the name. -/
def twin : Path := ⟨"/", ["w", "b", "x"]⟩

def outset (second : String) : Tree := workspace "" "1" second ""

def started (second : String) : Session ScriptedServer :=
  ((session (outset second) (config "snapshots")).start ScriptedServer.host setting.process).2

def halfway (second : String) : Tree :=
  refreshed (outset second) (placesOf (config "snapshots") source) "t" [entry "1"]

def final (second : String) : Tree :=
  refreshed (halfway second) (placesOf (config "snapshots") twin) "t" [entry second]

/-- The session between the two sources. -/
def resumed (second : String) : Session ScriptedServer :=
  ((started second).highlight ScriptedServer.host (outset second) source).2

def turns (second : String) : List Turn :=
  [⟨⟨source, placesOf (config "snapshots") source, false, some .updated⟩, "t", [entry "1"]⟩,
    ⟨⟨twin, placesOf (config "snapshots") twin, false, some .updated⟩, "t", [entry second]⟩]

theorem eq_ok_getD {ε α β : Type} [Inhabited α] {x : Except ε α × β} (h : x.1.toOption.isSome = true) :
    x = (.ok (x.1.toOption.getD default), x.2) := by
  obtain ⟨x, b⟩ := x
  cases x with
  | error e => cases h
  | ok a => rfl

/-- What an update starts with and leaves behind is loaded alike: the configuration, the theme, the grammar
and the sources. -/
theorem evaluated : ∀ second ∈ ["1", "2"], ∀ tree ∈ [outset second, final second],
    (Config.load tree machine.cwd (.ofString "c.toml")).toOption = some (config "snapshots") ∧
      (themeOf tree machine (config "snapshots")).toOption = some { name := "t" } ∧
      (tree.read (config "snapshots").grammar).toOption =
        some (Text.encodeUtf8 "\x7b\"scopeName\": \"s\", \"patterns\": []\x7d".toList) ∧
      ∀ p ∈ (config "snapshots").files,
        (tree.find? p).toOption = some (some (fileOf (if p = source then "1" else second))) := by
  decide +kernel

/-- What the session of an update loads and comes to. -/
theorem evaluated_session : ∀ second ∈ ["1", "2"],
    (Tokenizer.load (outset second) (config "snapshots").grammar (config "snapshots").scopeName
        (config "snapshots").extraGrammars).1.toOption.isSome = true ∧
      ((session (outset second) (config "snapshots")).start ScriptedServer.host
        setting.process).1.toOption = some () ∧
      (started second).title = "t" ∧
      ((started second).highlight ScriptedServer.host (outset second) source).1.toOption =
        some ⟨[entry "1"], false⟩ ∧
      ((resumed second).highlight ScriptedServer.host (halfway second) twin).1.toOption =
        some ⟨[entry second], false⟩ := by
  decide +kernel

section
variable {second : String}

/-! What the two runs load. -/

theorem load_config (h : second ∈ ["1", "2"]) : ∀ tree ∈ [outset second, final second],
    Config.load tree machine.cwd (.ofString "c.toml") = .ok (config "snapshots") :=
  fun tree htree => eq_ok_of_toOption (evaluated second h tree htree).1

theorem load_theme (h : second ∈ ["1", "2"]) : ∀ tree ∈ [outset second, final second],
    themeOf tree machine (config "snapshots") = .ok { name := "t" } :=
  fun tree htree => eq_ok_of_toOption (evaluated second h tree htree).2.1

theorem read_grammar (h : second ∈ ["1", "2"]) : ∀ tree ∈ [outset second, final second],
    tree.read (config "snapshots").grammar =
      .ok (Text.encodeUtf8 "\x7b\"scopeName\": \"s\", \"patterns\": []\x7d".toList) :=
  fun tree htree => eq_ok_of_toOption (evaluated second h tree htree).2.2.1

theorem find_sources (h : second ∈ ["1", "2"]) : ∀ p ∈ (config "snapshots").files,
    ∀ tree ∈ [outset second, final second],
      tree.find? p = .ok (some (fileOf (if p = source then "1" else second))) :=
  fun p hp tree htree => eq_ok_of_toOption ((evaluated second h tree htree).2.2.2 p hp)

theorem unchanged (h : second ∈ ["1", "2"]) :
    Unchanged machine "c.toml" (config "snapshots") (outset second) (final second) := by
  have houtset : outset second ∈ [outset second, final second] := by simp
  have hfinal : final second ∈ [outset second, final second] := by simp
  exact {
    config := load_config h _ hfinal
    grammars := tokenizer_of_read ((read_grammar h _ hfinal).trans (read_grammar h _ houtset).symm) nofun
    theme := (load_theme h _ hfinal).trans (load_theme h _ houtset).symm
    sources p hp := (find_sources h p hp _ hfinal).trans (find_sources h p hp _ houtset).symm }

theorem prepare_outset (h : second ∈ ["1", "2"]) : ∃ remarks,
    Session.prepare (outset second) machine (config "snapshots") server =
      (.ok (session (outset second) (config "snapshots")), remarks) := by
  have htokenizer : (Tokenizer.load (outset second) (config "snapshots").grammar
      (config "snapshots").scopeName (config "snapshots").extraGrammars).1.toOption.isSome = true :=
    (evaluated_session second h).1
  have htheme := load_theme h (outset second) (by simp)
  refine ⟨_, Session.prepare_eq_ok.mpr ⟨_, _, _, eq_ok_getD htokenizer, htheme, rfl, ?_⟩⟩
  rw [session, htheme]
  rfl

theorem start_outset (h : second ∈ ["1", "2"]) :
    (session (outset second) (config "snapshots")).start ScriptedServer.host setting.process =
      (.ok (), started second) := by
  unfold started
  exact eq_ok_of_fst (evaluated_session second h).2.1

/-! The turns of the update. -/

theorem config_started (second : String) : (started second).config = config "snapshots" := by
  have hkeeps := (session (outset second) (config "snapshots")).start_keeps ScriptedServer.host
    setting.process
  unfold started
  exact hkeeps.config

theorem title_started (h : second ∈ ["1", "2"]) : (started second).title = "t" :=
  (evaluated_session second h).2.2.1

theorem resumed_keeps : (started second).Keeps (resumed second) := by
  unfold resumed
  exact Session.highlight_keeps ..

theorem highlight_source (h : second ∈ ["1", "2"]) :
    (started second).highlight ScriptedServer.host (outset second) source =
      (.ok ⟨[entry "1"], false⟩, resumed second) := by
  unfold resumed
  exact eq_ok_of_fst (evaluated_session second h).2.2.2.1

theorem highlight_twin (h : second ∈ ["1", "2"]) : ∃ last,
    (resumed second).highlight ScriptedServer.host (halfway second) twin =
      (.ok ⟨[entry second], false⟩, last) :=
  ⟨_, eq_ok_of_fst (evaluated_session second h).2.2.2.2⟩

theorem written_outset (second : String) :
    (placesOf (config "snapshots") source).Written (outset second) where
  tokens := stored_tokens _ _ _ _ _
  view := stored_view _ _ _ _ _
  snapshot := stored_snapshot _ _ _ _

theorem halfway_grows (second : String) : (outset second).Grows (halfway second) :=
  (refreshed_wrote (stored_tokens _ _ _ _ _) (stored_view _ _ _ _ _) (stored_snapshot _ _ _ _)).grows

theorem passes (h : second ∈ ["1", "2"]) : ∃ last, Passes ScriptedServer.host .update (started second)
    (outset second) (config "snapshots").files (turns second) last (final second) := by
  have hfirst := @deliver_update_stored _ _ "t" [entry "1"] (written_outset second)
  have hsecond := @deliver_update_stored _ _ "t" [entry second]
    ((written_outset second).grows (halfway_grows second))
  rw [← placesOf_eq (show twin.name = source.name by decide)] at hsecond
  have hconfig : (resumed second).config = config "snapshots" :=
    resumed_keeps.config.trans (config_started second)
  have htitle : (resumed second).title = "t" := resumed_keeps.title.trans (title_started h)
  have hsource := highlight_source h
  obtain ⟨last, htwin⟩ := highlight_twin h
  have hown := Handles.turn rfl (title_started h) hsource
    (Session.process_of_deliver (config_started second) (title_started h) hsource hfirst) rfl
  have hother := Handles.turn rfl htitle htwin (Session.process_of_deliver hconfig htitle htwin hsecond) rfl
  exact ⟨last, .cons hown (.cons hother (.nil _ _))⟩

theorem update_outset (h : second ∈ ["1", "2"]) :
    (run ScriptedServer.host setting .update "c.toml" (outset second) server).exitCode = 0 ∧
      (run ScriptedServer.host setting .update "c.toml" (outset second) server).tree = final second ∧
      turnsOf ScriptedServer.host setting .update "c.toml" (outset second) server = turns second := by
  obtain ⟨remarks, hprepare⟩ := prepare_outset h
  obtain ⟨w, hw, hsession, htree⟩ : ∃ w,
      opened? ScriptedServer.host setting .update "c.toml" (outset second) server = some w ∧
        w.session = started second ∧ w.tree = outset second :=
    exists_opened (load_config h (outset second) (by simp)) rfl hprepare (start_outset h)
  obtain ⟨last, hpass⟩ := passes h
  rw [← config_started second, ← hsession, ← htree] at hpass
  exact passes_run hw hpass

theorem legible_turns (h : second ∈ ["1", "2"]) :
    ∀ turn ∈ turns second, ∀ e ∈ turn.entries, e.Legible := by
  intro turn hturn
  simp only [turns, List.mem_cons, List.not_mem_nil, or_false] at hturn
  rcases hturn with rfl | rfl
  · exact legible_entry (by decide)
  · exact legible_entry h

end

/-- Two sources of one name come to the same entries: they are verified, and every file is kept. -/
theorem run_verify_after_update_agreeing :
    (run ScriptedServer.host setting .verify "c.toml"
        (run ScriptedServer.host setting .update "c.toml" (outset "1") server).tree server).exitCode = 0 ∧
      turnsOf ScriptedServer.host setting .verify "c.toml"
          (run ScriptedServer.host setting .update "c.toml" (outset "1") server).tree server =
        (turns "1").map Turn.verified ∧
      ∀ turn ∈ turns "1",
        turn.Kept (run ScriptedServer.host setting .update "c.toml" (outset "1") server).tree := by
  have hmem : "1" ∈ ["1", "2"] := by decide
  obtain ⟨hupdate, htree, hturns⟩ := update_outset hmem
  have hagree : AgreeByName (turns "1") := by simp [AgreeByName, turns]
  obtain ⟨hverify, hagain, hkept, -⟩ := run_verify_after_update answerAlike_unruled unruled_server
    (rfl : setting.machine = setting.machine) (Path.proper_ofString _) (load_config hmem _ (by simp)) rfl
    hupdate (htree ▸ unchanged hmem) (hturns ▸ legible_turns hmem)
  rw [hturns] at hverify hagain hkept
  have hexit := hverify.mpr (.inr hagree)
  exact ⟨hexit, hagain hexit, hkept.mpr hagree⟩

/-- Two sources of one name come to different entries: the update succeeds, and yet it is not verified, for a
file of one source was written over for the other. -/
theorem run_verify_after_update_overwritten :
    Unchanged machine "c.toml" (config "snapshots") (outset "2")
        (run ScriptedServer.host setting .update "c.toml" (outset "2") server).tree ∧
      (run ScriptedServer.host setting .update "c.toml" (outset "2") server).exitCode = 0 ∧
      (run ScriptedServer.host setting .verify "c.toml"
        (run ScriptedServer.host setting .update "c.toml" (outset "2") server).tree server).exitCode ≠ 0 ∧
      ∃ turn ∈ turnsOf ScriptedServer.host setting .update "c.toml" (outset "2") server,
        ¬ turn.Kept (run ScriptedServer.host setting .update "c.toml" (outset "2") server).tree := by
  have hmem : "2" ∈ ["1", "2"] := by decide
  obtain ⟨hupdate, htree, hturns⟩ := update_outset hmem
  have hlegible := legible_turns hmem
  have hdiffer : ¬ AgreeByName (turns "2") := by
    intro hagree
    exact absurd (hagree _ List.mem_cons_self _ (List.mem_cons_of_mem _ List.mem_cons_self) (by decide))
      (by decide)
  have hcwd : setting.machine.cwd.Proper := Path.proper_ofString _
  have hload := load_config hmem (outset "2") (by simp)
  obtain ⟨title, hupdated⟩ := updated_of_run hcwd hload rfl hupdate
  obtain ⟨hverify, -⟩ := verify_after_update answerAlike_unruled unruled_server
    (rfl : setting.machine = setting.machine) hcwd hload rfl hupdate (htree ▸ unchanged hmem)
    (hturns ▸ hlegible)
  rw [hturns] at hverify hupdated
  refine ⟨htree ▸ unchanged hmem, hupdate, ?_, ?_⟩
  · rw [Ne, hverify, hupdated.held_iff hlegible]
    rintro (hdir | hagree)
    · exact absurd hdir (by decide)
    · exact hdiffer hagree
  · rw [hturns]
    have hkept := mt (hupdated.kept_iff hlegible).mp hdiffer
    push Not at hkept
    exact hkept

end Workspace

end Highlighter.Command

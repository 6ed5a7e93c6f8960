import Highlighter.Page.View
import Highlighter.Proofs.Run.Delivery
import Highlighter.Proofs.Run.Highlighting
import Highlighter.Protocol.Script

/-! Verifying the snapshot of a source. Where outputs and snapshots lie in different directories it leaves
all snapshots alone and tells whether the stored one is that of the entries that were made. Where they lie
in one directory the tokens are written over the snapshot first, and then it is always verified. -/

namespace Highlighter.Run

open Highlighter.Files (Path Tree)
open Highlighter.Files.Tree (Touched)
open Highlighter.Protocol (Host)
open Highlighter.Snapshot (Entry agrees fileText readValue)

section
variable {c : Config} {tree first second left : Tree} {source other : Path} {title : Str}
  {made : List Entry} {verdict : Option Verdict}

theorem snapshot_eq_tokens (h : c.outDir = c.snapshotDir) :
    (placesOf c source).snapshot = (placesOf c source).tokens := by
  rw [placesOf, h]

/-- The snapshot of a source lies apart from all that is written when one is verified, unless it is where the
tokens of a source of that name go. -/
theorem snapshot_apart (hc : c.PathsResolved) (hs : IsSource source) (ho : IsSource other)
    (h : c.outDir = c.snapshotDir → other.name ≠ source.name) :
    (placesOf c other).snapshot.parts ∉ [(placesOf c source).tokens.parts,
      (placesOf c source).view.parts, (placesOf c source).comparison.parts] := by
  have hnot (ending : Ending) :
      (placesOf c other).snapshot.parts ≠ (c.outDir.child (source.name ++ ending.text)).parts := by
    intro heq
    obtain ⟨-, hdir, hname⟩ := named_parts_injective .tokens ending ho hs (.inl rfl) heq
    exact h (hc.outDir.ext hc.snapshotDir hdir.symm) hname
  simp only [List.mem_cons, List.not_mem_nil, or_false, not_or]
  exact ⟨hnot .tokens, hnot .view, hnot .comparison⟩

/-- Delivered to other directories, a snapshot is verified exactly if the one that was there agrees. -/
theorem deliver_verify_apart (hc : c.PathsResolved) (hs : IsSource source) (ht : tree.Rooted)
    (hdir : c.outDir ≠ c.snapshotDir)
    (h : deliver tree (placesOf c source) title made .verify = (.ok verdict, left)) :
    verdict = some .verified ↔
      ∃ v, readValue tree (placesOf c source).snapshot = .ok v ∧ agrees v made = true := by
  have hplaces := placesOf_resolved hc hs
  obtain ⟨shown, first, second, -, hfirst, hsecond, hsettle⟩ := deliver_eq_ok h
  have hwritten : Touched [(placesOf c source).tokens.parts, (placesOf c source).view.parts,
      (placesOf c source).comparison.parts] tree second :=
    ((Tree.store_touched hplaces.tokens hfirst).mono (by simp)).trans
      ((Tree.store_touched hplaces.view hsecond).mono (by simp))
  have hapart := snapshot_apart hc hs hs fun heq => absurd heq hdir
  have hread (v : Json.Value) : readValue second (placesOf c source).snapshot = .ok v ↔
      readValue tree (placesOf c source).snapshot = .ok v := by
    simp only [Snapshot.readValue_eq_ok, hwritten.read_iff ht hplaces.snapshot hapart]
  obtain ⟨v, rfl, hverify⟩ := settle_verify_eq_ok hsettle
  simp only [← hread, Option.some.injEq]
  constructor
  · rintro rfl
    exact ((verify_eq_verified hplaces.snapshot).mp hverify).2
  · intro hagrees
    have hverified := (verify_eq_verified hplaces.snapshot).mpr ⟨rfl, hagrees⟩
    cases hverify.symm.trans hverified
    rfl

/-- Delivered to the directory of the snapshots, the entries are written over the snapshot before it is
read, so they are compared with themselves. -/
theorem deliver_verify_together (hc : c.PathsResolved) (hs : IsSource source)
    (hdir : c.outDir = c.snapshotDir)
    (h : deliver tree (placesOf c source) title made .verify = (.ok verdict, left)) :
    left.read (placesOf c source).snapshot = .ok (Text.encodeUtf8 (fileText made).toList) ∧
      ((∀ e ∈ made, e.Legible) → verdict = some .verified) := by
  have hplaces := placesOf_resolved hc hs
  obtain ⟨shown, first, second, -, hfirst, hsecond, hsettle⟩ := deliver_eq_ok h
  obtain ⟨v, rfl, hverify⟩ := settle_verify_eq_ok hsettle
  rw [snapshot_eq_tokens hdir]
  have hread : second.read (placesOf c source).tokens = .ok (Text.encodeUtf8 (fileText made).toList) :=
    (Tree.store_touched hplaces.view hsecond).read hplaces.tokens
      (List.mem_singleton.not.mpr hplaces.apart) (Tree.store_read hfirst)
  refine ⟨?_, fun hlegible => ?_⟩
  · have hverified := verify_touched second made hplaces.comparison
    rw [hverify] at hverified
    exact hverified.read hplaces.tokens (List.mem_singleton.not.mpr hplaces.apart_comparison) hread
  · rw [← snapshot_eq_tokens hdir] at hread
    have hverified : verify second (placesOf c source) made = _ := (verify_eq_verified hplaces.snapshot).mpr
      ⟨rfl, _, Snapshot.readValue_stored hread hlegible, Snapshot.agrees_toJson.mpr rfl⟩
    cases hverify.symm.trans hverified
    rfl

end

section
variable {c : Config} {tree : Tree} {source : Path} {title : String} {made : List Entry} {v : Json.Value}

/-- Written over in the directory of the snapshots, a source is verified. -/
theorem deliver_together (hc : c.PathsResolved) (hs : IsSource source) (hdir : c.outDir = c.snapshotDir)
    (ht : tree.Stored (placesOf c source).tokens) (hv : tree.Stored (placesOf c source).view)
    (hlegible : ∀ e ∈ made, e.Legible) : deliver tree (placesOf c source) title made .verify =
      (.ok (some .verified), rewritten tree (placesOf c source) title made) := by
  have hplaces := placesOf_resolved hc hs
  have hgrows := (rewritten_wrote title made ht hv).grows
  refine (deliver_stored_verified hplaces ht hv).mpr
    ⟨rfl, Snapshot.toJson made, Snapshot.readValue_stored ?_ hlegible, Snapshot.agrees_toJson.mpr rfl⟩
  rw [snapshot_eq_tokens hdir, Tree.read_eq_ok]
  refine ⟨_, (ht.grows hgrows).located, ?_⟩
  rw [entry?_rewritten ht hv, if_neg hplaces.apart, if_pos rfl]

/-- Written over elsewhere, a source is verified exactly if the stored snapshot agrees. -/
theorem deliver_apart (hc : c.PathsResolved) (hs : IsSource source) (hdir : c.outDir ≠ c.snapshotDir)
    (ht : tree.Stored (placesOf c source).tokens) (hv : tree.Stored (placesOf c source).view)
    (hread : readValue tree (placesOf c source).snapshot = .ok v) :
    deliver tree (placesOf c source) title made .verify =
      (.ok (some .verified), rewritten tree (placesOf c source) title made) ↔ agrees v made = true := by
  have hplaces := placesOf_resolved hc hs
  obtain ⟨b, text, hb, htext', hvalue⟩ := Snapshot.readValue_eq_ok.mp hread
  have hwritten : Touched [(placesOf c source).tokens.parts, (placesOf c source).view.parts,
      (placesOf c source).comparison.parts] tree (rewritten tree (placesOf c source) title made) :=
    ⟨_, by simp, rewritten_wrote title made ht hv⟩
  have hapart := snapshot_apart hc hs hs fun heq => absurd heq hdir
  have hread' : readValue (rewritten tree (placesOf c source) title made) (placesOf c source).snapshot = .ok v :=
    Snapshot.readValue_eq_ok.mpr ⟨b, text, hwritten.read hplaces.snapshot hapart hb, htext', hvalue⟩
  rw [deliver_stored_verified hplaces ht hv, hread']
  constructor
  · rintro ⟨-, _, ⟨⟩, hagrees⟩
    exact hagrees
  · exact fun hagrees => ⟨rfl, v, rfl, hagrees⟩

end

namespace Session

section
variable {σ : Type} {h : Host σ} {s : Session σ} {tree tree₀ : Tree} {source cwd path : Path}

/-- A source that is processed to verify its snapshot writes tokens, view and comparison at most, whatever
becomes of it. -/
theorem process_touched (hp : (placesOf s.config source).Resolved) :
    Touched [(placesOf s.config source).tokens.parts, (placesOf s.config source).view.parts,
      (placesOf s.config source).comparison.parts] tree (s.process h .verify tree source).2.2 := by
  unfold process
  have hkeeps := s.highlight_keeps h tree source
  split
  · exact .refl _ _
  rename_i made after heq
  rw [heq] at hkeeps
  have htouched := deliver_touched tree after.title made.entries hp
  rw [← hkeeps.config] at htouched
  dsimp only
  rw [← hkeeps.config]
  split
  all_goals
    rename_i heq
    rwa [heq] at htouched

/-- Verifying a source under a configuration that was loaded. Snapshots are left alone, except that of the
source itself where outputs go to the directory of the snapshots. With directories of their own, the source is
verified exactly if the snapshot that was there is the JSON of the entries, its truth values counted as
numbers; in one directory it is verified whatever was there, and its entries are there now. -/
theorem process_verify (hcwd : cwd.Proper) (hpath : path.Proper)
    (hload : Config.load tree₀ cwd path = .ok s.config) (hsource : source.Proper)
    (hfault : source.fault? = none) (htree : tree.Rooted) :
    (∀ other b, other.Proper → other.fault? = none →
      (s.config.outDir = s.config.snapshotDir → other.name ≠ source.name) →
        ((s.process h .verify tree source).2.2.read (placesOf s.config other).snapshot = .ok b ↔
          tree.read (placesOf s.config other).snapshot = .ok b)) ∧
    ∀ report, (s.process h .verify tree source).1 = .ok report →
      ∃ made, (s.highlight h tree source).1 = .ok made ∧
        (s.config.outDir ≠ s.config.snapshotDir → (report.verdict = some .verified ↔
          ∃ v, readValue tree (placesOf s.config source).snapshot = .ok v ∧
            v.counted.Same (Snapshot.toJson made.entries))) ∧
        (s.config.outDir = s.config.snapshotDir →
          (s.process h .verify tree source).2.2.read (placesOf s.config source).snapshot =
              .ok (Text.encodeUtf8 (fileText made.entries).toList) ∧
            ((∀ e ∈ made.entries, e.Legible) → report.verdict = some .verified)) := by
  have hc := Config.load_resolved hcwd hpath hload
  have hs := isSource_of_proper hsource hfault
  have hplaces := placesOf_resolved hc hs
  refine ⟨fun other b hother hok hname => ?_, fun report hreport => ?_⟩
  · have ho := isSource_of_proper hother hok
    exact (process_touched hplaces).read_iff htree (placesOf_resolved hc ho).snapshot
      (snapshot_apart hc hs ho hname)
  · obtain ⟨made, verdict, hmade, hdeliver, rfl⟩ :=
      process_eq_ok.mp (Prod.ext hreport rfl : s.process h .verify tree source = (.ok report, _, _))
    refine ⟨made, congrArg Prod.fst hmade, fun hdir => ?_,
      fun hdir => deliver_verify_together hc hs hdir hdeliver⟩
    rw [deliver_verify_apart hc hs htree hdir hdeliver]
    refine exists_congr fun v => and_congr_right fun hv => ?_
    exact Snapshot.agrees_iff (Snapshot.distinct_of_readValue hv)

end

end Session

/-! ### A workspace -/

deriving instance DecidableEq for Config

deriving instance DecidableEq for Session.Highlighted

def fileOf (s : String) : Files.Entry := .file (Text.encodeUtf8 s.toList)

/-- Two sources of one name, a grammar without rules, a theme without colors, and the files of an earlier
run. -/
def workspace (settings first second stored : String) : Tree := ⟨[
  (["w"], .directory),
  (["w", "a"], .directory),
  (["w", "a", "x"], fileOf first),
  (["w", "b"], .directory),
  (["w", "b", "x"], fileOf second),
  (["w", "g.json"], fileOf "\x7b\"scopeName\": \"s\", \"patterns\": []\x7d"),
  (["w", "t.json"], fileOf "\x7b\x7d"),
  (["w", "c.toml"], fileOf ("grammar = \"g.json\"\nscope_name = \"s\"\ntheme = \"t.json\"\n" ++
    "files = [\"a/x\", \"b/x\"]\n" ++ settings ++ "[lsp]\ncommand = [\"l\"]\n")),
  (["w", "out"], .directory),
  (["w", "out", "x.html"], fileOf ""),
  (["w", "out", "x.tokens.json"], fileOf stored),
  (["w", "snapshots"], .directory),
  (["w", "snapshots", "x.tokens.json"], fileOf stored)]⟩

namespace Workspace

def machine : Machine := { cwd := .ofString "/w" }

def source : Path := ⟨"/", ["w", "a", "x"]⟩

def config (snapshots : String) : Config where
  file := ⟨"/", ["w", "c.toml"]⟩
  grammar := ⟨"/", ["w", "g.json"]⟩
  scopeName := "s"
  extraGrammars := []
  theme := "t.json"
  files := [source, ⟨"/", ["w", "b", "x"]⟩]
  outDir := ⟨"/", ["w", "out"]⟩
  snapshotDir := ⟨"/", ["w", snapshots]⟩
  languageId := "s"
  command := ["l"]
  rootUri := "file:///w"
  timeout := .ofInt 30
  tokenTypes := []
  tokenModifiers := []

/-- The entry of a text in one line. -/
def entry (text : String) : Entry where
  startLine := 0
  startChar := 0
  endLine := 0
  endChar := text.length
  text := text
  foreground := "#D4D4D4"
  fontStyle := none
  source := "textmate"
  scopes := ["s"]
  scopeColors := ["#D4D4D4"]
  activeScope := -1

def session (tree : Tree) (c : Config) : Session Protocol.ScriptedServer where
  config := c
  tokenizer := (Tokenizer.load tree c.grammar c.scopeName c.extraGrammars).1.toOption.getD default
  overlay := { theme := (themeOf tree machine c).toOption.getD default }
  talk := ⟨clientOf c, { rules := [] }⟩
  remarks := (Tokenizer.load tree c.grammar c.scopeName c.extraGrammars).2.map .tokenizer

theorem eq_ok_of_toOption {ε α : Type} {x : Except ε α} {a : α} (h : x.toOption = some a) : x = .ok a := by
  cases x with
  | error e => cases h
  | ok b =>
    cases h
    rfl

theorem eq_ok_of_fst {ε α β : Type} {x : Except ε α × β} {a : α} (h : x.1.toOption = some a) :
    x = (.ok a, x.2) := Prod.ext (eq_ok_of_toOption h) rfl

theorem legible_entry {text : String} (h : text ∈ ["1", "2"]) : ∀ e ∈ [entry text], e.Legible := by
  revert text
  unfold Entry.Legible
  decide +kernel

section
variable (settings first second stored snapshots : String)

theorem stored_tokens :
    (workspace settings first second stored).Stored (placesOf (config snapshots) source).tokens where
  directories := rfl
  located := rfl
  file := ⟨_, rfl⟩

theorem stored_view :
    (workspace settings first second stored).Stored (placesOf (config snapshots) source).view where
  directories := rfl
  located := rfl
  file := ⟨_, rfl⟩

theorem stored_snapshot :
    (workspace settings first second stored).Stored (placesOf (config "snapshots") source).snapshot where
  directories := rfl
  located := rfl
  file := ⟨_, rfl⟩

end

/-- A workspace whose outputs go to the directory of the snapshots. -/
def together : Tree := workspace "snapshot_dir = \"out\"\n" "1" "" (fileText [])

/-- A workspace with directories of their own for outputs and snapshots, where the snapshot is there. -/
def apart : Tree := workspace "" "1" "" (fileText [entry "1"])

/-- What the configurations of the two workspaces are, and what their source is highlighted as. -/
theorem evaluated : ∀ w ∈ [(together, "out"), (apart, "snapshots")],
    (Config.load w.1 machine.cwd (.ofString "c.toml")).toOption = some (config w.2) ∧
      ((session w.1 (config w.2)).highlight Protocol.ScriptedServer.host w.1 source).1.toOption =
        some ⟨[entry "1"], false⟩ ∧
      (session w.1 (config w.2)).title = "t" := by
  decide +kernel

theorem load_together :
    Config.load together machine.cwd (.ofString "c.toml") = .ok (config "out") :=
  eq_ok_of_toOption (evaluated (together, "out") (by simp)).1

theorem highlight_together : ∃ after, (session together (config "out")).highlight
    Protocol.ScriptedServer.host together source = (.ok ⟨[entry "1"], false⟩, after) :=
  ⟨_, eq_ok_of_fst (evaluated (together, "out") (by simp)).2.1⟩

theorem title_together : (session together (config "out")).title = "t" :=
  (evaluated (together, "out") (by simp)).2.2

theorem rooted_apart : apart.Rooted := by
  unfold Tree.Rooted
  decide +kernel

theorem load_apart :
    Config.load apart machine.cwd (.ofString "c.toml") = .ok (config "snapshots") :=
  eq_ok_of_toOption (evaluated (apart, "snapshots") (by simp)).1

theorem highlight_apart : ∃ after, (session apart (config "snapshots")).highlight
    Protocol.ScriptedServer.host apart source = (.ok ⟨[entry "1"], false⟩, after) :=
  ⟨_, eq_ok_of_fst (evaluated (apart, "snapshots") (by simp)).2.1⟩

theorem title_apart : (session apart (config "snapshots")).title = "t" :=
  (evaluated (apart, "snapshots") (by simp)).2.2

theorem proper_source : source.Proper := by
  have hsource : source = .ofString "/w/a/x" := by decide
  rw [hsource]
  exact Path.proper_ofString _

theorem isSource_source : IsSource source := isSource_of_proper proper_source (by decide)

/-- The snapshot that is there is that of the source, and it is verified. -/
theorem process_verify_apart :
    ∃ report, ((session apart (config "snapshots")).process Protocol.ScriptedServer.host .verify apart
        source).1 = .ok report ∧ report.verdict = some .verified ∧
      ∃ v, readValue apart (placesOf (config "snapshots") source).snapshot = .ok v ∧
        v.counted.Same (Snapshot.toJson [entry "1"]) := by
  have hresolved := Config.load_resolved (Path.proper_ofString _) (Path.proper_ofString _) load_apart
  have hdir : (config "snapshots").outDir ≠ (config "snapshots").snapshotDir := by decide
  have hmem : "1" ∈ ["1", "2"] := by decide
  have hread : readValue apart (placesOf (config "snapshots") source).snapshot =
      .ok (Snapshot.toJson [entry "1"]) := Snapshot.readValue_stored rfl (legible_entry hmem)
  have hdeliver : deliver apart _ "t" [entry "1"] .verify = _ := (deliver_apart hresolved isSource_source
    hdir (stored_tokens _ _ _ _ _) (stored_view _ _ _ _ _) hread).mpr (Snapshot.agrees_toJson.mpr rfl)
  obtain ⟨after, hmade⟩ := highlight_apart
  have hprocess := Session.process_of_deliver rfl title_apart hmade hdeliver
  obtain ⟨made, hmade', hverdict, -⟩ := (Session.process_verify (Path.proper_ofString _)
    (Path.proper_ofString _) load_apart proper_source (by decide) rooted_apart).2 _
      (congrArg Prod.fst hprocess)
  cases (congrArg Prod.fst hmade).symm.trans hmade'
  exact ⟨_, congrArg Prod.fst hprocess, rfl, (hverdict hdir).mp rfl⟩

/-- The snapshot that is there has no entries, and yet it is verified, after the one of the source was
written over it. -/
theorem process_verify_together :
    Config.load together machine.cwd (.ofString "c.toml") = .ok (session together (config "out")).config ∧
    readValue together (placesOf (config "out") source).snapshot = .ok (Snapshot.toJson []) ∧
    ∃ report made after left, (session together (config "out")).highlight Protocol.ScriptedServer.host
        together source = (.ok made, after) ∧ ¬ (Snapshot.toJson []).Same (Snapshot.toJson made.entries) ∧
      (session together (config "out")).process Protocol.ScriptedServer.host .verify together source =
        (.ok report, after, left) ∧ report.verdict = some .verified ∧
      left.read (placesOf (config "out") source).snapshot ≠
        together.read (placesOf (config "out") source).snapshot := by
  have hresolved := Config.load_resolved (Path.proper_ofString _) (Path.proper_ofString _) load_together
  have hmem : "1" ∈ ["1", "2"] := by decide
  have hdeliver : deliver together _ "t" [entry "1"] .verify = _ := deliver_together hresolved
    isSource_source rfl (stored_tokens _ _ _ _ _) (stored_view _ _ _ _ _) (legible_entry hmem)
  have hbefore : together.read (placesOf (config "out") source).snapshot =
      .ok (Text.encodeUtf8 (fileText []).toList) := rfl
  obtain ⟨after, hmade⟩ := highlight_together
  have hprocess := Session.process_of_deliver rfl title_together hmade hdeliver
  refine ⟨load_together, Snapshot.readValue_stored hbefore (by simp), _, _, _, _, hmade, ?_, hprocess, rfl, ?_⟩
  · rw [Snapshot.same_toJson]
    nofun
  · rw [hbefore, (deliver_verify_together hresolved isSource_source rfl hdeliver).1]
    intro heq
    cases Snapshot.fileBytes_injective (legible_entry hmem) (by simp) (Except.ok.inj heq)

end Workspace

end Highlighter.Run

import Highlighter.Proofs.Command.Turns
import Highlighter.Proofs.Run.Delivery
import Mathlib.Data.List.Nodup

/-! What an update writes: the outputs and the snapshot of every source that was processed. Sources of one name
are written to the same places. -/

namespace Highlighter.Command

open Highlighter.Files (Path Place Tree)
open Highlighter.Files.Tree (Wrote)
open Highlighter.Protocol (Host)
open Highlighter.Run
open Highlighter.Snapshot (Entry fileText)
open Highlighter.Text (Bytes)

/-! ### What an update writes -/

/-- A turn of a run under a configuration, with a title for its pages. -/
structure Turn.Of (c : Config) (title : Str) (turn : Turn) : Prop where
  source : IsSource turn.report.source
  places : turn.report.places = placesOf c turn.report.source
  title : (turn.title : Str) = title

/-- What the turn of an update writes, the last first. -/
def Turn.writes (turn : Turn) : List (Place × Bytes) :=
  turn.report.places.writes turn.title turn.entries

def Turn.Written (turn : Turn) (t : Tree) : Prop :=
  turn.report.places.Written t

section
variable {σ : Type} {h : Host σ} {mode : Mode} {c : Config} {title : Str} {s s' last : Session σ}
  {t t' final : Tree} {path : Path} {paths : List Path} {own turns : List Turn} {turn other : Turn}
  {place : Place} {b : Bytes}

theorem Handles.keeps (hfirst : Handles h mode s t path own s' t') : s.Keeps s' := by
  cases hfirst with
  | skip absent => exact .refl s
  | turn there titled highlighted processed well =>
    have hkeeps := s.highlight_keeps h t path
    rwa [highlighted] at hkeeps

theorem Handles.of (hs : s.config = c) (htitle : s.title = title) (hpath : path.Resolved)
    (hfirst : Handles h mode s t path own s' t') : ∀ turn ∈ own, turn.Of c title := by
  cases hfirst with
  | skip absent => nofun
  | turn there titled highlighted processed well =>
    intro turn hturn
    obtain rfl := List.mem_singleton.mp hturn
    obtain ⟨made, verdict, -, -, rfl⟩ := Session.process_eq_ok.mp processed
    exact ⟨isSource_of_proper hpath.proper hpath.faultless, by rw [hs], titled.symm.trans htitle⟩

theorem Handles.update (hc : s.config.PathsResolved) (hpath : path.Resolved)
    (hfirst : Handles h .update s t path own s' t') :
    Wrote (own.reverse.flatMap Turn.writes) t t' ∧ ∀ turn ∈ own, turn.Written t' := by
  cases hfirst with
  | skip absent => exact ⟨.refl t, nofun⟩
  | turn there titled highlighted processed well =>
    obtain ⟨made, verdict, hmade, hdeliver, rfl⟩ := Session.process_eq_ok.mp processed
    cases highlighted.symm.trans hmade
    have hsource := isSource_of_proper hpath.proper hpath.faultless
    rw [titled] at hdeliver
    obtain ⟨-, hwrote, hwritten⟩ := deliver_update (placesOf_resolved hc hsource) hdeliver
    refine ⟨?_, fun turn hturn => ?_⟩
    · simpa [Turn.writes] using hwrote
    · obtain rfl := List.mem_singleton.mp hturn
      exact hwritten

theorem Passes.of (hs : s.config = c) (htitle : s.title = title) (hpaths : ∀ p ∈ paths, p.Resolved)
    (hpass : Passes h mode s t paths turns last final) : ∀ turn ∈ turns, turn.Of c title := by
  induction hpass with
  | nil s t => nofun
  | cons first others ih =>
    intro turn hturn
    rcases List.mem_append.mp hturn with hturn | hturn
    · exact first.of hs htitle (hpaths _ List.mem_cons_self) turn hturn
    · exact ih (first.keeps.config.trans hs) (first.keeps.title.trans htitle)
        (fun p hp => hpaths p (List.mem_cons_of_mem _ hp)) turn hturn

theorem Handles.sources (hfirst : Handles h mode s t path own s' t') :
    (own.map (·.report.source)).Sublist [path] := by
  cases hfirst with
  | skip absent => exact List.nil_sublist _
  | turn there titled highlighted processed well =>
    obtain ⟨made, verdict, -, -, rfl⟩ := Session.process_eq_ok.mp processed
    exact .refl _

/-- Turns are taken in the order of the files. -/
theorem Passes.sources (hpass : Passes h mode s t paths turns last final) :
    (turns.map (·.report.source)).Sublist paths := by
  induction hpass with
  | nil s t => exact .refl _
  | cons first others ih =>
    rw [List.map_append]
    exact first.sources.append ih

/-- An update writes what its turns write, and all of it is there in the end. -/
theorem Passes.update (hc : c.PathsResolved) (hs : s.config = c) (hpaths : ∀ p ∈ paths, p.Resolved)
    (hpass : Passes h .update s t paths turns last final) :
    Wrote (turns.reverse.flatMap Turn.writes) t final ∧ ∀ turn ∈ turns, turn.Written final := by
  induction hpass with
  | nil s t => exact ⟨.refl t, nofun⟩
  | cons first others ih =>
    obtain ⟨hwroteFirst, hwrittenFirst⟩ := first.update (hs ▸ hc) (hpaths _ List.mem_cons_self)
    obtain ⟨hwrote, hwritten⟩ := ih (first.keeps.config.trans hs)
      (fun p hp => hpaths p (List.mem_cons_of_mem _ hp))
    refine ⟨?_, fun turn hturn => ?_⟩
    · rw [List.reverse_append, List.flatMap_append]
      exact hwroteFirst.trans hwrote
    · rcases List.mem_append.mp hturn with hturn | hturn
      · exact (hwrittenFirst turn hturn).grows hwrote.grows
      · exact hwritten turn hturn

end

/-! ### Files that are written over -/

/-- Files of one name came to the same entries. -/
def AgreeByName (turns : List Turn) : Prop :=
  ∀ a ∈ turns, ∀ b ∈ turns, a.report.source.name = b.report.source.name → a.entries = b.entries

/-- The snapshot of a turn is not compared with another's: it is there in the end, or written over just before
it is read. -/
def Turn.Held (c : Config) (final : Tree) (turn : Turn) : Prop :=
  c.outDir = c.snapshotDir ∨ final.entry? turn.report.places.snapshot.parts =
    some (.file (Text.encodeUtf8 (fileText turn.entries).toList))

/-- The turns of an update, over files of its configuration, and all that they wrote. -/
structure Updated (c : Config) (title : Str) (t final : Tree) (turns : List Turn) : Prop where
  of : ∀ turn ∈ turns, turn.Of c title
  sources : (turns.map (·.report.source)).Sublist c.files
  wrote : Wrote (turns.reverse.flatMap Turn.writes) t final
  written : ∀ turn ∈ turns, turn.Written final

/-- The outputs and the snapshot of a turn are those of its own entries. -/
structure Turn.Kept (final : Tree) (turn : Turn) : Prop where
  tokens : final.read turn.report.places.tokens = .ok (Text.encodeUtf8 (fileText turn.entries).toList)
  view : final.read turn.report.places.view =
    .ok (Text.encodeUtf8 (String.ofList (Page.view turn.title turn.entries)).toList)
  snapshot : final.read turn.report.places.snapshot = .ok (Text.encodeUtf8 (fileText turn.entries).toList)

section
variable {c : Config} {title : Str} {t final : Tree} {turns : List Turn} {turn other : Turn} {p : Path}
  {place : Place} {b : Bytes}

/-- What is in the end where a turn wrote was written by a turn. -/
theorem Updated.exists_writer (h : Updated c title t final turns) (hturn : turn ∈ turns)
    (hplace : (place, b) ∈ turn.writes) :
    ∃ other ∈ turns, ∃ b', (place, b') ∈ other.writes ∧ final.entry? place = some (.file b') := by
  have hmem : (place, b) ∈ turns.reverse.flatMap Turn.writes :=
    List.mem_flatMap.mpr ⟨turn, List.mem_reverse.mpr hturn, hplace⟩
  cases hlookup : (turns.reverse.flatMap Turn.writes).lookup place with
  | none =>
    have hne := List.lookup_eq_none_iff.mp hlookup _ hmem
    simp at hne
  | some b' =>
    obtain ⟨before, after, hsplit, -⟩ := List.lookup_eq_some_iff.mp hlookup
    have hmem' : (place, b') ∈ turns.reverse.flatMap Turn.writes := by
      rw [hsplit]
      exact List.mem_append_right _ List.mem_cons_self
    obtain ⟨other, hother, hwrites⟩ := List.mem_flatMap.mp hmem'
    exact ⟨other, List.mem_reverse.mp hother, b', hwrites, h.wrote.written place b' hlookup⟩

theorem Turn.mem_writes (turn : Turn) : (place, b) ∈ turn.writes ↔
    (place = turn.report.places.snapshot.parts ∨ place = turn.report.places.tokens.parts) ∧
        b = Text.encodeUtf8 (fileText turn.entries).toList ∨
      place = turn.report.places.view.parts ∧
        b = Text.encodeUtf8 (String.ofList (Page.view turn.title turn.entries)).toList := by
  simp only [Turn.writes, Places.writes, List.mem_cons, Prod.mk.injEq, List.not_mem_nil, or_false]
  constructor
  · rintro (⟨hplace, hb⟩ | h | ⟨hplace, hb⟩)
    · exact .inl ⟨.inl hplace, hb⟩
    · exact .inr h
    · exact .inl ⟨.inr hplace, hb⟩
  · rintro (⟨hplace | hplace, hb⟩ | h)
    · exact .inl ⟨hplace, hb⟩
    · exact .inr (.inr ⟨hplace, hb⟩)
    · exact .inr (.inl h)

/-- Entries were written where those of a source go only for a source of its name. -/
theorem Turn.Of.text_of_writes (h : turn.Of c title) (hp : IsSource p)
    (hplace : place = (placesOf c p).snapshot.parts ∨ place = (placesOf c p).tokens.parts)
    (hwrites : (place, b) ∈ turn.writes) :
    turn.report.source.name = p.name ∧ b = Text.encodeUtf8 (fileText turn.entries).toList := by
  rw [turn.mem_writes, h.places] at hwrites
  have hname {dir dir' : Path} (heq : (dir.child (p.name ++ Ending.tokens.text)).parts =
      (dir'.child (turn.report.source.name ++ Ending.tokens.text)).parts) :
      turn.report.source.name = p.name :=
    (named_parts_injective .tokens .tokens hp h.source (.inl rfl) heq).2.2.symm
  rcases hwrites with ⟨hwhere, hb⟩ | ⟨hwhere, -⟩
  · refine ⟨?_, hb⟩
    rcases hplace with rfl | rfl <;> rcases hwhere with heq | heq <;> exact hname heq
  · have hview {dir : Path} (heq : (dir.child (p.name ++ Ending.tokens.text)).parts =
        (placesOf c turn.report.source).view.parts) : False := by
      cases (named_parts_injective .tokens .view hp h.source (.inl rfl) heq).1
    rcases hplace with rfl | rfl <;> exact (hview hwhere).elim

theorem Turn.Of.page_of_writes (h : turn.Of c title) (hp : IsSource p)
    (hwrites : ((placesOf c p).view.parts, b) ∈ turn.writes) :
    turn.report.source.name = p.name ∧
      b = Text.encodeUtf8 (String.ofList (Page.view turn.title turn.entries)).toList := by
  rw [turn.mem_writes, h.places] at hwrites
  rcases hwrites with ⟨hwhere, -⟩ | ⟨hwhere, hb⟩
  · have hview {dir : Path} (heq : (placesOf c p).view.parts =
        (dir.child (turn.report.source.name ++ Ending.tokens.text)).parts) : False := by
      cases (named_parts_injective .tokens .view h.source hp (.inl rfl) heq.symm).1
    rcases hwhere with heq | heq <;> exact (hview heq).elim
  · exact ⟨(named_parts_injective .view .view hp h.source (.inr rfl) hwhere).2.2.symm,
      hb⟩

/-- The texts of a source are in the end those of a turn over a source of its name. -/
theorem Updated.final_text (h : Updated c title t final turns) (hturn : turn ∈ turns)
    (hplace : place = turn.report.places.snapshot.parts ∨ place = turn.report.places.tokens.parts) :
    ∃ other ∈ turns, other.report.source.name = turn.report.source.name ∧
      final.entry? place = some (.file (Text.encodeUtf8 (fileText other.entries).toList)) := by
  obtain ⟨other, hother, b, hwrites, hentry⟩ :=
    h.exists_writer hturn (turn.mem_writes.mpr (.inl ⟨hplace, rfl⟩))
  rw [(h.of turn hturn).places] at hplace
  obtain ⟨hname, rfl⟩ := (h.of other hother).text_of_writes (h.of turn hturn).source hplace hwrites
  exact ⟨other, hother, hname, hentry⟩

theorem Updated.final_page (h : Updated c title t final turns) (hturn : turn ∈ turns) :
    ∃ other ∈ turns, other.report.source.name = turn.report.source.name ∧
      final.entry? turn.report.places.view.parts =
        some (.file (Text.encodeUtf8 (String.ofList (Page.view turn.title other.entries)).toList)) := by
  have hpage := turn.mem_writes.mpr (.inr ⟨rfl, rfl⟩)
  obtain ⟨other, hother, b, hwrites, hentry⟩ := h.exists_writer hturn hpage
  rw [(h.of turn hturn).places] at hwrites
  obtain ⟨hname, hb⟩ := (h.of other hother).page_of_writes (h.of turn hturn).source hwrites
  rw [hb, Str.ofString_inj.mp ((h.of other hother).title.trans (h.of turn hturn).title.symm)] at hentry
  exact ⟨other, hother, hname, hentry⟩

/-- Sources of different names have nothing to agree on. -/
theorem Updated.agree_of_nodup (h : Updated c title t final turns)
    (hnames : (c.files.map Path.name).Nodup) : AgreeByName turns := by
  intro a ha b hb hname
  have hdistinct := (h.sources.map Path.name).nodup hnames
  rw [List.map_map] at hdistinct
  rw [List.inj_on_of_nodup_map hdistinct ha hb hname]

/-- Where each turn finds its own text in the end, sources of one name came to the same entries. -/
theorem Updated.agree_of_texts (h : Updated c title t final turns)
    (hlegible : ∀ turn ∈ turns, ∀ e ∈ turn.entries, e.Legible) (file : Places → Path)
    (htexts : ∀ turn ∈ turns, final.entry? (file turn.report.places).parts =
      some (.file (Text.encodeUtf8 (fileText turn.entries).toList))) : AgreeByName turns := by
  intro a ha b hb hname
  have hplaces : a.report.places = b.report.places := by
    rw [(h.of a ha).places, (h.of b hb).places, placesOf_eq hname]
  have htext := htexts a ha
  rw [hplaces, htexts b hb] at htext
  exact (Snapshot.fileBytes_injective (hlegible b hb) (hlegible a ha)
    (Files.Entry.file.inj (Option.some.inj htext))).symm

/-- All snapshots are held exactly if outputs go to their directory or sources of one name agree. -/
theorem Updated.held_iff (h : Updated c title t final turns)
    (hlegible : ∀ turn ∈ turns, ∀ e ∈ turn.entries, e.Legible) :
    (∀ turn ∈ turns, turn.Held c final) ↔ c.outDir = c.snapshotDir ∨ AgreeByName turns := by
  constructor
  · intro hheld
    by_cases hdir : c.outDir = c.snapshotDir
    · exact .inl hdir
    · exact .inr (h.agree_of_texts hlegible Places.snapshot fun turn hturn =>
        (hheld turn hturn).resolve_left hdir)
  · rintro (hdir | hagree) turn hturn
    · exact .inl hdir
    · obtain ⟨other, hother, hname, hentry⟩ := h.final_text hturn (.inl rfl)
      rw [hagree other hother turn hturn hname] at hentry
      exact .inr hentry

/-- No file is written over with something else exactly if sources of one name agree. -/
theorem Updated.kept_iff (h : Updated c title t final turns)
    (hlegible : ∀ turn ∈ turns, ∀ e ∈ turn.entries, e.Legible) :
    (∀ turn ∈ turns, turn.Kept final) ↔ AgreeByName turns := by
  constructor
  · intro hkept
    exact h.agree_of_texts hlegible Places.tokens fun turn hturn =>
      (h.written turn hturn).tokens.read_iff.mp (hkept turn hturn).tokens
  · intro hagree turn hturn
    have hentries {other : Turn} (hother : other ∈ turns)
        (hname : other.report.source.name = turn.report.source.name) : other.entries = turn.entries :=
      hagree other hother turn hturn hname
    refine ⟨(h.written turn hturn).tokens.read_iff.mpr ?_, (h.written turn hturn).view.read_iff.mpr ?_,
      (h.written turn hturn).snapshot.read_iff.mpr ?_⟩
    · obtain ⟨other, hother, hname, hentry⟩ := h.final_text hturn (.inr rfl)
      rw [hentry, hentries hother hname]
    · obtain ⟨other, hother, hname, hentry⟩ := h.final_page hturn
      rw [hentry, hentries hother hname]
    · obtain ⟨other, hother, hname, hentry⟩ := h.final_text hturn (.inl rfl)
      rw [hentry, hentries hother hname]

end

/-! ### Runs that update -/

section
variable {σ : Type} {h : Host σ} {s : Setting} {config : String} {c : Config} {tree opened : Tree} {server : σ}
  {w : Work σ}

theorem opened_config (hw : opened? h s .update config tree server = some w)
    (hload : Config.load tree s.machine.cwd (.ofString config) = .ok c) : w.session.config = c := by
  obtain ⟨c', prepared, remarks, hload', -, hprepare, hstart⟩ := opened?_eq_some hw
  cases hload.symm.trans hload'
  have hkeeps := prepared.start_keeps h s.process
  rw [hstart] at hkeeps
  obtain ⟨tokenizer, notes, theme, -, -, -, rfl⟩ := Session.prepare_eq_ok.mp hprepare
  exact hkeeps.config

/-- What an update that succeeds wrote. -/
theorem updated_of_run (hcwd : s.machine.cwd.Proper)
    (hload : Config.load tree s.machine.cwd (.ofString config) = .ok c)
    (hopened : makePlaces tree c .update = .ok opened)
    (hupdate : (run h s .update config tree server).exitCode = 0) :
    ∃ title, Updated c title opened (run h s .update config tree server).tree
      (turnsOf h s .update config tree server) := by
  obtain ⟨w, last, hw, hpass⟩ := run_passes hupdate
  obtain ⟨c', _, _, hload', hplaces, -, -⟩ := opened?_eq_some hw
  cases hload.symm.trans hload'
  cases hopened.symm.trans hplaces
  have hc := Config.load_resolved hcwd (Path.proper_ofString config) hload
  have hconfig := opened_config hw hload
  rw [hconfig] at hpass
  obtain ⟨hwrote, hwritten⟩ := hpass.update hc hconfig hc.files
  exact ⟨_, hpass.of hconfig rfl hc.files, hpass.sources, hwrote, hwritten⟩

end

end Highlighter.Command

import Highlighter.Grammar.Loading
import Highlighter.Protocol.Tokens
import Highlighter.Run.Delivery
import Highlighter.Styling.Overlay
import Highlighter.Theme.Location

/-! The engines of a run: a tokenizer, a theme and the conversation with a language server. They are
made ready once and work through all files. -/

namespace Highlighter.Run

open Highlighter.Files (FileError Path Tree)
open Highlighter.Protocol (Client Conversation Host)
open Highlighter.Snapshot (Entry)
open Highlighter.Styling (Overlay StyledRange)

/-- What can go wrong in a run. -/
inductive Failure where
  | config (f : ConfigFailure)
  | file (e : FileError)
  | grammar (f : LoadFailure)
  | theme (f : ThemeFailure)
  | call (f : Protocol.CallFailure)
  | tokens (f : Protocol.TokensFailure)
  | gap (g : Page.GapFault)
  | path (f : Files.PathFault)
  /-- The search for a file failed before anything was done with it. -/
  | search (e : FileError)
  /-- A text cannot be written in bytes. -/
  | unencodable
  /-- A range cannot be an entry of a snapshot. -/
  | entry (issues : List Validation.Issue)

def Failure.ofDelivery : DeliveryFault → Failure
  | .file e => .file e
  | .unencodable => .unencodable
  | .gap g => .gap g

/-- The text of a failure that is reported to the user; the others end the program. -/
def Failure.report? (detail : String) : Failure → Option String
  | .config (.config e) => some (e.message detail)
  | .file e => some e.message
  | .grammar (.grammar e) => some (e.message detail)
  | .grammar (.file e) => some e.message
  | .theme (.theme e) => some e.message
  | .theme (.file e) => some e.message
  | .call (.client e) => some e.message
  | .config .undecodable | .config .hugeInteger | .config (.path _) | .grammar (.list _)
  | .grammar .groupNumber | .grammar .tooDeep | .grammar (.path _) | .grammar (.rule _)
  | .theme .undecodable | .theme .hugeInteger | .theme (.path _) | .call .endlessWait
  | .tokens _ | .gap _ | .path _ | .search _ | .unencodable | .entry _ => none

/-- What the engines remark on. -/
inductive Remark where
  | tokenizer (n : Tokenizer.Note)
  | client (n : Protocol.Note)

structure Session (σ : Type) where
  config : Config
  tokenizer : Tokenizer
  overlay : Overlay
  talk : Conversation σ
  remarks : List Remark := []

/-- A client with the settings of a configuration. -/
def clientOf (c : Config) : Client where
  command := c.command
  timeout := c.timeout
  tokenTypes := c.tokenTypes
  tokenModifiers := c.tokenModifiers

/-- The theme of a configuration. -/
def themeOf (tree : Tree) (machine : Machine) (c : Config) : Except ThemeFailure Theme := do
  Theme.load tree.disk machine.cwd (← Theme.locate tree machine c.directory none c.theme)

namespace Session

variable {σ : Type}

/-- Makes the tokenizer and the theme ready; the server is not started. What the tokenizer remarks on
is kept in any case. -/
def prepare (tree : Tree) (machine : Machine) (c : Config) (server : σ) :
    Except Failure (Session σ) × List Remark :=
  let (loaded, notes) := Tokenizer.load tree c.grammar c.scopeName c.extraGrammars
  let remarks := notes.map Remark.tokenizer
  match loaded with
  | .error f => (.error (.grammar f), remarks)
  | .ok tokenizer =>
    match themeOf tree machine c with
    | .error f => (.error (.theme f), remarks)
    | .ok theme =>
      (.ok { config := c, tokenizer, overlay := { theme }, talk := ⟨clientOf c, server⟩, remarks },
        remarks)

/-- Goes on with a conversation; what the client remarks on is taken over. -/
def withTalk (s : Session σ) (talk : Conversation σ) : Session σ :=
  { s with
    talk := { talk with client := { talk.client with notes := [] } }
    remarks := s.remarks ++ talk.client.notes.map .client }

/-- Starts the server. -/
def start (h : Host σ) (process : Conversation.ProcessId) (s : Session σ) :
    Except Failure Unit × Session σ :=
  match s.talk.start h process s.config.rootUri with
  | (.ok _, talk) => (.ok (), s.withTalk talk)
  | (.error f, talk) => (.error (.call f), s.withTalk talk)

/-- Ends the conversation with the server. -/
def close (h : Host σ) (s : Session σ) : Session σ := s.withTalk (s.talk.shutdown h)

/-- The text of a source. Bytes that are no text are replaced, and line ends made uniform. -/
def sourceText (tree : Tree) (path : Path) : Except FileError String :=
  (tree.read path).map fun content =>
    String.ofList (Text.unifyLineEnds (Text.decodeUtf8Lossy content))

/-- The tokens of a text. -/
def lexical (s : Session σ) (content : String) :
    Except Failure (List Grammar.Token) × Session σ :=
  let (result, tokenizer, notes) := s.tokenizer.tokenize content
  (result.mapError .grammar, { s with tokenizer, remarks := s.remarks ++ notes.map .tokenizer })

/-- What the server says of a text. -/
def semantic (h : Host σ) (s : Session σ) (path : Path) (content : String) :
    Except Failure (Option Protocol.Tokens) × Session σ :=
  let (result, talk) := s.talk.tokens h path.toUri content s.config.languageId
  (result.mapError .tokens, s.withTalk talk)

/-- Lays the server's tokens over those of the grammar. -/
def styled (s : Session σ) (content : String) (lexical : List Grammar.Token)
    (semantic : Option Protocol.Tokens) : List StyledRange × Session σ :=
  let (ranges, overlay) := s.overlay.document content lexical
    ((semantic.map (·.data)).getD []) s.talk.client.legend (s.talk.client.encoding == "utf-16")
  (ranges, { s with overlay })

/-- A highlighted source: its entries, and whether the server had tokens for it. -/
structure Highlighted where
  entries : List Entry
  hasSemantic : Bool
  deriving Repr

/-- Highlights a text. -/
def highlightText (h : Host σ) (s : Session σ) (path : Path) (content : String) :
    Except Failure Highlighted × Session σ :=
  match s.lexical content with
  | (.error f, s) => (.error f, s)
  | (.ok lexical, s) =>
    match s.semantic h path content with
    | (.error f, s) => (.error f, s)
    | (.ok semantic, s) =>
      let (ranges, s) := s.styled content lexical semantic
      match Snapshot.ofRanges .standard ranges with
      | .error issues => (.error (.entry issues), s)
      | .ok entries => (.ok ⟨entries, semantic.isSome⟩, s)

/-- Highlights a source. -/
def highlight (h : Host σ) (s : Session σ) (tree : Tree) (path : Path) :
    Except Failure Highlighted × Session σ :=
  match sourceText tree path with
  | .error e => (.error (.file e), s)
  | .ok content => s.highlightText h path content

/-- The title of the pages of a run: the name of the theme, or how it is configured. -/
def title (s : Session σ) : Str :=
  if s.overlay.theme.name == "" then s.config.theme else s.overlay.theme.name

/-- What was made of a source. -/
structure FileReport where
  source : Path
  places : Places
  hasSemantic : Bool
  verdict : Option Verdict

/-- Whether the file makes the run fail. -/
def FileReport.isFailure (r : FileReport) : Bool := r.verdict.any (·.isFailure)

/-- Highlights a source and writes its files. -/
def process (h : Host σ) (mode : Mode) (s : Session σ) (tree : Tree) (source : Path) :
    Except Failure FileReport × Session σ × Tree :=
  match s.highlight h tree source with
  | (.error f, s) => (.error f, s, tree)
  | (.ok made, s) =>
    let places := placesOf s.config source
    match deliver tree places s.title made.entries mode with
    | (.error f, tree) => (.error (.ofDelivery f), s, tree)
    | (.ok verdict, tree) => (.ok ⟨source, places, made.hasSemantic, verdict⟩, s, tree)

end Session

end Highlighter.Run

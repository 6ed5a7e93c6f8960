import Highlighter.Toml.Value
import Highlighter.Validation.Number

/-! What a configuration document must hold, checked in full before anything is made of it. -/

namespace Highlighter.Config

open Highlighter.Decimal (Binary64)
open Highlighter.Toml (Value)
open Highlighter.Validation (Checked Checker Issue NumberForm required optional)

abbrev Table := List (String × Value)

/-- The settings for the language server. -/
structure ServerModel where
  command : List String
  rootUri : Option String
  timeout : Binary64
  tokenTypes : List String
  tokenModifiers : List String
  deriving Repr

/-- The settings as they are written. -/
structure Model where
  grammar : String
  scopeName : String
  theme : String
  files : List String
  server : ServerModel
  extraGrammars : List (String × String)
  outDir : Option String
  snapshotDir : Option String
  languageId : Option String
  deriving Repr

def numberForm : Value → NumberForm
  | .bool b => .bool b
  | .int n => .int n
  | .float x => .float x
  | .string s => .text s
  | _ => .other

section
variable (checker : Checker)

def checkText (place : List String) (v : Value) : Checked String :=
  checker.text place v.string?

def checkTexts (place : List String) (v : Value) : Checked (List String) :=
  checker.texts place (v.array?.map fun items => items.map (·.string?))

/-- A list of texts with at least one. -/
def checkCommand (place : List String) (v : Value) : Checked (List String) :=
  match checkTexts checker place v with
  | .ok [] => .fault place .tooShort
  | checked => checked

def checkTimeout (place : List String) (v : Value) : Checked Binary64 :=
  match checker.float place (numberForm v) with
  | .ok x => if x.isPositive || x == .nan then .ok x else .fault place .greaterThan
  | checked => checked

def checkTextTable (place : List String) (v : Value) : Checked (List (String × String)) :=
  match v.table? with
  | none => .fault place .dictType
  | some members =>
    Checked.elements (fun _ m => (fun s => (m.1, s)) <$> checkText checker (place ++ [m.1]) m.2) 0 members

/-- The keys that have no meaning are faults. -/
def refuseOthers (place known : List String) (table : Table) : Checked Unit :=
  match (table.filter fun m => !known.contains m.1).map fun m =>
      (⟨place ++ [m.1], .extraForbidden⟩ : Issue) with
  | [] => .ok ()
  | issues => .error issues

def ServerModel.check (place : List String) (v : Value) : Checked ServerModel :=
  match v.table? with
  | none => .fault place .modelType
  | some table =>
    let sub (name : String) : List String := place ++ [name]
    let texts (name : String) : Checked (List String) :=
      optional [] (checkTexts checker (sub name)) (table.lookup name)
    let known := ["command", "root_uri", "timeout_seconds", "token_types", "token_modifiers"]
    (fun m _ => m) <$>
      (ServerModel.mk <$> required (sub "command") (checkCommand checker (sub "command"))
          (table.lookup "command") <*>
        optional none (fun v => some <$> checkText checker (sub "root_uri") v)
          (table.lookup "root_uri") <*>
        optional (.ofInt 30) (checkTimeout checker (sub "timeout_seconds"))
          (table.lookup "timeout_seconds") <*>
        texts "token_types" <*> texts "token_modifiers") <*>
      refuseOthers place known table

def Model.check (table : Table) : Checked Model :=
  let text (name : String) : Checked String :=
    required [name] (checkText checker [name]) (table.lookup name)
  let maybe (name : String) : Checked (Option String) :=
    optional none (fun v => some <$> checkText checker [name] v) (table.lookup name)
  let known := ["grammar", "scope_name", "theme", "files", "lsp", "extra_grammars", "out_dir",
    "snapshot_dir", "language_id"]
  (fun m _ => m) <$>
    (Model.mk <$> text "grammar" <*> text "scope_name" <*> text "theme" <*>
      required ["files"] (checkTexts checker ["files"]) (table.lookup "files") <*>
      required ["lsp"] (ServerModel.check checker ["lsp"]) (table.lookup "lsp") <*>
      optional [] (checkTextTable checker ["extra_grammars"]) (table.lookup "extra_grammars") <*>
      maybe "out_dir" <*> maybe "snapshot_dir" <*> maybe "language_id") <*>
    refuseOthers [] known table

end

end Highlighter.Config

import Highlighter.Run.Delivery

/-! The words of a command line and what they ask for. -/

namespace Highlighter.Command

open Highlighter.Run (Mode)

/-- What a command line asks for. -/
inductive Request where
  | run (config : String) (mode : Mode)
  | diff (snapshot generated : String) (page : Option String)
  | help
  deriving DecidableEq, Repr

/-- Words sorted into options and others. After two dashes alone no word is an option, and a dash alone
never is. -/
structure Words where
  options : List String := []
  operands : List String := []
  deriving DecidableEq, Repr

def isOption (word : String) : Bool :=
  match word.toList with
  | '-' :: _ :: _ => true
  | _ => false

def sortWords : List String → Words
  | [] => {}
  | "--" :: rest => { operands := rest }
  | word :: rest =>
    let sorted := sortWords rest
    if isOption word then { sorted with options := word :: sorted.options }
    else { sorted with operands := word :: sorted.operands }

/-- The mode that the options of a run ask for. Verifying and updating exclude each other. -/
def modeOf (options : List String) : Option Mode :=
  match options.contains "--verify", options.contains "--update" with
  | true, true => none
  | true, false => some .verify
  | false, true => some .update
  | false, false => some .plain

def runRequest (words : Words) : Option Request := do
  guard (words.options.all fun o => o == "--verify" || o == "--update" || o == "--help")
  if words.options.contains "--help" then return .help
  match words.operands with
  | [config] => return .run config (← modeOf words.options)
  | _ => none

def diffRequest (words : Words) : Option Request := do
  guard (words.options.all (· == "--help"))
  if !words.options.isEmpty then return .help
  match words.operands with
  | [snapshot, generated] => return .diff snapshot generated none
  | [snapshot, generated, page] => return .diff snapshot generated (some page)
  | _ => none

/-- The request of a command, named by its first word. -/
def commandRequest : List String → Option Request
  | "run" :: rest => runRequest (sortWords rest)
  | "diff" :: rest => diffRequest (sortWords rest)
  | _ => none

/-- Whether a word asks for more to be told: the long option, or the short one any number of times. -/
def isVerbose (word : String) : Bool :=
  word == "--verbose" ||
    match word.toList with
    | '-' :: 'v' :: rest => rest.all (· == 'v')
    | _ => false

/-- A command line: whether more is to be told, and the request. -/
structure Invocation where
  verbose : Bool
  request : Request
  deriving DecidableEq, Repr

/-- Reads a command line; `none` where it is not well formed. Options in front of the command are those
of all commands. -/
def read (verbose : Bool) : List String → Option Invocation
  | "--" :: rest => (commandRequest rest).map (Invocation.mk verbose)
  | word :: rest =>
    if isVerbose word then read true rest
    else if isOption word then none
    else (commandRequest (word :: rest)).map (Invocation.mk verbose)
  | [] => none

end Highlighter.Command

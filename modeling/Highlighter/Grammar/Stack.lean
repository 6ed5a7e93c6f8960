import Highlighter.Grammar.Compiler

/-! The stack of open rules that is carried from line to line. -/

namespace Highlighter.Grammar

open Highlighter.Pattern (Regex)

/-- An open rule: the scope of what it contains and the pattern that closes or continues it. -/
structure Frame where
  scope : Scope
  rule : Compiled
  ending : Option Regex
  deriving Inhabited

/-- A stack is never empty. `whiles` lists, from the bottom up, the open rules that a line must
continue, each with the number of frames up to and including its own. -/
structure Stack where
  top : Frame
  below : List Frame := []
  whiles : List (Compiled × Nat) := []
  deriving Inhabited

namespace Stack

def frames (s : Stack) : List Frame := s.top :: s.below

def height (s : Stack) : Nat := s.below.length + 1

def push (s : Stack) (f : Frame) : Stack := { s with top := f, below := s.frames }

def pushWhile (s : Stack) (f : Frame) : Stack :=
  let s := s.push f
  { s with whiles := s.whiles ++ [(f.rule, s.height)] }

/-- Takes the top frame off; the last one stays. -/
def pop (s : Stack) : Stack :=
  match s.below with
  | [] => s
  | f :: rest => { s with top := f, below := rest }

/-- The lowest frames, so many of them, at least one. -/
def lowest (s : Stack) (n : Nat) : Stack :=
  match s.frames.drop (s.height - n) with
  | [] => s
  | f :: rest => { s with top := f, below := rest }

end Stack

/-- Frames are the same if they have one scope, one rule and one ending. -/
def Frame.same (f g : Frame) : Bool :=
  f.scope == g.scope && f.rule.origin == g.rule.origin &&
    f.ending.map (·.source) == g.ending.map (·.source)

def Stack.same (s t : Stack) : Bool :=
  s.height == t.height && (s.frames.zip t.frames).all (fun (f, g) => f.same g) &&
    s.whiles.map (fun w => (w.1.origin, w.2)) == t.whiles.map (fun w => (w.1.origin, w.2))

end Highlighter.Grammar

import Highlighter.Pattern.Search

/-! The engine behind a tokenizer: it reads patterns and searches texts with them. -/

namespace Highlighter.Grammar

open Highlighter.Pattern (Match PatternError Regex Text)

structure Engine where
  read : String → Except PatternError Regex
  /-- The leftmost match from a position on. -/
  search : Regex → Text → Nat → Except PatternError (Option Match)
  /-- The match at a position. -/
  matchAt : Regex → Text → Nat → Except PatternError (Option Match)
  /-- The leftmost match of any of several patterns, with the place of its pattern among them. -/
  searchAny : List Regex → Text → Nat → Except PatternError (Option (Nat × Match))

/-- The engine of the pattern dialect. -/
def Engine.standard : Engine where
  read := Pattern.compile
  search := Regex.search
  matchAt r text position := r.matchAt text position position
  searchAny := Pattern.searchAny

instance : Inhabited Engine := ⟨.standard⟩

end Highlighter.Grammar

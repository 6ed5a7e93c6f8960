import Highlighter.Theme.Basic

/-! Which style of a theme a scope stack or a semantic token type gets. -/

namespace Highlighter

/-- A selector covers a scope that equals it or continues it after a dot. -/
def selectorCovers (selector scope : List CodePoint) : Bool :=
  match selector, scope with
  | [], [] => true
  | [], c :: _ => c == .char '.'
  | s :: selector, c :: scope => s == c && selectorCovers selector scope
  | _ :: _, [] => false

/-- What a theme says about a scope stack: a style, and the place in the stack that decided it. -/
structure ScopeMatch where
  style : Style
  place : Option Nat
  deriving DecidableEq, Repr

namespace Theme

/-- The longer of the best candidate so far and a new one; of two equally long the new one. -/
def better (best : Option (Nat × Style)) (candidate : Nat × Style) : Option (Nat × Style) :=
  match best with
  | none => some candidate
  | some (score, style) => if score ≤ candidate.1 then some candidate else some (score, style)

/-- The styles a scope may take, each with the length of its selector, in the order of the rules. -/
def candidates (rules : List StyleRule) (scope : Str) : List (Nat × Style) :=
  rules.flatMap fun rule =>
    (rule.selectors.filter fun s => selectorCovers s.toList scope.toList).map fun s =>
      (s.length, rule.style)

/-- The style of a scope by its longest selector; of several the one loaded last. -/
def styleOfScope? (rules : List StyleRule) (scope : Str) : Option Style :=
  ((candidates rules scope).foldl better none).map (·.2)

/-- The innermost scope with any style decides; the stack is given from the innermost one. -/
def matchInnermost (rules : List StyleRule) : List Str → Option (Nat × Style)
  | [] => none
  | scope :: outer =>
    match styleOfScope? rules scope with
    | some style => some (outer.length, style)
    | none => matchInnermost rules outer

def matchScopes (rules : List StyleRule) (scopes : List Str) : ScopeMatch :=
  match matchInnermost rules scopes.reverse with
  | some (place, style) => ⟨style, some place⟩
  | none => ⟨{ foreground := some Style.defaultForeground }, none⟩

def matchStack (t : Theme) (scopes : List Str) : ScopeMatch := matchScopes t.rules scopes

/-- The color a scope would have alone. -/
def scopeColor (t : Theme) (scope : Str) : Str := (t.matchStack [scope]).style.shownForeground

def semantic? (t : Theme) (key : Str) : Option Style := t.semantic.lookup key

/-- The keys that are tried for a type with modifiers: the type with each modifier, the type alone,
and each modifier with any type. -/
def semanticKeys (type : Str) (modifiers : List Str) : List Str :=
  modifiers.map (type ++ "." ++ ·) ++ [type] ++ modifiers.map (("*." : Str) ++ ·)

/-- The explicit style of a semantic type with modifiers. -/
def semanticStyle (t : Theme) (type : Str) (modifiers : List Str) : Option Style :=
  (semanticKeys type modifiers).findSome? t.semantic?

end Theme

end Highlighter

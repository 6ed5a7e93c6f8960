import Highlighter.Pattern.Recursion

/-! Parts that end where they are asked for. Only some parts may stand in them, and the number of
characters to step back must be known. -/

namespace Highlighter.Pattern

/-- Whether an anchor may stand in a look-behind. -/
def Anchor.looksBack : Anchor → Bool
  | .textEnd | .lastLineEnd => false
  | _ => true

namespace Node

/-- Whether a part may stand in a look-behind. No part of it may look ahead or move limits for good;
where it is negated, none may capture, and where it is not, none may be a negated look-behind. `group`
answers for the groups that are called. -/
def fitsBehind (group : Nat → Bool) (negated : Bool) : Node → Bool
  | .anchor a => a.looksBack
  | .ahead _ _ => false
  | .behind inner _ _ body => (negated || !inner) && body.fitsBehind group negated
  | .group _ _ body => !negated && body.fitsBehind group negated
  | .enter n recursive => recursive || (!negated && group n)
  | .record (.limitToPlace _ lasting) => !lasting
  | .record .clearLimit => false
  | .loop _ body => body.fitsBehind group negated
  | .scoped _ body => body.fitsBehind group negated
  | .atomic _ body => body.fitsBehind group negated
  | .choose test yes no =>
    test.fitsBehind group negated && yes.fitsBehind group negated && no.fitsBehind group negated
  | .seq first rest => first.fitsBehind group negated && rest.fitsBehind group negated
  | .alt first rest _ => first.fitsBehind group negated && rest.fitsBehind group negated
  | _ => true

/-- Whether a part holds a group that is referred to, or called. -/
def holdsReferred (group : Nat → Bool) (referred : Nat → Bool) : Node → Bool
  | .group n _ body => referred n || body.holdsReferred group referred
  | .enter n recursive => recursive || group n
  | .loop _ body => body.holdsReferred group referred
  | .behind _ _ _ body => body.holdsReferred group referred
  | .scoped _ body => body.holdsReferred group referred
  | .atomic _ body => body.holdsReferred group referred
  | .choose test yes no =>
    test.holdsReferred group referred || yes.holdsReferred group referred ||
      no.holdsReferred group referred
  | .seq first rest => first.holdsReferred group referred || rest.holdsReferred group referred
  | .alt first rest _ => first.holdsReferred group referred || rest.holdsReferred group referred
  | _ => false

/-- Whether a repetition of this part may be cut to its least number. -/
def isShortenable : Node → Bool
  | .text _ _ | .set _ | .word _ _ | .any _ | .backref _ => true
  | _ => false

/-- The least number of rounds of a repetition, if it may be cut, and whether nothing is left. -/
def shortenLoop : Node → Node × Bool
  | .loop r body =>
    if body.isShortenable then (.loop { r with high := some r.low } body, r.low == 0)
    else (.loop r body, false)
  | n => (n, false)

/-- Cuts repetitions at the beginning: what they read beyond their least number need not be there. -/
def shortenHead : Node → Node
  | .seq first rest =>
    match shortenLoop first with
    | (first, true) => .seq first rest.shortenHead
    | (first, false) => .seq first rest
  | n => (shortenLoop n).1

def shorten : Node → Node
  | .alt first rest false => .alt first.shortenHead rest.shorten false
  | n => n.shortenHead

end Node

/-- The greatest number of characters to step back. -/
def furthestBack : Nat := 65535

/-- What a look-behind is asked for: whether it is negated, the extents of its parts, and whether a
part holds a group that is referred to. -/
structure Behind where
  negated : Bool
  extent : Node → Option Extent
  isReferred : Node → Bool

namespace Behind

/-- A look-behind as one. Where nothing needs to be read, it always holds. -/
def single (b : Behind) (body : Node) : Except PatternError Node :=
  match b.extent body with
  | none => .error .lookBehind
  | some e =>
    if furthestBack < e.low || e.high.any (furthestBack < ·) then .error .lookBehind
    else if e.low == 0 && e.sure && !b.isReferred body then
      .ok (if b.negated then .fail else .empty)
    else .ok (.behind b.negated e.low e.high body)

/-- Whether alternatives are looked at one by one: each but the first has a fixed length, and not all
have the same. -/
def isDivided (b : Behind) (first rest : Node) : Bool :=
  !((b.extent (.alt first rest false)).map (·.isFixed)).getD true &&
    rest.ways.all fun way => ((b.extent way).map (·.isFixed)).getD false

/-- A look-behind, or one for each of its alternatives. -/
def assemble (b : Behind) : Node → Except PatternError Node
  | .alt first rest false =>
    match b.single (.alt first rest false) with
    | .error e => .error e
    | .ok whole =>
      match whole with
      | .behind _ _ _ _ =>
        if b.isDivided first rest then do
          let parts := (← b.assemble first) :: (← rest.ways.mapM b.single)
          return if b.negated then .seqOf parts else .altOf parts
        else .ok whole
      | n => .ok n
  | n => b.single n

end Behind

end Highlighter.Pattern

import Schemata.Yaml.Quoted

/-!
Scalars without quotes. Where one ends depends on whether it stands in brackets, and on how far the
lines that it goes on over are indented.
-/

namespace Schemata.Yaml

def isFlowMark (c : Char) : Bool := c = ',' || c = '[' || c = ']' || c = '\x7b' || c = '\x7d'

def beginsPlain (inFlow : Bool) : List Char → Bool
  | [] => false
  | c :: rest =>
    if c = '-' then !endsWord rest
    else if c = '?' || c = ':' then !inFlow && !endsWord rest
    else !(isFlowMark c || isSpace c || isBreak c || "#&*!|>'\"%@\x60".toList.contains c)

/-- A plain scalar that was read: its text, the place behind it and the white space that follows,
and whether a line ended in that white space. -/
structure Plain where
  text : List Char
  after : Cursor
  isBroken : Bool

/-- Reads on with a plain scalar, after its text so far, backwards, and the white space since then.
Outside brackets the lines that it goes on over have to be indented up to the given column. -/
def plainFrom (inFlow : Bool) (indent : Nat) :
    List Char → Gap → Position → List Char → Option Plain
  | text, gap, p, [] => some ⟨text.reverse, ⟨p, []⟩, gap.isBroken⟩
  | text, gap, p, c :: rest =>
    let ended : Plain := ⟨text.reverse, ⟨p, c :: rest⟩, gap.isBroken⟩
    if isSpace c || isBreak c then
      if gap.isBroken && c = '\t' && p.column < indent then none
      else plainFrom inFlow indent text (gap.add c) (p.after c) rest
    else if !gap.isNone && (c = '#' || bounds p (c :: rest) || !inFlow && p.column < indent) then
      some ended
    else if inFlow && c = ':' && rest.head?.any (fun d => d = '?' || isFlowMark d) then none
    else if c = ':' && endsWord rest || inFlow && isFlowMark c then some ended
    else plainFrom inFlow indent (c :: (gap.text ++ text)) .none (p.after c) rest

end Schemata.Yaml

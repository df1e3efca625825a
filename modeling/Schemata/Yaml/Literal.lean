import Schemata.Yaml.Cursor

/-!
Scalars in indented lines, behind a bar or an angle bracket. Behind a bar the lines stay as they
are; behind a bracket a line end between two lines that begin with text becomes a blank. What
becomes of the line ends behind the last line is up to the mark.
-/

namespace Schemata.Yaml

inductive Chomping where
  | strip
  | clip
  | keep
deriving DecidableEq

def chomping? (c : Char) : Option Chomping :=
  if c = '-' then some .strip else if c = '+' then some .keep else none

/-- How a scalar of indented lines is marked: whether its lines are folded, what becomes of its end,
and how much further than its surroundings it is indented, when that is written. -/
structure LiteralMark where
  isFolded : Bool
  chomping : Chomping
  indent? : Option Nat

def indentDigit? (c : Char) : Option Nat :=
  if c.isDigit && c != '0' then some (c.toNat - 48) else none

def literalMark (isFolded : Bool) (k : Cursor) : LiteralMark × Cursor :=
  match k.rest.head?.bind chomping? with
  | some chomping =>
    let k := k.next
    match k.rest.head?.bind indentDigit? with
    | some n => (⟨isFolded, chomping, some n⟩, k.next)
    | none => (⟨isFolded, chomping, none⟩, k)
  | none =>
    match k.rest.head?.bind indentDigit? with
    | some n =>
      let k := k.next
      match k.rest.head?.bind chomping? with
      | some chomping => (⟨isFolded, chomping, some n⟩, k.next)
      | none => (⟨isFolded, .clip, some n⟩, k)
    | none => (⟨isFolded, .clip, none⟩, k)

/-- Lines of nothing but blanks: how far the widest of them and the next line are indented, and the
line ends, backwards. Blanks from the given column on are text; without one none are. A tab in front
of it is a fault. -/
structure EmptyLines where
  width : Nat
  breaks : List Char
  after : Cursor

def emptyLinesFrom (indent? : Option Nat) :
    Nat → List Char → Position → List Char → Option EmptyLines
  | width, breaks, p, [] => some ⟨max width p.column, breaks, ⟨p, []⟩⟩
  | width, breaks, p, c :: rest =>
    let isOutside := indent?.all (p.column < ·)
    if c = ' ' && isOutside then emptyLinesFrom indent? width breaks (p.after c) rest
    else if c = '\t' && isOutside then none
    else if isBreak c then
      emptyLinesFrom indent? (max width p.column) (c :: breaks) (p.after c) rest
    else some ⟨max width p.column, breaks, ⟨p, c :: rest⟩⟩

/-- What was read of the lines: the text, the end of the last line, the line ends of the empty lines
behind it, all of them backwards, and whether the last line begins with a blank. -/
structure LiteralText where
  text : List Char
  lineEnd : List Char
  breaks : List Char
  isBlank : Bool

def LiteralText.joined (isFolded : Bool) (t : LiteralText) (isBlank : Bool) : List Char :=
  if isFolded && t.lineEnd == ['\n'] && !t.isBlank && !isBlank then
    if t.breaks.isEmpty then ' ' :: t.text else t.breaks ++ t.text
  else t.breaks ++ t.lineEnd ++ t.text

def literalLines (isFolded : Bool) (indent : Nat) :
    Nat → LiteralText → Cursor → Option (LiteralText × Cursor)
  | 0, t, k => some (t, k)
  | fuel + 1, t, k =>
    match k.rest with
    | [] => some (t, k)
    | c :: _ =>
      if k.column != indent then some (t, k)
      else
        let (line, k) := k.span fun c => !isBreak c
        let lineEnd := (k.rest.head?).toList
        let k := k.next
        match emptyLinesFrom (some indent) 0 [] k.position k.rest with
        | none => none
        | some blank =>
          let text := line.reverse ++ t.joined isFolded (isSpace c)
          literalLines isFolded indent fuel ⟨text, lineEnd, blank.breaks, isSpace c⟩ blank.after

/-- A scalar of indented lines, behind the mark for its kind. The columns up to `parent` belong to
its surroundings. -/
def literal? (isFolded : Bool) (parent : Nat) (k : Cursor) : Option (List Char × Cursor) := do
  let (mark, k) := literalMark isFolded k
  let k ← k.finishLine?
  let indent? := mark.indent?.map (parent - 1 + ·)
  let blank ← emptyLinesFrom indent? 0 [] k.position k.rest
  let indent := indent?.getD (max (max blank.width parent) 1)
  let k := blank.after
  let (t, k) ← literalLines isFolded indent (k.rest.length + 1) ⟨[], [], blank.breaks, false⟩ k
  let ending := match mark.chomping with
    | .strip => []
    | .clip => t.lineEnd
    | .keep => t.breaks ++ t.lineEnd
  return ((ending ++ t.text).reverse, k)

end Schemata.Yaml

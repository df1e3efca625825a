import Schemata.Text.Blank

/-!
The characters of YAML text and places in it. Lines end alike once a text is prepared, so every
step passes one character. A place knows its column, because the indentation of a line says what it
belongs to.
-/

namespace Schemata.Yaml

def isSpace (c : Char) : Bool := c = ' ' || c = '\t'

def isBreak (c : Char) : Bool := c = '\n' || c = '\u2028' || c = '\u2029'

def isPrintable (c : Char) : Bool :=
  let n := c.toNat
  n == 0x9 || n == 0xA || n == 0xD || (0x20 ≤ n && n ≤ 0x7E) || n == 0x85 ||
    (0xA0 ≤ n && n ≤ 0xFFFD) || 0x10000 ≤ n

def unifyBreaks : List Char → List Char
  | [] => []
  | '\r' :: '\n' :: rest => '\n' :: unifyBreaks rest
  | c :: rest => (if c = '\r' || c = '\u0085' then '\n' else c) :: unifyBreaks rest

def prepare? (s : List Char) : Option (List Char) :=
  if s.all isPrintable then some (unifyBreaks s) else none

structure Position where
  index : Nat
  line : Nat
  column : Nat

def Position.after (p : Position) (c : Char) : Position :=
  if isBreak c then ⟨p.index + 1, p.line + 1, 0⟩ else ⟨p.index + 1, p.line, p.column + 1⟩

structure Cursor where
  position : Position
  rest : List Char

namespace Cursor

def start (s : List Char) : Cursor := ⟨⟨0, 0, 0⟩, s⟩

def column (k : Cursor) : Nat := k.position.column

def next (k : Cursor) : Cursor :=
  match k.rest with
  | [] => k
  | c :: rest => ⟨k.position.after c, rest⟩

def skip : Nat → Cursor → Cursor
  | 0, k => k
  | n + 1, k => skip n k.next

end Cursor

def spanFrom (wanted : Char → Bool) : Position → List Char → List Char × Cursor
  | p, [] => ([], ⟨p, []⟩)
  | p, c :: rest =>
    if wanted c then
      let (front, k) := spanFrom wanted (p.after c) rest
      (c :: front, k)
    else ([], ⟨p, c :: rest⟩)

def Cursor.span (wanted : Char → Bool) (k : Cursor) : List Char × Cursor :=
  spanFrom wanted k.position k.rest

def Cursor.skipWhile (unwanted : Char → Bool) (k : Cursor) : Cursor := (k.span unwanted).2

def endsLine : List Char → Bool
  | [] => true
  | c :: _ => isBreak c

def endsWord : List Char → Bool
  | [] => true
  | c :: _ => isSpace c || isBreak c

def isBoundary : List Char → Bool
  | '-' :: '-' :: '-' :: rest => endsWord rest
  | '.' :: '.' :: '.' :: rest => endsWord rest
  | _ => false

def Cursor.finishLine? (k : Cursor) : Option Cursor :=
  let k := k.skipWhile isSpace
  let k := if k.rest.head? == some '#' then k.skipWhile fun c => !isBreak c else k
  if endsLine k.rest then some k.next else none

end Schemata.Yaml

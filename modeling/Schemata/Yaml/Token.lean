import Schemata.Yaml.Literal
import Schemata.Yaml.Plain
import Schemata.Yaml.Tag

/-!
The tokens of YAML text. Indentation becomes tokens that open and close lists and maps. A scalar may
turn out to be a key only when the colon behind it is read: until then it is pending, and the tokens
that announce a key are put in front of it afterwards.
-/

namespace Schemata.Yaml

inductive Token where
  | directive (d : Directive)
  | documentStart
  | documentEnd
  | blockList
  | blockMap
  | blockEnd
  | openList
  | closeList
  | openMap
  | closeMap
  | item
  | comma
  | key
  | value
  | reference (name : List Char)
  | anchor (name : List Char)
  | tag (t : TagToken)
  | scalar (isPlain : Bool) (text : List Char)

/-- Something that may turn out to be a key: whether it has to, how many tokens are in front of it,
and where it begins. -/
structure PendingKey where
  isRequired : Bool
  place : Nat
  position : Position

def keyLimit : Nat := 1024

def PendingKey.mayStandAt (key : PendingKey) (p : Position) : Bool :=
  p.line ≤ key.position.line && p.index ≤ key.position.index + keyLimit

/-- A text in the course of being split: the tokens so far, the columns of the lists and maps open
by indentation, the innermost first, the pending key at the innermost level and at those around it,
one for each open bracket, and whether a key may begin here. -/
structure Scanner where
  cursor : Cursor
  tokens : Array Token
  columns : List Nat
  pending : Option PendingKey
  outer : List (Option PendingKey)
  keyAllowed : Bool

namespace Scanner

def start (s : List Char) : Scanner := ⟨.start s, #[], [], none, [], true⟩

def inFlow (s : Scanner) : Bool := !s.outer.isEmpty

def indent (s : Scanner) : Nat :=
  match s.columns with
  | [] => 0
  | column :: _ => column + 1

def emit (s : Scanner) (t : Token) : Scanner := { s with tokens := s.tokens.push t }

def take (s : Scanner) (n : Nat) (t : Token) (keyAllowed : Bool) : Scanner :=
  let k := s.cursor.skip n
  { s.emit t with cursor := k, keyAllowed := keyAllowed }

def dropKey (s : Scanner) : Option Scanner :=
  if s.pending.any PendingKey.isRequired then none else some { s with pending := none }

def saveKey (s : Scanner) : Option Scanner :=
  if s.keyAllowed then
    s.dropKey.map fun s =>
      let isRequired := !s.inFlow && s.columns.head? == some s.cursor.column
      { s with pending := some ⟨isRequired, s.tokens.size, s.cursor.position⟩ }
  else some s

def refreshKey (p : Position) : Option PendingKey → Option (Option PendingKey)
  | none => some none
  | some key =>
    if key.mayStandAt p then some (some key) else if key.isRequired then none else some none

def refreshKeys (s : Scanner) : Option Scanner := do
  let pending ← refreshKey s.cursor.position s.pending
  let outer ← s.outer.mapM (refreshKey s.cursor.position)
  return { s with pending := pending, outer := outer }

def closeFrom (column : Nat) : List Nat → Array Token → List Nat × Array Token
  | [], tokens => ([], tokens)
  | c :: rest, tokens =>
    if column ≤ c then closeFrom column rest (tokens.push .blockEnd) else (c :: rest, tokens)

def close (s : Scanner) (column : Nat) : Scanner :=
  if s.inFlow then s
  else
    let (columns, tokens) := closeFrom column s.columns s.tokens
    { s with columns := columns, tokens := tokens }

def openAt (s : Scanner) (column : Nat) (place : Nat) (t : Token) : Scanner :=
  if s.inFlow || column < s.indent then s
  else { s with columns := column :: s.columns, tokens := s.tokens.insertIdxIfInBounds place t }

def openHere (s : Scanner) (t : Token) : Option Scanner :=
  if s.inFlow then some s
  else if s.keyAllowed then some (s.openAt s.cursor.column s.tokens.size t)
  else none

def passFrom (inFlow : Bool) : Bool → Bool → Position → List Char → Bool × Cursor
  | _, keyAllowed, p, [] => (keyAllowed, ⟨p, []⟩)
  | inComment, keyAllowed, p, c :: rest =>
    if isBreak c then passFrom inFlow false (keyAllowed || !inFlow) (p.after c) rest
    else if inComment || c = '#' then passFrom inFlow true keyAllowed (p.after c) rest
    else if c = ' ' || c = '\t' && (inFlow || !keyAllowed) || c = '\ufeff' && p.column == 0 then
      passFrom inFlow false keyAllowed (p.after c) rest
    else (keyAllowed, ⟨p, c :: rest⟩)

def advance (s : Scanner) : Option Scanner :=
  let (keyAllowed, cursor) := passFrom s.inFlow false s.keyAllowed s.cursor.position s.cursor.rest
  let s := { s with keyAllowed := keyAllowed, cursor := cursor }
  s.refreshKeys.map fun s => s.close (s.cursor.column + 1)

def closeAll (s : Scanner) : Option Scanner := (s.close 0).dropKey

def directive (s : Scanner) : Option Scanner := do
  let s ← s.closeAll
  let (d, k) ← directive? s.cursor.next
  return { s.emit (.directive d) with cursor := k, keyAllowed := false }

def openBracket (s : Scanner) (t : Token) : Option Scanner :=
  s.saveKey.map fun s =>
    let outer := s.pending :: s.outer
    { s.take 1 t true with outer := outer, pending := none }

def closeBracket (s : Scanner) (t : Token) : Option Scanner :=
  s.dropKey.map fun s =>
    let s := s.take 1 t false
    match s.outer with
    | [] => s
    | pending :: outer => { s with pending := pending, outer := outer }

def comma (s : Scanner) : Option Scanner := s.dropKey.map fun s => s.take 1 .comma true

def item (s : Scanner) : Option Scanner := do
  let s ← s.openHere .blockList
  let s ← s.dropKey
  return s.take 1 .item true

def key (s : Scanner) : Option Scanner := do
  let s ← s.openHere .blockMap
  let s ← s.dropKey
  return s.take 1 .key !s.inFlow

def value (s : Scanner) : Option Scanner :=
  match s.pending with
  | some key =>
    let s := { s with tokens := s.tokens.insertIdxIfInBounds key.place .key, pending := none }
    let s := s.openAt key.position.column key.place .blockMap
    some (s.take 1 .value false)
  | none => do
    let s ← s.openHere .blockMap
    return s.take 1 .value !s.inFlow

def keyPart (s : Scanner) (read? : Cursor → Option (Token × Cursor)) : Option Scanner := do
  let s ← s.saveKey
  let (t, k) ← read? s.cursor
  return { s.emit t with cursor := k, keyAllowed := false }

def literal (s : Scanner) (isFolded : Bool) : Option Scanner := do
  let s ← s.dropKey
  let (text, k) ← literal? isFolded s.indent s.cursor.next
  return { s.emit (.scalar false text) with cursor := k, keyAllowed := true }

def plain (s : Scanner) : Option Scanner := do
  let s ← s.saveKey
  let p ← plainFrom s.inFlow s.indent [] .none s.cursor.position s.cursor.rest
  return { s.emit (.scalar true p.text) with cursor := p.after, keyAllowed := p.isBroken }

def step (s : Scanner) (c : Char) (rest : List Char) : Option Scanner :=
  let standsAlone := s.inFlow || endsWord rest
  if s.cursor.column == 0 && c = '%' then s.directive
  else if bounds s.cursor.position (c :: rest) then
    s.closeAll.map fun s => s.take 3 (if c = '-' then .documentStart else .documentEnd) false
  else if c = '[' then s.openBracket .openList
  else if c = '\x7b' then s.openBracket .openMap
  else if c = ']' then s.closeBracket .closeList
  else if c = '\x7d' then s.closeBracket .closeMap
  else if c = ',' then s.comma
  else if c = '-' && endsWord rest then s.item
  else if c = '?' && standsAlone then s.key
  else if c = ':' && standsAlone then s.value
  else if c = '*' then
    s.keyPart fun k => (anchorName? k.next).map fun (name, k) => (.reference name, k)
  else if c = '&' then
    s.keyPart fun k => (anchorName? k.next).map fun (name, k) => (.anchor name, k)
  else if c = '!' then s.keyPart fun k => (tag? s.inFlow k).map fun (t, k) => (.tag t, k)
  else if (c = '|' || c = '>') && !s.inFlow then s.literal (c = '>')
  else if c = '\'' || c = '"' then
    s.keyPart fun k => (quoted? k).map fun (text, k) => (.scalar false text, k)
  else if beginsPlain s.inFlow (c :: rest) then s.plain
  else none

/-- Reads all tokens. Every token passes at least one character. -/
def run : Nat → Scanner → Option (List Token)
  | 0, _ => none
  | fuel + 1, s => do
    let s ← s.advance
    match s.cursor.rest with
    | [] => return (← s.closeAll).tokens.toList
    | c :: rest => run fuel (← s.step c rest)

end Scanner

def tokens? (s : List Char) : Option (List Token) := Scanner.run (s.length + 1) (.start s)

end Schemata.Yaml

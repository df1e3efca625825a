import Schemata.Text.Numeral
import Schemata.Yaml.Cursor

/-!
Names of anchors, tags and directives. A tag may have bytes written as escapes; such a group of
bytes is one character, or ill-formed.
-/

namespace Schemata.Yaml

def isNameChar (c : Char) : Bool := c.isAlphanum || c = '_' || c = '-'

def name? (k : Cursor) : Option (List Char × Cursor) :=
  let (text, k) := k.span isNameChar
  if text.isEmpty then none else some (text, k)

def anchorName? (k : Cursor) : Option (List Char × Cursor) := do
  let (text, k) ← name? k
  if endsWord k.rest || k.rest.head?.any (fun c => "?:,]\x7d%@\x60".toList.contains c) then
    return (text, k)
  else failure

abbrev TagText := List (Option Char)

def escapedByte? : List Char → Option Nat
  | '%' :: a :: b :: _ => do return 16 * (← Text.hexValue? a) + (← Text.hexValue? b)
  | _ => none

def leadingByte? (b : Nat) : Option (Nat × Nat) :=
  if b < 0x80 then some (1, b)
  else if 0xC0 ≤ b ∧ b < 0xE0 then some (2, b - 0xC0)
  else if 0xE0 ≤ b ∧ b < 0xF0 then some (3, b - 0xE0)
  else if 0xF0 ≤ b ∧ b < 0xF8 then some (4, b - 0xF0)
  else none

def escapedTail : Nat → Nat → Cursor → Option (Nat × Cursor)
  | 0, value, k => some (value, k)
  | more + 1, value, k => do
    let b ← escapedByte? k.rest
    if 0x80 ≤ b ∧ b < 0xC0 then escapedTail more (0x40 * value + (b - 0x80)) (k.skip 3) else none

def leastOfWidth (width : Nat) : Nat :=
  if width = 1 then 0 else if width = 2 then 0x80 else if width = 3 then 0x800 else 0x10000

def escapedChar? (k : Cursor) : Option (Option Char × Cursor) := do
  let b ← escapedByte? k.rest
  let (width, value) ← leadingByte? b
  let (value, k) ← escapedTail (width - 1) value (k.skip 3)
  let isChar := leastOfWidth width ≤ value && value.isValidChar
  return (if isChar then some (Char.ofNat value) else none, k)

def isTagChar (isWhole : Bool) (c : Char) : Bool :=
  isNameChar c || ";/?:@&=+$.!~*'()".toList.contains c || isWhole && ",[]".toList.contains c

def tagTextFrom (isWhole : Bool) : Nat → Cursor → Option (TagText × Cursor)
  | 0, k => some ([], k)
  | fuel + 1, k =>
    match k.rest with
    | '%' :: _ => do
      let (c, k) ← escapedChar? k
      let (rest, k) ← tagTextFrom isWhole fuel k
      return (c :: rest, k)
    | c :: _ =>
      if isTagChar isWhole c then do
        let (rest, k) ← tagTextFrom isWhole fuel k.next
        return (some c :: rest, k)
      else some ([], k)
    | [] => some ([], k)

def tagText? (isWhole : Bool) (k : Cursor) : Option (TagText × Cursor) :=
  tagTextFrom isWhole k.rest.length k

def someTagText? (isWhole : Bool) (k : Cursor) : Option (TagText × Cursor) := do
  let (text, k) ← tagText? isWhole k
  if text.isEmpty then failure else return (text, k)

/-- A tag as it is written: the handle, which stands for the front of the tag, and the rest. A tag
without a handle is whole. -/
structure TagToken where
  handle? : Option (List Char)
  suffix : TagText

/-- A handle, as far as it goes: an exclamation mark, or a name between two of them, of which the
last may be missing. -/
def handle? (k : Cursor) : Option (List Char × Cursor) :=
  match k.rest with
  | '!' :: _ =>
    let (front, k) := k.next.span isNameChar
    if k.rest.head? == some '!' then some ('!' :: front ++ ['!'], k.next)
    else some ('!' :: front, k)
  | _ => none

def handledTag? (k : Cursor) : Option (TagToken × Cursor) := do
  let (handle, k) ← handle? k
  if handle.length ≠ 1 && handle.getLast? == some '!' then
    let (suffix, k) ← someTagText? false k
    return (⟨some handle, suffix⟩, k)
  else
    let (suffix, k) ← tagText? false k
    let suffix := handle.tail.map some ++ suffix
    return (if suffix.isEmpty then ⟨none, [some '!']⟩ else ⟨some ['!'], suffix⟩, k)

def wholeTag? (k : Cursor) : Option (TagToken × Cursor) := do
  let (suffix, k) ← someTagText? true k
  if k.rest.head? == some '>' then return (⟨none, suffix⟩, k.next) else failure

def tag? (inFlow : Bool) (k : Cursor) : Option (TagToken × Cursor) := do
  let (tag, k) ← match k.rest with
    | '!' :: '<' :: _ => wholeTag? (k.skip 2)
    | _ => handledTag? k
  if endsWord k.rest || inFlow && k.rest.head? == some ',' then return (tag, k) else failure

inductive Directive where
  | version (major minor : Nat)
  | tag (handle : List Char) (front : TagText)

def versionPart? (k : Cursor) : Option (Nat × Cursor) := do
  let (digits, k) := k.span Char.isDigit
  let n ← Text.numeral? digits
  if digits.length ≤ 9 then return (n, k) else failure

def versionDirective? (k : Cursor) : Option (Directive × Cursor) := do
  let (major, k) ← versionPart? (k.skipWhile isSpace)
  if k.rest.head? == some '.' then
    let (minor, k) ← versionPart? k.next
    return (.version major minor, k)
  else failure

def tagDirective? (k : Cursor) : Option (Directive × Cursor) := do
  let (handle, k) ← handle? (k.skipWhile isSpace)
  if handle.getLast? == some '!' && k.rest.head?.any isSpace then
    let (front, k) ← someTagText? true (k.skipWhile isSpace)
    if endsWord k.rest then return (.tag handle front, k) else failure
  else failure

def directive? (k : Cursor) : Option (Directive × Cursor) := do
  let (name, k) ← name? k
  if !endsWord k.rest then failure
  let (directive, k) ←
    if name == "YAML".toList then versionDirective? k
    else if name == "TAG".toList then tagDirective? k
    else failure
  return (directive, ← k.finishLine?)

end Schemata.Yaml

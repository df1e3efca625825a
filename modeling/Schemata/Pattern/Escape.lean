import Schemata.Pattern.Part
import Schemata.Pattern.Property

/-!
What stands behind a backslash: a character by a mark or a number, a class of characters, or a
condition on a place. References back to a group are not part of the notation.
-/

namespace Schemata.Pattern

open Text (CharSet)

inductive Escape where
  | char (c : Char) (isByte : Bool)
  | set (k : CharSet)
  | look (l : Look)

/-! Characters by number. -/

def charOf? (n : Nat) : Option Char := if n.isValidChar then some (Char.ofNat n) else none

def hexNumber? (digits : List Char) : Option Nat :=
  digits.foldl (fun acc c => do return (← acc) * 16 + (← Text.hexValue? c)) (some 0)

def take (flags : Flags) : Nat → Step (List Char)
  | 0, s => some ([], s)
  | n + 1, s =>
    match skip flags s with
    | [] => none
    | c :: rest => (take flags n rest).map fun (text, rest) => (c :: text, rest)

def hexChar (flags : Flags) (width : Nat) : Step Escape := fun s =>
  match skip flags s with
  | '\x7b' :: rest =>
    match upTo flags '\x7d' (rest.length + 1) rest with
    | some (digits, rest) =>
      if digits.isEmpty then none
      else ((hexNumber? digits).bind charOf?).map fun c => (.char c false, rest)
    | none => none
  | s =>
    match take flags width s with
    | some (digits, rest) =>
      ((hexNumber? digits).bind charOf?).map fun c => (.char c (width == 2), rest)
    | none => none

/-! Classes. -/

def propertyClass (flags : Flags) (negated : Bool) : Step Escape := fun s =>
  let found (k? : Option CharSet) (rest : List Char) : Option (Escape × List Char) :=
    if flags.unicode then (k?.bind (flags.finished? negated)).map fun k => (.set k, rest) else none
  match skip flags s with
  | [] => none
  | '\x7b' :: rest =>
    match upTo flags '\x7d' (rest.length + 1) rest with
    | some (name, rest) => found (describedSet? name) rest
    | none => none
  | c :: rest => if c = '\\' then none else found (namedSet? (plainName [c])) rest

def asciiDigits : CharSet := .ofPieces ["30-39"]

def asciiSpaces : CharSet := .ofPieces ["9-D 20"]

def asciiWord : CharSet := .ofPieces ["30-39 41-5A 5F 61-7A"]

/-- Digits, spaces and word characters, ASCII alone where the flags say so. They have all characters
that are alike to one of them. -/
def letterClass? (flags : Flags) (c : Char) : Option CharSet :=
  let digit := if flags.unicode then Text.decimalDigits else asciiDigits
  let space := if flags.unicode then Text.Property.whiteSpace else asciiSpaces
  let word := if flags.unicode then Text.Property.word else asciiWord
  match c with
  | 'd' => some digit
  | 's' => some space
  | 'w' => some word
  | 'D' => flags.outside? digit
  | 'S' => flags.outside? space
  | 'W' => flags.outside? word
  | _ => none

/-! Conditions. -/

def namedEdge? (ascii : Bool) (name : String) : Option Look :=
  match name with
  | "start" => some (.wordStart ascii)
  | "end" => some (.wordEnd ascii)
  | "start-half" => some (.halfWordStart ascii)
  | "end-half" => some (.halfWordEnd ascii)
  | _ => none

def isEdgeLetter (c : Char) : Bool := c.isAlpha || c == '-'

/-- What follows `\b`: the name of an edge in braces. Braces that do not begin with a letter or a
hyphen are left, as they count a repetition. -/
def edge (flags : Flags) : Step Escape := fun s =>
  let plain : Option (Escape × List Char) := some (.look (.wordEdge !flags.unicode), s)
  match s with
  | '\x7b' :: rest =>
    match skip flags rest with
    | c :: _ =>
      if isEdgeLetter c then
        match upTo flags '\x7d' (rest.length + 1) rest with
        | some (name, rest) =>
          (namedEdge? (!flags.unicode) (String.ofList name)).map fun l => (.look l, rest)
        | none => none
      else plain
    | [] => none
  | _ => plain

/-! All of them. -/

def isMark (c : Char) : Bool := c.toNat < 128 && !c.isAlphanum && c != '<' && c != '>'

def letterChar? : Char → Option Char
  | 'a' => some '\x07'
  | 'f' => some '\x0c'
  | 't' => some '\t'
  | 'n' => some '\n'
  | 'r' => some '\r'
  | 'v' => some '\x0b'
  | _ => none

def letterLook? (ascii : Bool) : Char → Option Look
  | 'A' => some .textStart
  | 'z' => some .textEnd
  | 'B' => some (.noWordEdge ascii)
  | '<' => some (.wordStart ascii)
  | '>' => some (.wordEnd ascii)
  | _ => none

def escape (flags : Flags) : Step Escape := fun s =>
  match s with
  | [] => none
  | 'x' :: rest => hexChar flags 2 rest
  | 'u' :: rest => hexChar flags 4 rest
  | 'U' :: rest => hexChar flags 8 rest
  | 'p' :: rest => propertyClass flags false rest
  | 'P' :: rest => propertyClass flags true rest
  | 'b' :: rest => edge flags rest
  | c :: rest =>
    if isMark c then some (.char c false, rest)
    else
      match letterClass? flags c, letterChar? c, letterLook? (!flags.unicode) c with
      | some k, _, _ => some (.set k, rest)
      | _, some c, _ => some (.char c false, rest)
      | _, _, some l => some (.look l, rest)
      | _, _, _ => none

end Schemata.Pattern

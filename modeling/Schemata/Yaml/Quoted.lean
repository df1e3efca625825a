import Schemata.Text.Numeral
import Schemata.Yaml.Gap

/-!
Scalars in quotes. They go on over line ends, but not over a line that bounds a document. Between
single quotes a doubled quote is the only escape; between double quotes a backslash begins one.
-/

namespace Schemata.Yaml

def bounds (p : Position) (s : List Char) : Bool := p.column == 0 && isBoundary s

/-- Reads up to the closing single quote. The text in front, backwards, and the white space since
then come first. -/
def singleQuotedFrom : List Char → Gap → Position → List Char → Option (List Char × Cursor)
  | _, _, _, [] => none
  | text, gap, p, '\'' :: '\'' :: rest =>
    singleQuotedFrom ('\'' :: (gap.text ++ text)) .none ((p.after '\'').after '\'') rest
  | text, gap, p, '\'' :: rest => some ((gap.text ++ text).reverse, ⟨p.after '\'', rest⟩)
  | text, gap, p, c :: rest =>
    if isSpace c || isBreak c then singleQuotedFrom text (gap.add c) (p.after c) rest
    else if bounds p (c :: rest) then none
    else singleQuotedFrom (c :: (gap.text ++ text)) .none (p.after c) rest

def escaped? (c : Char) : Option Char :=
  match c with
  | '0' => some '\x00'
  | 'a' => some '\x07'
  | 'b' => some '\x08'
  | 't' | '\t' => some '\t'
  | 'n' => some '\n'
  | 'v' => some '\x0b'
  | 'f' => some '\x0c'
  | 'r' => some '\r'
  | 'e' => some '\x1b'
  | ' ' => some ' '
  | '"' => some '"'
  | '/' => some '/'
  | '\\' => some '\\'
  | 'N' => some '\u0085'
  | '_' => some '\u00a0'
  | 'L' => some '\u2028'
  | 'P' => some '\u2029'
  | _ => none

def escapeWidth? (c : Char) : Option Nat :=
  if c = 'x' then some 2 else if c = 'u' then some 4 else if c = 'U' then some 8 else none

/-- What the next character between double quotes belongs to: the text, an escape whose backslash
was passed, or an escape by number with so many digits to come, one more than counted here, and the
value of those passed. -/
inductive EscapeState where
  | text
  | letter
  | digits (more : Nat) (value : Nat)

/-- Reads up to the closing double quote. A line end behind a backslash is none, nor are the blanks
at the front of the next line. -/
def doubleQuotedFrom : EscapeState → List Char → Gap → Position → List Char →
    Option (List Char × Cursor)
  | _, _, _, _, [] => none
  | .text, text, gap, p, c :: rest =>
    if isSpace c || isBreak c then doubleQuotedFrom .text text (gap.add c) (p.after c) rest
    else if bounds p (c :: rest) then none
    else if c = '"' then some ((gap.text ++ text).reverse, ⟨p.after c, rest⟩)
    else if c = '\\' then doubleQuotedFrom .letter (gap.text ++ text) .none (p.after c) rest
    else doubleQuotedFrom .text (c :: (gap.text ++ text)) .none (p.after c) rest
  | .letter, text, gap, p, c :: rest =>
    if isBreak c then doubleQuotedFrom .text text (.breaks [] []) (p.after c) rest
    else
      match escapeWidth? c, escaped? c with
      | some width, _ => doubleQuotedFrom (.digits (width - 1) 0) text gap (p.after c) rest
      | none, some e => doubleQuotedFrom .text (e :: text) gap (p.after c) rest
      | none, none => none
  | .digits more value, text, gap, p, c :: rest =>
    match Text.hexValue? c with
    | none => none
    | some d =>
      let value := 16 * value + d
      match more with
      | more + 1 => doubleQuotedFrom (.digits more value) text gap (p.after c) rest
      | 0 =>
        if value.isValidChar then
          doubleQuotedFrom .text (Char.ofNat value :: text) gap (p.after c) rest
        else none

def quoted? (k : Cursor) : Option (List Char × Cursor) :=
  match k.rest with
  | '"' :: rest => doubleQuotedFrom .text [] .none (k.position.after '"') rest
  | '\'' :: rest => singleQuotedFrom [] .none (k.position.after '\'') rest
  | _ => none

end Schemata.Yaml

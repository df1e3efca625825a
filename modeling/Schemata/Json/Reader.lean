import Schemata.Json.Numeral
import Schemata.Json.Quoted
import Schemata.Tree

/-!
Reading JSON text. At most 127 lists and maps may be nested. A sequence that breaks off keeps the
elements in front of the break, so that a record can be judged as far as it was written.
-/

namespace Schemata

namespace Json

def isSpace (c : Char) : Bool := c = ' ' || c = '\n' || c = '\t' || c = '\r'

def skipSpace (s : List Char) : List Char := s.dropWhile isSpace

/-- The elements up to a closing mark, with commas between them: those in front of the first fault,
and what follows the closing mark when there is no fault. -/
def sequence {α : Type} (close : Char) (item : List Char → Option (α × List Char)) :
    Nat → List Char → List α × Option (List Char)
  | 0, _ => ([], none)
  | fuel + 1, s =>
    match item s with
    | none => ([], none)
    | some (x, s) =>
      match skipSpace s with
      | [] => ([x], none)
      | c :: s =>
        if c = ',' then
          let (xs, rest) := sequence close item fuel s
          (x :: xs, rest)
        else if c = close then ([x], some s)
        else ([x], none)

def elements {α : Type} (close : Char) (item : List Char → Option (α × List Char))
    (s : List Char) : List α × Option (List Char) :=
  match skipSpace s with
  | [] => ([], none)
  | c :: rest => if c = close then ([], some rest) else sequence close item (rest.length + 1) s

def entry {α : Type} (value : List Char → Option (α × List Char)) (s : List Char) :
    Option ((String × α) × List Char) :=
  match skipSpace s with
  | '"' :: s =>
    match Quoted.decode s with
    | none => none
    | some (key, s) =>
      match skipSpace s with
      | ':' :: s => (value s).map fun (t, s) => ((String.ofList key, t), s)
      | _ => none
  | _ => none

def value : Nat → List Char → Option (Tree × List Char)
  | depth, s =>
    match skipSpace s with
    | 'n' :: 'u' :: 'l' :: 'l' :: s => some (.null, s)
    | 't' :: 'r' :: 'u' :: 'e' :: s => some (.bool true, s)
    | 'f' :: 'a' :: 'l' :: 's' :: 'e' :: s => some (.bool false, s)
    | '"' :: s => (Quoted.decode s).map fun (text, s) => (.string (String.ofList text), s)
    | '[' :: s =>
      match depth with
      | 0 => none
      | depth + 1 =>
        let (items, rest) := elements ']' (value depth) s
        rest.map fun s => (.list items, s)
    | '\x7b' :: s =>
      match depth with
      | 0 => none
      | depth + 1 =>
        let (entries, rest) := elements '\x7d' (entry (value depth)) s
        rest.map fun s => (.map entries, s)
    | s => (Numeral.decode s).map fun (n, s) => (.number n, s)

def depthLimit : Nat := 127

def isEnd (s : List Char) : Bool := (skipSpace s).isEmpty

def read? (text : String) : Option Tree :=
  match value depthLimit text.toList with
  | some (t, rest) => if isEnd rest then some t else none
  | none => none

/-- A document as far as it is well-formed, seen one level deep: the elements of its list or map
that were read, and whether nothing is wrong after them. -/
inductive Outline where
  | items (items : List Tree) (complete : Bool)
  | entries (entries : List (String × Tree)) (complete : Bool)
  | other

def outline (text : String) : Outline :=
  let nested := value (depthLimit - 1)
  match skipSpace text.toList with
  | '[' :: s =>
    let (items, rest) := elements ']' nested s
    .items items (rest.any isEnd)
  | '\x7b' :: s =>
    let (entries, rest) := elements '\x7d' (entry nested) s
    .entries entries (rest.any isEnd)
  | _ => .other

end Json

def Value.ofJson? (text : String) : Option Value := (Json.read? text).map Tree.toValue

end Schemata

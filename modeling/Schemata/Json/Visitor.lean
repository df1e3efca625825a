import Schemata.Json.Reader

/-!
Reading JSON text without a document between: the reader tells a visitor what it comes upon, and the visitor makes
of it what it will. Values are read in this way.
-/

namespace Schemata

/-- What is made of the parts of a text. Lists and maps come with what was made of their elements, in the order in
which they are written; a map may have several entries of one key. -/
structure Json.Visitor (α : Type) where
  null : α
  bool : Bool → α
  uint : UInt64 → α
  int : Int64 → α
  float : Double → α
  string : String → α
  list : List α → α
  map : List (String × α) → α

namespace Json.Visitor

variable {α : Type}

/-- A number in the form in which it is decoded. Integers beyond a word are decoded as floating-point numbers. -/
def number? (v : Visitor α) : Number → Option α
  | .uint n => some (v.uint n)
  | .int n => some (v.int n)
  | .float x => some (v.float x)
  | .big _ => none

def visit (v : Visitor α) : Nat → List Char → Option (α × List Char)
  | depth, s =>
    match skipSpace s with
    | 'n' :: 'u' :: 'l' :: 'l' :: s => some (v.null, s)
    | 't' :: 'r' :: 'u' :: 'e' :: s => some (v.bool true, s)
    | 'f' :: 'a' :: 'l' :: 's' :: 'e' :: s => some (v.bool false, s)
    | '"' :: s => (Quoted.decode s).map fun (text, s) => (v.string (String.ofList text), s)
    | '[' :: s =>
      match depth with
      | 0 => none
      | depth + 1 =>
        let (items, rest) := elements ']' (visit v depth) s
        rest.map fun s => (v.list items, s)
    | '\x7b' :: s =>
      match depth with
      | 0 => none
      | depth + 1 =>
        let (entries, rest) := elements '\x7d' (entry (visit v depth)) s
        rest.map fun s => (v.map entries, s)
    | s => (Numeral.decode s).bind fun (n, s) => (v.number? n).map (·, s)

def read? (v : Visitor α) (text : String) : Option α :=
  match v.visit depthLimit text.toList with
  | some (a, rest) => if isEnd rest then some a else none
  | none => none

end Json.Visitor

def Value.visitor : Json.Visitor Value where
  null := .null
  bool b := .bool b
  uint n := .number (.uint n)
  int n := .number (.int n)
  float x := .number (.float x)
  string s := .string s
  list items := .array items
  map entries := .object (Keyed.ofEntries entries)

end Schemata

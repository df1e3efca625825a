import Schemata.Json.Visitor

/-!
The generic tree of a JSON text: numbers by their sign, and maps with each key once, sorted. It is built by a
visitor of its own, and a value may be made of it.
-/

namespace Schemata

/-- The numbers of the tree: the integers of a word that are not negative, those that are, and floating-point
numbers, which are finite. -/
inductive Json.Numeric where
  | positive (v : UInt64)
  | negative (v : Int64)
  | float (x : Double)
deriving DecidableEq

namespace Json.Numeric

def ofInt64 (v : Int64) : Numeric :=
  if v.toInt < 0 then negative v else positive (UInt64.ofNat v.toInt.toNat)

def ofDouble? (x : Double) : Option Numeric := if x.isFinite then some (float x) else none

def uint64? : Numeric → Option UInt64
  | positive v => some v
  | _ => none

def int64? : Numeric → Option Int64
  | positive v => if Number.FitsInt64 v.toNat then some (Int64.ofNat v.toNat) else none
  | negative v => some v
  | float _ => none

def double? : Numeric → Option Double
  | positive v => some (.ofInt v.toNat)
  | negative v => some (.ofInt v.toInt)
  | float x => some x

end Json.Numeric

inductive Json.Data where
  | null
  | bool (b : Bool)
  | number (n : Json.Numeric)
  | string (s : String)
  | array (items : List Json.Data)
  | object (entries : List (String × Json.Data))

def Json.Data.visitor : Json.Visitor Json.Data where
  null := .null
  bool b := .bool b
  uint n := .number (.positive n)
  int n := .number (.ofInt64 n)
  float x :=
    match Json.Numeric.ofDouble? x with
    | some n => .number n
    | none => .null
  string s := .string s
  list items := .array items
  map entries := .object (entries.foldl (fun acc entry => Tree.insertSorted entry.1 entry.2 acc) [])

def Number.ofNumeric (n : Json.Numeric) : Number :=
  match n.uint64? with
  | some v => .uint v
  | none =>
    match n.int64? with
    | some v => .int v
    | none => .float (n.double?.getD .nan)

namespace Value

mutual

def ofData : Json.Data → Value
  | .null => .null
  | .bool b => .bool b
  | .number n => .number (.ofNumeric n)
  | .string s => .string s
  | .array items => .array (itemsOfData items)
  | .object entries => .object (Keyed.ofEntries (fieldsOfData entries))

def itemsOfData : List Json.Data → List Value
  | [] => []
  | d :: rest => ofData d :: itemsOfData rest

def fieldsOfData : List (String × Json.Data) → List (String × Value)
  | [] => []
  | (k, d) :: rest => (k, ofData d) :: fieldsOfData rest

end

end Value
end Schemata

import Schemata.Facet.Basic
import Schemata.Validation.Options
import Schemata.Validation.Report

/-!
Checks of strings, numbers and booleans against their facets.
-/

namespace Schemata.Check

def wrongType (l : Location) (expected : String) (v : Value) : Report :=
  .reject l (.invalidType expected v)

def outside (count : Nat) (min max : Option Nat) : Bool :=
  min.any (count < ·) || max.any (· < count)

def wrongCount (l : Location) (subject : RangeSubject) (count : Nat) (min max : Option Nat) :
    Report :=
  .reject l (.outOfRange subject (.ofCount count) (min.map Value.ofCount) (max.map Value.ofCount))

/-! Strings. -/

def textOf? (strict : Bool) : Value → Option String
  | .string s => some s
  | .number n => if strict then none else some n.text
  | .bool b => if strict then none else (Value.bool b).scalarText?
  | .dateTime d => if strict then none else some d.text
  | _ => none

def patternsText (patterns : List Pattern) : String :=
  String.intercalate " or " (patterns.map fun p => "/" ++ p.source ++ "/")

def string (f : StringFacets) (o : ValidationOptions) (l : Location) (v : Value) : Report :=
  match textOf? o.strictTypes v with
  | none => wrongType l "string" v
  | some text =>
    if !f.allowed.isEmpty && !f.allowed.any fun e => e.scalarText? == some text then
      .reject l (.invalidEnumValue v f.allowed)
    else if outside text.length f.minLength f.maxLength then
      wrongCount l .length text.length f.minLength f.maxLength
    else if !f.patterns.isEmpty && !f.patterns.any fun p => p.isMatch text then
      .reject l (.badFormat v (patternsText f.patterns))
    else .accept (if o.coerceTypes then .string text else v)

/-! Numbers. -/

def numberOf? (strict : Bool) : Value → Option Number
  | .number n => some n
  | .string s => if strict then none else Number.ofText? s
  | _ => none

def compareBy (exact : Bool) (a b : Number) : Option Ordering :=
  if exact then a.compare? b else a.toDouble.compare? b.toDouble

def isAllowedNumber (allowed : List Value) (n : Number) : Bool :=
  allowed.any fun
    | .number m => m.equal n
    | .string s => (Number.ofText? s).any fun m => m.equal n
    | _ => false

def coercedNumber (exact : Bool) (n : Number) : Number :=
  if exact then
    match n.toInt? with
    | some i => .big i
    | none => n
  else n

def number (f : NumberFacets) (integer : Bool) (o : ValidationOptions) (l : Location) (v : Value) :
    Report :=
  let minimum := f.minimum.or (f.format.bind NumberFormat.minimum)
  let maximum := f.maximum.or (f.format.bind NumberFormat.maximum)
  let whole := integer || f.format.any NumberFormat.isInteger
  let exact := f.format.any NumberFormat.isBig
  match numberOf? o.strictTypes v with
  | none => wrongType l (if whole then "integer" else "number") v
  | some n =>
    if whole && !n.isInteger then wrongType l "integer" v
    else if !f.allowed.isEmpty && !isAllowedNumber f.allowed n then
      .reject l (.invalidEnumValue v f.allowed)
    else if minimum.any (compareBy exact n · == some .lt) ||
        maximum.any (compareBy exact n · == some .gt) then
      .reject l (.outOfRange .value (.number n) (minimum.map .number) (maximum.map .number))
    else
      match f.multipleOf with
      | some m =>
        if n.isMultipleOf m exact then
          .accept (if o.coerceTypes then .number (coercedNumber exact n) else v)
        else .reject l (.notMultipleOf (.number n) (.number m))
      | none => .accept (if o.coerceTypes then .number (coercedNumber exact n) else v)

/-! Booleans. -/

def boolOf? (strict : Bool) : Value → Option Bool
  | .bool b => some b
  | .number n =>
    if strict then none
    else if n.equal (.int 0) then some false
    else if n.equal (.int 1) then some true
    else none
  | .string s =>
    if strict then none
    else if s = "false" then some false
    else if s = "true" then some true
    else none
  | _ => none

def boolean (o : ValidationOptions) (l : Location) (v : Value) : Report :=
  match boolOf? o.strictTypes v with
  | none => wrongType l "boolean" v
  | some b => .accept (if o.coerceTypes then .bool b else v)

end Schemata.Check

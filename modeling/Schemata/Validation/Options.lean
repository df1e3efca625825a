import Schemata.Record

/-!
What a validation is asked to do, and the reading of it from JSON text.
-/

namespace Schemata

/-- Handling of object keys that are not declared as properties. -/
inductive RemoveAdditional where
  /-- Keep them where additional properties are allowed, report them elsewhere. -/
  | no
  | yes
  | all
deriving DecidableEq

/-- Names of properties and types that are not required. -/
inductive IgnoreRequired where
  | none
  | all
  | names (list : List String)
deriving DecidableEq

namespace IgnoreRequired

def covers : IgnoreRequired → String → Bool
  | none, _ => false
  | all, _ => true
  | names list, name => list.contains name

def insertName (name : String) : List String → List String
  | [] => [name]
  | n :: rest =>
    if name = n then n :: rest
    else if name < n then name :: n :: rest
    else n :: insertName name rest

def ofNames (names : List String) : IgnoreRequired :=
  .names (names.foldl (fun acc n => insertName n acc) [])

end IgnoreRequired

structure ValidationOptions where
  /-- Values must be of the kind itself: no numbers in strings, no `"true"`. -/
  strictTypes : Bool
  /-- Scalars come out in the form of their type. -/
  coerceTypes : Bool
  coerceNativeTypes : Bool
  removeAdditional : RemoveAdditional
  ignoreRequired : IgnoreRequired
  throwOnFirstError : Bool
  maxErrorsPerObject : Nat
  maxErrorsPerArray : Nat
  /-- No look at the calendar: February has 29 days and every other month 31. -/
  fastDateValidation : Bool
deriving DecidableEq

inductive OptionsError where
  | malformed
  | unknownRemoval (found : String)
deriving DecidableEq

def OptionsError.message? : OptionsError → Option String
  | malformed => none
  | unknownRemoval found =>
    some ("removeAdditional must be true, false or \"all\", found \"" ++ found ++ "\"")

namespace ValidationOptions

def standard : ValidationOptions :=
  ⟨false, false, false, .no, .none, false, 1, 1, false⟩

def strict : ValidationOptions := { standard with strictTypes := true }

def coercing : ValidationOptions := { standard with coerceTypes := true }

/-- The options of the pre-check of an object alternative: strict, and without effect on the value.
-/
def precheck (o : ValidationOptions) : ValidationOptions :=
  { standard with
    strictTypes := true
    ignoreRequired := o.ignoreRequired
    throwOnFirstError := true
    fastDateValidation := o.fastDateValidation }

def dropsAdditional (o : ValidationOptions) (allowed : Bool) : Bool :=
  match o.removeAdditional with
  | .no => false
  | .yes => !allowed
  | .all => true

/-- Whether `ignoreRequired` covers the name of a type; only `all` covers a nameless one. -/
def ignoresType (o : ValidationOptions) : Option String → Bool
  | some name => o.ignoreRequired.covers name
  | none => o.ignoreRequired == .all

/-! Reading. -/

def bool? : Tree → Except OptionsError Bool
  | .bool b => .ok b
  | _ => .error .malformed

def count? : Tree → Except OptionsError Nat
  | .number (.uint v) => .ok v.toNat
  | _ => .error .malformed

def removal? : Tree → Except OptionsError RemoveAdditional
  | .bool false => .ok .no
  | .bool true => .ok .yes
  | .string s => if s = "all" then .ok .all else .error (.unknownRemoval s)
  | _ => .error .malformed

def name? : Tree → Option String
  | .string s => some s
  | _ => none

def ignored? : Tree → Except OptionsError IgnoreRequired
  | .bool false => .ok .none
  | .bool true => .ok .all
  | .list items =>
    match items.mapM name? with
    | some names => .ok (.ofNames names)
    | none => .error .malformed
  | _ => .error .malformed

def fields : List (RecordField OptionsError ValidationOptions Tree) := [
  ⟨"strictTypes", fun o t => return { o with strictTypes := ← bool? t }⟩,
  ⟨"coerceTypes", fun o t => return { o with coerceTypes := ← bool? t }⟩,
  ⟨"coerceNativeTypes", fun o t => return { o with coerceNativeTypes := ← bool? t }⟩,
  ⟨"removeAdditional", fun o t => return { o with removeAdditional := ← removal? t }⟩,
  ⟨"ignoreRequired", fun o t => return { o with ignoreRequired := ← ignored? t }⟩,
  ⟨"throwOnFirstError", fun o t => return { o with throwOnFirstError := ← bool? t }⟩,
  ⟨"maxErrorsPerObject", fun o t => return { o with maxErrorsPerObject := ← count? t }⟩,
  ⟨"maxErrorsPerArray", fun o t => return { o with maxErrorsPerArray := ← count? t }⟩,
  ⟨"fastDateValidation", fun o t => return { o with fastDateValidation := ← bool? t }⟩]

def ofText? (text : String) : Except OptionsError ValidationOptions :=
  RecordField.ofOutline .malformed fields standard id (Json.outline text)

end ValidationOptions
end Schemata

import Schemata.Json.Writer
import Schemata.Validation.Location

/-!
Problems found in a value: what is wrong, and where. Every problem has a message and a JSON text
tagged with its type.
-/

namespace Schemata

inductive RangeSubject where
  | value
  | length
  | items
  | properties
deriving DecidableEq

namespace RangeSubject

def title : RangeSubject → String
  | value => "Value"
  | length => "Length"
  | items => "Item count"
  | properties => "Property count"

def tag : RangeSubject → String
  | value => "value"
  | length => "length"
  | items => "items"
  | properties => "properties"

end RangeSubject

inductive Fault where
  | valueRequired
  | invalidType (expected : String) (actual : Value)
  | outOfRange (subject : RangeSubject) (actual : Value) (min max : Option Value)
  | notMultipleOf (actual multipleOf : Value)
  | invalidEnumValue (actual : Value) (allowed : List Value)
  | badFormat (actual : Value) (format : String)
  | duplicateItem (actual : Value)
  | additionalProperty (property : String)
  | discriminatorMismatch (discriminator expected : String) (actual : Value)
  | noUnionMember (actual : Value)

structure ValidationError where
  location : Location
  fault : Fault

namespace Fault

def tag : Fault → String
  | valueRequired => "valueRequired"
  | invalidType .. => "invalidType"
  | outOfRange .. => "rangeError"
  | notMultipleOf .. => "notMultipleOf"
  | invalidEnumValue .. => "invalidEnumValue"
  | badFormat .. => "formatError"
  | duplicateItem _ => "duplicateItem"
  | additionalProperty _ => "noAdditionalPropertiesAllowed"
  | discriminatorMismatch .. => "discriminatorMismatch"
  | noUnionMember _ => "noUnionMemberMatched"

def rangeText : Option Value → Option Value → String
  | some min, some max => "between " ++ min.jsonText ++ " and " ++ max.jsonText
  | some min, none => "at least " ++ min.jsonText
  | none, some max => "at most " ++ max.jsonText
  | none, none => "unbounded"

def message (path : String) : Fault → String
  | valueRequired => "Value required at '" ++ path ++ "'"
  | invalidType expected actual =>
    "Type mismatch at '" ++ path ++ "': expected " ++ expected ++ ", got " ++ actual.kind
  | outOfRange subject actual min max =>
    subject.title ++ " " ++ actual.jsonText ++ " at '" ++ path ++ "' is out of range: must be " ++
      rangeText min max
  | notMultipleOf actual multipleOf =>
    "Value " ++ actual.jsonText ++ " at '" ++ path ++ "' is not a multiple of " ++
      multipleOf.jsonText
  | invalidEnumValue actual allowed =>
    "Value " ++ actual.jsonText ++ " at '" ++ path ++ "' is not one of [" ++
      String.intercalate ", " (allowed.map Value.jsonText) ++ "]"
  | badFormat actual format =>
    "Value " ++ actual.jsonText ++ " at '" ++ path ++ "' does not match " ++ format
  | duplicateItem actual => "Duplicate item " ++ actual.jsonText ++ " at '" ++ path ++ "'"
  | additionalProperty property =>
    "Additional property '" ++ property ++ "' is not allowed at '" ++ path ++ "'"
  | discriminatorMismatch discriminator expected actual =>
    "Discriminator '" ++ discriminator ++ "' at '" ++ path ++ "' must be \"" ++ expected ++
      "\", got " ++ actual.jsonText
  | noUnionMember _ => "Value at '" ++ path ++ "' does not match any member of the union"

def fields : Fault → List (String × Value)
  | valueRequired => []
  | invalidType expected actual => [("expected", .string expected), ("actual", actual)]
  | outOfRange subject actual min max =>
    [("subject", .string subject.tag), ("actual", actual), ("min", min.getD .null),
      ("max", max.getD .null)]
  | notMultipleOf actual multipleOf => [("actual", actual), ("multipleOf", multipleOf)]
  | invalidEnumValue actual allowed => [("actual", actual), ("allowed", .array allowed)]
  | badFormat actual format => [("actual", actual), ("format", .string format)]
  | duplicateItem actual => [("actual", actual)]
  | additionalProperty property => [("property", .string property)]
  | discriminatorMismatch discriminator expected actual =>
    [("discriminator", .string discriminator), ("expected", .string expected), ("actual", actual)]
  | noUnionMember actual => [("actual", actual)]

end Fault

namespace ValidationError

def path (e : ValidationError) : String := e.location.path

def message (e : ValidationError) : String := e.fault.message e.path

def jsonText (e : ValidationError) : String :=
  (Value.object
    (("errorType", .string e.fault.tag) :: ("path", .string e.path) :: e.fault.fields)).jsonText

end ValidationError
end Schemata

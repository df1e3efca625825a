import Schemata.Base
import Schemata.Declaration.Basic
import Schemata.Format
import Schemata.Pattern.Basic

/-!
Facets: the header that every type has, and the shape that belongs to its family. A shape is over
the form of union members and the form in which properties and items refer to their types.
-/

namespace Schemata

/-- Facets shared by every family. -/
structure Header where
  description : Option String
  required : Option Bool
  default? : Option Value
  annotations : Keyed Value
  /-- Rejects a value before its structure is validated. -/
  typeOf : Option Predicate

namespace Header

def empty : Header := ⟨none, none, none, [], none⟩

def isRequired (h : Header) : Bool := h.required.getD false

def optionalNull (h : Header) : Header := { h with required := some false, default? := some .null }

end Header

structure StringFacets where
  allowed : List Value
  patterns : List Pattern
  minLength : Option Nat
  maxLength : Option Nat

structure NumberFacets where
  allowed : List Value
  format : Option NumberFormat
  minimum : Option Number
  maximum : Option Number
  multipleOf : Option Number

structure DateFacets where
  format : Option DateFormat

structure ArrayFacets (ρ : Type) where
  items : Option ρ
  uniqueItems : Option Bool
  minItems : Option Nat
  maxItems : Option Nat

structure Property (ρ : Type) where
  type : ρ
  inherited : Bool

structure ObjectFacets (ρ : Type) where
  properties : List (String × Property ρ)
  additionalProperties : Option Bool
  discriminator : Option String
  discriminatorValue : Option String
  minProperties : Option Nat
  maxProperties : Option Nat

/-- The facets of a family, over the form `μ` of union members and the form `ρ` of references. -/
inductive Shape (μ ρ : Type) where
  | any
  | string (facets : StringFacets)
  | number (facets : NumberFacets)
  | boolean
  | nil
  | date (facets : DateFacets)
  | array (facets : ArrayFacets ρ)
  | object (facets : ObjectFacets ρ)
  | union (members : List μ)

inductive ShapeKind where
  | any
  | string
  | number
  | boolean
  | nil
  | date
  | array
  | object
  | union
deriving DecidableEq

def ShapeKind.name : ShapeKind → String
  | any => "any"
  | string => "string"
  | number => "number"
  | boolean => "boolean"
  | nil => "nil"
  | date => "date"
  | array => "array"
  | object => "object"
  | union => "union"

namespace Shape

variable {μ ρ : Type}

def kind : Shape μ ρ → ShapeKind
  | any => .any
  | string _ => .string
  | number _ => .number
  | boolean => .boolean
  | nil => .nil
  | date _ => .date
  | array _ => .array
  | object _ => .object
  | union _ => .union

def isObject : Shape μ ρ → Bool
  | object _ => true
  | _ => false

/-- The members of a union; other shapes have none. -/
def members : Shape μ ρ → List μ
  | union members => members
  | _ => []

def emptyString : Shape μ ρ := string ⟨[], [], none, none⟩
def emptyNumber : Shape μ ρ := number ⟨[], none, none, none, none⟩
def emptyDate : Shape μ ρ := date ⟨none⟩
def emptyArray : Shape μ ρ := array ⟨none, none, none, none⟩
def emptyObject : Shape μ ρ := object ⟨[], none, none, none, none, none⟩

end Shape

def BaseType.emptyShape {μ ρ : Type} : BaseType → Shape μ ρ
  | any => .any
  | string => .emptyString
  | number => .emptyNumber
  | integer => .emptyNumber
  | boolean => .boolean
  | nil => .nil
  | date => .emptyDate
  | dateOnly => .emptyDate
  | timeOnly => .emptyDate
  | dateTimeOnly => .emptyDate
  | dateTime => .emptyDate
  | array => .emptyArray
  | object => .emptyObject
  | union => .union []

end Schemata

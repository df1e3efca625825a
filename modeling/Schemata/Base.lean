/-! The base types and their families. The supertypes of a type must be compatible; `any` and a
union without members are compatible with every family. -/

namespace Schemata

inductive Family where
  | any
  | scalar
  | array
  | object
  | union
deriving DecidableEq

namespace Family

def isOpen : Family → Bool
  | any | union => true
  | _ => false

def isCompatible (a b : Family) : Bool := a == b || a.isOpen || b.isOpen

def name : Family → String
  | any => "any"
  | scalar => "scalar"
  | array => "array"
  | object => "object"
  | union => "union"

theorem isCompatible_comm (a b : Family) : a.isCompatible b = b.isCompatible a := by
  cases a <;> cases b <;> rfl

end Family

inductive BaseType where
  | any
  | string
  | number
  | integer
  | boolean
  | nil
  | date
  | dateOnly
  | timeOnly
  | dateTimeOnly
  | dateTime
  | array
  | object
  | union
deriving DecidableEq

namespace BaseType

def all : List BaseType :=
  [any, string, number, integer, boolean, nil, date, dateOnly, timeOnly, dateTimeOnly, dateTime,
    array, object, union]

def name : BaseType → String
  | any => "any"
  | string => "string"
  | number => "number"
  | integer => "integer"
  | boolean => "boolean"
  | nil => "nil"
  | date => "date"
  | dateOnly => "date-only"
  | timeOnly => "time-only"
  | dateTimeOnly => "datetime-only"
  | dateTime => "datetime"
  | array => "array"
  | object => "object"
  | union => "union"

def ofName? (name : String) : Option BaseType := all.find? fun b => b.name == name

def family : BaseType → Family
  | any => .any
  | array => .array
  | object => .object
  | union => .union
  | _ => .scalar

def isDate : BaseType → Bool
  | date | dateOnly | timeOnly | dateTimeOnly | dateTime => true
  | _ => false

def index : BaseType → Nat
  | any => 0
  | string => 1
  | number => 2
  | integer => 3
  | boolean => 4
  | nil => 5
  | date => 6
  | dateOnly => 7
  | timeOnly => 8
  | dateTimeOnly => 9
  | dateTime => 10
  | array => 11
  | object => 12
  | union => 13

theorem mem_all (b : BaseType) : b ∈ all := by cases b <;> decide

theorem ofName?_name (b : BaseType) : ofName? b.name = some b := by cases b <;> decide

end BaseType
end Schemata

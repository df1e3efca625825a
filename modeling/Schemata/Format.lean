import Schemata.Number.Basic

/-!
The formats of numeric and date-time types, and the bounds that a numeric format implies.
-/

namespace Schemata

inductive NumberFormat where
  | int8
  | int16
  | int32
  | int64
  | int
  | long
  | bigint
  | uint8
  | uint16
  | uint32
  | uint64
  | float
  | double
deriving DecidableEq

namespace NumberFormat

def all : List NumberFormat :=
  [int8, int16, int32, int64, int, long, bigint, uint8, uint16, uint32, uint64, float, double]

def name : NumberFormat → String
  | int8 => "int8"
  | int16 => "int16"
  | int32 => "int32"
  | int64 => "int64"
  | int => "int"
  | long => "long"
  | bigint => "bigint"
  | uint8 => "uint8"
  | uint16 => "uint16"
  | uint32 => "uint32"
  | uint64 => "uint64"
  | float => "float"
  | double => "double"

def ofName? (name : String) : Option NumberFormat := all.find? fun f => f.name == name

def isInteger : NumberFormat → Bool
  | float | double => false
  | _ => true

def isBig : NumberFormat → Bool
  | bigint | int64 | uint64 | long => true
  | _ => false

def signed (i : Int) : Number := .int (Int64.ofInt i)

def minimum : NumberFormat → Option Number
  | int8 => some (signed (-128))
  | int16 => some (signed (-32768))
  | int32 => some (signed (-2147483648))
  | int => some (signed (-9007199254740991))
  | uint8 | uint16 | uint32 | uint64 => some (signed 0)
  | float => some (.float Double.greatestSingle.neg)
  | int64 | long | bigint | double => none

/-- The greatest value of a format; that of `int` is the last integer before floating point
begins to skip some. -/
def maximum : NumberFormat → Option Number
  | int8 => some (signed 127)
  | int16 => some (signed 32767)
  | int32 => some (signed 2147483647)
  | int => some (signed 9007199254740991)
  | uint8 => some (signed 255)
  | uint16 => some (signed 65535)
  | uint32 => some (.uint 4294967295)
  | float => some (.float Double.greatestSingle)
  | uint64 | int64 | long | bigint | double => none

end NumberFormat

inductive DateFormat where
  | rfc3339
  | rfc2616
deriving DecidableEq

namespace DateFormat

def name : DateFormat → String
  | rfc3339 => "rfc3339"
  | rfc2616 => "rfc2616"

def ofName? (name : String) : Option DateFormat := [rfc3339, rfc2616].find? fun f => f.name == name

end DateFormat
end Schemata

import Schemata.Calendar.DateTime
import Schemata.Keyed
import Schemata.Number.Basic

/-!
Values: what documents hold, native date-times, and the absence of a value. Objects keep the
order of their keys, but equality does not look at it.
-/

namespace Schemata

inductive Value where
  | null
  | undefined
  | bool (b : Bool)
  | number (n : Number)
  | string (s : String)
  | array (items : List Value)
  | object (fields : List (String × Value))
  | dateTime (d : Calendar.DateTime)
deriving Inhabited

namespace Value

def kind : Value → String
  | null => "null"
  | undefined => "undefined"
  | bool _ => "boolean"
  | number _ => "number"
  | string _ => "string"
  | array _ => "array"
  | object _ => "object"
  | dateTime _ => "datetime"

/-- Null and `undefined` are both missing. -/
def isMissing : Value → Bool
  | null | undefined => true
  | _ => false

def isObject : Value → Bool
  | object _ => true
  | _ => false

def isUndefined : Value → Bool
  | undefined => true
  | _ => false

def asString? : Value → Option String
  | string s => some s
  | _ => none

def asNumber? : Value → Option Number
  | number n => some n
  | _ => none

def asBool? : Value → Option Bool
  | bool b => some b
  | _ => none

def asArray? : Value → Option (List Value)
  | array items => some items
  | _ => none

def asObject? : Value → Option (Keyed Value)
  | object fields => some fields
  | _ => none

def field? (v : Value) (key : String) : Option Value :=
  v.asObject?.bind (Keyed.get? · key)

def field (v : Value) (key : String) : Value := (v.field? key).getD undefined

def item (v : Value) (index : Nat) : Value :=
  (v.asArray?.bind (·[index]?)).getD undefined

def scalarText? : Value → Option String
  | string s => some s
  | number n => some n.text
  | bool b => some (if b then "true" else "false")
  | dateTime d => some d.text
  | _ => none

def ofCount (n : Nat) : Value := number (Number.ofCount n)

mutual

/-- Numbers by value, date-times by instant, objects regardless of key order. -/
def equal : Value → Value → Bool
  | null, null => true
  | undefined, undefined => true
  | bool a, bool b => a == b
  | number a, number b => a.equal b
  | string a, string b => a == b
  | array a, array b => equalItems a b
  | object a, object b => a.length == b.length && equalFields a b
  | dateTime a, dateTime b => a.sameInstant b
  | _, _ => false

def equalItems : List Value → List Value → Bool
  | [], [] => true
  | a :: as, b :: bs => equal a b && equalItems as bs
  | _, _ => false

def equalFields : List (String × Value) → List (String × Value) → Bool
  | [], _ => true
  | (k, a) :: rest, b =>
    (match Keyed.get? b k with
      | some other => equal a other
      | none => false) && equalFields rest b

end

end Value
end Schemata

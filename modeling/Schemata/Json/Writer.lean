import Schemata.Json.Numeral
import Schemata.Json.Quoted
import Schemata.Value

/-!
Values as compact JSON text. What is absent is null, date-times are strings.
-/

namespace Schemata

namespace Json

def commaSeparated : List (List Char) → List Char
  | [] => []
  | [piece] => piece
  | piece :: rest => piece ++ ',' :: commaSeparated rest

def member (key : String) (value : List Char) : List Char :=
  Quoted.encode key.toList ++ ':' :: value

def list (pieces : List (List Char)) : List Char := '[' :: commaSeparated pieces ++ [']']

def record (members : List (List Char)) : List Char := '\x7b' :: commaSeparated members ++ ['\x7d']

end Json

namespace Value

mutual

def json : Value → List Char
  | null | undefined => ['n', 'u', 'l', 'l']
  | bool b => if b then ['t', 'r', 'u', 'e'] else ['f', 'a', 'l', 's', 'e']
  | number n => Json.Numeral.encode n
  | string s => Json.Quoted.encode s.toList
  | array items => Json.list (jsonItems items)
  | object fields => Json.record (jsonFields fields)
  | dateTime d => Json.Quoted.encode d.toChars

def jsonItems : List Value → List (List Char)
  | [] => []
  | v :: rest => json v :: jsonItems rest

def jsonFields : List (String × Value) → List (List Char)
  | [] => []
  | (k, v) :: rest => Json.member k (json v) :: jsonFields rest

end

def jsonText (v : Value) : String := String.ofList v.json

end Value
end Schemata

import Schemata.Value

/-!
What a document says before anything is made of it: scalars, lists, and maps with every entry that
was written, repeated keys included. A value is read off it by letting the last entry of a key win;
sorting the maps first changes only the order of the keys. A map may also have keys other than
texts; then it has no value, but a record may still be made of it.
-/

namespace Schemata

inductive Key where
  | text (s : String)
  | place (n : Nat)
  | other
deriving DecidableEq

def Key.text? : Key → Option String
  | text s => some s
  | _ => none

inductive Tree where
  | null
  | bool (b : Bool)
  | number (n : Number)
  | string (s : String)
  | list (items : List Tree)
  | map (entries : List (String × Tree))
  | keyed (entries : List (Key × Tree))

namespace Tree

def ofEntries (entries : List (Key × Tree)) : Tree :=
  match entries.mapM fun (k, t) => k.text?.map (·, t) with
  | some entries => map entries
  | none => keyed entries

def key : Tree → Key
  | string s => .text s
  | number (.uint n) => .place n.toNat
  | _ => .other

def isNull : Tree → Bool
  | null => true
  | _ => false

mutual

def hasValue : Tree → Bool
  | list items => haveValues items
  | map entries => fieldsHaveValues entries
  | keyed _ => false
  | _ => true

def haveValues : List Tree → Bool
  | [] => true
  | t :: rest => hasValue t && haveValues rest

def fieldsHaveValues : List (String × Tree) → Bool
  | [] => true
  | (_, t) :: rest => hasValue t && fieldsHaveValues rest

end

mutual

def toValue : Tree → Value
  | null => .null
  | bool b => .bool b
  | number n => .number n
  | string s => .string s
  | list items => .array (toValues items)
  | map entries => .object (Keyed.ofEntries (toFields entries))
  | keyed _ => .undefined

def toValues : List Tree → List Value
  | [] => []
  | t :: rest => toValue t :: toValues rest

def toFields : List (String × Tree) → List (String × Value)
  | [] => []
  | (k, t) :: rest => (k, toValue t) :: toFields rest

end

def insertSorted {α : Type _} (key : String) (value : α) : Keyed α → Keyed α
  | [] => [(key, value)]
  | (k, v) :: rest =>
    if key = k then (key, value) :: rest
    else if key < k then (key, value) :: (k, v) :: rest
    else (k, v) :: insertSorted key value rest

mutual

def sortKeys : Tree → Tree
  | null => null
  | bool b => bool b
  | number n => number n
  | string s => string s
  | list items => list (sortItems items)
  | map entries =>
    map ((sortEntries entries).foldl (fun acc entry => insertSorted entry.1 entry.2 acc) [])
  | keyed entries => keyed entries

def sortItems : List Tree → List Tree
  | [] => []
  | t :: rest => sortKeys t :: sortItems rest

def sortEntries : List (String × Tree) → List (String × Tree)
  | [] => []
  | (k, t) :: rest => (k, sortKeys t) :: sortEntries rest

end

end Tree
end Schemata

import Schemata.Text.Numeral

/-!
Places within a value, and the dotted paths that messages show for them.
-/

namespace Schemata

inductive Segment where
  | key (k : String)
  | index (i : Nat)
deriving DecidableEq

/-- The steps from the root, innermost first. -/
abbrev Location := List Segment

namespace Location

def extendPath (path : List Char) : Segment → List Char
  | .key k => if path.isEmpty then k.toList else path ++ '.' :: k.toList
  | .index i => path ++ '[' :: Text.numeral i ++ [']']

def pathChars : Location → List Char
  | [] => []
  | s :: rest => extendPath (pathChars rest) s

def path (l : Location) : String := String.ofList l.pathChars

def atKey (l : Location) (k : String) : Location := .key k :: l

def atIndex (l : Location) (i : Nat) : Location := .index i :: l

end Location
end Schemata

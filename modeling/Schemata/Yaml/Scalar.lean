import Schemata.Tree
import Schemata.Yaml.Tag

/-!
What a scalar stands for. Without quotes and a tag it is null, a truth value or a number when it
looks like one; digits with a zero in front are text. A tag of the common kinds makes it one of that
kind.
-/

namespace Schemata.Yaml

def baseNumber? (base : Nat) (s : List Char) : Option Nat :=
  if s.isEmpty then none
  else s.foldl (fun acc c => do
    let n ← acc
    let d ← Text.hexValue? c
    if d < base then some (n * base + d) else none) (some 0)

def markedNumber? : List Char → Option Nat
  | '0' :: 'x' :: rest => baseNumber? 16 rest
  | '0' :: 'o' :: rest => baseNumber? 8 rest
  | '0' :: 'b' :: rest => baseNumber? 2 rest
  | _ => none

def isPaddedNumeral : List Char → Bool
  | '0' :: c :: rest => (c :: rest).all Char.isDigit
  | _ => false

def FitsWide (i : Int) : Prop := -Int.pow 2 127 ≤ i ∧ i < Int.pow 2 128

instance (i : Int) : Decidable (FitsWide i) := inferInstanceAs (Decidable (_ ∧ _))

def integer? (s : List Char) : Option (Bool × Int) :=
  let (negative, magnitude) := Text.splitSign s
  let found := (markedNumber? magnitude).or
    (if isPaddedNumeral magnitude then none else Text.numeral? magnitude)
  found.bind fun n =>
    let i : Int := if negative then -(n : Int) else n
    if FitsWide i then some (negative, i) else none

def numberOfWide? : Bool × Int → Option Number
  | (negative, i) =>
    if !negative && Number.FitsUInt64 i then some (.uint (UInt64.ofNat i.toNat))
    else if negative && Number.FitsInt64 i then some (.int (Int64.ofInt i))
    else none

def float? (s : List Char) : Option Double :=
  let text := String.ofList s
  let (negative, magnitude) := Text.splitSign s
  let name := String.ofList magnitude
  if name = ".inf" || name = ".Inf" || name = ".INF" then some (.infinity negative)
  else if text = ".nan" || text = ".NaN" || text = ".NAN" then some .nan
  else (DecimalLiteral.ofChars? s).bind fun l =>
    if l.toDouble.isFinite then some l.toDouble else none

def isNull (s : List Char) : Bool := ["~", "null", "Null", "NULL"].contains (String.ofList s)

def bool? (s : List Char) : Option Bool :=
  let text := String.ofList s
  if ["true", "True", "TRUE"].contains text then some true
  else if ["false", "False", "FALSE"].contains text then some false
  else none

def plain? (s : List Char) : Option Tree :=
  if s.isEmpty || isNull s then some .null
  else
    match bool? s with
    | some b => some (.bool b)
    | none =>
      match integer? s with
      | some i => (numberOfWide? i).map Tree.number
      | none =>
        match if isPaddedNumeral (Text.splitSign s).2 then none else float? s with
        | some x => some (.number (.float x))
        | none => some (.string (String.ofList s))

inductive ScalarKind where
  | null
  | bool
  | int
  | float

def ScalarKind.ofTag? (tag : TagText) : Option ScalarKind :=
  let named (s : String) : Bool := tag == s.toList.map some
  if named "tag:yaml.org,2002:null" then some .null
  else if named "tag:yaml.org,2002:bool" then some .bool
  else if named "tag:yaml.org,2002:int" then some .int
  else if named "tag:yaml.org,2002:float" then some .float
  else none

def ScalarKind.read? (s : List Char) : ScalarKind → Option Tree
  | null => if isNull s then some .null else none
  | bool => (bool? s).map .bool
  | int => (integer? s).bind fun i => (numberOfWide? i).map .number
  | float => (float? s).map fun x => .number (.float x)

/-- Whether a tag is one of the document's own, which no scalar, list or map may have. An ill-formed
one is not taken for a tag. -/
def isOwnTag (tag : TagText) : Bool := tag.head? == some (some '!') && tag.all Option.isSome

def scalar? (tag? : Option TagText) (isPlain : Bool) (s : List Char) : Option Tree :=
  let untagged := if isPlain then plain? s else some (.string (String.ofList s))
  match tag? with
  | none => untagged
  | some tag =>
    if isOwnTag tag then none
    else if tag.head? == some (some '!') then untagged
    else
      match ScalarKind.ofTag? tag with
      | some kind => kind.read? s
      | none => some (.string (String.ofList s))

end Schemata.Yaml

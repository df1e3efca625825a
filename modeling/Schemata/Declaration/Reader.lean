import Schemata.Declaration.Basic
import Schemata.Record

/-!
Reading declarations and documents of them. A reference is tried as a name, then as a list of
references, then as a declaration. Every subtree of a document is read once, in each way that a
field around it may ask for.
-/

namespace Schemata

inductive DeclarationError where
  | malformed
  | notANumber (text : String)
  | numberExpected (found : String)
deriving DecidableEq

def DeclarationError.message? : DeclarationError → Option String
  | malformed => none
  | notANumber text => some ("'" ++ text ++ "' is not a number")
  | numberExpected found => some ("expected a number, found " ++ found)

/-- A subtree of a document in the ways that a field may ask for: as it is, as a reference, as a
list of references, and as a map to references. -/
structure Reading where
  tree : Tree
  ref? : Option TypeRef
  refs? : Option (List TypeRef)
  refMap? : Option (Keyed TypeRef)

namespace Reading

def optional {α : Type} (read : Reading → Option α) (r : Reading) :
    Except DeclarationError (Option α) :=
  if r.tree.isNull then .ok none
  else
    match read r with
    | some a => .ok (some a)
    | none => .error .malformed

def string? (r : Reading) : Option String :=
  match r.tree with
  | .string s => some s
  | _ => none

def bool? (r : Reading) : Option Bool :=
  match r.tree with
  | .bool b => some b
  | _ => none

def count? (r : Reading) : Option Nat :=
  match r.tree with
  | .number (.uint v) => some v.toNat
  | .number (.int v) => if 0 ≤ v.toInt then some v.toInt.toNat else none
  | _ => none

def value? (r : Reading) : Option Value :=
  if r.tree.hasValue then some r.tree.toValue else none

def values? (r : Reading) : Option (List Value) :=
  match r.tree with
  | .list items => if Tree.haveValues items then some (Tree.toValues items) else none
  | _ => none

def valueMap? (r : Reading) : Option (Keyed Value) :=
  match r.tree with
  | .map entries =>
    if Tree.fieldsHaveValues entries then some (Keyed.ofEntries (Tree.toFields entries)) else none
  | _ => none

def texts? (r : Reading) : Option (List String) :=
  match r.tree with
  | .string s => some [s]
  | .list items => items.mapM fun
    | .string s => some s
    | _ => none
  | _ => none

def number (r : Reading) : Except DeclarationError (Option Number) :=
  match r.tree with
  | .null => .ok none
  | .number n => .ok (some n)
  | .string s =>
    match Number.ofText? s with
    | some n => .ok (some n)
    | none => .error (.notANumber s)
  | t => .error (.numberExpected t.toValue.kind)

end Reading

namespace Declaration

open Reading

abbrev Field := RecordField DeclarationError Declaration Reading

def fields : List Field := [
  ⟨"name", fun d r => return { d with name := ← optional string? r }⟩,
  ⟨"type", fun d r => return { d with extends? := ← optional Reading.ref? r }⟩,
  ⟨"description", fun d r => return { d with details.description := ← optional string? r }⟩,
  ⟨"required", fun d r => return { d with details.required := ← optional bool? r }⟩,
  ⟨"default", fun d r => return { d with details.default? := ← optional value? r }⟩,
  ⟨"annotations", fun d r =>
    match valueMap? r with
    | some entries => .ok { d with details.annotations := entries }
    | none => .error .malformed⟩,
  ⟨"enum", fun d r => return { d with details.allowed := ← optional values? r }⟩,
  ⟨"pattern", fun d r => return { d with details.patterns := (← optional texts? r).getD [] }⟩,
  ⟨"minLength", fun d r => return { d with details.minLength := ← optional count? r }⟩,
  ⟨"maxLength", fun d r => return { d with details.maxLength := ← optional count? r }⟩,
  ⟨"format", fun d r => return { d with details.format := ← optional string? r }⟩,
  ⟨"minimum", fun d r => return { d with details.minimum := ← number r }⟩,
  ⟨"maximum", fun d r => return { d with details.maximum := ← number r }⟩,
  ⟨"multipleOf", fun d r => return { d with details.multipleOf := ← number r }⟩,
  ⟨"items", fun d r => return { d with items := ← optional Reading.ref? r }⟩,
  ⟨"uniqueItems", fun d r => return { d with details.uniqueItems := ← optional bool? r }⟩,
  ⟨"minItems", fun d r => return { d with details.minItems := ← optional count? r }⟩,
  ⟨"maxItems", fun d r => return { d with details.maxItems := ← optional count? r }⟩,
  ⟨"properties", fun d r => return { d with properties := ← optional refMap? r }⟩,
  ⟨"additionalProperties", fun d r =>
    return { d with details.additionalProperties := ← optional bool? r }⟩,
  ⟨"discriminator", fun d r => return { d with details.discriminator := ← optional string? r }⟩,
  ⟨"discriminatorValue", fun d r =>
    return { d with details.discriminatorValue := ← optional value? r }⟩,
  ⟨"minProperties", fun d r => return { d with details.minProperties := ← optional count? r }⟩,
  ⟨"maxProperties", fun d r => return { d with details.maxProperties := ← optional count? r }⟩,
  ⟨"anyOf", fun d r => return { d with anyOf := ← optional refs? r }⟩]

def ofEntries (entries : List (String × Reading)) : Except DeclarationError Declaration :=
  RecordField.ofEntries .malformed fields [] .blank entries

def fieldName? : Key → Option String
  | .text s => some s
  | .place n => fields[n]?.map RecordField.name
  | .other => none

def ofKeyed (entries : List (Key × Reading)) : Except DeclarationError Declaration :=
  match entries.mapM fun (k, r) => (fieldName? k).map (·, r) with
  | some entries => ofEntries entries
  | none => .error .malformed

def ofItems (items : List Reading) : Except DeclarationError Declaration :=
  RecordField.ofItems .malformed fields .blank items

end Declaration

def success? {ε α : Type} : Except ε α → Option α
  | .ok a => some a
  | .error _ => none

namespace Reading

def ofItems (tree : Tree) (items : List Reading) : Reading :=
  let refs? := items.mapM ref?
  let inline? := (success? (Declaration.ofItems items)).map TypeRef.inline
  ⟨tree, (refs?.map TypeRef.many).or inline?, refs?, none⟩

def ofEntries (tree : Tree) (entries : List (String × Reading)) : Reading :=
  let inline? := (success? (Declaration.ofEntries entries)).map TypeRef.inline
  let refMap? := entries.mapM fun (k, r) => r.ref?.map (k, ·)
  ⟨tree, inline?, none, refMap?.map Keyed.ofEntries⟩

def ofKeyed (tree : Tree) (entries : List (Key × Reading)) : Reading :=
  ⟨tree, (success? (Declaration.ofKeyed entries)).map TypeRef.inline, none, none⟩

end Reading

namespace Tree

mutual

def reading : Tree → Reading
  | string s => ⟨string s, some (.name s), none, none⟩
  | list items => .ofItems (list items) (readings items)
  | map entries => .ofEntries (map entries) (entryReadings entries)
  | keyed entries => .ofKeyed (keyed entries) (keyedReadings entries)
  | t => ⟨t, none, none, none⟩

def readings : List Tree → List Reading
  | [] => []
  | t :: rest => reading t :: readings rest

def entryReadings : List (String × Tree) → List (String × Reading)
  | [] => []
  | (k, t) :: rest => (k, reading t) :: entryReadings rest

def keyedReadings : List (Key × Tree) → List (Key × Reading)
  | [] => []
  | (k, t) :: rest => (k, reading t) :: keyedReadings rest

end

end Tree

namespace Declaration

def ofText? (text : String) : Except DeclarationError Declaration :=
  RecordField.ofOutline .malformed fields .blank Tree.reading (Json.outline text)

def ofTree? : Tree → Except DeclarationError Declaration
  | .map entries => ofEntries (Tree.entryReadings entries)
  | .keyed entries => ofKeyed (Tree.keyedReadings entries)
  | .list items => ofItems (Tree.readings items)
  | _ => .error .malformed

/-- The declarations of a document: a map from names, where a declaration keeps a name of its own,
or a list. -/
def document? : Tree → Option (List Declaration)
  | .map entries =>
    let named? := entries.mapM fun (k, t) => (success? (ofTree? t)).map (k, ·)
    named?.map fun named =>
      (Keyed.ofEntries named).map fun (k, d) => { d with name := some (d.name.getD k) }
  | .list items => items.mapM fun t => success? (ofTree? t)
  | _ => none

end Declaration

def TypeRef.ofText? (text : String) : Option TypeRef :=
  (Json.read? text).bind fun t => t.reading.ref?

end Schemata

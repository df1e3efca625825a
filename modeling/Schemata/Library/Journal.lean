import Schemata.Library.Resolution

/-!
Building with a journal. Each time the building of a name begins, the name goes into the journal
with the names that are being built around it, and it stays there when the building fails. The walk
is undecided where names are nested deeper than it may go.
-/

namespace Schemata

structure Begun where
  outer : List String
  name : String

def Begun.stack (b : Begun) : List String := b.outer ++ [b.name]

abbrev Journal := List Begun

abbrev Journaled := StateT Progress (ExceptT TypeError (StateT Journal Option))

namespace Journaled

variable {α : Type}

def plain (x : Building α) : Journaled α := fun p => ExceptT.mk fun j => some (x p, j)

def undecided : Journaled α := fun _ => ExceptT.mk fun _ => none

def note (b : Begun) : Journaled Unit := fun p => ExceptT.mk fun j => some (.ok ((), p), j ++ [b])

def only (belongs : Bool) (none : α) (links : Journaled α) : Journaled α :=
  if belongs then links else pure none

/-- How names are looked up where a declaration stands, with a journal. -/
structure Scope where
  lookUp : String → Journaled Node
  pending? : String → Option NodeId

namespace Scope

mutual

def resolve (s : Scope) : TypeRef → Journaled Node
  | .name name => s.lookUp name
  | .inline d => do
    let id ← plain Building.fresh
    build s id d
  | .many refs => do
    let supertypes ← resolveEach s refs
    plain do
      let id ← Building.fresh
      Building.compose id none supertypes Header.empty .any

def resolveEach (s : Scope) : List TypeRef → Journaled (List Node)
  | [] => return []
  | r :: rest => do
    let n ← resolve s r
    let others ← resolveEach s rest
    return n :: others

def refer (s : Scope) : TypeRef → Journaled Ref
  | .name name =>
    match s.pending? name with
    | some id => plain (Building.forward id name)
    | none => do
      let n ← s.lookUp name
      return .node n
  | .inline d => do
    let id ← plain Building.fresh
    let n ← build s id d
    return .node n
  | .many refs => do
    let supertypes ← resolveEach s refs
    plain do
      let id ← Building.fresh
      let n ← Building.compose id none supertypes Header.empty .any
      return .node n

def referEach (s : Scope) : List TypeRef → Journaled (List Ref)
  | [] => return []
  | r :: rest => do
    let n ← refer s r
    let others ← referEach s rest
    return n :: others

def supertypes (s : Scope) (type : String) : TypeRef → Journaled (List Node)
  | .many [] => plain (Building.fail (.emptySupertypes type))
  | .many (r :: rest) => do
    let n ← resolve s r
    let others ← resolveEach s rest
    return n :: others
  | .name name => do
    let n ← s.lookUp name
    return [n]
  | .inline d => do
    let id ← plain Building.fresh
    let n ← build s id d
    return [n]

def supertypes? (s : Scope) (type : String) : Option TypeRef → Journaled (Option (List Node))
  | none => return none
  | some r => do
    let nodes ← supertypes s type r
    return some nodes

def items (s : Scope) : TypeRef → Journaled Ref
  | .many refs => do
    let members ← referEach s refs
    let id ← plain Building.fresh
    return .anyOf id members
  | .name name =>
    match s.pending? name with
    | some id => plain (Building.forward id name)
    | none => do
      let n ← s.lookUp name
      return .node n
  | .inline d => do
    let id ← plain Building.fresh
    let n ← build s id d
    return .node n

def items? (s : Scope) : Option TypeRef → Journaled (Option Ref)
  | none => return none
  | some r => do
    let n ← items s r
    return some n

def properties (s : Scope) : List (String × TypeRef) → Journaled (List (String × Property Ref))
  | [] => return []
  | (name, r) :: rest => do
    let n ← refer s r
    let others ← properties s rest
    return (name, ⟨n, false⟩) :: others

def properties? (s : Scope) : Option (List (String × TypeRef)) → Journaled (Keyed (Property Ref))
  | none => return []
  | some list => do
    let found ← properties s list
    return Keyed.ofEntries found

def members? (s : Scope) : Option (List TypeRef) → Journaled (List Node)
  | none => return []
  | some refs => resolveEach s refs

def build (s : Scope) (id : NodeId) : DeclarationOf TypeRef → Journaled Node
  | ⟨name, extends?, items, properties, anyOf, details⟩ => do
    let d : Declaration := ⟨name, extends?, items, properties, anyOf, details⟩
    let named ← supertypes? s d.displayName extends?
    let supertypes := named.getD [Node.ofBase d.inferredBase]
    let target := DeclarationOf.target anyOf supertypes
    match d.foreignFacet? target with
    | some facet =>
      plain (Building.fail (.invalidFacet d.displayName facet (.notApplicable target)))
    | none => do
      let kind := (target.emptyShape : Shape Node Ref).kind
      let item ← only (kind == .array) none (items? s items)
      let found ← only (kind == .object) [] (properties? s properties)
      let members ← only (kind == .union) [] (members? s anyOf)
      plain do
        let links : Links := ⟨pure item, pure found, pure members⟩
        let shape ← DeclarationOf.ownShape d.displayName details target links
        Building.compose id name supertypes details.header shape

end

end Scope

/-- `Batch.lookUp` with a journal; the allowance bounds how deep builds may nest. -/
def lookUp (types : Keyed Node) (batch : Batch) : Nat → List String → String → Journaled Node
  | allowance, stack, name => do
    let progress ← get
    match Keyed.get? progress.built name, Keyed.get? types name with
    | some n, _ => return n
    | none, some n => return n
    | none, none =>
      if stack.contains name then
        plain (Building.fail (.dependencyCycle (Batch.since name stack ++ [name])))
      else
        match Keyed.get? batch name, allowance with
        | none, _ => plain (Building.fail (.unknownType name))
        | some _, 0 => undecided
        | some (id, d), allowance + 1 => do
          note ⟨stack, name⟩
          let stack := stack ++ [name]
          let scope : Scope :=
            ⟨lookUp types batch allowance stack, fun other =>
              if stack.contains other then (Keyed.get? batch other).map Prod.fst else none⟩
          let n ← scope.build id d
          modify fun p => { p with built := Keyed.insert p.built name n }
          return n

def lookUpEach (s : Scope) : List String → Journaled (List Node)
  | [] => return []
  | name :: rest => do
    let n ← s.lookUp name
    let others ← lookUpEach s rest
    return n :: others

def resolveBatch (types : Keyed Node) (batch : Batch) (allowance : Nat) (names : List String)
    (start : Progress) : Option (Except TypeError (List Node × Progress) × Journal) :=
  lookUpEach ⟨lookUp types batch allowance [], fun _ => none⟩ names start []

end Journaled
end Schemata

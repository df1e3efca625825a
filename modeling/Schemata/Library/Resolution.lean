import Schemata.Graph
import Schemata.TypeError

/-!
Building nodes from declarations. A name is built when it is first asked for, so the declarations
of a batch may stand in any order. A property or an item may point forward to a name that is
still being built; a supertype or a member of a union may not.
-/

namespace Schemata

/-- The types built so far, the forward references with the names they wait for, and the next
number. -/
structure Progress where
  next : NodeId
  built : Keyed Node
  forwards : List (NodeId × String)

abbrev Building := StateT Progress (Except TypeError)

/-- The environment of a declaration: look-up of a name, and the number of one that is still being
built. -/
structure Scope where
  lookUp : String → Building Node
  pending? : String → Option NodeId

namespace Building

def fresh : Building NodeId := fun p => .ok (p.next, { p with next := p.next + 1 })

def fail {α : Type} (e : TypeError) : Building α := fun _ => .error e

def forward (id : NodeId) (name : String) : Building Ref := fun p =>
  .ok (.forward id name, { p with forwards := p.forwards ++ [(id, name)] })

def compose (id : NodeId) (name : Option String) (supertypes : List Node) (ownHeader : Header)
    (ownShape : Shape Node Ref) : Building Node :=
  match supertypes with
  | [] => fail (.extendsNothing (name.getD anonymous))
  | first :: rest =>
    match rest.find? fun s => !first.family.isCompatible s.family with
    | some s =>
      fail (.incompatibleExtension (name.getD anonymous) first.family s.displayName s.family)
    | none => pure (Node.extend (some id) name first.base supertypes ownHeader ownShape)

end Building

namespace DeclarationDetails

def header (d : DeclarationDetails) : Header :=
  ⟨d.description, d.required, d.default?, d.annotations, d.typeOf⟩

end DeclarationDetails

namespace DeclarationOf

variable {ρ : Type}

def inferredBase (d : DeclarationOf ρ) : BaseType :=
  if d.properties.isSome then .object
  else if d.anyOf.isSome then .union
  else if d.items.isSome then .array
  else .string

def facets (d : DeclarationOf ρ) (target : BaseType) : List (String × Bool × Bool) :=
  let string := target == .string
  let number := target == .number || target == .integer
  let array := target == .array
  let object := target == .object
  let e := d.details
  [("enum", e.allowed.isSome, string || number),
    ("pattern", !e.patterns.isEmpty, string),
    ("minLength", e.minLength.isSome, string),
    ("maxLength", e.maxLength.isSome, string),
    ("format", e.format.isSome, number || target.isDate),
    ("minimum", e.minimum.isSome, number),
    ("maximum", e.maximum.isSome, number),
    ("multipleOf", e.multipleOf.isSome, number),
    ("items", d.items.isSome, array),
    ("uniqueItems", e.uniqueItems.isSome, array),
    ("minItems", e.minItems.isSome, array),
    ("maxItems", e.maxItems.isSome, array),
    ("properties", d.properties.isSome, object),
    ("additionalProperties", e.additionalProperties.isSome, object),
    ("discriminator", e.discriminator.isSome, object),
    ("discriminatorValue", e.discriminatorValue.isSome, object),
    ("minProperties", e.minProperties.isSome, object),
    ("maxProperties", e.maxProperties.isSome, object),
    ("anyOf", d.anyOf.isSome, target == .union)]

def foreignFacet? (d : DeclarationOf ρ) (target : BaseType) : Option String :=
  ((d.facets target).find? fun (_, present, allowed) => present && !allowed).map Prod.fst

end DeclarationOf

/-! The facets of scalars, which refer to no other type. -/

namespace DeclarationDetails

def patterns? (d : DeclarationDetails) (type : String) : Except TypeError (List Pattern) :=
  d.patterns.mapM fun source =>
    match Pattern.ofSource? source with
    | some p => .ok p
    | none => .error (.invalidFacet type "pattern" .patternSyntax)

def numberFormat? (d : DeclarationDetails) (type : String) :
    Except TypeError (Option NumberFormat) :=
  match d.format with
  | none => .ok none
  | some name =>
    match NumberFormat.ofName? name with
    | some f => .ok (some f)
    | none => .error (.invalidFacet type "format" (.unknownNumberFormat name))

def dateFormat? (d : DeclarationDetails) (type : String) (target : BaseType) :
    Except TypeError (Option DateFormat) :=
  match d.format with
  | none => .ok none
  | some name =>
    if target = .dateTime then
      match DateFormat.ofName? name with
      | some f => .ok (some f)
      | none => .error (.invalidFacet type "format" (.unknownDateFormat name))
    else .error (.invalidFacet type "format" (.takesNoFormat target))

def discriminatorText? (d : DeclarationDetails) (type : String) :
    Except TypeError (Option String) :=
  match d.discriminatorValue with
  | none => .ok none
  | some v =>
    match v.scalarText? with
    | some s => .ok (some s)
    | none => .error (.invalidFacet type "discriminatorValue" .notScalar)

end DeclarationDetails

structure Links where
  items : Building (Option Ref)
  properties : Building (Keyed (Property Ref))
  members : Building (List Node)

namespace DeclarationOf

def ownShape (name : String) (d : DeclarationDetails) (target : BaseType) (links : Links) :
    Building (Shape Node Ref) :=
  match (target.emptyShape : Shape Node Ref).kind with
  | .string => do
    let patterns ← liftM (d.patterns? name)
    return .string ⟨d.allowed.getD [], patterns, d.minLength, d.maxLength⟩
  | .number => do
    let format ← liftM (d.numberFormat? name)
    return .number ⟨d.allowed.getD [], format, d.minimum, d.maximum, d.multipleOf⟩
  | .date => do
    let format ← liftM (d.dateFormat? name target)
    return .date ⟨format⟩
  | .array => do
    let items ← links.items
    return .array ⟨items, d.uniqueItems, d.minItems, d.maxItems⟩
  | .object => do
    let properties ← links.properties
    let discriminatorValue ← liftM (d.discriminatorText? name)
    return .object ⟨properties, d.additionalProperties, d.discriminator, discriminatorValue,
      d.minProperties, d.maxProperties⟩
  | .union => do
    let members ← links.members
    return .union members
  | _ => return target.emptyShape

def target {ρ : Type} (anyOf : Option (List ρ)) (supertypes : List Node) : BaseType :=
  if anyOf.isSome then .union
  else match supertypes with
    | first :: _ => first.representedBase
    | [] => .any

end DeclarationOf

namespace Scope

mutual

def resolve (s : Scope) : TypeRef → Building Node
  | .name name => s.lookUp name
  | .inline d => do
    let id ← Building.fresh
    build s id d
  | .many refs => do
    let supertypes ← resolveEach s refs
    let id ← Building.fresh
    Building.compose id none supertypes Header.empty .any

def resolveEach (s : Scope) : List TypeRef → Building (List Node)
  | [] => return []
  | r :: rest => do
    let n ← resolve s r
    let others ← resolveEach s rest
    return n :: others

def refer (s : Scope) : TypeRef → Building Ref
  | .name name =>
    match s.pending? name with
    | some id => Building.forward id name
    | none => do
      let n ← s.lookUp name
      return .node n
  | .inline d => do
    let id ← Building.fresh
    let n ← build s id d
    return .node n
  | .many refs => do
    let supertypes ← resolveEach s refs
    let id ← Building.fresh
    let n ← Building.compose id none supertypes Header.empty .any
    return .node n

def referEach (s : Scope) : List TypeRef → Building (List Ref)
  | [] => return []
  | r :: rest => do
    let n ← refer s r
    let others ← referEach s rest
    return n :: others

def supertypes (s : Scope) (type : String) : TypeRef → Building (List Node)
  | .many [] => Building.fail (.emptySupertypes type)
  | .many (r :: rest) => do
    let n ← resolve s r
    let others ← resolveEach s rest
    return n :: others
  | .name name => do
    let n ← s.lookUp name
    return [n]
  | .inline d => do
    let id ← Building.fresh
    let n ← build s id d
    return [n]

def supertypes? (s : Scope) (type : String) : Option TypeRef → Building (Option (List Node))
  | none => return none
  | some r => do
    let nodes ← supertypes s type r
    return some nodes

def items (s : Scope) : TypeRef → Building Ref
  | .many refs => do
    let members ← referEach s refs
    let id ← Building.fresh
    return .anyOf id members
  | .name name =>
    match s.pending? name with
    | some id => Building.forward id name
    | none => do
      let n ← s.lookUp name
      return .node n
  | .inline d => do
    let id ← Building.fresh
    let n ← build s id d
    return .node n

def items? (s : Scope) : Option TypeRef → Building (Option Ref)
  | none => return none
  | some r => do
    let n ← items s r
    return some n

def properties (s : Scope) : List (String × TypeRef) → Building (List (String × Property Ref))
  | [] => return []
  | (name, r) :: rest => do
    let n ← refer s r
    let others ← properties s rest
    return (name, ⟨n, false⟩) :: others

def properties? (s : Scope) : Option (List (String × TypeRef)) → Building (Keyed (Property Ref))
  | none => return []
  | some list => do
    let found ← properties s list
    return Keyed.ofEntries found

def members? (s : Scope) : Option (List TypeRef) → Building (List Node)
  | none => return []
  | some refs => resolveEach s refs

def build (s : Scope) (id : NodeId) : DeclarationOf TypeRef → Building Node
  | ⟨name, extends?, items, properties, anyOf, details⟩ => do
    let d : Declaration := ⟨name, extends?, items, properties, anyOf, details⟩
    let named ← supertypes? s d.displayName extends?
    let supertypes := named.getD [Node.ofBase d.inferredBase]
    let target := DeclarationOf.target anyOf supertypes
    match d.foreignFacet? target with
    | some facet => Building.fail (.invalidFacet d.displayName facet (.notApplicable target))
    | none => do
      let links : Links := ⟨items? s items, properties? s properties, members? s anyOf⟩
      let shape ← DeclarationOf.ownShape d.displayName details target links
      Building.compose id name supertypes details.header shape

end

end Scope

/-- The declarations of a batch by name, each with the number that its node will have. -/
abbrev Batch := Keyed (NodeId × Declaration)

namespace Batch

def since (name : String) (stack : List String) : List String := stack.dropWhile (· != name)

/-- The type of a name: built before, in the library, or built now. The stack holds the names being
built, outermost first. -/
def lookUp (types : Keyed Node) (batch : Batch) : Nat → List String → String → Building Node
  | fuel, stack, name => do
    let progress ← get
    match Keyed.get? progress.built name, Keyed.get? types name with
    | some n, _ => return n
    | none, some n => return n
    | none, none =>
      if stack.contains name then Building.fail (.dependencyCycle (since name stack ++ [name]))
      else
        match fuel, Keyed.get? batch name with
        | fuel + 1, some (id, d) => do
          let stack := stack ++ [name]
          let scope : Scope :=
            ⟨lookUp types batch fuel stack, fun other =>
              if stack.contains other then (Keyed.get? batch other).map Prod.fst else none⟩
          let n ← scope.build id d
          modify fun p => { p with built := Keyed.insert p.built name n }
          return n
        | _, _ => Building.fail (.unknownType name)

def scope (types : Keyed Node) (batch : Batch) : Scope :=
  ⟨lookUp types batch batch.length [], fun _ => none⟩

def bindEach (built : Keyed Node) :
    List (NodeId × String) → Except TypeError (List (NodeId × Node))
  | [] => .ok []
  | (id, name) :: rest =>
    match Keyed.get? built name with
    | none => .error (.unknownType name)
    | some n => do
      let others ← bindEach built rest
      return (id, n) :: others

def lookUpEach (s : Scope) : List String → Building (List Node)
  | [] => return []
  | name :: rest => do
    let n ← s.lookUp name
    let others ← lookUpEach s rest
    return n :: others

end Batch
end Schemata

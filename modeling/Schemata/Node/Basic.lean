import Schemata.Facet.Merge

/-!
Types as nodes. A node holds its supertypes and the members of its unions; properties and items
refer to theirs, and may refer forward to a type that was still being built. So following
supertypes and members always ends, while a type may contain values of itself.
-/

namespace Schemata

abbrev NodeId := Nat

mutual

/-- A resolved type with its effective and its own facets. A node specialized from others has no
number. -/
structure Node where
  id : Option NodeId
  name : Option String
  base : BaseType
  supertypes : List Node
  header : Header
  shape : Shape Node Ref
  ownHeader : Header
  ownShape : Shape Node Ref
  builtin : Bool

/-- A property or item type: direct, forward to a numbered node, or the nameless union of several.
-/
inductive Ref where
  | node (n : Node)
  | forward (id : NodeId) (name : String)
  | anyOf (id : NodeId) (members : List Ref)

end

namespace Node

def displayName (n : Node) : String := n.name.getD anonymous

def isRequired (n : Node) : Bool := n.header.isRequired

def same (a b : Node) : Bool := a.id.isSome && a.id == b.id

/-- The family for extension checks; that of the first member for a union. -/
def family (n : Node) : Family :=
  match n with
  | ⟨_, _, _, _, _, .union [], _, _, _⟩ => .union
  | ⟨_, _, _, _, _, .union (m :: _), _, _, _⟩ => m.family
  | ⟨_, _, base, _, _, _, _, _, _⟩ => base.family
termination_by structural n

/-- The base type whose facets an extension may carry; that of the first member for a union. -/
def representedBase (n : Node) : BaseType :=
  match n with
  | ⟨_, _, _, _, _, .union [], _, _, _⟩ => .union
  | ⟨_, _, _, _, _, .union (m :: _), _, _, _⟩ => m.representedBase
  | ⟨_, _, base, _, _, _, _, _, _⟩ => base
termination_by structural n

def property? (n : Node) (name : String) : Option (Property Ref) :=
  match n.shape with
  | .object facets => Keyed.get? facets.properties name
  | _ => none

def ownProperty? (n : Node) (name : String) : Option (Property Ref) :=
  match n.ownShape with
  | .object facets => Keyed.get? facets.properties name
  | _ => none

def items? (n : Node) : Option Ref :=
  match n.shape with
  | .array facets => facets.items
  | _ => none

def members (n : Node) : List Node := n.shape.members

def effective (base : BaseType) (sources : List Node) (ownHeader : Header)
    (ownShape : Shape Node Ref) : Header × Shape Node Ref :=
  let header := sources.foldl (fun h s => h.merge .inherit s.header) Header.empty
  let shape := sources.foldl (fun sh s => sh.merge .inherit s.shape) (base.emptyShape)
  let header := header.merge .refine ownHeader
  let shape := shape.merge .refine ownShape
  (if base = .nil then header.optionalNull else header, shape)

def ofBase (b : BaseType) : Node :=
  let header := if b = .nil then Header.empty.optionalNull else Header.empty
  ⟨some b.index, some b.name, b, [], header, b.emptyShape, header, b.emptyShape, true⟩

def extend (id : Option NodeId) (name : Option String) (base : BaseType) (supertypes : List Node)
    (ownHeader : Header) (ownShape : Shape Node Ref) : Node :=
  let (header, shape) := effective base supertypes ownHeader ownShape
  ⟨id, name, base, supertypes, header, shape, ownHeader, ownShape, false⟩

def anyOf (id : NodeId) (members : List Node) : Node :=
  extend (some id) none .union [ofBase .union] Header.empty (.union members)

/-- The target with the source's effective facets merged in; name, base, supertypes and own facets
are kept. -/
def merge (target source : Node) (mode : MergeMode) : Node :=
  { target with
    id := none
    header := target.header.merge mode source.header
    shape := target.shape.merge mode source.shape
    builtin := false }

end Node
end Schemata

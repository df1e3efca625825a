import Schemata.Proofs.Facet.Gathering
import Schemata.Proofs.Library.Given
import Schemata.Proofs.Node.Tidy

/-! Effective facets of a type with supertypes: gathered from all of them for the header, from those
of the first one's kind for the shape, and from its own. -/

namespace Schemata

theorem DeclarationOf.Describes.declared {k : Known} {d : Declaration} {id : NodeId} {n : Node}
    (describes : d.Describes k id n) : ∀ f ∈ n.ownShape.object?, f.Declared := by
  obtain ⟨-, -, -, properties, -, shaped, made⟩ := describes
  obtain ⟨first, rest, -, -, rfl⟩ := Building.compose_eq_pure made
  rw [ownShape_pure, Building.lift_eq_pure] at shaped
  intro f mem
  change Shape.object? _ = some f at mem
  cases hb : target d.anyOf _ with rw [hb] at shaped
  | object =>
    obtain ⟨text, -, rfl⟩ := exists_of_map_eq_ok shaped
    obtain rfl := Option.some.inj mem
    refine ⟨Keyed.distinct_ofEntries _, fun e he => ?_⟩
    obtain ⟨_, -, points⟩ := exists_of_forall₂_of_mem properties.flip (Keyed.mem_ofEntries he)
    obtain ⟨-⟩ := points
    rfl
  | string | number | integer | date | dateOnly | timeOnly | dateTimeOnly | dateTime =>
    obtain ⟨_, -, rfl⟩ := exists_of_map_eq_ok shaped
    cases mem
  | any | boolean | nil | array | union =>
    obtain rfl := Except.ok.inj shaped
    cases mem

namespace Node

theorem effective_eq_gather (base : BaseType) (sources : List Node) (h : Header) (own : Shape Node Ref) :
    effective base sources h own =
      (if base = .nil then
          (Merge.gather Header.merge Header.empty (sources.map (·.header)) (some h)).optionalNull
        else Merge.gather Header.merge Header.empty (sources.map (·.header)) (some h),
        Merge.gather Shape.merge base.emptyShape (sources.map (·.shape)) (some own)) := by
  unfold effective Merge.gather
  rw [List.foldl_map, List.foldl_map]
  rfl

theorem Built.declared {n : Node} (h : n.Built) : ∀ f ∈ n.ownShape.object?, f.Declared := by
  cases h with
  | ofBase b =>
    intro f mem
    cases b <;> cases mem
    exact ⟨List.nodup_nil, nofun⟩
  | placeholder name => exact nofun
  | anyOf => exact nofun
  | many _ made =>
    obtain ⟨first, rest, -, -, rfl⟩ := Building.compose_eq_pure made
    exact nofun
  | described _ describes => exact describes.declared

theorem gathers_extend (id : Option NodeId) (name : Option String) (base : BaseType)
    (supertypes : List Node) (h : Header) {own : Shape Node Ref}
    (declared : ∀ f ∈ own.object?, f.Declared) :
    (extend id name base supertypes h own).header.Gathers base (supertypes.map (·.header)) h ∧
      (extend id name base supertypes h own).shape.Gathers (supertypes.map (·.shape)) own := by
  have header : (extend id name base supertypes h own).header = _ :=
    congrArg Prod.fst (effective_eq_gather base supertypes h own)
  have shape : (extend id name base supertypes h own).shape = _ :=
    congrArg Prod.snd (effective_eq_gather base supertypes h own)
  rw [header, shape]
  exact ⟨Header.gathers _ _ _, Shape.gathers _ _ _ declared⟩

end Node

namespace Library

variable {g : Graph} {l : Library} {n first : Node} {rest : List Node}

/-- A type with supertypes has the base of the first one; its header is gathered from all of them
and its own, its shape from those of the base's kind: bounds are the widest, single facets its own
or the first inherited. -/
theorem facets_gathered (reached : Reached g l) (gives : l.Gives g n)
    (supertypes : n.supertypes = first :: rest) :
    n.base = first.base ∧ n.shape.kind = (first.base.emptyShape : Shape Node Ref).kind ∧
      n.header.Gathers first.base ((first :: rest).map (·.header)) n.ownHeader ∧
      n.shape.Gathers ((first :: rest).map (·.shape)) n.ownShape := by
  have built := gives.built reached
  obtain ⟨composed, -⟩ := built.composed supertypes
  have base : n.base = first.base := (congrArg Node.base composed).trans rfl
  have gathers :=
    Node.gathers_extend n.id n.name first.base (first :: rest) n.ownHeader built.declared
  rw [← composed] at gathers
  exact ⟨base, base ▸ built.tidy.kind, gathers⟩

def numberFrom (name : String) (bound : Double) : Declaration :=
  { (DeclarationOf.named name).extending (.name "number") with
    details := { DeclarationDetails.blank with minimum := some (.float bound) } }

def numberFromNode (id : NodeId) (name : String) (bound : Double) : Node :=
  .extend (some id) (some name) .number [.ofBase .number] Header.empty
    (.number ⟨[], none, some (.float bound), none, none⟩)

def fromEach : List Declaration :=
  [numberFrom "T" (.infinity true), numberFrom "U" .nan, numberFrom "V" (.infinity false),
    (DeclarationOf.named "W").extending (.many [.name "T", .name "U", .name "V"])]

def fromEachNode : Node :=
  .extend (some 17) (some "W") .number
    [numberFromNode 14 "T" (.infinity true), numberFromNode 15 "U" .nan,
      numberFromNode 16 "V" (.infinity false)]
    Header.empty Shape.emptyNumber

theorem fromEach_added : ∃ a, initial.addTypes .initial fromEach = .ok a ∧
    a.library.type? "W" = some fromEachNode := by
  refine ⟨⟨⟨18, []⟩, ⟨initial.types ++ [("T", numberFromNode 14 "T" (.infinity true)),
    ("U", numberFromNode 15 "U" .nan), ("V", numberFromNode 16 "V" (.infinity false)),
    ("W", fromEachNode)]⟩,
    [numberFromNode 14 "T" (.infinity true), numberFromNode 15 "U" .nan,
      numberFromNode 16 "V" (.infinity false), fromEachNode]⟩, ?_, rfl⟩
  cbv

theorem facets_gathered_of_each : ∃ a, initial.addTypes .initial fromEach = .ok a ∧
    Reached a.graph a.library ∧ a.library.Gives a.graph fromEachNode ∧
      fromEachNode.supertypes = [numberFromNode 14 "T" (.infinity true), numberFromNode 15 "U" .nan,
        numberFromNode 16 "V" (.infinity false)] ∧
      fromEachNode.base = .number ∧ ∃ f, fromEachNode.shape = .number f ∧
        f.minimum = some (.float (.infinity false)) := by
  obtain ⟨a, added, found⟩ := fromEach_added
  have reached := Reached.added .initial added
  have gives : a.library.Gives a.graph fromEachNode := .added found .refl
  obtain ⟨base, -, -, gathers⟩ := facets_gathered reached gives rfl
  obtain ⟨f, shape⟩ : ∃ f, fromEachNode.shape = .number f := ⟨_, rfl⟩
  rw [shape] at gathers
  obtain ⟨b, hb, minimum, -⟩ := gathers.minimum.widest (List.cons_ne_nil _ _)
  have behind : List.rtakeWhile (fun n => !n.isNaN)
    [.float (.infinity true), .float .nan, .float (.infinity false)] =
      [Number.float (.infinity false)] := rfl
  obtain rfl := List.mem_singleton.mp (behind ▸ hb)
  exact ⟨a, added, reached, gives, rfl, base, f, shape, minimum⟩

/-- With a NaN bound in between, the least bound is above that of a supertype. -/
theorem not_facets_gathered : ∃ a, initial.addTypes .initial fromEach = .ok a ∧
    ∃ n f b, a.library.type? "W" = some n ∧ n.shape = .number f ∧ f.minimum = some b ∧
      ∃ s ∈ n.supertypes, ∃ f' b', s.shape = .number f' ∧ f'.minimum = some b' ∧
        b'.le b = true ∧ b.le b' = false := by
  obtain ⟨a, added, found⟩ := fromEach_added
  refine ⟨a, added, fromEachNode, _, .float (.infinity false), found, rfl, rfl,
    numberFromNode 14 "T" (.infinity true), List.mem_cons_self, _, .float (.infinity true), rfl, rfl, ?_⟩
  decide

end Library

end Schemata

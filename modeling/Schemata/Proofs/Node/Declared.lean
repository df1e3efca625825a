import Mathlib
import Schemata.Proofs.Library.Addition
import Schemata.Proofs.Node.Tidy

/-! Declared properties in the alternatives of a type. A declaration is checked against the family
of its first supertype, and a union has that of its first member, so a type with own properties may
have alternatives of other families. Object alternatives have all declared properties, others none.
-/

namespace Schemata

namespace Shape

variable {μ ρ : Type}

theorem kind_emptyShape_eq_object {b : BaseType} :
    (b.emptyShape : Shape μ ρ).kind = .object ↔ b = .object := by
  cases b <;> constructor <;> intro h <;> first | rfl | cases h

theorem kind_eq_object {s : Shape μ ρ} : s.kind = .object ↔ s.isObject = true := by
  cases s <;> constructor <;> intro h <;> first | rfl | cases h

theorem exists_of_refined {t : Shape μ ρ} (object : t.isObject = true) {f : ObjectFacets ρ}
    (distinct : Keyed.Distinct f.properties) : ∃ f', t.merge .refine (.object f) = .object f' ∧
      ∀ key p, Keyed.get? f.properties key = some p → Keyed.get? f'.properties key = some p := by
  cases t with
  | object g =>
    refine ⟨_, rfl, fun key p declared => ?_⟩
    have same : (f.properties.map fun e => (e.1, e.2.taken .refine)) = f.properties := List.map_id _
    have found := Keyed.get?_foldl_insert f.properties g.properties key
    rw [Keyed.get?_reverse distinct, declared] at found
    show Keyed.get? (Merge.entries .refine g.properties
      (f.properties.map fun e => (e.1, e.2.taken .refine))) key = some p
    rw [same]
    exact found
  | _ => cases object

end Shape

namespace Node

/-- The node heads a combination of alternatives of the supertypes, and their families go together. -/
def Heads (n first : Node) : Prop :=
  ∃ rest, first :: rest ∈ cartesianProduct (n.supertypes.map alternatives) ∧
    ∀ alt ∈ rest, first.family.isCompatible alt.family = true

theorem cartesianProduct_map_singleton {α : Type} (list : List α) :
    cartesianProduct (list.map fun x => [x]) = [list] := by
  induction list with
  | nil => rfl
  | cons x rest ih =>
    rw [List.map_cons, cartesianProduct, ih]
    rfl

theorem exists_specialize_iff {n : Node} {first : Node} {rest : List Node} :
    (∃ m, n.specialize (first :: rest) = some m) ↔
      ∀ alt ∈ rest, first.family.isCompatible alt.family = true := by
  constructor
  · rintro ⟨m, derived⟩
    obtain ⟨_, _, ⟨⟩, compatible, -⟩ := specialize_eq_some_iff.mp derived
    exact fun alt ha => List.all_eq_true.mp compatible alt (List.mem_cons_of_mem _ ha)
  · intro compatible
    refine ⟨_, specialize_eq_some_iff.mpr ⟨first, rest, rfl, ?_, rfl⟩⟩
    rw [List.all_cons, Family.isCompatible_self, Bool.true_and]
    exact List.all_eq_true.mpr compatible

variable {n : Node}

theorem exists_alternative_iff {id : Option NodeId} {name : Option String} {first : Node}
    {rest : List Node} {h : Header} {own : Shape Node Ref}
    (compatible : ∀ alt ∈ rest, first.family.isCompatible alt.family = true)
    (memberless : own.members.isEmpty = true)
    (composed : n = extend id name first.base (first :: rest) h own) (b : BaseType)
    (s : Shape Node Ref) : (∃ alt ∈ n.alternatives, alt.base = b ∧ alt.shape = s) ↔
      ∃ combination ∈ cartesianProduct (n.supertypes.map alternatives),
        ∃ m, n.specialize combination = some m ∧ m.base = b ∧ m.shape = s := by
  have memberless' : n.ownShape.members = [] := by
    rw [composed]
    exact List.isEmpty_iff.mp memberless
  by_cases alone : ∀ s ∈ n.supertypes, s.alternatives? = none
  · have found := alternatives?_of_alone memberless' alone
    have each : n.supertypes.map alternatives = n.supertypes.map fun s => [s] :=
      List.map_congr_left fun s hs => alternatives_of_none (alone s hs)
    obtain ⟨m, derived⟩ := exists_specialize_iff (n := n).mpr compatible
    have facets : m.base = n.base ∧ m.shape = n.shape := by
      obtain ⟨_, _, ⟨⟩, -, rfl⟩ := specialize_eq_some_iff.mp derived
      rw [composed]
      exact ⟨rfl, rfl⟩
    have supertypes : n.supertypes = first :: rest := by rw [composed]; rfl
    rw [alternatives_of_none found, each, cartesianProduct_map_singleton, supertypes]
    simp only [List.mem_singleton, exists_eq_left, derived, Option.some.injEq, exists_eq_left', facets.1,
      facets.2]
  · rw [alternatives_of_some (alternatives?_of_several memberless' alone)]
    constructor
    · rintro ⟨alt, ha, same⟩
      obtain ⟨combination, hc, derived⟩ := List.mem_filterMap.mp ha
      exact ⟨combination, hc, alt, derived, same⟩
    · rintro ⟨combination, hc, alt, derived, same⟩
      exact ⟨alt, List.mem_filterMap.mpr ⟨combination, hc, derived⟩, same⟩

theorem property?_of_specialize {m : Node} {combination : List Node}
    (derived : n.specialize combination = some m) {f : ObjectFacets Ref} (own : n.ownShape = .object f)
    (distinct : Keyed.Distinct f.properties) :
    (m.shape.isObject = true ↔ m.base = .object) ∧ (m.base = .object →
      ∀ key p, Keyed.get? f.properties key = some p → m.property? key = some p) := by
  obtain ⟨first, rest, rfl, -, rfl⟩ := specialize_eq_some_iff.mp derived
  have kind := kind_effective first.base (first :: rest) n.ownHeader n.ownShape
  refine ⟨?_, fun object key p declared => ?_⟩
  · rw [← Shape.kind_eq_object]
    exact kind ▸ Shape.kind_emptyShape_eq_object
  · have inherited : ((first :: rest).foldl (fun s t => s.merge .inherit t.shape)
        (first.base.emptyShape : Shape Node Ref)).isObject = true := by
      rw [← Shape.kind_eq_object, kind_inherited, Shape.kind_emptyShape_eq_object]
      exact object
    obtain ⟨f', merged, kept⟩ := Shape.exists_of_refined inherited distinct
    have shape : (effective first.base (first :: rest) n.ownHeader n.ownShape).2 = .object f' := by
      rw [own]
      exact merged
    show property? ⟨_, _, _, _, _, _, _, _, _⟩ key = some p
    unfold property?
    dsimp only
    rw [shape]
    exact kept key p declared

end Node

variable {k : Known}

theorem TypeRef.exists_of_get? {list : List (String × TypeRef)} {entries : List (String × Property Ref)}
    (h : List.Forall₂ (TypeRef.EntryPointsTo k) list entries) {key : String} {r : TypeRef}
    (declared : Keyed.get? (Keyed.ofEntries list) key = some r) :
    ∃ x, r.PointsTo k x ∧ Keyed.get? (Keyed.ofEntries entries) key = some ⟨x, false⟩ := by
  rw [Keyed.get?_ofEntries] at declared ⊢
  have reversed := List.rel_reverse h
  generalize list.reverse = list' at reversed declared
  generalize entries.reverse = entries' at reversed
  induction reversed with
  | nil => cases declared
  | cons h _ ih =>
    obtain ⟨h⟩ := h
    rw [Keyed.get?] at declared ⊢
    split at declared
    · rename_i same
      obtain rfl := Option.some.inj declared
      exact ⟨_, h, if_pos same⟩
    · rename_i other
      obtain ⟨x, hx, found⟩ := ih declared
      exact ⟨x, hx, (if_neg other).trans found⟩

namespace DeclarationOf

theorem target_eq_object {d : Declaration} {list : List (String × TypeRef)} {b : BaseType}
    (declares : d.properties = some list) (applicable : d.foreignFacet? b = none) : b = .object := by
  have none := List.find?_eq_none.mp (Option.map_eq_none_iff.mp applicable)
  have allowed := none ("properties", d.properties.isSome, b == .object) (by simp [facets])
  rw [declares] at allowed
  simpa using allowed

theorem Describes.exists_own {d : Declaration} {id : NodeId} {n : Node} {list : List (String × TypeRef)}
    (describes : d.Describes k id n) (declares : d.properties = some list) : ∃ first rest f entries,
      n = Node.extend (some id) d.name first.base (first :: rest) d.details.header (.object f) ∧
        (∀ s ∈ rest, first.family.isCompatible s.family = true) ∧
        f.properties = Keyed.ofEntries entries ∧
        List.Forall₂ (TypeRef.EntryPointsTo k) list entries := by
  obtain ⟨-, applicable, -, properties, -, shaped, made⟩ := describes
  obtain ⟨first, rest, rfl, compatible, rfl⟩ := Building.compose_eq_pure made
  rw [target_eq_object declares applicable, ownShape_pure, Building.lift_eq_pure] at shaped
  rw [declares] at properties
  obtain ⟨text, -, rfl⟩ := exists_of_map_eq_ok shaped
  refine ⟨first, rest, _, _, rfl, fun s hs => ?_, rfl, properties⟩
  simpa using List.find?_eq_none.mp compatible s hs

theorem Describes.exists_members {d : Declaration} {id : NodeId} {n : Node} {refs : List TypeRef}
    (describes : d.Describes k id n) (anyOf : d.anyOf = some refs) : ∃ members base supertypes,
      List.Forall₂ (TypeRef.Denotes k) refs members ∧
      n = Node.extend (some id) d.name base supertypes d.details.header (.union members) ∧
      (d.extends? = none → base = .union ∧ supertypes = [.ofBase .union]) := by
  obtain ⟨supers, applicable, -, -, union, shaped, made⟩ := describes
  obtain ⟨first, rest, rfl, -, rfl⟩ := Building.compose_eq_pure made
  have target : target d.anyOf (first :: rest) = .union := by rw [anyOf]; rfl
  rw [target] at applicable
  rw [target, ownShape_pure, Building.lift_eq_pure] at shaped
  obtain rfl := Except.ok.inj shaped
  rw [anyOf] at union
  refine ⟨_, _, _, union, rfl, fun extends? => ?_⟩
  have undeclared : d.properties.isSome = false := by
    rcases declares : d.properties with _ | list
    · rfl
    · cases target_eq_object declares applicable
  have inferred : d.inferredBase = .union := by
    rw [inferredBase, undeclared, anyOf]
    rfl
  rw [extends?, inferred] at supers
  cases supers
  exact ⟨rfl, rfl⟩

/-- The type is of objects, and each property of the declaration is there with the type that it has
in the node that declares it. -/
def HeldBy (d : Declaration) (k : Known) (n alt : Node) : Prop :=
  alt.shape.isObject = true ∧
    ∀ key r, Keyed.get? (Keyed.ofEntries (d.properties.getD [])) key = some r →
      ∃ x, r.PointsTo k x ∧ n.ownProperty? key = some ⟨x, false⟩ ∧ alt.property? key = some ⟨x, false⟩

/-- Every object alternative of a type has the declared properties, and so all alternatives have
them exactly when each compatible combination of supertype alternatives is headed by an object. -/
theorem Describes.alternatives_hold {d : Declaration} {id : NodeId} {n : Node}
    {list : List (String × TypeRef)} (describes : d.Describes k id n)
    (declares : d.properties = some list) :
    (∀ alt ∈ n.alternatives, alt.base = .object ∧ d.HeldBy k n alt ∨
        alt.base ≠ .object ∧ alt.shape.isObject = false) ∧
      ((∀ alt ∈ n.alternatives, d.HeldBy k n alt) ↔ ∀ first, n.Heads first → first.base = .object) := by
  obtain ⟨first, rest, f, entries, composed, compatible, properties, each⟩ := describes.exists_own declares
  have own : n.ownShape = .object f := by rw [composed]; rfl
  have distinct : Keyed.Distinct f.properties := properties ▸ Keyed.distinct_ofEntries entries
  have alternatives := Node.exists_alternative_iff compatible rfl composed
  have sorted alt (ha : alt ∈ n.alternatives) : alt.base = .object ∧ d.HeldBy k n alt ∨
      alt.base ≠ .object ∧ alt.shape.isObject = false := by
    obtain ⟨combination, -, m, derived, base, shape⟩ :=
      (alternatives alt.base alt.shape).mp ⟨alt, ha, rfl, rfl⟩
    obtain ⟨object, kept⟩ := Node.property?_of_specialize derived own distinct
    rw [base, shape] at object
    by_cases ho : alt.base = .object
    · refine .inl ⟨ho, object.mpr ho, fun key r declared => ?_⟩
      rw [declares] at declared
      obtain ⟨x, points, found⟩ := TypeRef.exists_of_get? each declared
      rw [← properties] at found
      have there : alt.property? key = some ⟨x, false⟩ := by
        have there := kept (base.trans ho) key _ found
        unfold Node.property? at there ⊢
        rwa [← shape]
      refine ⟨x, points, ?_, there⟩
      rw [Node.ownProperty?, own]
      exact found
    · exact .inr ⟨ho, Bool.eq_false_iff.mpr (object.not.mpr ho)⟩
  refine ⟨sorted, fun all head ⟨others, hc, together⟩ => ?_, fun heads alt ha => ?_⟩
  · obtain ⟨m, derived⟩ := Node.exists_specialize_iff.mpr together
    obtain ⟨alt, ha, base, -⟩ := (alternatives m.base m.shape).mpr ⟨_, hc, m, derived, rfl, rfl⟩
    have same : m.base = head.base := by
      obtain ⟨_, _, ⟨⟩, -, rfl⟩ := Node.specialize_eq_some_iff.mp derived
      rfl
    rcases sorted alt ha with ⟨object, -⟩ | ⟨-, other⟩
    · rw [← same, ← base, object]
    · exact absurd (all alt ha).1 (Bool.eq_false_iff.mp other)
  · rcases sorted alt ha with ⟨-, held⟩ | ⟨other, -⟩
    · exact held
    · obtain ⟨combination, hc, m, derived, base, -⟩ :=
        (alternatives alt.base alt.shape).mp ⟨alt, ha, rfl, rfl⟩
      obtain ⟨head, others, rfl, -, rfl⟩ := Node.specialize_eq_some_iff.mp derived
      have together := Node.exists_specialize_iff.mp ⟨_, derived⟩
      exact absurd (base.symm.trans (heads head ⟨others, hc, together⟩)) other

def eitherWithProperty : List Declaration :=
  [{ DeclarationOf.named "U" with anyOf := some [.name "object", .name "string"] },
    { (DeclarationOf.named "T").extending (.name "U") with properties := some [("a", .name "string")] }]

def objectOrTextNode : Node :=
  .extend (some 14) (some "U") .union [.ofBase .union] Header.empty
    (.union [.ofBase .object, .ofBase .string])

def withPropertyNode : Node :=
  .extend (some 15) (some "T") .union [objectOrTextNode] Header.empty
    (.object ⟨[("a", ⟨.node (.ofBase .string), false⟩)], none, none, none, none, none⟩)

theorem eitherWithProperty_added : ∃ a, Library.initial.addTypes .initial eitherWithProperty = .ok a ∧
    a.library.type? "U" = some objectOrTextNode ∧ a.library.type? "T" = some withPropertyNode := by
  refine ⟨⟨⟨16, []⟩, ⟨Library.initial.types ++ [("U", objectOrTextNode), ("T", withPropertyNode)]⟩,
    [objectOrTextNode, withPropertyNode]⟩, ?_, rfl, rfl⟩
  cbv

theorem Describes.alternatives_hold_of_either : ∃ a, ∃ d : Declaration, ∃ id,
    Library.initial.addTypes .initial eitherWithProperty = .ok a ∧ d.Describes a.known id withPropertyNode ∧
      d.properties = some [("a", .name "string")] ∧
      (∃ alt ∈ withPropertyNode.alternatives, d.HeldBy a.known withPropertyNode alt) ∧
      ¬∀ alt ∈ withPropertyNode.alternatives, d.HeldBy a.known withPropertyNode alt := by
  obtain ⟨a, added, -, found⟩ := eitherWithProperty_added
  obtain ⟨id, n, found', describes⟩ := (Library.Grown.of_addTypes
    Library.Reached.initial.closed.numbered added).added _ (List.mem_cons_of_mem _ List.mem_cons_self)
  obtain rfl : withPropertyNode = n := Option.some.inj (found.symm.trans found')
  have sorted := Describes.alternatives_hold describes rfl
  obtain ⟨alt, rest, alternatives, base⟩ : ∃ alt rest, withPropertyNode.alternatives = alt :: rest ∧
    alt.base = .object := ⟨_, _, rfl, rfl⟩
  have mem : alt ∈ withPropertyNode.alternatives := alternatives ▸ List.mem_cons_self
  refine ⟨a, _, id, added, describes, rfl, ⟨alt, mem, ?_⟩, fun all => ?_⟩
  · rcases sorted.1 alt mem with ⟨-, held⟩ | ⟨other, -⟩
    · exact held
    · exact absurd base other
  · have combinations : cartesianProduct (withPropertyNode.supertypes.map Node.alternatives) =
      [[.ofBase .object], [.ofBase .string]] := rfl
    have headed : withPropertyNode.Heads (.ofBase .string) := by
      refine ⟨[], ?_, fun _ h => nomatch h⟩
      rw [combinations]
      exact List.mem_cons_of_mem _ List.mem_cons_self
    cases sorted.2.mp all _ headed

/-- Extending `anyOf [object, string]` by a property leaves an alternative without it. -/
theorem not_alternatives_hold : ∃ a, Library.initial.addTypes .initial eitherWithProperty = .ok a ∧
    ∃ n u, a.library.type? "T" = some n ∧ a.library.type? "U" = some u ∧ n.supertypes = [u] ∧
      u.members ≠ [] ∧ (n.ownProperty? "a").isSome = true ∧
      ∃ alt ∈ n.alternatives, alt.shape.isObject = false ∧ alt.property? "a" = none := by
  obtain ⟨a, added, union, found⟩ := eitherWithProperty_added
  refine ⟨a, added, withPropertyNode, objectOrTextNode, found, union, rfl, List.cons_ne_nil _ _, rfl, ?_⟩
  obtain ⟨first, second, alternatives, other, absent⟩ : ∃ first second,
    withPropertyNode.alternatives = [first, second] ∧ second.shape.isObject = false ∧
      second.property? "a" = none := ⟨_, _, rfl, rfl, rfl⟩
  rw [alternatives]
  exact ⟨second, List.mem_cons_of_mem _ List.mem_cons_self, other, absent⟩

end DeclarationOf
end Schemata

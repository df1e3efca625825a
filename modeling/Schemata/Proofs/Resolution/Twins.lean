import Schemata.Proofs.Node.Likeness
import Schemata.Proofs.Resolution.Building

/-! One reference resolved twice, at two points of a run or in two runs. The nodes are alike
whatever was built first: their supertypes and members are again twins, and their links are related.
By induction on the size of a node. -/

namespace Schemata

namespace Building

theorem compose_eq_pure {id : NodeId} {name : Option String} {supertypes : List Node}
    {header : Header} {shape : Shape Node Ref} {n : Node}
    (made : compose id name supertypes header shape = pure n) : ∃ first rest,
      supertypes = first :: rest ∧ (rest.find? fun s => !first.family.isCompatible s.family) = none ∧
        n = Node.extend (some id) name first.base supertypes header shape := by
  rcases supertypes with _ | ⟨first, rest⟩
  · cases congrFun made ⟨0, [], []⟩
  · simp only [compose] at made
    rcases hf : rest.find? fun s => !first.family.isCompatible s.family with _ | s
    · simp only [hf] at made
      exact ⟨first, rest, rfl, hf, (pure_injective made).symm⟩
    · simp only [hf] at made
      cases congrFun made ⟨0, [], []⟩

end Building

inductive Twins (Old : Node → Node → Prop) (k k' : Known) : Node → Node → Prop
  | base (b : BaseType) : Twins Old k k' (Node.ofBase b) (Node.ofBase b)
  | old {n n' : Node} (h : Old n n') : Twins Old k k' n n'
  | denoted {r : TypeRef} {n n' : Node} (h : r.Denotes k n) (h' : r.Denotes k' n') :
      Twins Old k k' n n'
  | anyOf {id id' : NodeId} {ns ns' : List Node} (each : List.Forall₂ (Twins Old k k') ns ns') :
      Twins Old k k' (Node.anyOf id ns) (Node.anyOf id' ns')

/-- When names stand for twins: for older nodes that are alike, or for what one declaration
describes. The links of one reference are related. -/
structure Twins.Agree (Old : Node → Node → Prop) (k k' : Known) (L : Ref → Ref → Prop) : Prop where
  old : ∀ n n', Old n n' → Node.Alike (Twins Old k k') L n n'
  names : ∀ a n n', k.direct a n → k'.direct a n' →
    Old n n' ∨ ∃ (d : Declaration) (id id' : NodeId), d.Describes k id n ∧ d.Describes k' id' n'
  links : ∀ (r : TypeRef) x x', r.PointsTo k x → r.PointsTo k' x' → L x x'
  several : ∀ (refs : List TypeRef) xs xs' id id', List.Forall₂ (TypeRef.PointsTo k) refs xs →
    List.Forall₂ (TypeRef.PointsTo k') refs xs' → L (.anyOf id xs) (.anyOf id' xs')

variable {Old : Node → Node → Prop} {k k' : Known} {L : Ref → Ref → Prop}

structure Twins.Same (Old : Node → Node → Prop) (k k' : Known) (L : Ref → Ref → Prop)
    (n n' : Node) : Prop where
  alike : Node.Alike (Twins Old k k') L n n'
  family : n.family = n'.family
  representedBase : n.representedBase = n'.representedBase

theorem TypeRef.spread_many_ne {refs : List TypeRef} :
    TypeRef.spread (some (.many refs)) ≠ [.many refs] := by
  intro h
  have h : refs = [.many refs] := h
  have := congrArg sizeOf h
  simp only [List.cons.sizeOf_spec, List.nil.sizeOf_spec, TypeRef.many.sizeOf_spec] at this
  omega

section Parts

variable (agree : Twins.Agree Old k k' L)

theorem twins_denoted {refs : List TypeRef} {nodes nodes' : List Node}
    (h : List.Forall₂ (TypeRef.Denotes k) refs nodes)
    (h' : List.Forall₂ (TypeRef.Denotes k') refs nodes') :
    List.Forall₂ (Twins Old k k') nodes nodes' :=
  forall₂_meet h h' fun _ _ _ _ => .denoted

theorem twins_extended {e : Option TypeRef} {b : BaseType} {nodes nodes' : List Node}
    (h : TypeRef.Extends k e b nodes) (h' : TypeRef.Extends k' e b nodes') :
    List.Forall₂ (Twins Old k k') nodes nodes' := by
  cases h with
  | base =>
    cases h' with
    | base => exact .cons (.base b) .nil
  | each h =>
    cases h' with
    | each h' => exact twins_denoted h h'

include agree in
theorem linked_items {r : TypeRef} {x x' : Ref} (h : r.ItemsPointTo k x)
    (h' : r.ItemsPointTo k' x') : L x x' := by
  cases h with
  | one single h =>
    cases h' with
    | one _ h' => exact agree.links r _ _ h h'
    | several _ => exact absurd single TypeRef.spread_many_ne
  | several each =>
    cases h' with
    | one single _ => exact absurd single TypeRef.spread_many_ne
    | several each' => exact agree.several _ _ _ _ _ each each'

include agree in
theorem linked_items? {i : Option TypeRef} {item item' : Option Ref}
    (h : Option.Rel (TypeRef.ItemsPointTo k) i item)
    (h' : Option.Rel (TypeRef.ItemsPointTo k') i item') : Option.Rel L item item' := by
  cases h with
  | none =>
    cases h' with
    | none => exact .none
  | some h =>
    cases h' with
    | some h' => exact .some (linked_items agree h h')

include agree in
theorem linked_entries {entries : List (String × TypeRef)}
    {found found' : List (String × Property Ref)}
    (h : List.Forall₂ (TypeRef.EntryPointsTo k) entries found)
    (h' : List.Forall₂ (TypeRef.EntryPointsTo k') entries found') :
    Keyed.Alike (Property.Alike L) found found' := by
  refine forall₂_meet h h' ?_
  rintro _ - _ _ ⟨h⟩ ⟨h'⟩
  exact ⟨rfl, agree.links _ _ _ h h', rfl⟩

end Parts

theorem DeclarationOf.ownShape_alike {M : Node → Node → Prop} {name : String}
    {d : DeclarationDetails} {target : BaseType} {item item' : Option Ref}
    {properties properties' : Keyed (Property Ref)} {members members' : List Node}
    {shape shape' : Shape Node Ref} (items : Option.Rel L item item')
    (entries : Keyed.Alike (Property.Alike L) properties properties')
    (union : List.Forall₂ M members members')
    (h : ownShape name d target ⟨pure item, pure properties, pure members⟩ = pure shape)
    (h' : ownShape name d target ⟨pure item', pure properties', pure members'⟩ = pure shape') :
    Shape.Alike M L shape shape' := by
  rw [ownShape_pure, Building.lift_eq_pure] at h h'
  have mapped {α : Type} {e : Except TypeError α} {f f' : α → Shape Node Ref}
      (alike : ∀ a, Shape.Alike M L (f a) (f' a)) (h : e.map f = .ok shape)
      (h' : e.map f' = .ok shape') : Shape.Alike M L shape shape' := by
    rcases e with e | a
    · cases h
    · obtain rfl := Except.ok.inj h
      obtain rfl := Except.ok.inj h'
      exact alike a
  unfold shapeOf? at h h'
  generalize (target.emptyShape : Shape Node Ref).kind = kind at h h'
  cases kind with
  | string => exact mapped (fun _ => .string _) h h'
  | number => exact mapped (fun _ => .number _) h h'
  | date => exact mapped (fun _ => .date _) h h'
  | array =>
    obtain rfl := Except.ok.inj h
    obtain rfl := Except.ok.inj h'
    exact .array items
  | object => exact mapped (fun _ => .object entries) h h'
  | union =>
    obtain rfl := Except.ok.inj h
    obtain rfl := Except.ok.inj h'
    exact .union union
  | _ =>
    obtain rfl := Except.ok.inj h
    obtain rfl := Except.ok.inj h'
    exact target.emptyShape_alike

theorem DeclarationOf.target_eq {anyOf : Option (List TypeRef)} {nodes nodes' : List Node}
    (h : List.Forall₂ (fun n n' => n.representedBase = n'.representedBase) nodes nodes') :
    DeclarationOf.target anyOf nodes = DeclarationOf.target anyOf nodes' := by
  unfold DeclarationOf.target
  split
  · rfl
  · cases h with
    | nil => rfl
    | cons h _ => exact h

section Composed

variable {n : Node} (smaller : ∀ m m', sizeOf m < sizeOf n → Twins Old k k' m m' →
    Twins.Same Old k k' L m m')
  {id id' : NodeId} {name : Option String} {header : Header} {shape shape' : Shape Node Ref}
  {nodes nodes' : List Node} {n' : Node}

include smaller in
theorem Twins.same_supertypes (twins : List.Forall₂ (Twins Old k k') nodes nodes')
    (made : Building.compose id name nodes header shape = pure n) :
    List.Forall₂ (Twins.Same Old k k' L) nodes nodes' := by
  obtain ⟨first, rest, rfl, -, rfl⟩ := Building.compose_eq_pure made
  exact forall₂_imp_of_mem twins fun s hs s' => smaller s s' (Node.sizeOf_lt_of_mem_supertypes hs)

include smaller in
theorem Twins.alike_composed (twins : List.Forall₂ (Twins Old k k') nodes nodes')
    (made : Building.compose id name nodes header shape = pure n)
    (made' : Building.compose id' name nodes' header shape' = pure n')
    (shapes : Shape.Alike (Twins Old k k') L shape shape') : Node.Alike (Twins Old k k') L n n' := by
  have same := same_supertypes smaller twins made
  obtain ⟨first, rest, rfl, -, rfl⟩ := Building.compose_eq_pure made
  obtain ⟨first', rest', rfl, -, rfl⟩ := Building.compose_eq_pure made'
  have base : first.base = first'.base := by
    cases same with
    | cons h _ => exact h.alike.base
  rw [base]
  exact Node.extend_alike twins (same.imp fun _ _ h => h.alike) _ _ _ _ _ shapes

end Composed

theorem DeclarationOf.Describes.alike (agree : Twins.Agree Old k k' L) {d : Declaration}
    {id id' : NodeId} {n n' : Node}
    (smaller : ∀ m m', sizeOf m < sizeOf n → Twins Old k k' m m' → Twins.Same Old k k' L m m')
    (h : d.Describes k id n) (h' : d.Describes k' id' n') :
    Node.Alike (Twins Old k k') L n n' := by
  obtain ⟨supers, _, items, properties, union, shaped, made⟩ := h
  obtain ⟨supers', _, items', properties', union', shaped', made'⟩ := h'
  have twins : List.Forall₂ (Twins Old k k') _ _ := twins_extended supers supers'
  have same := Twins.same_supertypes smaller twins made
  rw [← target_eq (same.imp fun _ _ h => h.representedBase)] at shaped'
  exact Twins.alike_composed smaller twins made made' (ownShape_alike (linked_items? agree items items')
    (linked_entries agree properties properties').ofEntries (twins_denoted union union') shaped shaped')

theorem Twins.same (agree : Twins.Agree Old k k' L) {n n' : Node} (h : Twins Old k k' n n') :
    Twins.Same Old k k' L n n' := by
  -- By the size of the first node, not of the reference: what a name stands for is as large as the
  -- node of the name, but what its declaration is made of is smaller.
  induction hs : sizeOf n using Nat.strongRecOn generalizing n n' with
  | _ size ih =>
    subst hs
    have smaller : ∀ m m', sizeOf m < sizeOf n → Twins Old k k' m m' → Twins.Same Old k k' L m m' :=
      fun m m' lt h => ih (sizeOf m) lt h rfl
    have alike : Node.Alike (Twins Old k k') L n n' := by
      cases h with
      | base b => exact Node.ofBase_alike b
      | old h => exact agree.old _ _ h
      | denoted h h' =>
        cases h with
        | name h =>
          obtain ⟨h'⟩ := h'
          obtain h | ⟨d, id, id', h, h'⟩ := agree.names _ _ _ h h'
          · exact agree.old _ _ h
          · exact h.alike agree smaller h'
        | many each made =>
          cases h' with
          | many each' made' =>
            exact alike_composed smaller (twins_denoted each each') made made' .any
        | inline h =>
          cases h' with
          | inline h' => exact h.alike agree smaller h'
      | anyOf each =>
        exact Node.extend_alike (.cons (.base .union) .nil) (.cons (Node.ofBase_alike .union) .nil)
          _ _ _ _ _ (.union each)
    have stands := alike.stands fun m hm m' h =>
      have same := smaller m m' (Node.sizeOf_lt_of_mem_shape hm) h
      ⟨same.family, same.representedBase⟩
    exact ⟨alike, stands.1, stands.2⟩

end Schemata

import Schemata.Proofs.Node.Declared
import Schemata.Proofs.Validation.Calls

/-! Nested unions. A union among the members of another is flattened to any depth, so the
alternatives are those of the leaves in order. -/

namespace Schemata

namespace Node

/-- The members of nested unions from left to right, to any depth of unfolding. -/
inductive Leaves : Node → List Node → Prop
  | leaf (n : Node) : Leaves n [n]
  | union {n : Node} {members : List Node} {lists : List (List Node)}
      (own : n.ownShape = .union members) (nonempty : members ≠ [])
      (each : List.Forall₂ Leaves members lists) : Leaves n lists.flatten

variable {n a : Node} {list members : List Node}

theorem alternatives?_eq_none_iff : n.alternatives? = none ↔ n.alternatives = [n] := by
  refine ⟨alternatives_of_none, fun alone => ?_⟩
  rcases found : n.alternatives? with _ | list
  · rfl
  · rw [alternatives_of_some found] at alone
    have none := alternatives?_of_mem found (alone ▸ List.mem_singleton_self n)
    rw [found] at none
    cases none

theorem alternatives_of_mem (h : a ∈ n.alternatives) : a.alternatives = [a] := by
  rcases found : n.alternatives? with _ | list
  · rw [alternatives_of_none found] at h
    rw [List.mem_singleton.mp h, alternatives_of_none found]
  · rw [alternatives_of_some found] at h
    exact alternatives_of_none (alternatives?_of_mem found h)

theorem alternatives_of_members (own : n.ownShape = .union members) (nonempty : members ≠ []) :
    n.alternatives = members.flatMap alternatives := by
  have shape : n.ownShape.members = members := by rw [own]; rfl
  rw [alternatives_of_some (alternatives?_of_members (shape ▸ nonempty)), shape]

theorem mem_parts_of_members {m : Node} (own : n.ownShape = .union members) (h : m ∈ members) :
    m ∈ n.parts := by
  refine List.mem_append_right _ ?_
  rw [own]
  exact h

namespace Leaves

theorem of_members (own : n.ownShape = .union members) (nonempty : members ≠ []) :
    n.Leaves members := by
  have each : List.Forall₂ Leaves members (members.map fun m => [m]) :=
    List.forall₂_map_right_iff.mpr (List.forall₂_same.mpr fun m _ => .leaf m)
  have leaves := union own nonempty each
  rwa [← List.flatMap_def, List.flatMap_singleton'] at leaves

theorem ne_nil : ∀ {n : Node} {list : List Node}, n.Leaves list → list ≠ [] := by
  intro n
  induction n using wellFounded_parts.induction with
  | _ n ih =>
    intro list leaves
    cases leaves with
    | leaf => exact List.cons_ne_nil _ _
    | union own nonempty each =>
      cases each with
      | nil => exact absurd rfl nonempty
      | cons first =>
        have some := ih _ (mem_parts_of_members own List.mem_cons_self) first
        exact fun none => some (List.append_eq_nil_iff.mp none).1

theorem flatMap_alternatives : ∀ {n : Node} {list : List Node}, n.Leaves list →
    n.alternatives = list.flatMap alternatives := by
  intro n
  induction n using wellFounded_parts.induction with
  | _ n ih =>
    intro list leaves
    cases leaves with
    | leaf => exact (List.flatMap_singleton ..).symm
    | union own nonempty each =>
      rw [alternatives_of_members own nonempty]
      have parts := fun m hm => @ih m (mem_parts_of_members own hm)
      clear own nonempty
      induction each with
      | nil => rfl
      | cons first _ step =>
        rw [List.flatMap_cons, List.flatten_cons, List.flatMap_append]
        rw [parts _ List.mem_cons_self first, step fun m hm => parts m (List.mem_cons_of_mem _ hm)]

end Leaves

/-- Flattening is idempotent, an alternative is validated by its own shape, and a union of nested
`anyOf` has the alternatives of its leaves in order, which are those of the flat union. -/
theorem alternatives_of_leaves (leaves : n.Leaves list) :
    (∀ a ∈ n.alternatives, a.alternatives = [a] ∧ ∀ g firstOnly fuel o,
      Check.run g firstOnly (fuel + 1) o a =
        Check.guarded a false o (Check.shape g firstOnly o (Check.run g firstOnly fuel o) a)) ∧
      n.alternatives = list.flatMap alternatives ∧
      ((∀ leaf ∈ list, leaf.alternatives = [leaf]) → n.alternatives = list) ∧
      (∀ flat : Node, flat.ownShape = .union list → flat.alternatives = n.alternatives) ∧
      ∀ {k : Known} {d : Declaration} {id : NodeId} {u : Node} {refs : List TypeRef},
        d.Describes k id u → d.anyOf = some refs → refs ≠ [] →
          ∃ members, List.Forall₂ (TypeRef.Denotes k) refs members ∧ u.Leaves members := by
  refine ⟨fun a ha => ?_, leaves.flatMap_alternatives, fun alone => ?_, fun flat own => ?_, ?_⟩
  · have alone := alternatives_of_mem ha
    exact ⟨alone, fun _ _ _ _ => Check.run_single (alternatives?_eq_none_iff.mpr alone)⟩
  · calc
      n.alternatives = list.flatMap alternatives := leaves.flatMap_alternatives
      _ = list.flatMap fun leaf => [leaf] := List.flatMap_congr alone
      _ = list := List.flatMap_singleton' list
  · rw [alternatives_of_members own leaves.ne_nil, leaves.flatMap_alternatives]
  · intro k d id u refs describes anyOf some
    obtain ⟨members, base, supertypes, each, rfl, -⟩ := describes.exists_members anyOf
    refine ⟨members, each, .of_members rfl fun none => some ?_⟩
    rw [none] at each
    exact List.forall₂_nil_right_iff.mp each

def nestedAndFlat : List Declaration :=
  [{ DeclarationOf.named "U" with anyOf := some [.name "boolean", .name "V"] },
    { DeclarationOf.named "V" with anyOf := some [.name "string", .name "number"] },
    { DeclarationOf.named "W" with
      anyOf := some [.name "boolean", .name "string", .name "number"] }]

def innerNode : Node :=
  .extend (some 15) (some "V") .union [ofBase .union] Header.empty
    (.union [ofBase .string, ofBase .number])

def nestedNode : Node :=
  .extend (some 14) (some "U") .union [ofBase .union] Header.empty
    (.union [ofBase .boolean, innerNode])

def flatNode : Node :=
  .extend (some 16) (some "W") .union [ofBase .union] Header.empty
    (.union [ofBase .boolean, ofBase .string, ofBase .number])

theorem nestedAndFlat_added : ∃ a, Library.initial.addTypes .initial nestedAndFlat = .ok a ∧
    a.library.type? "U" = some nestedNode ∧ a.library.type? "W" = some flatNode := by
  refine ⟨⟨⟨17, []⟩, ⟨Library.initial.types ++
    [("U", nestedNode), ("V", innerNode), ("W", flatNode)]⟩,
    [nestedNode, innerNode, flatNode]⟩, ?_, rfl, rfl⟩
  cbv

theorem alternatives_of_leaves_of_nested : ∃ a,
    Library.initial.addTypes .initial nestedAndFlat = .ok a ∧
      a.library.type? "U" = some nestedNode ∧ a.library.type? "W" = some flatNode ∧
      nestedNode.Leaves [.ofBase .boolean, .ofBase .string, .ofBase .number] ∧
      nestedNode.alternatives = [.ofBase .boolean, .ofBase .string, .ofBase .number] ∧
      flatNode.alternatives = nestedNode.alternatives := by
  obtain ⟨a, added, nested, flat⟩ := nestedAndFlat_added
  have inner : innerNode.Leaves [.ofBase .string, .ofBase .number] :=
    .of_members rfl (List.cons_ne_nil _ _)
  have leaves : nestedNode.Leaves [.ofBase .boolean, .ofBase .string, .ofBase .number] :=
    .union rfl (List.cons_ne_nil _ _) (.cons (.leaf _) (.cons inner .nil))
  have alone : ∀ leaf ∈ [ofBase .boolean, .ofBase .string, .ofBase .number],
      leaf.alternatives = [leaf] := by
    simp only [List.forall_mem_cons]
    exact ⟨rfl, rfl, rfl, fun _ h => nomatch h⟩
  obtain ⟨-, -, same, flattened, -⟩ := alternatives_of_leaves leaves
  exact ⟨a, added, nested, flat, leaves, same alone, flattened flatNode rfl⟩

end Node

end Schemata

import Mathlib.Logic.Relation
import Schemata.Proofs.Graph.Similarity

/-! What a node leads to: its supertypes, the members of its unions, and the types of its
properties and items. The first two are parts of the node, so following them alone always ends. -/

namespace Schemata

def Shape.links {μ ρ : Type} : Shape μ ρ → List ρ
  | .array f => f.items.toList
  | .object f => f.properties.map fun e => e.2.type
  | _ => []

def Node.links (n : Node) : List Ref := n.shape.links ++ n.ownShape.links

/-- The supertypes of a node and the members of its unions, effective and its own. -/
def Node.parts (n : Node) : List Node := n.supertypes ++ n.shape.members ++ n.ownShape.members

theorem Node.sizeOf_lt_of_mem_parts {m n : Node} (h : m ∈ n.parts) : sizeOf m < sizeOf n := by
  rcases List.mem_append.mp h with h | h
  · rcases List.mem_append.mp h with h | h
    · exact sizeOf_lt_of_mem_supertypes h
    · exact sizeOf_lt_of_mem_shape h
  · exact sizeOf_lt_of_mem_ownShape h

/-- Going from supertype to supertype and from member to member ends. -/
theorem Node.wellFounded_parts : WellFounded fun m n : Node => m ∈ n.parts :=
  Subrelation.wf sizeOf_lt_of_mem_parts (measure sizeOf).wf

namespace Graph

variable {g g' : Graph} {m n n' : Node} {x : Ref}

/-- One node leads to another: to a part, or to what one of its references leads to. -/
inductive Step (g : Graph) (n : Node) : Node → Prop
  | part {m : Node} (h : m ∈ n.parts) : Step g n m
  | link {x : Ref} (h : x ∈ n.links) : Step g n (g.resolve x)

def Reaches (g : Graph) : Node → Node → Prop := Relation.ReflTransGen g.Step

theorem exists_of_shape_alike {M : Node → Node → Prop} {L : Ref → Ref → Prop}
    {s t : Shape Node Ref} (h : Shape.Alike M L s t) :
    (∀ m ∈ s.members, ∃ m', M m m') ∧ ∀ x ∈ s.links, ∃ x', L x x' := by
  cases h with
  | array items =>
    refine ⟨fun _ h => (nomatch h), fun x hx => ?_⟩
    cases items with
    | none => cases hx
    | some h =>
      obtain rfl := List.mem_singleton.mp hx
      exact ⟨_, h⟩
  | object properties =>
    refine ⟨fun _ h => (nomatch h), fun x hx => ?_⟩
    obtain ⟨e, he, rfl⟩ := List.mem_map.mp hx
    obtain ⟨e', -, -, h⟩ := exists_of_forall₂_of_mem properties he
    exact ⟨_, h.type⟩
  | union members =>
    refine ⟨fun m hm => ?_, fun _ h => nomatch h⟩
    obtain ⟨m', -, h⟩ := exists_of_forall₂_of_mem members hm
    exact ⟨m', h⟩
  | _ => exact ⟨fun _ h => (nomatch h), fun _ h => nomatch h⟩

theorem Similar.exists_link (h : Similar g g' n n') (hx : x ∈ n.links) :
    ∃ x', Link g g' (Similar g g') x x' := by
  rcases List.mem_append.mp hx with hx | hx
  · exact (exists_of_shape_alike h.alike.shape).2 x hx
  · exact (exists_of_shape_alike h.alike.ownShape).2 x hx

theorem Similar.exists_part (h : Similar g g' n n') (hm : m ∈ n.parts) :
    ∃ m', Similar g g' m m' := by
  rcases List.mem_append.mp hm with hm | hm
  · rcases List.mem_append.mp hm with hm | hm
    · obtain ⟨m', -, h⟩ := exists_of_forall₂_of_mem h.alike.supertypes hm
      exact ⟨m', h⟩
    · exact (exists_of_shape_alike h.alike.shape).1 m hm
  · exact (exists_of_shape_alike h.alike.ownShape).1 m hm

theorem Similar.exists_of_step (h : Similar g g' n n') (step : g.Step n m) :
    ∃ m', Similar g g' m m' := by
  cases step with
  | part hm => exact h.exists_part hm
  | link hx =>
    obtain ⟨x', link⟩ := h.exists_link hx
    exact ⟨_, link.target⟩

theorem Similar.exists_of_reaches (h : Similar g g' n n') (reaches : g.Reaches n m) :
    ∃ m', Similar g g' m m' := by
  induction reaches with
  | refl => exact ⟨n', h⟩
  | tail _ step ih =>
    obtain ⟨m', h⟩ := ih
    exact h.exists_of_step step

theorem Similar.binds (h : Similar g g' n n') (reaches : g.Reaches n m) (hx : x ∈ m.links) :
    g.Binds x := by
  obtain ⟨m', h⟩ := h.exists_of_reaches reaches
  obtain ⟨x', link⟩ := h.exists_link hx
  exact link.bound

end Graph

end Schemata

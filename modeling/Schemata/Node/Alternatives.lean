import Schemata.Node.Basic

/-! Flattening: the concrete alternatives that a value of a type may match. A type without
supertypes is its own alternative; a union has those of its members; any other type has a
specialization for every compatible combination of its supertypes' alternatives. -/

namespace Schemata

/-- Every way to choose one element from each list, the choice from the first list varying
slowest. -/
def cartesianProduct {α : Type _} : List (List α) → List (List α)
  | [] => [[]]
  | list :: rest => list.flatMap fun x => (cartesianProduct rest).map (x :: ·)

theorem length_cartesianProduct {α : Type _} (lists : List (List α)) :
    (cartesianProduct lists).length = lists.foldr (fun list n => list.length * n) 1 := by
  induction lists with
  | nil => rfl
  | cons list rest ih =>
    rw [cartesianProduct, List.foldr_cons, ← ih]
    induction list with
    | nil => simp
    | cons x xs ihx =>
      rw [List.flatMap_cons, List.length_append, ihx, List.length_map, List.length_cons,
        Nat.succ_mul, Nat.add_comm]

namespace Node

/-- Composes the node again over one combination of alternatives; none if the families are
incompatible. -/
def specialize (n : Node) (combination : List Node) : Option Node :=
  match combination with
  | [] => none
  | first :: _ =>
    if combination.all fun alt => first.family.isCompatible alt.family then
      let (header, shape) := effective first.base combination n.ownHeader n.ownShape
      some ⟨none, n.name, first.base, [], header, shape, n.ownHeader, n.ownShape, false⟩
    else none

def expansions (nodes : List Node) (found : List (Option (List Node))) : List (List Node) :=
  List.zipWith (fun n alts => alts.getD [n]) nodes found

def combine (n : Node) (members supertypes : List (Option (List Node))) : Option (List Node) :=
  if !members.isEmpty then some (expansions n.ownShape.members members).flatten
  else if supertypes.all Option.isNone then none
  else some ((cartesianProduct (expansions n.supertypes supertypes)).filterMap n.specialize)

mutual

/-- Flattens a node; none if it is its own only alternative. -/
def alternatives? : Node → Option (List Node)
  | ⟨id, name, base, supertypes, header, shape, ownHeader, .union members, builtin⟩ =>
    combine ⟨id, name, base, supertypes, header, shape, ownHeader, .union members, builtin⟩
      (alternativesOfEach members) (alternativesOfEach supertypes)
  | ⟨id, name, base, supertypes, header, shape, ownHeader, ownShape, builtin⟩ =>
    combine ⟨id, name, base, supertypes, header, shape, ownHeader, ownShape, builtin⟩
      [] (alternativesOfEach supertypes)

def alternativesOfEach : List Node → List (Option (List Node))
  | [] => []
  | n :: rest => alternatives? n :: alternativesOfEach rest

end

def alternatives (n : Node) : List Node := n.alternatives?.getD [n]

theorem alternativesOfEach_eq_map (nodes : List Node) :
    alternativesOfEach nodes = nodes.map alternatives? := by
  induction nodes with
  | nil => rfl
  | cons n rest ih => simp [alternativesOfEach, ih]

theorem expansions_map (nodes : List Node) :
    expansions nodes (nodes.map alternatives?) = nodes.map alternatives := by
  induction nodes with
  | nil => rfl
  | cons n rest ih =>
    simp only [expansions] at ih
    simp [expansions, alternatives, ih]

end Node
end Schemata

import Schemata.Proofs.Node.Alternatives
import Schemata.Proofs.Node.Likeness

/-! The recursions over supertypes and members, with bounded nesting. The size of a node is depth
enough for `alternatives?`, `family` and `representedBase`. -/

namespace Schemata

theorem mapM_eq_map {α β : Type} {f : α → Option β} {h : α → β} {xs : List α}
    (each : ∀ x ∈ xs, f x = some (h x)) : xs.mapM f = some (xs.map h) := by
  induction xs with
  | nil => rfl
  | cons x rest ih =>
    rw [List.mapM_cons, each x List.mem_cons_self, ih fun y hy => each y (List.mem_cons_of_mem _ hy)]
    rfl

namespace Node

/-- `alternatives?` with calls nested at most `depth` deep; the outer `none` means that this is not
enough. -/
def alternativesWithin? : Nat → Node → Option (Option (List Node))
  | 0, _ => none
  | depth + 1, n => do
    let members ← n.ownShape.members.mapM (alternativesWithin? depth)
    let supertypes ← n.supertypes.mapM (alternativesWithin? depth)
    return n.combine members supertypes

/-- The recursion of `family` and `representedBase` through the first member of each union. -/
def throughFirstWithin? {α : Type} (memberless : α) (own : Node → α) : Nat → Node → Option α
  | 0, _ => none
  | depth + 1, n =>
    match n.shape with
    | .union [] => some memberless
    | .union (m :: _) => throughFirstWithin? memberless own depth m
    | _ => some (own n)

def familyWithin? : Nat → Node → Option Family := throughFirstWithin? .union fun n => n.base.family

def representedBaseWithin? : Nat → Node → Option BaseType := throughFirstWithin? .union base

variable {n : Node} {depth : Nat}

theorem alternativesWithin?_eq (enough : sizeOf n < depth) :
    n.alternativesWithin? depth = some n.alternatives? := by
  induction depth generalizing n with
  | zero => exact absurd enough (Nat.not_lt_zero _)
  | succ depth ih =>
    have each {parts : List Node} (smaller : parts ⊆ n.parts) :
        parts.mapM (alternativesWithin? depth) = some (parts.map alternatives?) :=
      mapM_eq_map fun m hm =>
        ih (Nat.lt_of_lt_of_le (sizeOf_lt_of_mem_parts (smaller hm)) (Nat.le_of_lt_succ enough))
    have supertypes : n.supertypes ⊆ n.parts := fun m hm =>
      List.mem_append_left _ (List.mem_append_left _ hm)
    rw [alternativesWithin?, each (List.subset_append_right _ _), each supertypes,
      alternatives?_eq_combine]
    rfl

theorem throughFirstWithin?_eq {α : Type} {memberless : α} {own f : Node → α}
    (equation : ∀ n, f n = match n.shape with
      | .union [] => memberless
      | .union (m :: _) => f m
      | _ => own n)
    (enough : sizeOf n < depth) : throughFirstWithin? memberless own depth n = some (f n) := by
  induction depth generalizing n with
  | zero => exact absurd enough (Nat.not_lt_zero _)
  | succ depth ih =>
    rw [throughFirstWithin?, equation]
    cases hs : n.shape with
    | union members =>
      cases members with
      | nil => rfl
      | cons m rest =>
        have smaller : sizeOf m < sizeOf n := sizeOf_lt_of_mem_shape (hs ▸ List.mem_cons_self)
        exact ih (Nat.lt_of_lt_of_le smaller (Nat.le_of_lt_succ enough))
    | _ => rfl

theorem familyWithin?_eq (enough : sizeOf n < depth) : n.familyWithin? depth = some n.family :=
  throughFirstWithin?_eq (fun _ => family_eq_of_members) enough

theorem representedBaseWithin?_eq (enough : sizeOf n < depth) :
    n.representedBaseWithin? depth = some n.representedBase :=
  throughFirstWithin?_eq (fun _ => representedBase_eq_of_members) enough

end Node
end Schemata

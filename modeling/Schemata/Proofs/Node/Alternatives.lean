import Schemata.Node.Alternatives
import Schemata.Proofs.Graph.Reach

/-! The alternatives of a type are types that have no other alternatives than themselves. -/

namespace Schemata

theorem Family.isCompatible_self (f : Family) : f.isCompatible f = true := by
  cases f <;> rfl

namespace Node

theorem alternatives_of_none {n : Node} (h : n.alternatives? = none) : n.alternatives = [n] := by
  rw [alternatives, h]
  rfl

theorem alternatives_of_some {n : Node} {list : List Node} (h : n.alternatives? = some list) :
    n.alternatives = list := by
  rw [alternatives, h]
  rfl

theorem alternatives?_eq_combine (n : Node) : n.alternatives? =
    n.combine (n.ownShape.members.map alternatives?) (n.supertypes.map alternatives?) := by
  obtain ⟨id, name, base, supertypes, header, shape, ownHeader, ownShape, builtin⟩ := n
  rw [← alternativesOfEach_eq_map, ← alternativesOfEach_eq_map]
  cases ownShape with
  | union members =>
    rw [alternatives?]
    rfl
  | _ =>
    rw [alternatives?]
    · rfl
    · exact fun _ h => nomatch h

theorem alternatives?_eq (n : Node) : n.alternatives? =
    if !n.ownShape.members.isEmpty then some (n.ownShape.members.map alternatives).flatten
    else if n.supertypes.all fun s => s.alternatives?.isNone then none
    else some ((cartesianProduct (n.supertypes.map alternatives)).filterMap n.specialize) := by
  rw [alternatives?_eq_combine, combine, expansions_map, expansions_map, List.isEmpty_map, List.all_map]
  rfl

theorem specialize_eq_some_iff {n m : Node} {combination : List Node} :
    n.specialize combination = some m ↔ ∃ first rest, combination = first :: rest ∧
      (combination.all fun alt => first.family.isCompatible alt.family) = true ∧
        m = ⟨none, n.name, first.base, [],
          (effective first.base combination n.ownHeader n.ownShape).1,
          (effective first.base combination n.ownHeader n.ownShape).2, n.ownHeader, n.ownShape, false⟩ := by
  rcases combination with _ | ⟨first, rest⟩
  · exact ⟨nofun, nofun⟩
  · unfold specialize
    dsimp only
    constructor
    · intro h
      split at h
      · rename_i compatible
        exact ⟨first, rest, rfl, compatible, (Option.some.inj h).symm⟩
      · cases h
    · rintro ⟨_, _, ⟨⟩, compatible, rfl⟩
      rw [if_pos compatible]

variable {n m a : Node} {list combination : List Node}

theorem alternatives?_of_members (nonempty : n.ownShape.members ≠ []) :
    n.alternatives? = some (n.ownShape.members.flatMap alternatives) := by
  have some : (!n.ownShape.members.isEmpty) = true := by
    rw [List.isEmpty_eq_false_iff.mpr nonempty, Bool.not_false]
  rw [alternatives?_eq, if_pos some, List.flatMap_def]

theorem alternatives?_of_several (memberless : n.ownShape.members = [])
    (several : ¬∀ s ∈ n.supertypes, s.alternatives? = none) :
    n.alternatives? = some ((cartesianProduct (n.supertypes.map alternatives)).filterMap n.specialize) := by
  have some : ¬(n.supertypes.all fun s => s.alternatives?.isNone) = true := fun none =>
    several fun s hs => Option.isNone_iff_eq_none.mp (List.all_eq_true.mp none s hs)
  rw [alternatives?_eq, memberless, if_neg (by decide), if_neg some]

theorem alternatives?_of_alone (memberless : n.ownShape.members = [])
    (alone : ∀ s ∈ n.supertypes, s.alternatives? = none) : n.alternatives? = none := by
  have none : (n.supertypes.all fun s => s.alternatives?.isNone) = true :=
    List.all_eq_true.mpr fun s hs => Option.isNone_iff_eq_none.mpr (alone s hs)
  rw [alternatives?_eq, memberless, if_neg (by decide), if_pos none]

theorem alone_of_none (h : n.alternatives? = none) :
    n.ownShape.members = [] ∧ ∀ s ∈ n.supertypes, s.alternatives? = none := by
  by_cases memberless : n.ownShape.members = []
  · refine ⟨memberless, Decidable.byContradiction fun several => ?_⟩
    rw [alternatives?_of_several memberless several] at h
    cases h
  · rw [alternatives?_of_members memberless] at h
    cases h

theorem mem_of_mem_cartesianProduct {α : Type} {lists : List (List α)} {choice : List α}
    (h : choice ∈ cartesianProduct lists) {x : α} (hx : x ∈ choice) : ∃ list ∈ lists, x ∈ list := by
  induction lists generalizing choice with
  | nil =>
    obtain rfl := List.mem_singleton.mp h
    cases hx
  | cons list rest ih =>
    obtain ⟨y, hy, h⟩ := List.mem_flatMap.mp h
    obtain ⟨tail, ht, rfl⟩ := List.mem_map.mp h
    rcases List.mem_cons.mp hx with rfl | hx
    · exact ⟨list, List.mem_cons_self, hy⟩
    · obtain ⟨other, ho, hx⟩ := ih ht hx
      exact ⟨other, List.mem_cons_of_mem _ ho, hx⟩

/-- An alternative is one of an own union member, or is specialized from alternatives of the
supertypes. -/
theorem alternatives?_cases (found : n.alternatives? = some list) (mem : a ∈ list) :
    (∃ k ∈ n.ownShape.members, a ∈ k.alternatives) ∨
      n.ownShape.members = [] ∧ ∃ combination,
        (∀ b ∈ combination, ∃ s ∈ n.supertypes, b ∈ s.alternatives) ∧
          n.specialize combination = some a := by
  by_cases memberless : n.ownShape.members = []
  · by_cases alone : ∀ s ∈ n.supertypes, s.alternatives? = none
    · rw [alternatives?_of_alone memberless alone] at found
      cases found
    · rw [alternatives?_of_several memberless alone] at found
      obtain rfl := Option.some.inj found
      obtain ⟨combination, hc, derived⟩ := List.mem_filterMap.mp mem
      refine .inr ⟨memberless, combination, fun b hb => ?_, derived⟩
      obtain ⟨others, ho, hb⟩ := mem_of_mem_cartesianProduct hc hb
      obtain ⟨s, hs, rfl⟩ := List.mem_map.mp ho
      exact ⟨s, hs, hb⟩
  · rw [alternatives?_of_members memberless] at found
    obtain rfl := Option.some.inj found
    exact .inl (List.mem_flatMap.mp mem)

theorem alternatives?_specialize (memberless : n.ownShape.members = [])
    (h : n.specialize combination = some m) : m.alternatives? = none := by
  obtain ⟨first, rest, -, -, rfl⟩ := specialize_eq_some_iff.mp h
  exact alternatives?_of_alone memberless fun _ h => nomatch h

/-- An alternative is its own only alternative. -/
theorem alternatives?_of_mem : ∀ {n : Node} {list : List Node},
    n.alternatives? = some list → a ∈ list → a.alternatives? = none := by
  intro n
  induction n using wellFounded_parts.induction with
  | _ n ih =>
    intro list h mem
    rcases alternatives?_cases h mem with ⟨k, hk, mem⟩ | ⟨memberless, combination, -, derived⟩
    · rcases found : k.alternatives? with _ | others
      · rw [alternatives_of_none found] at mem
        obtain rfl := List.mem_singleton.mp mem
        exact found
      · rw [alternatives_of_some found] at mem
        exact ih k (List.mem_append_right _ hk) found mem
    · exact alternatives?_specialize memberless derived

end Node
end Schemata

import Schemata.Proofs.Node.Inheritance

/-! Facets that come from a merge list nothing twice. A type that adds nothing inherits such a shape
unchanged, up to the `inherited` mark of properties. -/

namespace Schemata

namespace Merge

variable {α : Type} {same : α → α → Bool} {target source : List α}

def Nodup (same : α → α → Bool) (list : List α) : Prop :=
  list.Pairwise fun a b => same a b = false

theorem nodup_append (h : Nodup same target) (source : List α) :
    Nodup same (append same target source) := by
  induction source generalizing target with
  | nil => exact h
  | cons x rest ih =>
    apply @ih (if target.any (same · x) then target else target ++ [x])
    split
    · exact h
    · rename_i new
      refine List.pairwise_append.mpr ⟨h, List.pairwise_singleton _ x, fun a ha b hb => ?_⟩
      obtain rfl := List.mem_singleton.mp hb
      exact Bool.eq_false_iff.mpr fun there => new (List.any_eq_true.mpr ⟨a, ha, there⟩)

theorem append_eq_of_nodup (h : Nodup same (target ++ source)) :
    append same target source = target ++ source := by
  induction source generalizing target with
  | nil => exact (List.append_nil target).symm
  | cons x rest ih =>
    have new : target.any (same · x) = false := by
      rw [List.any_eq_false]
      intro a ha there
      have apart := (List.pairwise_append.mp h).2.2 a ha x List.mem_cons_self
      exact Bool.false_ne_true (apart.symm.trans there)
    have step : append same target (x :: rest) = append same (target ++ [x]) rest := by
      rw [append, List.foldl_cons, new, if_neg Bool.false_ne_true]
      rfl
    rw [step, ih (by rwa [List.append_assoc]), List.append_assoc]
    rfl

theorem entries_eq_of_distinct (mode : MergeMode) {target source : Keyed α}
    (h : Keyed.Distinct (target ++ source)) : entries mode target source = target ++ source := by
  induction source generalizing target with
  | nil => exact (List.append_nil target).symm
  | cons e rest ih =>
    have new : e.1 ∉ target.keys := by
      rw [Keyed.Distinct, Keyed.keys_append] at h
      exact fun there => (List.nodup_append.mp h).2.2 _ there _ List.mem_cons_self rfl
    have absent : Keyed.hasKey target e.1 = false :=
      Bool.eq_false_iff.mpr fun there => new (Keyed.hasKey_iff_mem_keys.mp there)
    have step : entries mode target (e :: rest) = entries mode (target ++ [e]) rest := by
      rw [entries, List.foldl_cons, absent, Bool.and_false, if_neg Bool.false_ne_true,
        Keyed.insert_of_not_mem new]
      rfl
    rw [step, ih (by rwa [List.append_assoc]), List.append_assoc]
    rfl

theorem none_singular (mode : MergeMode) (source : Option α) : singular mode none source = source := by
  cases mode <;> cases source <;> rfl

theorem none_bound (keeps : α → α → Bool) (mode : MergeMode) (source : Option α) :
    bound keeps mode none source = source := by
  cases source <;> rfl

end Merge

namespace Shape

variable {μ ρ : Type} {s t : Shape μ ρ}

def Tidy : Shape μ ρ → Prop
  | string f => Merge.Nodup Value.equal f.allowed ∧ Merge.Nodup Pattern.same f.patterns
  | number f => Merge.Nodup Value.equal f.allowed
  | object f => Keyed.Distinct f.properties
  | _ => True

theorem tidy_emptyShape (b : BaseType) : (b.emptyShape : Shape μ ρ).Tidy := by
  cases b <;> first | exact trivial | exact .nil | exact ⟨.nil, .nil⟩

theorem Tidy.merge (h : t.Tidy) (mode : MergeMode) (s : Shape μ ρ) : (t.merge mode s).Tidy := by
  cases t <;> cases s <;> try exact h
  · exact ⟨Merge.nodup_append h.1 _, Merge.nodup_append h.2 _⟩
  · exact Merge.nodup_append h _
  · exact Merge.distinct_entries mode h _

def handedOn : Shape μ ρ → Shape μ ρ
  | object f =>
    object { f with properties := f.properties.map fun (k, p) => (k, { p with inherited := true }) }
  | s => s

theorem merge_refine_eq (s : Shape μ ρ) (b : BaseType) : s.merge .refine b.emptyShape = s := by
  cases b <;> cases s <;> rfl

theorem merge_inherit_eq (tidy : s.Tidy) {b : BaseType}
    (kind : s.kind = (b.emptyShape : Shape μ ρ).kind) : b.emptyShape.merge .inherit s = s.handedOn := by
  cases s with
  | any | boolean | nil =>
    cases b <;> cases kind
    rfl
  | string f =>
    have allowed : Merge.append Value.equal [] f.allowed = f.allowed :=
      Merge.append_eq_of_nodup tidy.1
    have patterns : Merge.append Pattern.same [] f.patterns = f.patterns :=
      Merge.append_eq_of_nodup tidy.2
    cases b <;> cases kind
    simp only [BaseType.emptyShape, emptyString, merge, StringFacets.merge, allowed, patterns,
      Merge.lowerCount, Merge.upperCount, Merge.none_bound, handedOn]
  | number f =>
    have allowed : Merge.append Value.equal [] f.allowed = f.allowed :=
      Merge.append_eq_of_nodup tidy
    cases b <;> cases kind <;>
      simp only [BaseType.emptyShape, emptyNumber, merge, NumberFacets.merge, allowed,
        Merge.lowerNumber, Merge.upperNumber, Merge.none_bound, Merge.none_singular, handedOn]
  | date f =>
    cases b <;> cases kind <;>
      simp only [BaseType.emptyShape, emptyDate, merge, DateFacets.merge, Merge.none_singular,
        handedOn]
  | array f =>
    cases b <;> cases kind
    simp only [BaseType.emptyShape, emptyArray, merge, ArrayFacets.merge, Merge.lowerCount,
      Merge.upperCount, Merge.none_bound, Merge.none_singular, handedOn]
  | object f =>
    have distinct : Keyed.Distinct (f.properties.map fun (k, p) => (k, p.taken .inherit)) := by
      rw [Keyed.Distinct, Keyed.keys, List.map_map]
      exact tidy
    have properties : Merge.entries .inherit [] _ = _ := Merge.entries_eq_of_distinct .inherit distinct
    cases b <;> cases kind
    simp only [BaseType.emptyShape, emptyObject, merge, ObjectFacets.merge, properties, Merge.lowerCount,
      Merge.upperCount, Merge.none_bound, Merge.none_singular, handedOn]
    rfl
  | union members =>
    cases b <;> cases kind
    cases members <;> rfl

end Shape
end Schemata

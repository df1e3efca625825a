import Mathlib
import Schemata.Proofs.Library.Given
import Schemata.Proofs.Node.Tidy
import Schemata.Proofs.Validation.Calls

/-! Nodes obtained by any chain of public operations, merges included. The forced header of `nil` is
changed by merges alone; a facet comes from the newest merge that brings it. -/

namespace Schemata

variable {g : Graph} {n : Node}

/-! Merges. -/

/-- What the merges into a node, newest first, bring to a facet that its header has from the start: those
that only fill gaps bring nothing. -/
def Merge.brought {α : Type} (facet : Header → Option α) (row : List (MergeMode × Node)) : Option α :=
  row.findSome? fun e => if e.1 = .inherit then none else facet e.2.header

theorem Merge.singular_of_or {α : Type} (mode : MergeMode) (source before : Option α) (forced : α) :
    singular mode (before.or (some forced)) source =
      ((if mode = .inherit then none else source).or before).or (some forced) := by
  cases mode <;> cases source <;> cases before <;> rfl

theorem Merge.brought_cons {α : Type} (facet : Header → Option α) (mode : MergeMode) (s : Node)
    (row : List (MergeMode × Node)) : brought facet ((mode, s) :: row) =
      (if mode = .inherit then none else facet s.header).or (brought facet row) := by
  rw [brought, List.findSome?_cons]
  dsimp only
  cases (if mode = .inherit then none else facet s.header) <;> rfl

theorem Merge.singular_brought {α : Type} {facet : Header → Option α} {row : List (MergeMode × Node)}
    {before : Option α} {forced : α} (h : before = (brought facet row).or (some forced))
    (mode : MergeMode) (s : Node) :
    singular mode before (facet s.header) = (brought facet ((mode, s) :: row)).or (some forced) := by
  rw [h, singular_of_or, brought_cons]

namespace Library

open Merge

/-- Nodes obtained by any chain of public operations, with the merges made into each of them, newest
first. -/
inductive Obtained : List (MergeMode × Node) → Node → Prop
  | given {g : Graph} {l : Library} {n : Node} (reached : Reached g l) (gives : l.Gives g n) :
      Obtained [] n
  | step {row : List (MergeMode × Node)} {g : Graph} {l : Library} {n m : Node} (h : Obtained row n)
      (reached : Reached g l) (step : g.Step n m) : Obtained [] m
  | alternative {row : List (MergeMode × Node)} {n a : Node} {list : List Node} (h : Obtained row n)
      (found : n.alternatives? = some list) (mem : a ∈ list) : Obtained [] a
  | merged {row row' : List (MergeMode × Node)} {t s : Node} (target : Obtained row t)
      (source : Obtained row' s) (mode : MergeMode) : Obtained ((mode, s) :: row) (t.merge s mode)
  | numbered {row : List (MergeMode × Node)} {n : Node} (h : Obtained row n) (id : NodeId) :
      Obtained row { n with id := some id }

variable {row : List (MergeMode × Node)}

theorem Obtained.holdsBuilt (h : Obtained row n) : n.HoldsBuilt := by
  induction h with
  | given reached gives => exact (gives.built reached).holdsBuilt
  | step _ reached step ih =>
    have opens := ih _ reached.allBuilt.bindings
    exact (opens.built_of_step step).holdsBuilt
  | alternative _ found mem ih => exact (ih.alternatives found _ mem).2
  | merged _ _ mode target source => exact target.merge source mode
  | numbered _ _ ih =>
    intro g bound
    have opens := ih g bound
    exact ⟨opens.supertypes, opens.shape, opens.ownShape⟩

theorem Obtained.header (h : Obtained row n) (nil : n.base = .nil) :
    n.header.required = (brought Header.required row).or (some false) ∧
      n.header.default? = (brought Header.default? row).or (some .null) := by
  -- What is new has the forced header and an empty row; a merge goes in front of the row of its target.
  induction h with
  | given reached gives => exact (gives.built reached).tidy.nil nil
  | step h reached step =>
    have opens := h.holdsBuilt _ reached.allBuilt.bindings
    exact (opens.built_of_step step).tidy.nil nil
  | alternative h found mem => exact (h.holdsBuilt.alternatives found _ mem).1.nil nil
  | @merged _ _ _ s _ _ mode target _ =>
    obtain ⟨required, default⟩ := target nil
    exact ⟨singular_brought required mode s, singular_brought default mode s⟩
  | numbered _ _ ih => exact ih nil

open Merge

variable {row : List (MergeMode × Node)}

/-- For every obtained node of base `nil`, a missing value comes out as the newest default that a
`refine` or `overwrite` brought, or as null if none did. The header is the forced one exactly when
the newest `required` and default brought agree with it; `inherit` alone never changes it. -/
theorem nil_forced_iff (obtained : Obtained row n) (nil : n.base = .nil) :
    (n.header.required = (brought Header.required row).or (some false) ∧
      n.header.default? = (brought Header.default? row).or (some .null)) ∧
      (∀ g o steps v, v.isMissing = true → Validator.validate? ⟨g, n, o⟩ (steps + 1) v =
        some (.ok ((brought Header.default? row).getD .null))) ∧
      (n.header.required = some false ∧ n.header.default? = some .null ↔
        brought Header.required row ≠ some true ∧
          ∀ d, brought Header.default? row = some d → d = .null) ∧
      ((∀ e ∈ row, e.1 = .inherit ∨ e.2.header.required = none ∧ e.2.header.default? = none) →
        n.header.required = some false ∧ n.header.default? = some .null) := by
  obtain ⟨required, default⟩ := obtained.header nil
  refine ⟨⟨required, default⟩, fun g o steps v absent => ?_, ?_, fun harmless => ?_⟩
  · have found : n.header.default? = some ((brought Header.default? row).getD .null) := by
      rw [default]
      cases brought Header.default? row <;> rfl
    rw [Validator.validate?, Validator.report?, Check.run_of_default found absent]
    rfl
  · rw [required, default]
    refine and_congr ?_ ?_
    · rcases brought Header.required row with _ | _ | _ <;> simp
    · rcases brought Header.default? row with _ | d <;> simp
  · have nothing {α : Type} (facet : Header → Option α)
        (unset : ∀ e ∈ row, e.1 = .inherit ∨ facet e.2.header = none) : brought facet row = none := by
      refine List.findSome?_eq_none_iff.mpr fun e he => ?_
      rcases unset e he with inherits | unset
      · exact if_pos inherits
      · rw [unset, ite_self]
    rw [required, default, nothing Header.required fun e he => (harmless e he).imp id And.left,
      nothing Header.default? fun e he => (harmless e he).imp id And.right]
    exact ⟨rfl, rfl⟩

def countWithDefault : List Declaration :=
  [{ (DeclarationOf.named "S").extending (.name "integer") with
    details := { DeclarationDetails.blank with
      required := some true, default? := some (.number (.int 5)) } }]

def countNode : Node :=
  .extend (some 14) (some "S") .integer [.ofBase .integer]
    { Header.empty with required := some true, default? := some (.number (.int 5)) }
    (BaseType.integer.emptyShape)

theorem countWithDefault_added : ∃ a, initial.addTypes .initial countWithDefault = .ok a ∧
    a.library.type? "S" = some countNode ∧ a.library.type? "nil" = some (.ofBase .nil) := by
  refine ⟨⟨⟨15, []⟩, ⟨initial.types ++ [("S", countNode)]⟩, [countNode]⟩, ?_, rfl, rfl⟩
  cbv

theorem obtained_merge_nil (mode : MergeMode) :
    Obtained [(mode, countNode)] ((Node.ofBase .nil).merge countNode mode) := by
  obtain ⟨a, added, source, target⟩ := countWithDefault_added
  have reached : Reached a.graph a.library := .added .initial added
  exact .merged (.given reached (.added target .refl)) (.given reached (.added source .refl)) mode

theorem nil_forced_iff_of_inherit :
    let m := (Node.ofBase .nil).merge countNode .inherit
    Obtained [(.inherit, countNode)] m ∧ m.base = .nil ∧
      m.header.required = some false ∧ m.header.default? = some .null ∧
      ∀ g o, Validator.validate? ⟨g, m, o⟩ 1 .undefined = some (.ok .null) := by
  intro m
  have obtained : Obtained [(.inherit, countNode)] m := obtained_merge_nil .inherit
  obtain ⟨-, missing, -, forced⟩ := nil_forced_iff obtained rfl
  obtain ⟨required, default⟩ := forced (by simp)
  exact ⟨obtained, rfl, required, default, fun g o => missing g o 0 .undefined rfl⟩

/-- Refining `nil` by a number with default 5 makes null come out as 5. -/
theorem not_nil_forced : ∃ a, initial.addTypes .initial countWithDefault = .ok a ∧
    ∃ s, a.library.type? "S" = some s ∧ ∃ z, a.library.type? "nil" = some z ∧
      let m := z.merge s .refine
      Obtained [(.refine, s)] m ∧ m.base = .nil ∧
        ¬(m.header.required = some false ∧ m.header.default? = some .null) ∧
        ∀ o, Validator.validate? ⟨a.graph, m, o⟩ 1 .null = some (.ok (.number (.int 5))) := by
  obtain ⟨a, added, source, target⟩ := countWithDefault_added
  refine ⟨a, added, _, source, _, target, obtained_merge_nil .refine, rfl, ?_, fun o => rfl⟩
  rintro ⟨required, -⟩
  have required : some true = some false := required
  cases required

end Library

end Schemata

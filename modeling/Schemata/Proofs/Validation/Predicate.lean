import Mathlib
import Schemata.Library.Basic
import Schemata.Proofs.Node.Alternatives
import Schemata.Proofs.Validation.Acceptance

/-! The `typeOf` predicate. The guard of an object type does not show it values that are not
objects, since the object check rejects them. But a type with own object facets may have
alternatives of other families, which let such a value through. -/

namespace Schemata

def Node.withoutTypeOf (n : Node) : Node := { n with header := { n.header with typeOf := none } }

namespace Check

variable {g : Graph} {firstOnly : Bool} {fuel : Nat} {o : ValidationOptions} {n : Node}
  {l : Location} {v w : Value}

/-- The guard of an object type does not show the value to `typeOf`. -/
def skipsTypeOf (n : Node) (v : Value) : Bool := (n.shape.isObject || n.ownShape.isObject) && !v.isObject

theorem passes_iff {p : Predicate} (typeOf : n.header.typeOf = some p) :
    passes n v = true ↔ skipsTypeOf n v = true ∨ p v = true := by
  rw [passes, typeOf, Bool.or_eq_true]
  rfl

theorem enters_withoutTypeOf (present : v.isMissing = false) : Enters n.withoutTypeOf v :=
  ⟨present, passes_of_none rfl v⟩

theorem alternatives?_withoutTypeOf (n : Node) : n.withoutTypeOf.alternatives? = n.alternatives? := by
  rw [Node.alternatives?_eq, Node.alternatives?_eq]
  rfl

theorem run_withoutTypeOf (enters : Enters n v) :
    run g firstOnly fuel o n.withoutTypeOf l v = run g firstOnly fuel o n l v := by
  -- The predicate is looked at by the guard alone, and both types let the value in.
  have enters' := enters_withoutTypeOf (n := n) enters.present
  cases fuel with
  | zero => rfl
  | succ fuel =>
    rw [run_succ, run_succ, alternatives?_withoutTypeOf]
    rcases n.alternatives? with _ | (_ | ⟨only, _ | _⟩)
    all_goals
      dsimp only
      rw [guarded_of_enters enters, guarded_of_enters enters']
    rfl

theorem isObject_eq_false_of_accepts (single : n.alternatives? = none) (present : v.isMissing = false)
    (other : v.isObject = false) (h : run g firstOnly fuel o n l v = some (.accept w)) :
    n.shape.isObject = false := by
  obtain ⟨-, before, rfl, ⟨-, h⟩ | ⟨alternatives, found, -⟩⟩ := accept_cases_of_present present h
  · rcases hs : n.shape with _ | _ | _ | _ | _ | _ | _ | f | _
    case object =>
      rw [shape_object hs] at h
      obtain ⟨given, -, -, rfl, -⟩ := object_eq_accept_iff.mp h
      cases other
    all_goals rfl
  · rw [single] at found
    cases found

theorem exists_alternative_of_overlooked (enters : Enters n v) (overlooked : skipsTypeOf n v = true)
    (h : run g firstOnly fuel o n l v = some (.accept w)) :
    ∃ alt ∈ n.alternatives, alt.shape.isObject = false ∧
      ∃ fuel, run g firstOnly fuel o alt l v = some (.accept w) := by
  have other : v.isObject = false := by
    rw [skipsTypeOf, Bool.and_eq_true, Bool.not_eq_true'] at overlooked
    exact overlooked.2
  obtain ⟨-, before, -, ⟨single, -⟩ | ⟨alternatives, found, alt, ha, h'⟩⟩ :=
    accept_cases_of_present enters.present h
  · refine ⟨n, ?_, isObject_eq_false_of_accepts single enters.present other h, fuel, h⟩
    rw [Node.alternatives_of_none single]
    exact List.mem_singleton_self n
  · have single : alt.alternatives? = none := Node.alternatives?_of_mem found ha
    refine ⟨alt, ?_, isObject_eq_false_of_accepts single enters.present other h', before, h'⟩
    rw [Node.alternatives_of_some found]
    exact ha

end Check

namespace Validator

/-- A type with `typeOf` accepts a value that is not missing exactly when it does without, and the
predicate holds or is skipped: the value is not an object, the own facets are, and an alternative of
another family accepts it. -/
theorem validate?_typeOf_iff {g : Graph} {n : Node} {o : ValidationOptions} {p : Predicate}
    {steps : Nat} {value : Value} {x : Except (List ValidationError) Value}
    (typeOf : n.header.typeOf = some p) (present : value.isMissing = false)
    (decided : validate? ⟨g, n, o⟩ steps value = some x) :
    (∃ w, x = .ok w) ↔
      (∃ steps w, validate? ⟨g, n.withoutTypeOf, o⟩ steps value = some (.ok w)) ∧
        (p value = true ∨ Check.skipsTypeOf n value = true ∧
          ∃ alt ∈ n.alternatives, alt.shape.isObject = false ∧
            ∃ steps w, validate? ⟨g, alt, o⟩ steps value = some (.ok w)) := by
  constructor
  · rintro ⟨w, rfl⟩
    have accepted := validate?_eq_ok_iff.mp decided
    have enters : Check.Enters n value := by
      cases steps with
      | zero => cases accepted
      | succ steps =>
        rcases Check.accept_cases accepted with ⟨absent, -⟩ | ⟨enters, -⟩
        · rw [present] at absent
          cases absent
        · exact enters
    have withoutTypeOf : validate? ⟨g, n.withoutTypeOf, o⟩ steps value = some (.ok w) :=
      validate?_eq_ok_iff.mpr ((Check.run_withoutTypeOf enters).trans accepted)
    refine ⟨⟨steps, w, withoutTypeOf⟩, ?_⟩
    rcases (Check.passes_iff typeOf).mp enters.passes with overlooked | holds
    · obtain ⟨alt, ha, other, fuel, h⟩ :=
        Check.exists_alternative_of_overlooked enters overlooked accepted
      exact .inr ⟨overlooked, alt, ha, other, fuel, w, validate?_eq_ok_iff.mpr h⟩
    · exact .inl holds
  · rintro ⟨⟨steps', w, withoutTypeOf⟩, shown⟩
    have passes := (Check.passes_iff typeOf).mpr (shown.symm.imp And.left id)
    have accepted := (Check.run_withoutTypeOf ⟨present, passes⟩).symm.trans
      (validate?_eq_ok_iff.mp withoutTypeOf)
    obtain ⟨r, reported, rfl⟩ := Option.map_eq_some_iff.mp decided
    obtain rfl := Check.run_unique accepted reported
    exact ⟨w, rfl⟩

def objectsOrTexts : List Declaration :=
  [{ DeclarationOf.named "U" with anyOf := some [.name "object", .name "string"] },
    ((DeclarationOf.named "T").extending (.name "U")).withPredicate fun _ => false]

def eitherNode : Node :=
  .extend (some 14) (some "U") .union [Node.ofBase .union] Header.empty
    (.union [Node.ofBase .object, Node.ofBase .string])

def refusingNode : Node :=
  .extend (some 15) (some "T") .union [eitherNode]
    { Header.empty with typeOf := some fun _ => false } .emptyObject

theorem objectsOrTexts_added : ∃ a, Library.initial.addTypes .initial objectsOrTexts = .ok a ∧
    a.graph = ⟨16, []⟩ ∧ a.library.type? "T" = some refusingNode := by
  refine ⟨⟨⟨16, []⟩, ⟨Library.initial.types ++ [("U", eitherNode), ("T", refusingNode)]⟩,
    [eitherNode, refusingNode]⟩, ?_, rfl, ?_⟩
  · cbv
  · rfl

theorem refusing_accepts_text :
    validate? ⟨⟨16, []⟩, refusingNode, .standard⟩ 2 (.string "hello") =
      some (.ok (.string "hello")) := by
  cbv

theorem validate?_typeOf_iff_of_text : Check.skipsTypeOf refusingNode (.string "hello") = true ∧
    ∃ alt ∈ refusingNode.alternatives, alt.shape.isObject = false ∧
      ∃ steps w, validate? ⟨⟨16, []⟩, alt, .standard⟩ steps (.string "hello") = some (.ok w) := by
  obtain ⟨-, holds | overlooked⟩ :=
    (validate?_typeOf_iff rfl rfl refusing_accepts_text).mp ⟨_, rfl⟩
  · cases holds
  · exact overlooked

/-- A text is accepted by a type whose `typeOf` holds of nothing. -/
theorem not_typeOf_holds : ∃ a, Library.initial.addTypes .initial objectsOrTexts = .ok a ∧
    ∃ n p, a.library.type? "T" = some n ∧ n.header.typeOf = some p ∧ p (.string "hello") = false ∧
      validate? ⟨a.graph, n, .standard⟩ 2 (.string "hello") = some (.ok (.string "hello")) := by
  obtain ⟨a, added, graph, found⟩ := objectsOrTexts_added
  refine ⟨a, added, refusingNode, _, found, rfl, rfl, ?_⟩
  rw [graph]
  exact refusing_accepts_text

end Validator
end Schemata

import Mathlib
import Schemata.Proofs.Node.Tidy
import Schemata.Proofs.Validation.Calls

/-! Types that extend another one and declare nothing else. Their facets are merged once more, which
changes nothing in facets that came from a merge, and so it is for each alternative. Only names
differ, which show in `typeOf` errors and in a discriminator without a value. -/

namespace Schemata

namespace Node

structure Echoes (n m : Node) : Prop where
  base : n.base = m.base
  required : n.header.required = m.header.required
  default? : n.header.default? = m.header.default?
  typeOf : n.header.typeOf = m.header.typeOf
  shape : n.shape = m.shape.handedOn

theorem echoes_of_effective {n m : Node} (tidy : m.Tidy) {b : BaseType} (base : n.base = m.base)
    (facets : (n.header, n.shape) = effective m.base [m] Header.empty b.emptyShape) :
    n.Echoes m := by
  have header : n.header = (effective m.base [m] Header.empty b.emptyShape).1 := congrArg Prod.fst facets
  have shape : n.shape = (effective m.base [m] Header.empty b.emptyShape).2 := congrArg Prod.snd facets
  have typeOf : n.header.typeOf = m.header.typeOf := by
    rw [header, effective]
    dsimp only
    split <;> rfl
  have filled : n.header.required = m.header.required ∧ n.header.default? = m.header.default? := by
    rw [header, effective]
    dsimp only
    by_cases nil : m.base = .nil
    · rw [if_pos nil, (tidy.nil nil).1, (tidy.nil nil).2]
      exact ⟨rfl, rfl⟩
    · rw [if_neg nil]
      exact ⟨rfl, rfl⟩
  refine ⟨base, filled.1, filled.2, typeOf, ?_⟩
  rw [shape, effective]
  dsimp only
  rw [Shape.merge_refine_eq]
  exact Shape.merge_inherit_eq tidy.shape tidy.kind

theorem specialize_singleton (n a : Node) : n.specialize [a] =
    some ⟨none, n.name, a.base, [], (effective a.base [a] n.ownHeader n.ownShape).1,
      (effective a.base [a] n.ownHeader n.ownShape).2, n.ownHeader, n.ownShape, false⟩ := by
  refine specialize_eq_some_iff.mpr ⟨a, [], rfl, ?_, rfl⟩
  rw [List.all_cons, List.all_nil, Bool.and_true]
  exact a.family.isCompatible_self

theorem cartesianProduct_singleton {α : Type} (list : List α) :
    cartesianProduct [list] = list.map fun x => [x] := by
  simp only [cartesianProduct, List.map_cons, List.map_nil]
  exact List.flatMap_singleton' list ▸ List.map_eq_flatMap.symm

/-- A type that extends another one and declares nothing else. -/
def plainly (id : Option NodeId) (name : Option String) (n : Node) (b : BaseType) : Node :=
  extend id name n.base [n] Header.empty b.emptyShape

theorem Tidy.plainly_echoes {n : Node} (tidy : n.Tidy) (id : Option NodeId) (name : Option String)
    (b : BaseType) : (n.plainly id name b).Echoes n :=
  echoes_of_effective tidy rfl rfl

theorem alternatives?_plainly {n : Node} (tidy : ∀ a ∈ n.alternatives, a.Tidy)
    (id : Option NodeId) (name : Option String) (b : BaseType) :
    Option.Rel (List.Forall₂ fun e a => Echoes e a ∧ e.alternatives? = none)
      (n.plainly id name b).alternatives? n.alternatives? := by
  have memberless : (n.plainly id name b).ownShape.members = [] := Shape.members_emptyShape b
  have supertypes : (n.plainly id name b).supertypes = [n] := rfl
  rcases found : n.alternatives? with _ | list
  · have alone : ∀ s ∈ (n.plainly id name b).supertypes, s.alternatives? = none := by
      intro s hs
      obtain rfl := List.mem_singleton.mp hs
      exact found
    rw [alternatives?_of_alone memberless alone]
    exact .none
  · have tidy : ∀ a ∈ list, a.Tidy := by
      rwa [alternatives_of_some found] at tidy
    have several : ¬∀ s ∈ (n.plainly id name b).supertypes, s.alternatives? = none := by
      intro alone
      have none := alone n List.mem_cons_self
      rw [found] at none
      cases none
    rw [alternatives?_of_several memberless several, supertypes, List.map_cons, List.map_nil,
      cartesianProduct_singleton, alternatives_of_some found]
    refine .some ?_
    clear found
    induction list with
    | nil => exact .nil
    | cons a rest ih =>
      rw [List.map_cons, List.filterMap_cons, specialize_singleton]
      refine .cons ⟨?_, ?_⟩ (ih fun a ha => tidy a (List.mem_cons_of_mem _ ha))
      · exact echoes_of_effective (tidy a List.mem_cons_self) rfl rfl
      · exact alternatives?_specialize memberless (specialize_singleton _ a)

end Node

namespace Check

variable {g : Graph} {firstOnly : Bool} {fuel : Nat} {o : ValidationOptions} {n m : Node}

/-- The check of a type does not depend on its name. -/
structure Nameless (n : Node) : Prop where
  typeOf : n.header.typeOf = none
  told : ∀ f, n.shape = .object f → f.discriminator.isSome = true → f.discriminatorValue.isSome = true

/-- No type name is in `ignoreRequired`, or it is `all`. -/
def Uniform (o : ValidationOptions) : Prop := o.ignoreRequired = .none ∨ o.ignoreRequired = .all

theorem Uniform.ignoresType (uniform : Uniform o) (name name' : Option String) :
    o.ignoresType name = o.ignoresType name' := by
  unfold ValidationOptions.ignoresType
  rcases uniform with h | h <;> rw [h] <;> cases name <;> cases name' <;> rfl

theorem guarded_echo (uniform : Uniform o) (echo : n.Echoes m) (typeOf : m.header.typeOf = none)
    (acceptsNil : Bool) (part : Part) : guarded n acceptsNil o part = guarded m acceptsNil o part := by
  funext l v
  have same : missing n acceptsNil o l v = missing m acceptsNil o l v := by
    unfold missing Node.isRequired Header.isRequired
    rw [echo.default?, echo.required, uniform.ignoresType n.name m.name]
  rw [guarded_eq, guarded_eq, same, passes_of_none typeOf, passes_of_none (echo.typeOf.trans typeOf)]
  rfl

theorem object_handedOn {f : ObjectFacets Ref} (told : f.discriminator.isSome = true → f.discriminatorValue.isSome = true)
    (name name' : Option String) (rules : Keyed PropertyRule) (properties : List (String × Property Ref)) :
    object { f with properties := properties } name o firstOnly rules =
      object f name' o firstOnly rules := by
  have same : discriminator? { f with properties := properties } name = discriminator? f name' := by
    unfold discriminator?
    dsimp only
    rcases hd : f.discriminator with _ | key
    · rfl
    · obtain ⟨text, ht⟩ := Option.isSome_iff_exists.mp (told (by rw [hd]; rfl))
      rw [ht]
      rfl
  funext l v
  rw [object_eq, object_eq]
  unfold discriminated
  rw [same]
  rfl

theorem propertyRules_handedOn (part : Node → Part) (properties : List (String × Property Ref)) :
    propertyRules g part o (properties.map fun (k, p) => (k, { p with inherited := true })) =
      propertyRules g part o properties := by
  rw [propertyRules, List.map_map]
  rfl

theorem shape_echo (echo : n.Echoes m) (nameless : Nameless m) (part : Node → Part) :
    shape g firstOnly o part n = shape g firstOnly o part m := by
  funext l v
  have same := echo.shape
  rcases hs : m.shape with _ | f | f | _ | _ | f | f | f | members <;> rw [hs] at same
  case object =>
    have told := nameless.told f hs
    rw [shape_object hs, shape_object same, propertyRules_handedOn, object_handedOn told n.name m.name]
  all_goals
    unfold shape
    rw [hs, same, echo.base]
    rfl

theorem run_echo (uniform : Uniform o) (echo : n.Echoes m) (nameless : Nameless m)
    (single : n.alternatives? = none) (single' : m.alternatives? = none) :
    run g firstOnly fuel o n = run g firstOnly fuel o m := by
  cases fuel with
  | zero => rfl
  | succ fuel =>
    rw [run_single single, run_single single', shape_echo echo nameless,
      guarded_echo uniform echo nameless.typeOf]

theorem needsTrial_echo (echo : n.Echoes m) : needsTrial n = needsTrial m := by
  unfold needsTrial
  rw [echo.shape]
  cases m.shape <;> rfl

theorem asCandidate_echo (uniform : Uniform o) (echo : n.Echoes m) (nameless : Nameless m)
    (single : n.alternatives? = none) (single' : m.alternatives? = none) :
    asCandidate g firstOnly fuel o n = asCandidate g firstOnly fuel o m := by
  have uniform' : Uniform o.precheck := uniform
  unfold asCandidate
  rw [needsTrial_echo echo, run_echo uniform echo nameless single single',
    run_echo uniform' echo nameless single single']

theorem run_plainly (uniform : Uniform o) (tidy : m.Tidy) (typeOf : m.header.typeOf = none)
    (each : ∀ a ∈ m.alternatives, a.Tidy ∧ Nameless a) (id : Option NodeId) (name : Option String)
    (b : BaseType) : run g firstOnly fuel o (m.plainly id name b) = run g firstOnly fuel o m := by
  have echo := tidy.plainly_echoes id name b
  have found := Node.alternatives?_plainly (fun a ha => (each a ha).1) id name b
  cases fuel with
  | zero => rfl
  | succ fuel =>
    rcases hm : m.alternatives? with _ | list <;>
      rcases he : (m.plainly id name b).alternatives? with _ | echoes <;> rw [hm, he] at found
    case none.some => cases found
    case some.none => cases found
    case none.none =>
      have self : m ∈ m.alternatives := by
        rw [Node.alternatives_of_none hm]
        exact List.mem_singleton_self m
      exact run_echo uniform echo (each m self).2 he hm
    case some.some =>
      obtain ⟨found⟩ := found
      rw [Node.alternatives_of_some hm] at each
      have alike := forall₂_imp_of_mem found.flip fun a ha e h =>
        have single : a.alternatives? = none := Node.alternatives?_of_mem hm ha
        have nameless := (each a ha).2
        show a.base = e.base ∧ run g firstOnly fuel o a = run g firstOnly fuel o e ∧
          asCandidate g firstOnly fuel o a = asCandidate g firstOnly fuel o e from
        ⟨h.1.base.symm, (run_echo uniform h.1 nameless h.2 single).symm,
          (asCandidate_echo uniform h.1 nameless h.2 single).symm⟩
      have bases : list.map Node.base = echoes.map Node.base :=
        map_eq_of_forall₂ (alike.imp fun _ _ h => h.1)
      have nulls : (list.any fun alt => alt.base == .nil) = echoes.any fun alt => alt.base == .nil := by
        have mapped := congrArg (List.any · (· == BaseType.nil)) bases
        rwa [List.any_map, List.any_map] at mapped
      have candidates : list.map (asCandidate g firstOnly fuel o) =
          echoes.map (asCandidate g firstOnly fuel o) :=
        map_eq_of_forall₂ (alike.imp fun _ _ h => h.2.2)
      by_cases only : ∃ a, list = [a]
      · obtain ⟨a, rfl⟩ := only
        cases alike with
        | cons h rest =>
          cases rest
          rw [run_only he, run_only hm, h.1, h.2.1]
          exact guarded_echo uniform echo typeOf _ _
      · have several : Several m list := ⟨hm, fun a h => only ⟨a, h⟩⟩
        have several' : Several (m.plainly id name b) echoes := by
          refine ⟨he, fun e h => only ?_⟩
          subst h
          cases alike with
          | @cons a _ _ _ _ rest =>
            cases rest
            exact ⟨a, rfl⟩
        rw [run_several several, run_several several', nulls, candidates]
        exact guarded_echo uniform echo typeOf _ _

end Check

theorem DeclarationOf.shapeOf?_blank (type : String) (b : BaseType) :
    shapeOf? type .blank b none [] [] = .ok b.emptyShape := by
  cases b <;> rfl

theorem DeclarationOf.Describes.eq_plainly {k : Known} {name : Option String} {r : TypeRef}
    {id : NodeId} {e s : Node}
    (h : (DeclarationOf.extending { DeclarationOf.blank with name := name } r).Describes k id e)
    (supertypes : e.supertypes = [s]) : ∃ b, e = s.plainly (some id) name b := by
  obtain ⟨-, -, items, properties, union, shaped, made⟩ := h
  obtain ⟨first, rest, rfl, -, rfl⟩ := Building.compose_eq_pure made
  obtain ⟨rfl, rfl⟩ := List.cons.inj supertypes
  cases items
  cases properties
  cases union
  rw [ownShape_pure, Building.lift_eq_pure] at shaped
  obtain rfl := Except.ok.inj ((shapeOf?_blank _ _).symm.trans shaped)
  exact ⟨_, rfl⟩

namespace Validator

/-- A type that extends another one and declares nothing else has the same outcome in as many steps,
if there is no `typeOf`, discriminators come with their value, and `ignoreRequired` names no type.
-/
theorem validate?_plainly {k : Known} {name : Option String} {r : TypeRef} {id : NodeId} {e s : Node}
    (describes : (DeclarationOf.extending { DeclarationOf.blank with name := name } r).Describes k id e)
    (supertypes : e.supertypes = [s]) (built : s.Built) (typeOf : s.header.typeOf = none)
    (typeOfs : ∀ a ∈ s.alternatives, a.header.typeOf = none)
    (told : ∀ a ∈ s.alternatives, ∀ f, a.shape = .object f → f.discriminator.isSome = true →
      f.discriminatorValue.isSome = true)
    {o : ValidationOptions} (uniform : o.ignoreRequired = .none ∨ o.ignoreRequired = .all) (g : Graph)
    (value : Value) :
    (∀ steps, validate? ⟨g, e, o⟩ steps value = validate? ⟨g, s, o⟩ steps value) ∧
      ∀ steps steps' x x', validate? ⟨g, e, o⟩ steps value = some x →
        validate? ⟨g, s, o⟩ steps' value = some x' → x = x' := by
  obtain ⟨b, rfl⟩ := describes.eq_plainly supertypes
  have each : ∀ a ∈ s.alternatives, a.Tidy ∧ Check.Nameless a := fun a ha =>
    ⟨built.tidy_alternative ha, typeOfs a ha, told a ha⟩
  have same (steps : Nat) : validate? ⟨g, s.plainly (some id) name b, o⟩ steps value =
      validate? ⟨g, s, o⟩ steps value := by
    unfold validate? report?
    rw [Check.run_plainly uniform built.tidy typeOf each]
  refine ⟨same, fun steps steps' x x' h h' => ?_⟩
  rw [same] at h
  obtain ⟨r, decided, rfl⟩ := Option.map_eq_some_iff.mp h
  obtain ⟨r', decided', rfl⟩ := Option.map_eq_some_iff.mp h'
  obtain rfl := Check.run_unique decided decided'
  rfl

def eitherAndAgain : List Declaration :=
  [{ DeclarationOf.named "U" with anyOf := some [.name "string", .name "integer"] },
    DeclarationOf.extending { DeclarationOf.blank with name := some "E" } (.name "U")]

def textOrCountNode : Node :=
  .extend (some 14) (some "U") .union [.ofBase .union] Header.empty
    (.union [.ofBase .string, .ofBase .integer])

def againNode : Node := textOrCountNode.plainly (some 15) (some "E") .string

theorem eitherAndAgain_added : ∃ a, Library.initial.addTypes .initial eitherAndAgain = .ok a ∧
    a.library.type? "U" = some textOrCountNode ∧ a.library.type? "E" = some againNode := by
  refine ⟨⟨⟨16, []⟩, ⟨Library.initial.types ++ [("U", textOrCountNode), ("E", againNode)]⟩,
    [textOrCountNode, againNode]⟩, ?_, rfl, rfl⟩
  cbv

theorem validate?_plainly_of_union : ∃ a e s,
    Library.initial.addTypes .initial eitherAndAgain = .ok a ∧ a.library.type? "E" = some e ∧
      a.library.type? "U" = some s ∧ e.supertypes = [s] ∧ s.Built ∧
      validate? ⟨a.graph, s, .coercing⟩ 2 (.number (.uint 5)) = some (.ok (.string "5")) ∧
      validate? ⟨a.graph, e, .coercing⟩ 2 (.number (.uint 5)) = some (.ok (.string "5")) := by
  obtain ⟨a, added, union, again⟩ := eitherAndAgain_added
  have reached := Library.Reached.added .initial added
  have built := reached.allBuilt.types _ (Keyed.mem_of_get? union)
  obtain ⟨id, e, found, describes⟩ := (Library.Grown.of_addTypes
    Library.Reached.initial.closed.numbered added).added _ (List.mem_cons_of_mem _ List.mem_cons_self)
  obtain rfl : againNode = e := Option.some.inj (again.symm.trans found)
  have members : textOrCountNode.alternatives = [.ofBase .string, .ofBase .integer] := rfl
  have same := validate?_plainly describes rfl built rfl
    (by rw [members]; simp [Node.ofBase, Header.empty])
    (by rw [members]; simp [Node.ofBase, BaseType.emptyShape, Shape.emptyString, Shape.emptyNumber])
    (.inl rfl : ValidationOptions.coercing.ignoreRequired = .none ∨ _) a.graph
    (.number (.uint 5))
  have accepted : validate? ⟨a.graph, textOrCountNode, .coercing⟩ 2 (.number (.uint 5)) =
      some (.ok (.string "5")) := rfl
  exact ⟨a, againNode, textOrCountNode, added, again, union, rfl, built, accepted,
    (same.1 2).trans accepted⟩

end Validator
end Schemata

import Schemata.Proofs.Node.Leaves
import Schemata.Proofs.Validation.Disjunction

/-! Merged unions. A merge changes effective facets only, while validation goes by alternatives,
which come from own members and supertypes. So a merged union is the disjunction of its
alternatives, and of its members as long as these are the declared ones. -/

namespace Schemata

namespace Node

variable {t s : Node} {ts ss : List Node} {mode : MergeMode}

theorem members_merge (target : t.shape = .union ts) (source : s.shape = .union ss) :
    (t.merge s mode).members = Merge.members mode ts ss := by
  show (t.shape.merge mode s.shape).members = _
  rw [target, source]
  rfl

theorem shape_merge (target : t.shape = .union ts) (source : s.shape = .union ss) :
    (t.merge s mode).shape = .union (t.merge s mode).members := by
  rw [members_merge target source]
  show t.shape.merge mode s.shape = _
  rw [target, source]
  rfl

theorem alternatives?_merge (t s : Node) (mode : MergeMode) :
    (t.merge s mode).alternatives? = t.alternatives? := by
  have same : (t.merge s mode).specialize = t.specialize := rfl
  rw [alternatives?_eq, alternatives?_eq, same]
  rfl

theorem alternatives_merge_of_declared (declares : t.ownShape.members ≠ [])
    (lists : (t.merge s mode).members = t.ownShape.members) :
    (t.merge s mode).alternatives = (t.merge s mode).members.flatMap alternatives := by
  apply alternatives_of_some
  rw [alternatives?_merge, alternatives?_of_members declares, lists]

theorem alternatives_merge_of_extended (undeclared : t.ownShape.members = [])
    (other : t.alternatives ≠ [t]) : (t.merge s mode).alternatives =
      (cartesianProduct (t.supertypes.map alternatives)).filterMap t.specialize := by
  have several : ¬∀ s ∈ t.supertypes, s.alternatives? = none := fun alone =>
    other (alternatives_of_none (alternatives?_of_alone undeclared alone))
  apply alternatives_of_some
  rw [alternatives?_merge, alternatives?_of_several undeclared several]

theorem alternatives_merge_of_alone (alone : t.alternatives = [t]) :
    (t.merge s mode).alternatives = [t.merge s mode] := by
  apply alternatives_of_none
  rw [alternatives?_merge]
  exact alternatives?_eq_none_iff.mpr alone

end Node

namespace Validator

variable {g : Graph} {n : Node} {v : Value}

theorem accepts_iff_exists_alternative (plain : n.header.typeOf = none) (present : v.isMissing = false) :
    Accepts ⟨g, n, .strict⟩ v ↔ ∃ alt ∈ n.alternatives, Accepts ⟨g, alt, .strict⟩ v := by
  rcases found : n.alternatives? with _ | list
  · simp [Node.alternatives_of_none found]
  · have passes : Check.passes n v = true := Check.passes_of_none plain v
    rw [accepts_iff_of_alternatives found present, Node.alternatives_of_some found]
    exact and_iff_right passes

variable {t s : Node} {ts ss : List Node}

/-- A merged union without `typeOf` accepts a value that is not missing exactly when one of its
alternatives does. These are the flattened members that it lists, if those are the target's declared
ones; a target without declared members is specialized to each combination of its supertypes'
alternatives. -/
theorem merged_union_accepts_iff (target : t.shape = .union ts) (source : s.shape = .union ss)
    (mode : MergeMode) :
    let m := t.merge s mode
    m.shape = .union (Merge.members mode ts ss) ∧
      (ss = [] ∨ mode = .inherit ∧ ts ≠ [] → m.members = ts) ∧
      (t.ownShape.members ≠ [] → m.members = t.ownShape.members →
        m.alternatives = m.members.flatMap Node.alternatives) ∧
      (t.alternatives = [t] → m.members = [] → m.alternatives = [m]) ∧
      (t.ownShape.members = [] → t.alternatives ≠ [t] → m.members = ts →
        m.alternatives = (cartesianProduct (t.supertypes.map Node.alternatives)).filterMap t.specialize) ∧
      ∀ g v, v.isMissing = false → m.header.typeOf = none →
        (∃ steps x, validate? ⟨g, m, .strict⟩ steps v = some x) ∧
        (Accepts ⟨g, m, .strict⟩ v ↔ ∃ alt ∈ m.alternatives, Accepts ⟨g, alt, .strict⟩ v) ∧
        (t.ownShape.members ≠ [] → m.members = t.ownShape.members →
          (Accepts ⟨g, m, .strict⟩ v ↔
            ∃ alt ∈ m.members.flatMap Node.alternatives, Accepts ⟨g, alt, .strict⟩ v)) ∧
        (t.alternatives = [t] → m.members = [] → ¬Accepts ⟨g, m, .strict⟩ v) := by
  intro m
  have shape : m.shape = .union m.members := Node.shape_merge target source
  have members : m.members = Merge.members mode ts ss := Node.members_merge target source
  refine ⟨members ▸ shape, fun keeps => ?_, Node.alternatives_merge_of_declared,
    fun alone _ => Node.alternatives_merge_of_alone alone,
    fun undeclared other _ => Node.alternatives_merge_of_extended undeclared other, ?_⟩
  · rw [members]
    rcases keeps with rfl | ⟨rfl, some⟩
    · rfl
    · simp [Merge.members, some]
  · intro g v present plain
    have ends : ∃ steps x, validate? ⟨g, m, .strict⟩ steps v = some x :=
      (exists_validate?_iff _ _).mpr (Check.exists_run_strict g false m [] v)
    have accepts := accepts_iff_exists_alternative (g := g) plain present
    refine ⟨ends, accepts, fun declares lists => ?_, fun alone empty => ?_⟩
    · rw [accepts, Node.alternatives_merge_of_declared declares lists]
    · have single : m.alternatives? = none :=
        Node.alternatives?_eq_none_iff.mpr (Node.alternatives_merge_of_alone alone)
      rw [empty] at shape
      rw [accepts_strict_iff]
      rintro ⟨steps, w, accepted⟩
      exact Check.not_accepts_empty single shape present accepted

def unionsAndExtension : List Declaration :=
  [{ DeclarationOf.named "U" with anyOf := some [.name "string", .name "number"] },
    { DeclarationOf.named "V" with anyOf := some [.name "boolean"] },
    { (DeclarationOf.named "T").extending (.name "U") with
      details := { DeclarationDetails.blank with minLength := some 3 } }]

def textOrNumberNode : Node :=
  .extend (some 14) (some "U") .union [.ofBase .union] Header.empty
    (.union [.ofBase .string, .ofBase .number])

def booleansNode : Node :=
  .extend (some 15) (some "V") .union [.ofBase .union] Header.empty (.union [.ofBase .boolean])

def longTextOrNumberNode : Node :=
  .extend (some 16) (some "T") .union [textOrNumberNode] Header.empty
    (.string ⟨[], [], some 3, none⟩)

theorem unionsAndExtension_added : ∃ a,
    Library.initial.addTypes .initial unionsAndExtension = .ok a ∧
      a.library.type? "U" = some textOrNumberNode ∧ a.library.type? "V" = some booleansNode ∧
      a.library.type? "T" = some longTextOrNumberNode ∧
      a.library.type? "union" = some (.ofBase .union) := by
  refine ⟨⟨⟨17, []⟩, ⟨Library.initial.types ++
    [("U", textOrNumberNode), ("V", booleansNode), ("T", longTextOrNumberNode)]⟩,
    [textOrNumberNode, booleansNode, longTextOrNumberNode]⟩, ?_, rfl, rfl, rfl, rfl⟩
  cbv

theorem merged_union_accepts_text :
    let m := textOrNumberNode.merge booleansNode .inherit
    textOrNumberNode.shape = .union [.ofBase .string, .ofBase .number] ∧
      booleansNode.shape = .union [.ofBase .boolean] ∧
      m.members = [.ofBase .string, .ofBase .number] ∧
      m.alternatives = m.members.flatMap Node.alternatives ∧
      ∀ g, Accepts ⟨g, m, .strict⟩ (.string "hello") := by
  intro m
  obtain ⟨-, keeps, declared, -, -, decides⟩ :=
    merged_union_accepts_iff (t := textOrNumberNode) (s := booleansNode) rfl rfl .inherit
  have members : m.members = [.ofBase .string, .ofBase .number] :=
    keeps (.inr ⟨rfl, List.cons_ne_nil _ _⟩)
  refine ⟨rfl, rfl, members, declared (List.cons_ne_nil _ _) members, fun g => ?_⟩
  obtain ⟨-, -, accepts, -⟩ := decides g (.string "hello") rfl rfl
  rw [accepts (List.cons_ne_nil _ _) members, members]
  exact ⟨.ofBase .string, List.mem_cons_self, 1, .string "hello", rfl⟩

/-- An extension of a union keeps its own facets in each alternative, and the built-in `union` is an
alternative without members. -/
theorem not_merged_union_accepts_iff : ∃ a,
    Library.initial.addTypes .initial unionsAndExtension = .ok a ∧
      ∃ t, a.library.type? "T" = some t ∧ ∃ u, a.library.type? "union" = some u ∧
        t.shape.kind = .union ∧ u.shape.kind = .union ∧
        let m := t.merge u .inherit
        m.header.typeOf = none ∧ m.alternatives ≠ m.members.flatMap Node.alternatives ∧
          ¬(Accepts ⟨a.graph, m, .strict⟩ (.string "a") ↔
            ∃ alt ∈ m.members.flatMap Node.alternatives, Accepts ⟨a.graph, alt, .strict⟩ (.string "a")) ∧
        let w := u.merge u .inherit
        w.alternatives ≠ w.members.flatMap Node.alternatives := by
  obtain ⟨a, added, -, -, extension, base⟩ := unionsAndExtension_added
  refine ⟨a, added, _, extension, _, base, rfl, rfl, rfl, fun same => ?_, fun claim => ?_, ?_⟩
  · have names : [some "T", some "T"] = [some "string", some "number"] :=
      congrArg (List.map Node.name) same
    simp at names
  · have member : Accepts ⟨a.graph, .ofBase .string, .strict⟩ (.string "a") := ⟨1, .string "a", rfl⟩
    have accepted := claim.mpr ⟨.ofBase .string, List.mem_cons_self, member⟩
    obtain ⟨steps, w, accepted⟩ := accepts_strict_iff.mp accepted
    obtain ⟨r, decided, rejected⟩ : ∃ r, Check.run a.graph false 3 .strict
      (longTextOrNumberNode.merge (.ofBase .union) .inherit) [] (.string "a") = some r ∧ r.output = none :=
      ⟨_, rfl, rfl⟩
    rw [Check.run_unique decided accepted] at rejected
    cases rejected
  · exact List.cons_ne_nil _ _

end Validator
end Schemata

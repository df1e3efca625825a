import Schemata.Proofs.Node.Declared
import Schemata.Proofs.Validation.Limits
import Schemata.Proofs.Validation.Predicate
import Schemata.Proofs.Validation.Termination

/-! `anyOf` as a disjunction. A union is validated by the flattened members, and flattening a member
with alternatives of its own drops its `typeOf`, so under strict options a union accepts what such a
member would accept without it. -/

namespace Schemata

namespace Check

variable {g : Graph} {firstOnly : Bool} {fuel fuel' : Nat} {n alt : Node} {l : Location} {v w : Value}

theorem exists_run_strict (g : Graph) (firstOnly : Bool) (n : Node) (l : Location) (v : Value) :
    ∃ fuel r, run g firstOnly fuel .strict n l v = some r := by
  have ends : Call.Ends g firstOnly ⟨.strict, n, l, v⟩ := ends_iff.mpr (not_stuck_of_unwrapped rfl)
  exact ends

theorem sooner_strict (firstOnly : Bool) :
    Sooner firstOnly ValidationOptions.strict.precheck firstOnly .strict := by
  refine ⟨rfl, ?_⟩
  cases firstOnly
  · exact .inr ⟨rfl, Nat.le_refl _, Nat.le_refl _⟩
  · exact .inl rfl

theorem trial_of_accepts (accepts : run g firstOnly fuel' .strict alt l v = some (.accept w))
    {trial : Report}
    (tried : (asCandidate g firstOnly fuel .strict alt).trial l v = some trial) : trial.errors = [] := by
  unfold Candidate.trial asCandidate at tried
  by_cases needs : needsTrial alt = true
  · rw [if_pos needs] at tried
    exact (cut_of_run (sooner_strict firstOnly) tried accepts).eq_nil_iff.mpr rfl
  · rw [if_neg needs] at tried
    obtain rfl := Option.some.inj tried
    rfl

theorem candidate_of_accepts (accepts : run g firstOnly fuel' .strict alt l v = some (.accept w))
    {out : Except (List ValidationError) (Option Value)}
    (tried : candidate (asCandidate g firstOnly fuel .strict alt) l v = some out) :
    out = .ok (some w) := by
  rw [candidate_eq] at tried
  obtain ⟨trial, first, tried⟩ := Option.bind_eq_some_iff.mp tried
  rw [trial_of_accepts accepts first, List.isEmpty_nil, if_pos rfl] at tried
  obtain ⟨r, decided, rfl⟩ := Option.map_eq_some_iff.mp tried
  obtain rfl := run_unique accepts decided
  rfl

theorem eq_accept_of_candidate {c : Candidate} (settled : c.part.Settled False) {output : Option Value}
    (h : candidate c l v = some (.ok output)) : ∃ w, output = some w := by
  rw [candidate_eq] at h
  obtain ⟨trial, -, h⟩ := Option.bind_eq_some_iff.mp h
  split at h
  · obtain ⟨r, decided, h⟩ := Option.map_eq_some_iff.mp h
    unfold verdict at h
    split at h
    · rename_i clean
      obtain ⟨w, rfl⟩ := (settled _ _ _ decided).eq_accept (List.isEmpty_iff.mp clean)
      exact ⟨w, (Except.ok.inj h).symm⟩
    · cases h
  · cases h

theorem firstMatch_of_accepts (accepts : run g firstOnly fuel' .strict alt l v = some (.accept w))
    {alternatives : List Node} (mem : alt ∈ alternatives) {last : List ValidationError} {r : Report}
    (decided : firstMatch firstOnly l v last
      (alternatives.map (asCandidate g firstOnly fuel .strict)) = some r) :
    ∃ w', r = .accept w' := by
  induction alternatives generalizing last with
  | nil => cases mem
  | cons a rest ih =>
    rw [List.map_cons, firstMatch_cons] at decided
    obtain ⟨out, tried, decided⟩ := Option.bind_eq_some_iff.mp decided
    rcases out with errors | output
    · rcases List.mem_cons.mp mem with rfl | mem
      · cases candidate_of_accepts accepts tried
      · exact ih mem decided
    · obtain ⟨w', rfl⟩ := eq_accept_of_candidate (settled_run g firstOnly fuel .strict a) tried
      exact ⟨w', (Option.some.inj decided).symm⟩

theorem not_accepts_empty (single : n.alternatives? = none) (empty : n.shape = .union [])
    (present : v.isMissing = false) : run g firstOnly fuel .strict n l v ≠ some (.accept w) := by
  intro h
  obtain ⟨-, before, -, ⟨-, h⟩ | ⟨alternatives, found, -⟩⟩ := accept_cases_of_present present h
  · unfold shape at h
    rw [empty] at h
    exact Report.reject_ne_accept (Option.some.inj h)
  · rw [single] at found
    cases found

end Check

/-- A member as its union flattens it: a member with alternatives stands for them, without its own
`typeOf`. -/
def Node.flattened (n : Node) : Node := if n.alternatives?.isSome then n.withoutTypeOf else n

namespace Validator

variable {g : Graph} {n m u : Node} {v : Value}

def Accepts (v : Validator) (value : Value) : Prop := ∃ steps w, v.validate? steps value = some (.ok w)

theorem accepts_strict_iff : Accepts ⟨g, n, .strict⟩ v ↔
    ∃ steps w, Check.run g false steps .strict n [] v = some (.accept w) :=
  exists_congr fun _ => exists_congr fun _ => validate?_eq_ok_iff

theorem accepts_iff_of_alternatives {alternatives : List Node}
    (found : n.alternatives? = some alternatives) (present : v.isMissing = false) :
    Accepts ⟨g, n, .strict⟩ v ↔
      Check.passes n v = true ∧ ∃ alt ∈ alternatives, Accepts ⟨g, alt, .strict⟩ v := by
  simp only [accepts_strict_iff]
  constructor
  · rintro ⟨steps, w, h⟩
    obtain ⟨enters, before, -, ⟨single, -⟩ | ⟨list, found', alt, ha, h⟩⟩ :=
      Check.accept_cases_of_present present h
    · rw [found] at single
      cases single
    · obtain rfl := Option.some.inj (found.symm.trans found')
      exact ⟨enters.passes, alt, ha, before, w, h⟩
  · rintro ⟨passes, alt, ha, steps', w', accepts⟩
    have enters : Check.Enters n v := ⟨present, passes⟩
    obtain ⟨steps, r, decided⟩ := Check.exists_run_strict g false n [] v
    suffices accepted : ∃ w, r = .accept w by
      obtain ⟨w, rfl⟩ := accepted
      exact ⟨steps, w, decided⟩
    cases steps with
    | zero => cases decided
    | succ steps =>
      by_cases single : ∃ only, alternatives = [only]
      · obtain ⟨only, rfl⟩ := single
        obtain rfl := List.mem_singleton.mp ha
        rw [Check.run_only found, Check.guarded_of_enters enters] at decided
        exact ⟨w', (Check.run_unique accepts decided).symm⟩
      · have several : Check.Several n alternatives := ⟨found, fun only h => single ⟨only, h⟩⟩
        rw [Check.run_several several, Check.guarded_of_enters enters] at decided
        exact Check.firstMatch_of_accepts accepts ha decided

theorem accepts_flattened_iff (present : v.isMissing = false) :
    Accepts ⟨g, m.flattened, .strict⟩ v ↔ ∃ alt ∈ m.alternatives, Accepts ⟨g, alt, .strict⟩ v := by
  rw [Node.flattened, Node.alternatives]
  rcases found : m.alternatives? with _ | alternatives
  · simp
  · rw [Option.isSome_some, if_pos rfl, Option.getD_some,
      accepts_iff_of_alternatives ((Check.alternatives?_withoutTypeOf m).trans found) present]
    exact and_iff_right (Check.passes_of_none rfl v)

theorem accepts_iff_flattened (present : v.isMissing = false) : Accepts ⟨g, m, .strict⟩ v ↔
    (m.alternatives?.isSome = true → Check.passes m v = true) ∧ Accepts ⟨g, m.flattened, .strict⟩ v := by
  rw [accepts_flattened_iff present, Node.alternatives]
  rcases found : m.alternatives? with _ | alternatives
  · simp
  · rw [accepts_iff_of_alternatives found present]
    simp

theorem accepts_union_iff {members : List Node} (own : u.ownShape = .union members)
    (nonempty : members ≠ []) (present : v.isMissing = false) : Accepts ⟨g, u, .strict⟩ v ↔
      Check.passes u v = true ∧ ∃ m ∈ members, Accepts ⟨g, m.flattened, .strict⟩ v := by
  have shape : u.ownShape.members = members := by rw [own]; rfl
  have found := Node.alternatives?_of_members (shape ▸ nonempty)
  rw [accepts_iff_of_alternatives found present, shape]
  simp only [accepts_flattened_iff present, List.mem_flatMap]
  refine and_congr_right fun _ => ⟨?_, ?_⟩
  · rintro ⟨alt, ⟨m, hm, ha⟩, accepts⟩
    exact ⟨m, hm, alt, ha, accepts⟩
  · rintro ⟨m, hm, alt, ha, accepts⟩
    exact ⟨alt, ⟨m, hm, ha⟩, accepts⟩

theorem describes_union_iff {k : Known} {d : Declaration} {id : NodeId} {refs : List TypeRef}
    (describes : d.Describes k id u) (anyOf : d.anyOf = some refs)
    (own : d.extends? = none ∨ refs ≠ []) (present : v.isMissing = false) :
    ∃ members, List.Forall₂ (TypeRef.Denotes k) refs members ∧ u.ownShape = .union members ∧
      (Accepts ⟨g, u, .strict⟩ v ↔
        Check.passes u v = true ∧ ∃ m ∈ members, Accepts ⟨g, m.flattened, .strict⟩ v) := by
  obtain ⟨members, base, supertypes, denotes, composed, bare⟩ := describes.exists_members anyOf
  have shape : u.ownShape = .union members := by rw [composed]; rfl
  refine ⟨members, denotes, shape, ?_⟩
  rcases members with _ | ⟨m, rest⟩
  · have none : refs = [] := List.forall₂_nil_right_iff.mp denotes
    obtain ⟨rfl, rfl⟩ := bare (own.resolve_right (not_not_intro none))
    have single : u.alternatives? = .none := by rw [composed]; rfl
    have empty : u.shape = .union [] := by rw [composed]; rfl
    rw [accepts_strict_iff]
    refine ⟨fun ⟨steps, w, h⟩ => ?_, fun ⟨_, m, hm, _⟩ => nomatch hm⟩
    exact absurd h (Check.not_accepts_empty single empty present)
  · exact accepts_union_iff shape (List.cons_ne_nil m rest) present

/-- Under strict options validation against a union terminates, and accepts a value that is not
missing exactly when the union's `typeOf` passes and some flattened member accepts it. So the union
is the disjunction of its members exactly when its `typeOf` rejects nothing that a member accepts,
and no value is accepted only because flattening drops the `typeOf` of a member; in particular if
there are no such predicates. -/
theorem validate?_anyOf_iff {k : Known} {d : Declaration} {id : NodeId} {refs : List TypeRef}
    (describes : d.Describes k id u) (anyOf : d.anyOf = some refs)
    (own : d.extends? = none ∨ refs ≠ []) (present : v.isMissing = false) (g : Graph) :
    ∃ members, List.Forall₂ (TypeRef.Denotes k) refs members ∧ u.ownShape = .union members ∧
      (∃ steps x, validate? ⟨g, u, .strict⟩ steps v = some x) ∧
      (Accepts ⟨g, u, .strict⟩ v ↔
        Check.passes u v = true ∧ ∃ m ∈ members, Accepts ⟨g, m.flattened, .strict⟩ v) ∧
      ((Accepts ⟨g, u, .strict⟩ v ↔ ∃ m ∈ members, Accepts ⟨g, m, .strict⟩ v) ↔
        ((∃ m ∈ members, Accepts ⟨g, m, .strict⟩ v) → Check.passes u v = true) ∧
        (Check.passes u v = true →
          (∃ m ∈ members, m.alternatives?.isSome = true ∧ Check.passes m v = false ∧
            Accepts ⟨g, m.flattened, .strict⟩ v) → ∃ m ∈ members, Accepts ⟨g, m, .strict⟩ v)) ∧
      (u.header.typeOf = none →
        (∀ m ∈ members, m.alternatives?.isSome = true → m.header.typeOf = none) →
        (Accepts ⟨g, u, .strict⟩ v ↔ ∃ m ∈ members, Accepts ⟨g, m, .strict⟩ v)) := by
  obtain ⟨members, denotes, shape, union⟩ := describes_union_iff (g := g) describes anyOf own present
  have ends : ∃ steps x, validate? ⟨g, u, .strict⟩ steps v = some x :=
    (exists_validate?_iff _ _).mpr (Check.exists_run_strict g false u [] v)
  have flattened : (∃ m ∈ members, Accepts ⟨g, m.flattened, .strict⟩ v) ↔
      (∃ m ∈ members, Accepts ⟨g, m, .strict⟩ v) ∨
        ∃ m ∈ members, m.alternatives?.isSome = true ∧ Check.passes m v = false ∧
          Accepts ⟨g, m.flattened, .strict⟩ v := by
    constructor
    · rintro ⟨m, hm, accepts⟩
      by_cases passes : m.alternatives?.isSome = true → Check.passes m v = true
      · exact .inl ⟨m, hm, (accepts_iff_flattened present).mpr ⟨passes, accepts⟩⟩
      · rw [Classical.not_imp, Bool.not_eq_true] at passes
        exact .inr ⟨m, hm, passes.1, passes.2, accepts⟩
    · rintro (⟨m, hm, accepts⟩ | ⟨m, hm, -, -, accepts⟩)
      · exact ⟨m, hm, ((accepts_iff_flattened present).mp accepts).2⟩
      · exact ⟨m, hm, accepts⟩
  refine ⟨members, denotes, shape, ends, union, ?_, fun plain each => ?_⟩
  · rw [union, flattened]
    constructor
    · intro claim
      exact ⟨fun accepts => (claim.mpr accepts).1, fun passes flattened => claim.mp ⟨passes, .inr flattened⟩⟩
    · rintro ⟨passes, covered⟩
      exact ⟨fun ⟨p, h⟩ => h.elim (fun accepts => accepts) (covered p), fun accepts => ⟨passes accepts, .inl accepts⟩⟩
  · rw [union, flattened]
    have passes : Check.passes u v = true := Check.passes_of_none plain v
    refine ⟨fun h => h.2.resolve_right ?_, fun h => ⟨passes, .inl h⟩⟩
    rintro ⟨m, hm, other, fails, -⟩
    rw [Check.passes_of_none (each m hm other)] at fails
    cases fails

def refusedAndUnion : List Declaration :=
  [{ (DeclarationOf.named "M").withPredicate fun _ => false with
      anyOf := some [.name "string", .name "number"] },
    { DeclarationOf.named "U" with anyOf := some [.name "M"] }]

def refusedNode : Node :=
  .extend (some 14) (some "M") .union [.ofBase .union]
    { Header.empty with typeOf := some fun _ => false } (.union [.ofBase .string, .ofBase .number])

def unionNode : Node :=
  .extend (some 15) (some "U") .union [.ofBase .union] Header.empty (.union [refusedNode])

theorem refusedAndUnion_added : ∃ a, Library.initial.addTypes .initial refusedAndUnion = .ok a ∧
    a.library.type? "M" = some refusedNode ∧ a.library.type? "U" = some unionNode := by
  refine ⟨⟨⟨16, []⟩, ⟨Library.initial.types ++ [("M", refusedNode), ("U", unionNode)]⟩,
    [refusedNode, unionNode]⟩, ?_, rfl, rfl⟩
  cbv

theorem union_accepts_text (g : Graph) : Accepts ⟨g, unionNode, .strict⟩ (.string "hello") :=
  ⟨2, .string "hello", rfl⟩

theorem validate?_anyOf_iff_of_text : ∃ a, ∃ d : Declaration, ∃ id,
    Library.initial.addTypes .initial refusedAndUnion = .ok a ∧ d.Describes a.known id unionNode ∧
      d.anyOf = some [.name "M"] ∧ unionNode.ownShape = .union [refusedNode] ∧
      Accepts ⟨a.graph, refusedNode.flattened, .strict⟩ (.string "hello") := by
  obtain ⟨a, added, -, found⟩ := refusedAndUnion_added
  obtain ⟨id, n, found', describes⟩ := (Library.Grown.of_addTypes
    Library.Reached.initial.closed.numbered added).added _ (List.mem_cons_of_mem _ List.mem_cons_self)
  obtain rfl : unionNode = n := Option.some.inj (found.symm.trans found')
  obtain ⟨members, -, shape, -, union, -⟩ := validate?_anyOf_iff describes rfl (.inl rfl)
    (rfl : (Value.string "hello").isMissing = false) a.graph
  obtain ⟨-, m, hm, accepts⟩ := union.mp (union_accepts_text a.graph)
  have same : [refusedNode] = members := Shape.union.inj shape
  rw [← same] at hm
  obtain rfl := List.mem_singleton.mp hm
  exact ⟨a, _, id, added, describes, rfl, rfl, accepts⟩

/-- `anyOf [M]` accepts a text that the `typeOf` of `M` rejects. -/
theorem not_anyOf_iff : ∃ a, Library.initial.addTypes .initial refusedAndUnion = .ok a ∧
    ∃ u, a.library.type? "U" = some u ∧ u.header.typeOf = none ∧
      ¬(Accepts ⟨a.graph, u, .strict⟩ (.string "hello") ↔
        ∃ m ∈ u.members, Accepts ⟨a.graph, m, .strict⟩ (.string "hello")) := by
  obtain ⟨a, added, -, found⟩ := refusedAndUnion_added
  refine ⟨a, added, unionNode, found, rfl, fun claim => ?_⟩
  obtain ⟨m, hm, accepts⟩ := claim.mp (union_accepts_text a.graph)
  have members : unionNode.members = [refusedNode] := rfl
  rw [members] at hm
  obtain rfl := List.mem_singleton.mp hm
  have alternatives : refusedNode.alternatives? = some [.ofBase .string, .ofBase .number] := rfl
  cases ((accepts_iff_of_alternatives alternatives rfl).mp accepts).1

end Validator
end Schemata

import Mathlib
import Schemata.Proofs.Library.Built
import Schemata.Proofs.Validation.Idempotence

/-! Coercion is idempotent: an output validates to itself. The check of a type carries this from its
parts to the whole, in as many steps. -/

namespace Schemata

/-- A type whose outputs are fixed points: no union, `typeOf`, discriminator or property bounds, no
default but null, and no date in mail format. -/
structure Node.Plain (n : Node) : Prop where
  memberless : n.ownShape.members = []
  typeOf : n.header.typeOf = none
  default : ∀ d, n.header.default? = some d → d = .null
  object : ∀ f, n.shape = .object f →
    f.discriminator = none ∧ f.minProperties = none ∧ f.maxProperties = none
  date : ∀ f, n.shape = .date f → f.format ≠ some .rfc2616

namespace Check

variable {g : Graph} {firstOnly : Bool} {o : ValidationOptions} {n : Node} {l l' : Location}
  {v w : Value}

theorem alternatives?_of_plain : ∀ {n : Node}, g.Every Node.Plain n → n.alternatives? = none := by
  intro n
  induction n using Node.wellFounded_parts.induction with
  | _ n ih =>
    intro plain
    refine Node.alternatives?_of_alone plain.self.memberless fun s hs => ?_
    have part : s ∈ n.parts := List.mem_append_left _ (List.mem_append_left _ hs)
    exact ih s part (plain.part part)

theorem missing_idempotent (plain : n.Plain) (absent : v.isMissing = true)
    (h : missing n false o l v = .accept w) :
    w.isMissing = true ∧ missing n false o l' w = .accept w := by
  unfold missing at h ⊢
  rcases hd : n.header.default? with _ | d
  · rw [hd] at h
    simp only [Bool.false_eq_true, if_false] at h ⊢
    split at h
    · exact absurd h Report.reject_ne_accept
    · rename_i optional
      obtain rfl := Report.accept_inj.mp h
      exact ⟨absent, if_neg optional⟩
  · rw [hd] at h
    obtain rfl := Report.accept_inj.mp h
    rw [plain.default d hd]
    exact ⟨rfl, rfl⟩

theorem shape_idempotent (coerces : o.coerceTypes = true) (plain : n.Plain) (differ : n.shape.KeysDiffer)
    {run : Node → Part} (idempotent : ∀ x ∈ n.shape.links, (run (g.resolve x)).Idempotent)
    (settled : ∀ n, (run n).Settled False) (shown : v.Every Value.YearShown)
    (present : v.isMissing = false) (h : shape g firstOnly o run n l v = some (.accept w)) :
    w.isMissing = false ∧ shape g firstOnly o run n l' w = some (.accept w) := by
  rcases hs : n.shape with _ | f | f | _ | _ | f | f | f | _
  case array =>
    rw [shape_itemPart hs] at h ⊢
    have part : (itemPart g run f.items).Idempotent := by
      rw [hs] at idempotent
      rcases hi : f.items with _ | x
      · intro l v w _ h l'
        obtain rfl := Report.accept_inj.mp (Option.some.inj h)
        rfl
      · exact idempotent x (by rw [Shape.links, hi]; exact List.mem_singleton.mpr rfl)
    exact array_idempotent coerces part (itemPart_settled settled _) shown h
  case object =>
    rw [shape_object hs] at h ⊢
    rw [hs] at idempotent
    have keys : (propertyRules g run o f.properties).keys = Keyed.keys f.properties := by
      rw [propertyRules, Keyed.keys, List.map_map]
      rfl
    refine object_idempotent (plain.object f hs) ?_ (fun rule hr => ?_) (fun rule hr => ?_)
      (fun rule hr => ?_) shown h
    · rw [Keyed.Distinct, keys]
      exact differ f hs
    · obtain ⟨e, he, rfl⟩ := List.mem_map.mp hr
      exact idempotent _ (List.mem_map_of_mem he)
    · obtain ⟨e, -, rfl⟩ := List.mem_map.mp hr
      exact settled _
    · obtain ⟨e, -, rfl⟩ := List.mem_map.mp hr
      intro ignored
      have ignored : o.ignoreRequired.covers e.1 = true := ignored
      change (_ && !o.ignoreRequired.covers e.1) = false
      rw [ignored]
      exact Bool.and_false _
  all_goals
    unfold shape at h ⊢
    rw [hs] at h ⊢
    have h := Option.some.inj h
  case any =>
    obtain rfl := Report.accept_inj.mp h
    exact ⟨present, rfl⟩
  case string => exact (string_idempotent coerces h).imp id (congrArg some)
  case number => exact (number_idempotent coerces h).imp id (congrArg some)
  case boolean => exact (boolean_idempotent coerces h).imp id (congrArg some)
  case nil => exact absurd h wrongType_ne_accept
  case date =>
    exact (date_idempotent coerces (plain.date f hs) shown.self h).imp id (congrArg some)
  case union => exact absurd h Report.reject_ne_accept

theorem run_idempotent (coerces : o.coerceTypes = true) (fuel : Nat) : ∀ {n : Node},
    g.Every Node.Plain n → g.Every (·.shape.KeysDiffer) n → (run g firstOnly fuel o n).Idempotent := by
  induction fuel with
  | zero =>
    intro n _ _ l v w _ h
    cases h
  | succ fuel ih =>
    intro n plain differ l v w shown h l'
    rw [run_single (alternatives?_of_plain plain)] at h ⊢
    -- What comes out missing was missing before, and what gets behind the guard does so again.
    rcases guarded_eq_accept_iff.mp h with ⟨absent, h⟩ | ⟨enters, h⟩
    · exact guarded_eq_accept_iff.mpr (.inl (missing_idempotent plain.self absent h))
    · have links x (hx : x ∈ n.shape.links) : (run g firstOnly fuel o (g.resolve x)).Idempotent :=
        have link : x ∈ n.links := List.mem_append_left _ hx
        ih (plain.link link) (differ.link link)
      obtain ⟨present, again⟩ := shape_idempotent coerces plain.self differ.self links
        (settled_run _ _ _ _) shown enters.present h
      have passes : passes n w = true := by
        rw [Check.passes, plain.self.typeOf]
        exact Bool.or_true _
      exact guarded_eq_accept_iff.mpr (.inr ⟨⟨present, passes⟩, again⟩)

end Check

namespace Validator

/-- Under `coerceTypes` the output is validated to itself, up to number forms and key order, if
every type led to is plain. -/
theorem validate?_fixed {g : Graph} {n : Node} {o : ValidationOptions} {steps : Nat}
    {value w : Value} (plain : g.Every Node.Plain n) (differ : g.Every (·.shape.KeysDiffer) n)
    (coerces : o.coerceTypes = true) (shown : value.Every Value.YearShown)
    (accepted : validate? ⟨g, n, o⟩ steps value = some (.ok w)) :
    validate? ⟨g, n, o⟩ steps w = some (.ok w) :=
  validate?_eq_ok_iff.mpr
    (Check.run_idempotent coerces steps plain differ _ _ _ shown (validate?_eq_ok_iff.mp accepted) _)

def countAndNote : Declaration :=
  { DeclarationOf.named "T" with
    properties := some [("count", .name "number"), ("note", .name "nil")] }

def countAndNoteNode : Node :=
  .extend (some 14) (some "T") .object [.ofBase .object] Header.empty
    (.object ⟨[("count", ⟨.node (.ofBase .number), false⟩), ("note", ⟨.node (.ofBase .nil), false⟩)],
      none, none, none, none, none⟩)

theorem countAndNote_added : ∃ a, Library.initial.addTypes .initial [countAndNote] = .ok a ∧
    a.graph = ⟨15, []⟩ ∧ a.library.type? "T" = some countAndNoteNode := by
  refine ⟨⟨⟨15, []⟩, ⟨Library.initial.types ++ [("T", countAndNoteNode)]⟩, [countAndNoteNode]⟩, ?_,
    rfl, ?_⟩
  · cbv
  · rfl

theorem plain_ofBase (b : BaseType) : (Node.ofBase b).Plain := by
  constructor
  · exact Shape.members_emptyShape b
  · cases b <;> rfl
  · intro d h
    cases b <;> cases h
    rfl
  · intro f h
    cases b <;> cases h
    exact ⟨rfl, rfl, rfl⟩
  · intro f h
    cases b <;> cases h <;> rintro ⟨⟩

theorem countAndNote_plain : Graph.Every ⟨15, []⟩ Node.Plain countAndNoteNode := by
  apply Graph.every_of_step
  · refine ⟨rfl, rfl, ?_, ?_, ?_⟩
    · rintro _ ⟨⟩
    · rintro _ ⟨⟩
      exact ⟨rfl, rfl, rfl⟩
    · rintro _ ⟨⟩
  · rintro m (⟨hm⟩ | ⟨hx⟩)
    · obtain rfl : m = .ofBase .object := List.mem_singleton.mp hm
      exact Graph.every_ofBase (plain_ofBase _)
    · rename_i x
      have links : x ∈ [Ref.node (.ofBase .number), .node (.ofBase .nil), .node (.ofBase .number),
        .node (.ofBase .nil)] := hx
      simp only [List.mem_cons, List.not_mem_nil, or_false] at links
      rcases links with rfl | rfl | rfl | rfl <;> exact Graph.every_ofBase (plain_ofBase _)

theorem validate?_fixed_of_countAndNote :
    let given := Value.object [("count", .string "5")]
    let coerced := Value.object [("count", .number (.int 5)), ("note", .null)]
    ∃ a n, Library.initial.addTypes .initial [countAndNote] = .ok a ∧
      a.library.type? "T" = some n ∧
      validate? ⟨a.graph, n, .coercing⟩ 2 given = some (.ok coerced) ∧
      validate? ⟨a.graph, n, .coercing⟩ 2 coerced = some (.ok coerced) := by
  intro given coerced
  obtain ⟨a, added, graph, found⟩ := countAndNote_added
  refine ⟨a, _, added, found, ?_⟩
  have built := (Library.Reached.added .initial added).allBuilt.every found
  have differ := built.imp fun _ h => h.keysDiffer
  have shown : given.Every Value.YearShown := by
    refine Value.every_object (by rintro _ ⟨⟩) fun e he => ?_
    obtain rfl := List.mem_singleton.mp he
    rintro x ⟨⟩ _ ⟨⟩
  have accepted : validate? ⟨⟨15, []⟩, countAndNoteNode, .coercing⟩ 2 given = some (.ok coerced) := by
    cbv
  rw [graph] at differ ⊢
  exact ⟨accepted, validate?_fixed countAndNote_plain differ rfl shown accepted⟩

end Validator
end Schemata

import Mathlib
import Schemata.Proofs.Node.Inheritance
import Schemata.Proofs.Validation.Scalars
import Schemata.Proofs.Value.Occurrence

/-! Checks without effect on the value. Arrays and objects are rebuilt from the outputs of their
parts, and a union returns the output of an alternative; if no part changes a value, neither does
the whole. -/

namespace Schemata

structure ValidationOptions.Inert (o : ValidationOptions) : Prop where
  strict : o.strictTypes = true
  plain : o.coerceTypes = false
  foreign : o.coerceNativeTypes = false
  keeps : o.removeAdditional = .no

theorem ValidationOptions.inert_precheck (o : ValidationOptions) : o.precheck.Inert :=
  ⟨rfl, rfl, rfl, rfl⟩

/-- No default, and no null for a missing value. -/
structure Node.Neutral (n : Node) : Prop where
  base : n.base ≠ .nil
  default : n.header.default? = none
  ownDefault : n.ownHeader.default? = none

theorem neutral_heritable :
    Heritable (· ≠ BaseType.nil) (fun h => h.default? = none) (fun _ => True) where
  empty := rfl
  emptyShape _ := trivial
  header mode h k hh hk := by
    change Merge.singular mode h.default? k.default? = none
    rcases Merge.singular_cases mode h.default? k.default? with same | same
    · exact same.trans hh
    · exact same.trans hk
  shape _ _ _ _ _ := trivial
  optionalNull nil _ _ := absurd rfl nil

/-- No `undefined` inside, and no repeated key. -/
structure Value.Whole (v : Value) : Prop where
  present : v.Every (· ≠ .undefined)
  keys : v.Every KeysDiffer

namespace Value.Whole

variable {v : Value}

theorem item {items : List Value} (h : (Value.array items).Whole) (member : v ∈ items) : v.Whole :=
  ⟨h.present.item member, h.keys.item member⟩

theorem field {fields : List (String × Value)} {e : String × Value}
    (h : (Value.object fields).Whole) (member : e ∈ fields) : e.2.Whole :=
  ⟨h.present.field member, h.keys.field member⟩

theorem array {items : List Value} (each : ∀ v ∈ items, v.Whole) : (Value.array items).Whole :=
  ⟨Value.every_array (by rintro ⟨⟩) fun v hv => (each v hv).present,
    Value.every_array (by rintro _ ⟨⟩) fun v hv => (each v hv).keys⟩

theorem object {fields : List (String × Value)} (differ : (fields.map Prod.fst).Nodup)
    (each : ∀ e ∈ fields, e.2.Whole) : (Value.object fields).Whole :=
  ⟨Value.every_object (by rintro ⟨⟩) fun e he => (each e he).present,
    Value.every_object (by rintro _ ⟨⟩; exact differ) fun e he => (each e he).keys⟩

theorem present?_eq (h : v.Whole) : v.present? = some v := by
  rw [Value.present?, if_neg]
  intro absent
  cases v with
  | undefined => exact h.present.self rfl
  | _ => cases absent

end Value.Whole

namespace Check

/-- An accepted value that is whole or absent is returned unchanged. -/
def Part.Pure (part : Part) : Prop :=
  ∀ l v w, v.Whole ∨ v = .undefined → part l v = some (.accept w) → w = v

variable {l : Location} {v w : Value} {o : ValidationOptions} {firstOnly : Bool} {part : Part}

section Scalars

theorem string_pure (inert : o.Inert) {f : StringFacets} (h : string f o l v = .accept w) :
    w = v := by
  obtain ⟨text, -, -, output⟩ := string_eq_accept_iff.mp h
  rwa [inert.plain, if_neg Bool.false_ne_true] at output

theorem number_pure (inert : o.Inert) {f : NumberFacets} {integer : Bool}
    (h : number f integer o l v = .accept w) : w = v := by
  obtain ⟨x, -, -, output⟩ := number_eq_accept_iff.mp h
  rwa [inert.plain, if_neg Bool.false_ne_true] at output

theorem boolean_pure (inert : o.Inert) (h : boolean o l v = .accept w) : w = v := by
  obtain ⟨b, -, output⟩ := boolean_eq_accept_iff.mp h
  rwa [inert.plain, if_neg Bool.false_ne_true] at output

theorem date_pure (inert : o.Inert) {base : BaseType} {f : DateFacets}
    (h : date base f o l v = .accept w) : w = v := by
  cases date_eq_accept_iff.mp h with
  | native d =>
    rw [nativeDate, inert.foreign, inert.plain]
    rfl
  | mail =>
    rw [inert.foreign, inert.plain]
    rfl
  | instant _ _ foreign =>
    rw [inert.foreign] at foreign
    cases foreign
  | written =>
    rw [inert.plain]
    rfl

end Scalars

section Items

variable {rules : ItemRules}

theorem keep_of_admits {st : ItemState} (admits : st.Admits rules w)
    (reports : rules.dropsDuplicates = false) : st.keep rules w = st.push rules w := by
  rw [ItemState.Admits, reports, Bool.not_false, Bool.and_true] at admits
  rw [ItemState.keep, if_neg (Bool.eq_false_iff.mp admits)]

theorem items_pure (pure : part.Pure) (settled : part.Settled False) (positive : 0 < rules.limit)
    (reports : rules.dropsDuplicates = false) {list : List Value} (whole : ∀ v ∈ list, v.Whole)
    {i : Nat} {st out : ItemState} (run : items rules part l i st list = some out)
    (clean : out.Clean) : out.output = st.output ++ list := by
  induction list generalizing i st with
  | nil =>
    obtain rfl := Option.some.inj run
    exact (List.append_nil _).symm
  | cons v rest ih =>
    obtain ⟨w, accepted, admits, follows⟩ := exists_of_items_cons settled positive run clean
    obtain rfl : w = v := pure _ _ _ (.inl (whole v List.mem_cons_self)) accepted
    rw [keep_of_admits admits reports] at follows
    rw [ih (fun v hv => whole v (List.mem_cons_of_mem _ hv)) follows]
    exact List.append_assoc _ _ _

end Items

theorem array_pure (inert : o.Inert) (pure : part.Pure) (settled : part.Settled False) {ρ : Type}
    {f : ArrayFacets ρ} (whole : v.Whole) (h : array f o firstOnly part l v = some (.accept w)) :
    w = v := by
  obtain ⟨list, st, read, run, clean, -, rfl⟩ := array_eq_accept_iff.mp h
  rcases itemsOf?_cases read with rfl | ⟨-, wraps⟩
  · have output := items_pure pure settled (positive_itemRules f o firstOnly) inert.plain
      (fun v hv => whole.item hv) run clean
    rw [output]
    rfl
  · rw [inert.plain, inert.strict] at wraps
    cases wraps

section Keys

variable {rules : KeyRules} {given : Keyed Value} {properties : Keyed PropertyRule}

theorem givenKeys_pure (pure : ∀ e ∈ rules.properties, e.2.part.Pure)
    (settled : ∀ e ∈ rules.properties, e.2.part.Settled False) (positive : 0 < rules.limit)
    (keeps : rules.drops = false) {fields : List (String × Value)}
    (whole : ∀ e ∈ fields, e.2.Whole) {st out : KeyState}
    (differ : Keyed.Distinct (st.output ++ fields))
    (run : givenKeys rules l st fields = some out) (clean : out.Clean) :
    out.output = st.output ++ fields := by
  induction fields generalizing st with
  | nil =>
    obtain rfl := Option.some.inj run
    exact (List.append_nil _).symm
  | cons e rest ih =>
    obtain ⟨key, v⟩ := e
    obtain ⟨value, treats, run⟩ := exists_of_givenKeys_cons
      (fun key p found => settled _ (Keyed.mem_of_get? found)) positive run clean
    have here := whole _ List.mem_cons_self
    have stays : value = some v := by
      cases treats with
      | dropped _ drops =>
        rw [drops] at keeps
        cases keeps
      | kept => rfl
      | @declared p w found accepted =>
        have same : w = v := by
          unfold givenProperty at accepted
          split at accepted
          · exact (Report.accept_inj.mp (Option.some.inj accepted)).symm
          · exact pure _ (Keyed.mem_of_get? found) _ _ _ (.inl here) accepted
        rw [same, here.present?_eq]
    subst stays
    have next := @ih (fun e he => whole e (List.mem_cons_of_mem _ he)) (st.put key (some v))
    rw [KeyState.output_put differ, List.append_assoc] at next
    exact next differ run

theorem absentKeys_pure (pure : ∀ e ∈ properties, e.2.part.Pure)
    (settled : ∀ e ∈ properties, e.2.part.Settled False) (positive : 0 < rules.limit)
    {st out : KeyState} (run : absentKeys rules l given st properties = some out)
    (clean : out.Clean) : out.output = st.output := by
  induction properties generalizing st with
  | nil =>
    obtain rfl := Option.some.inj run
    rfl
  | cons e rest ih =>
    obtain ⟨key, p⟩ := e
    have ih {st : KeyState} := @ih (fun e he => pure e (List.mem_cons_of_mem _ he))
      (fun e he => settled e (List.mem_cons_of_mem _ he)) st
    rcases due : p.due given key with _ | _
    · have before := (absentKeys_grown run).clean clean
      rw [absentKeys_cons_of_not_due before positive due] at run
      exact ih run
    · obtain ⟨w, accepted, run⟩ := exists_of_absentKeys_cons (settled _ List.mem_cons_self) positive
        run clean due
      obtain rfl : w = .undefined := pure _ List.mem_cons_self _ _ _ (.inr rfl) accepted
      exact ih run

end Keys

theorem object_pure (inert : o.Inert) {properties : Keyed PropertyRule}
    (pure : ∀ e ∈ properties, e.2.part.Pure)
    (settled : ∀ e ∈ properties, e.2.part.Settled False) {ρ : Type} {f : ObjectFacets ρ}
    {name : Option String} (whole : v.Whole)
    (h : object f name o firstOnly properties l v = some (.accept w)) : w = v := by
  obtain ⟨given, st, out, rfl, -, first, second, clean, -, rfl⟩ := object_eq_accept_iff.mp h
  have positive := positive_keyRules f o firstOnly properties
  have keeps : (keyRules f o firstOnly properties).drops = false := by
    rw [keyRules, ValidationOptions.dropsAdditional, inert.keeps]
  have differ : Keyed.Distinct (KeyState.start.output ++ given) := whole.keys.self given rfl
  have before := givenKeys_pure pure settled positive keeps (fun e he => whole.field he) differ
    first ((absentKeys_grown second).clean clean)
  have after := absentKeys_pure pure settled positive second clean
  rw [after, before]
  rfl

variable {g : Graph} {fuel : Nat} {n : Node}

theorem shape_pure (inert : o.Inert) {run : Node → Part}
    (pure : ∀ x ∈ n.shape.links, (run (g.resolve x)).Pure)
    (settled : ∀ n, (run n).Settled False) (whole : v.Whole)
    (h : shape g firstOnly o run n l v = some (.accept w)) : w = v := by
  rcases hs : n.shape with _ | f | f | _ | _ | f | f | f | _
  case array =>
    rw [shape_itemPart hs] at h
    have part : (itemPart g run f.items).Pure := by
      rw [hs] at pure
      rcases hi : f.items with _ | x
      · intro l v w _ h
        exact (Report.accept_inj.mp (Option.some.inj h)).symm
      · exact pure x (by rw [Shape.links, hi]; exact List.mem_singleton.mpr rfl)
    exact array_pure inert part (itemPart_settled settled _) whole h
  case object =>
    rw [shape_object hs] at h
    rw [hs] at pure
    refine object_pure inert (fun rule hr => ?_) (fun rule hr => ?_) whole h
    · obtain ⟨e, he, rfl⟩ := List.mem_map.mp hr
      exact pure _ (List.mem_map_of_mem he)
    · obtain ⟨e, -, rfl⟩ := List.mem_map.mp hr
      exact settled _
  all_goals
    unfold shape at h
    rw [hs] at h
    have h := Option.some.inj h
  case any => exact (Report.accept_inj.mp h).symm
  case string => exact string_pure inert h
  case number => exact number_pure inert h
  case boolean => exact boolean_pure inert h
  case nil => exact absurd h wrongType_ne_accept
  case date => exact date_pure inert h
  case union => exact absurd h Report.reject_ne_accept

theorem run_pure (inert : o.Inert) (fuel : Nat) : ∀ {n : Node},
    g.Every (Node.Has (· ≠ BaseType.nil) (fun h => h.default? = none) fun _ => True) n →
    (run g firstOnly fuel o n).Pure := by
  induction fuel with
  | zero =>
    intro n _ l v w _ h
    cases h
  | succ fuel ih =>
    intro n every l v w whole h
    have alternative {alternatives : List Node} (found : n.alternatives? = some alternatives)
        {alt : Node} (ha : alt ∈ alternatives) :
        g.Every (Node.Has (· ≠ BaseType.nil) (fun h => h.default? = none) fun _ => True) alt := by
      apply Graph.every_alternative neutral_heritable every
      rw [Node.alternatives_of_some found]
      exact ha
    rcases accept_cases h with ⟨-, h⟩ | ⟨enters, ⟨-, h⟩ | ⟨alternatives, found, alt, ha, h⟩⟩
    · have idle : takesNull n = false := by
        rcases found : n.alternatives? with _ | alternatives
        · rw [takesNull, found]
          rfl
        · rw [takesNull, found, Option.getD_some, List.any_eq_false]
          exact fun alt ha nil => (alternative found ha).self.base (beq_iff_eq.mp nil)
      unfold missing at h
      rw [every.self.header, idle] at h
      dsimp only at h
      rw [if_neg Bool.false_ne_true] at h
      split at h
      · exact absurd h Report.reject_ne_accept
      · exact (Report.accept_inj.mp h).symm
    · have whole : v.Whole := by
        refine whole.resolve_right fun absent => ?_
        have present := enters.present
        rw [absent] at present
        cases present
      refine shape_pure inert (fun x hx => ?_) (settled_run _ _ _ _) whole h
      exact ih (every.link (List.mem_append_left _ hx))
    · exact ih (alternative found ha) l v w whole h

end Check

namespace Validator

/-- Under options that neither coerce nor drop anything, the pre-check's among them, a type that
leads to neutral types only returns every accepted value unchanged, up to key order. -/
theorem validate?_pure {g : Graph} {n : Node} {o : ValidationOptions} {steps : Nat}
    {value w : Value} (neutral : g.Every Node.Neutral n) (whole : value.Whole) :
    (o.Inert → validate? ⟨g, n, o⟩ steps value = some (.ok w) → w = value) ∧
      (validate? ⟨g, n, o.precheck⟩ steps value = some (.ok w) → w = value) := by
  have every := neutral.imp fun m h =>
    (⟨h.base, h.default, h.ownDefault, trivial, trivial⟩ :
      Node.Has (· ≠ BaseType.nil) (fun h => h.default? = none) (fun _ => True) m)
  have pure {o : ValidationOptions} (inert : o.Inert)
      (h : validate? ⟨g, n, o⟩ steps value = some (.ok w)) : w = value :=
    Check.run_pure inert steps every _ _ _ (.inl whole) (validate?_eq_ok_iff.mp h)
  exact ⟨pure, pure o.inert_precheck⟩

/-! Chains: each link has marks, which are numbers or texts, and may have a next link. -/

def markNode : Node :=
  .extend (some 14) (some "Mark") .union [.ofBase .union] Header.empty
    (.union [.ofBase .number, .ofBase .string])

def marksNode : Node :=
  .extend (some 15) (some "Marks") .array [.ofBase .array] Header.empty
    (.array ⟨some (.node markNode), none, none, none⟩)

def chainNode : Node :=
  .extend (some 16) (some "Chain") .object [.ofBase .object] Header.empty
    (.object ⟨[("marks", ⟨.node marksNode, false⟩), ("next", ⟨.forward 16 "Chain", false⟩)],
      none, none, none, none, none⟩)

def chainGraph : Graph := ⟨17, [(16, chainNode)]⟩

theorem neutral_ofBase {g : Graph} {b : BaseType} (other : b ≠ .nil) :
    g.Every Node.Neutral (.ofBase b) := by
  refine Graph.every_ofBase ⟨other, ?_, ?_⟩ <;> cases b <;> first | rfl | exact absurd rfl other

theorem chainNode_neutral : chainGraph.Every Node.Neutral chainNode := by
  have mark : chainGraph.Every Node.Neutral markNode := by
    refine Graph.every_of_step ⟨by decide, rfl, rfl⟩ ?_
    rintro m (⟨hm⟩ | ⟨hx⟩)
    · have parts : m ∈ [Node.ofBase .union, .ofBase .number, .ofBase .string, .ofBase .number,
        .ofBase .string] := hm
      simp only [List.mem_cons, List.not_mem_nil, or_false] at parts
      rcases parts with rfl | rfl | rfl | rfl | rfl <;> exact neutral_ofBase (by decide)
    · cases hx
  have marks : chainGraph.Every Node.Neutral marksNode := by
    refine Graph.every_of_step ⟨by decide, rfl, rfl⟩ ?_
    rintro m (⟨hm⟩ | ⟨hx⟩)
    · obtain rfl : m = .ofBase .array := List.mem_singleton.mp hm
      exact neutral_ofBase (by decide)
    · rename_i x
      obtain rfl : x = .node markNode := (List.mem_pair.mp hx).elim id id
      exact mark
  -- The forward reference leads back to the type itself.
  refine Graph.every_of_loop ⟨by decide, rfl, rfl⟩ ?_
  rintro m (⟨hm⟩ | ⟨hx⟩)
  · obtain rfl : m = .ofBase .object := List.mem_singleton.mp hm
    exact .inr (neutral_ofBase (by decide))
  · rename_i x
    have links : x ∈ [Ref.node marksNode, .forward 16 "Chain", .node marksNode, .forward 16 "Chain"] := hx
    simp only [List.mem_cons, List.not_mem_nil, or_false] at links
    rcases links with rfl | rfl | rfl | rfl
    · exact .inr marks
    · exact .inl rfl
    · exact .inr marks
    · exact .inl rfl

theorem validate?_pure_of_chain :
    let value := Value.object [("next", .object [("marks", .array [])]),
      ("marks", .array [.string "b", .number (.int 1)]), ("other", .null)]
    ∃ w, validate? ⟨chainGraph, chainNode, .strict⟩ 5 value = some (.ok w) ∧ w = value := by
  intro value
  have whole : value.Whole := by
    have text : (Value.string "b").Whole := ⟨by rintro x ⟨⟩ ⟨⟩, by rintro x ⟨⟩ fields ⟨⟩⟩
    have one : (Value.number (.int 1)).Whole := ⟨by rintro x ⟨⟩ ⟨⟩, by rintro x ⟨⟩ fields ⟨⟩⟩
    have null : Value.null.Whole := ⟨by rintro x ⟨⟩ ⟨⟩, by rintro x ⟨⟩ fields ⟨⟩⟩
    have none : (Value.array []).Whole := .array nofun
    have next : (Value.object [("marks", .array [])]).Whole :=
      .object (by decide) fun e he => List.mem_singleton.mp he ▸ none
    refine .object (by decide) fun e he => ?_
    simp only [List.mem_cons, List.not_mem_nil, or_false] at he
    rcases he with rfl | rfl | rfl
    · exact next
    · refine .array fun v hv => ?_
      rcases List.mem_pair.mp hv with rfl | rfl
      · exact text
      · exact one
    · exact null
  have inert : ValidationOptions.strict.Inert := ⟨rfl, rfl, rfl, rfl⟩
  have accepted : validate? ⟨chainGraph, chainNode, .strict⟩ 5 value = some (.ok value) := by cbv
  exact ⟨value, accepted, (validate?_pure chainNode_neutral whole).1 inert accepted⟩

end Validator
end Schemata

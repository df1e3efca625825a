import Schemata.Proofs.Json.Text
import Schemata.Proofs.Validation.Acceptance

/-! `uniqueItems` without coercion. Accepted items are compared by the JSON text of their outputs,
which is value equality but for integers in different forms and objects with different key orders.
-/

namespace Schemata

def Report.ReportsNoDuplicate (r : Report) : Prop := ∀ e ∈ r.errors, ∀ w, e.fault ≠ .duplicateItem w

namespace Check

variable {g : Graph} {firstOnly : Bool} {fuel : Nat} {o : ValidationOptions} {n : Node}
  {l : Location} {part : Part} {rules : ItemRules} {st : ItemState} {i : Nat}
  {given taken : List Value}

inductive Accepts (part : Part) (l : Location) : Nat → List Value → List Value → Prop
  | nil {i : Nat} : Accepts part l i [] []
  | cons {i : Nat} {v w : Value} {given taken : List Value}
      (accepted : part (l.atIndex i) v = some (.accept w))
      (rest : Accepts part l (i + 1) given taken) : Accepts part l i (v :: given) (w :: taken)

theorem Accepts.decided (accepts : Accepts part l i given taken) (rules : ItemRules) (st : ItemState) :
    ∃ out, items rules part l i st given = some out := by
  induction accepts generalizing st with
  | nil => exact ⟨st, rfl⟩
  | cons accepted _ ih =>
    rw [items]
    split
    · exact ⟨st, rfl⟩
    · rw [accepted]
      exact ih _

def ItemState.New (st : ItemState) (taken : List Value) : Prop :=
  (taken.map Value.json).Nodup ∧ ∀ w ∈ taken, w.json ∉ st.seen

theorem ItemState.new_cons {w : Value} (unique : rules.unique = true) (fresh : w.json ∉ st.seen) :
    st.New (w :: taken) ↔ (st.push rules w).New taken := by
  have seen : (st.push rules w).seen = w.json :: st.seen := if_pos unique
  unfold New
  rw [seen, List.map_cons, List.nodup_cons, List.forall_mem_cons]
  simp only [List.mem_cons, not_or, List.mem_map, not_exists, not_and]
  constructor
  · rintro ⟨⟨other, differ⟩, -, new⟩
    exact ⟨differ, fun x hx => ⟨other x hx, new x hx⟩⟩
  · rintro ⟨differ, new⟩
    exact ⟨⟨fun x hx => (new x hx).1, differ⟩, fresh, fun x hx => (new x hx).2⟩

theorem items_cons_fresh {v w : Value} (unique : rules.unique = true) (positive : 0 < rules.limit)
    (clean : st.Clean) (accepted : part (l.atIndex i) v = some (.accept w))
    (fresh : w.json ∉ st.seen) (rest : List Value) :
    items rules part l i st (v :: rest) = items rules part l (i + 1) (st.push rules w) rest := by
  have unseen : ¬(rules.unique && st.seen.contains w.json) = true := by
    simpa only [unique, Bool.true_and, List.contains_iff_mem] using fresh
  have admits : st.Admits rules w := by
    rw [ItemState.Admits, Bool.eq_false_iff.mpr unseen, Bool.false_and]
  rw [items_cons_accept clean positive accepted admits, ItemState.keep, if_neg unseen]

theorem Accepts.items_of_new (accepts : Accepts part l i given taken) (unique : rules.unique = true)
    (positive : 0 < rules.limit) (clean : st.Clean) (new : st.New taken) :
    ∃ out, items rules part l i st given = some out ∧ out.Clean := by
  induction accepts generalizing st with
  | nil => exact ⟨st, rfl, clean⟩
  | @cons _ _ w _ _ accepted _ ih =>
    have fresh := new.2 w List.mem_cons_self
    rw [items_cons_fresh unique positive clean accepted fresh]
    exact ih clean ((ItemState.new_cons unique fresh).mp new)

theorem Accepts.items_of_not_new (accepts : Accepts part l i given taken)
    (unique : rules.unique = true) (reports : rules.dropsDuplicates = false) (positive : 0 < rules.limit)
    (clean : st.Clean) (repeated : ¬st.New taken) :
    ∃ out, items rules part l i st given = some out ∧ 0 < out.failures ∧
      ∃ e ∈ out.errors, ∃ w, e.fault = .duplicateItem w := by
  induction accepts generalizing st with
  | nil => exact absurd ⟨List.nodup_nil, fun _ h => nomatch h⟩ repeated
  | @cons i v w given _ accepted rest ih =>
    by_cases fresh : w.json ∈ st.seen
    · have seen : (rules.unique && st.seen.contains w.json && !rules.dropsDuplicates) = true := by
        simpa only [unique, reports, Bool.true_and, Bool.not_false, Bool.and_true,
          List.contains_iff_mem] using fresh
      obtain ⟨e, he⟩ : ∃ e : ValidationError, e = ⟨l.atIndex i, .duplicateItem w⟩ := ⟨_, rfl⟩
      have told : e ∈ (st.fail rules.firstOnly [e]).errors := by
        unfold ItemState.fail Reports.addAll
        rw [clean.2]
        cases rules.firstOnly <;> exact List.mem_cons_self
      obtain ⟨out, run⟩ := rest.decided rules (st.fail rules.firstOnly [e])
      -- What is reported here is never taken back.
      have grown := items_grown run
      refine ⟨out, ?_, Nat.lt_of_lt_of_le (Nat.succ_pos _) grown.failures, e,
        grown.errors.subset told, w, congrArg ValidationError.fault he⟩
      rw [items_cons (clean.goes positive), accepted, Option.bind_some, ItemState.take_accept,
        if_pos seen, ← he, run]
    · rw [items_cons_fresh unique positive clean accepted fresh]
      exact ih clean (mt (ItemState.new_cons unique fresh).mpr repeated)

theorem start_new_iff : ItemState.start.New taken ↔
    taken.Pairwise fun v w => v.jsonText ≠ w.jsonText := by
  have text (v w : Value) : v.jsonText ≠ w.jsonText ↔ v.json ≠ w.json := not_congr String.ofList_inj
  have unseen : ∀ w ∈ taken, w.json ∉ ItemState.start.seen := fun _ _ => List.not_mem_nil
  simp only [ItemState.New, List.Nodup, List.pairwise_map, text, and_iff_left unseen]

theorem array_reportsNoDuplicate_iff (firstOnly : Bool) {ρ : Type} {f : ArrayFacets ρ}
    (unique : f.uniqueItems = some true) (plain : o.coerceTypes = false)
    (accepts : Accepts part l 0 given taken) :
    ∃ r, array f o firstOnly part l (.array given) = some r ∧
      (r.ReportsNoDuplicate ↔ taken.Pairwise fun v w => v.jsonText ≠ w.jsonText) := by
  have unique' : (itemRules f o firstOnly).unique = true := by
    simp only [itemRules, unique, Option.getD_some]
  have positive := positive_itemRules f o firstOnly
  rw [array_eq, ← start_new_iff]
  by_cases new : ItemState.start.New taken
  · obtain ⟨out, run, clean⟩ := accepts.items_of_new unique' positive ⟨rfl, rfl⟩ new
    refine ⟨_, Option.map_eq_some_iff.mpr ⟨out, run, rfl⟩, fun _ => new, fun _ e he w => ?_⟩
    unfold finishArray at he
    rw [clean.1, clean.2, if_neg (Nat.lt_irrefl 0)] at he
    split at he
    · obtain rfl := List.mem_singleton.mp he
      exact Fault.noConfusion
    · cases he
  · obtain ⟨out, run, failed, e, he, w, repeated⟩ :=
      accepts.items_of_not_new unique' plain positive ⟨rfl, rfl⟩ new
    refine ⟨_, Option.map_eq_some_iff.mpr ⟨out, run, rfl⟩, fun told => ?_, fun h => absurd h new⟩
    rw [finishArray, if_pos failed] at told
    exact absurd repeated (told e he w)

theorem texts_differ (legible : ∀ w ∈ taken, w.Every Value.Legible)
    (differ : taken.Pairwise fun v w => v.equal w = false) :
    taken.Pairwise fun v w => v.jsonText ≠ w.jsonText := by
  refine (List.Pairwise.and_mem.mp differ).imp fun {v w} ⟨hv, hw, other⟩ same => ?_
  have equal := Value.equal_of_json_eq (legible v hv) (legible w hw) (String.ofList_inj.mp same)
  exact Bool.false_ne_true (other.symm.trans equal)

theorem values_differ (legible : ∀ w ∈ taken, w.Every Value.Legible)
    (forms : taken.Pairwise Value.SameForms)
    (differ : taken.Pairwise fun v w => v.jsonText ≠ w.jsonText) :
    taken.Pairwise fun v w => v.equal w = false := by
  refine (List.Pairwise.and_mem.mp (forms.and differ)).imp fun {v w} ⟨hv, hw, forms, other⟩ => ?_
  refine Bool.eq_false_iff.mpr fun equal => other ?_
  rw [Value.jsonText, Value.jsonText,
    Value.json_eq_of_equal (legible v hv) (legible w hw) forms equal]

/-- For items accepted one by one without coercion, no `duplicateItem` is reported exactly when the
outputs have pairwise different JSON texts. Legible outputs that are pairwise unequal have none; the
converse holds if no two share an integer in different forms or an object with different key orders.
-/
theorem uniqueItems_by_jsonText {f : ArrayFacets Ref} (array : n.shape = .array f)
    (unique : f.uniqueItems = some true) (plain : o.coerceTypes = false)
    (accepts : Accepts (itemPart g (run g firstOnly fuel o) f.items) l 0 given taken) :
    ∃ r, shape g firstOnly o (run g firstOnly fuel o) n l (.array given) = some r ∧
      (r.ReportsNoDuplicate ↔ taken.Pairwise fun v w => v.jsonText ≠ w.jsonText) ∧
      ((∀ w ∈ taken, w.Every Value.Legible) →
        ((taken.Pairwise fun v w => v.equal w = false) → r.ReportsNoDuplicate) ∧
        (taken.Pairwise Value.SameForms →
          (r.ReportsNoDuplicate ↔ taken.Pairwise fun v w => v.equal w = false))) := by
  obtain ⟨r, decided, byText⟩ := array_reportsNoDuplicate_iff firstOnly unique plain accepts
  rw [shape_itemPart array]
  refine ⟨r, decided, byText, fun legible => ⟨fun differ => ?_, fun forms => ?_⟩⟩
  · exact byText.mpr (texts_differ legible differ)
  · exact byText.trans ⟨values_differ legible forms, texts_differ legible⟩

theorem uniqueItems_by_jsonText_of_three :
    let anything : Node := Node.ofBase .any
    let several : Node :=
      { Node.ofBase .array with shape := .array ⟨some (.node anything), some true, none, none⟩ }
    let o := ValidationOptions.strict
    let half : Number := .float (.finite false (3 * 2 ^ 51) (-52) (by decide))
    let items := [.number (.uint 1), .number half, .object [("k", .number (.int 1))]]
    Accepts (itemPart .initial (run .initial false 1 o) (some (.node anything))) [] 0 items items ∧
      (∀ w ∈ items, w.Every Value.Legible) ∧ items.Pairwise Value.SameForms ∧
      ∃ r, shape .initial false o (run .initial false 1 o) several [] (.array items) = some r ∧
        (r.ReportsNoDuplicate ↔ items.Pairwise fun v w => v.equal w = false) := by
  intro anything several o half items
  have accepts : Accepts (itemPart .initial (run .initial false 1 o) (some (.node anything))) [] 0
      items items := .cons rfl (.cons rfl (.cons rfl .nil))
  have legible : ∀ w ∈ items, w.Every Value.Legible := by
    refine List.forall_mem_cons.mpr ⟨?_, List.forall_mem_cons.mpr ⟨?_, List.forall_mem_singleton.mpr ?_⟩⟩
    · rintro _ ⟨⟩
      trivial
    · rintro _ ⟨⟩
      rfl
    · refine Value.every_object (List.nodup_singleton _) fun e he => ?_
      rw [List.mem_singleton.mp he]
      rintro _ ⟨⟩
      trivial
  have fraction : half.toInt? = none := rfl
  have forms : items.Pairwise Value.SameForms := by
    refine .cons (List.forall_mem_cons.mpr ⟨⟨?_, ?_⟩, List.forall_mem_singleton.mpr ⟨?_, ?_⟩⟩)
      (.cons (List.forall_mem_singleton.mpr ⟨?_, ?_⟩) (List.pairwise_singleton _ _))
    · rintro _ _ i ⟨⟩ ⟨⟩ _ whole
      cases fraction.symm.trans whole
    · rintro _ _ ⟨⟩
    · rintro _ _ i ⟨⟩ (_ | _ | ⟨member, inside⟩) _ _
      obtain rfl := List.mem_singleton.mp member
      cases inside
      rfl
    · rintro _ _ ⟨⟩
    · rintro _ _ i ⟨⟩ _ whole _
      cases fraction.symm.trans whole
    · rintro _ _ ⟨⟩
  obtain ⟨r, decided, -, byEquality⟩ :=
    uniqueItems_by_jsonText (n := several) (l := []) rfl rfl rfl accepts
  exact ⟨accepts, legible, forms, r, decided, (byEquality legible).2 forms⟩

/-- 1 and 1.0 are equal with different texts; null and `undefined` differ with one text. -/
theorem not_uniqueItems_by_equal :
    let several : Node := { Node.ofBase .array with shape := .array ⟨none, some true, none, none⟩ }
    let o := { ValidationOptions.strict with maxErrorsPerArray := 5 }
    let check := shape .initial false o (run .initial false 1 o) several []
    let part := itemPart .initial (run .initial false 1 o) none
    let equals := [[.number (.uint 1), .number (.float (.ofInt 1))],
      [.object [("a", .null), ("b", .null)], .object [("b", .null), ("a", .null)]]]
    let others := [.null, .undefined]
    (∀ items ∈ equals, Accepts part [] 0 items items ∧ items.length < o.maxErrorsPerArray ∧
      (∃ r, check (.array items) = some r ∧ r.ReportsNoDuplicate) ∧
        ¬items.Pairwise fun v w => v.equal w = false) ∧
      Accepts part [] 0 others others ∧ others.length < o.maxErrorsPerArray ∧
        (∃ r, check (.array others) = some r ∧ ¬r.ReportsNoDuplicate) ∧
          others.Pairwise fun v w => v.equal w = false := by
  intro several o check part equals others
  have accepts (v w : Value) : Accepts part [] 0 [v, w] [v, w] := .cons rfl (.cons rfl .nil)
  have equal {v w : Value} (h : v.equal w = true) :
      ¬[v, w].Pairwise fun v w => v.equal w = false := fun differ =>
    Bool.false_ne_true ((List.pairwise_pair.mp differ).symm.trans h)
  refine ⟨?_, accepts _ _, by decide, ⟨_, rfl, fun told => ?_⟩, List.pairwise_pair.mpr rfl⟩
  · rintro items h
    rcases List.mem_pair.mp h with rfl | rfl
    · exact ⟨accepts _ _, by decide, ⟨_, rfl, fun _ h => nomatch h⟩, equal rfl⟩
    · exact ⟨accepts _ _, by decide, ⟨_, rfl, fun _ h => nomatch h⟩, equal rfl⟩
  · exact told _ List.mem_cons_self _ rfl

end Check
end Schemata

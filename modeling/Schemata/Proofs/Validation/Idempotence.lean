import Schemata.Proofs.Keyed
import Schemata.Proofs.Number.Exactness
import Schemata.Proofs.Validation.DateText
import Schemata.Proofs.Validation.Scalars
import Schemata.Proofs.Value.Occurrence

/-! Coerced values. Each family coerces to a form that it leaves unchanged: canonical text for
scalars, an integer of any size, an array without duplicates, an object without dropped keys and
with defaults filled in. -/

namespace Schemata

/-- A native date-time with a year of four digits. -/
def Value.YearShown (v : Value) : Prop :=
  ∀ d, v = .dateTime d → 0 ≤ d.date.year ∧ d.date.year ≤ 9999

namespace Check

variable {l l' : Location} {v w : Value} {o : ValidationOptions} {firstOnly : Bool} {part : Part}

/-- Every output is accepted and returned unchanged, anywhere. -/
def Part.Idempotent (part : Part) : Prop :=
  ∀ l v w, v.Every Value.YearShown → part l v = some (.accept w) →
    ∀ l', part l' w = some (.accept w)

section Scalars

theorem string_idempotent (coerces : o.coerceTypes = true) {f : StringFacets}
    (h : string f o l v = .accept w) : w.isMissing = false ∧ string f o l' w = .accept w := by
  obtain ⟨text, -, fits, rfl⟩ := string_eq_accept_iff.mp h
  rw [if_pos coerces]
  exact ⟨rfl, string_eq_accept_iff.mpr ⟨text, rfl, fits, (if_pos coerces).symm⟩⟩

theorem numberFits_coercedNumber {f : NumberFacets} {integer : Bool} {x : Number}
    (fits : NumberFits f integer x) : NumberFits f integer (coercedNumber (isExact f) x) := by
  unfold coercedNumber
  rcases big : isExact f with _ | _
  · exact fits
  · rcases hi : x.toInt? with _ | i
    · exact fits
    -- The two numbers are one integer, and an exact format compares integers.
    · change NumberFits f integer (.big i)
      have allowed : isAllowedNumber f.allowed x = isAllowedNumber f.allowed (.big i) := by
        simp only [isAllowedNumber, Number.equal, Number.compare?_big_right hi]
      have whole : (Number.big i).isInteger = true := rfl
      refine ⟨?_, allowed ▸ fits.allowed, ?_, fun m hm => ?_⟩
      · rw [whole, Bool.not_true, Bool.and_false]
      · have range := fits.range
        simp only [big, compareBy, if_true, Number.compare?_big_left hi] at range ⊢
        exact range
      · have multiple := fits.multiple m hm
        rw [big, Number.isMultipleOf_big hi] at multiple
        rwa [big]

theorem coercedNumber_coercedNumber (exact : Bool) (x : Number) :
    coercedNumber exact (coercedNumber exact x) = coercedNumber exact x := by
  unfold coercedNumber
  cases exact
  · rfl
  · rcases hi : x.toInt? with _ | i
    · simp only [if_true, hi]
    · rfl

theorem number_idempotent (coerces : o.coerceTypes = true) {f : NumberFacets} {integer : Bool}
    (h : number f integer o l v = .accept w) :
    w.isMissing = false ∧ number f integer o l' w = .accept w := by
  obtain ⟨x, -, fits, rfl⟩ := number_eq_accept_iff.mp h
  rw [if_pos coerces]
  refine ⟨rfl, number_eq_accept_iff.mpr ⟨_, rfl, numberFits_coercedNumber fits, ?_⟩⟩
  rw [if_pos coerces, coercedNumber_coercedNumber]

theorem boolean_idempotent (coerces : o.coerceTypes = true) (h : boolean o l v = .accept w) :
    w.isMissing = false ∧ boolean o l' w = .accept w := by
  obtain ⟨b, -, rfl⟩ := boolean_eq_accept_iff.mp h
  rw [if_pos coerces]
  exact ⟨rfl, boolean_eq_accept_iff.mpr ⟨b, rfl, (if_pos coerces).symm⟩⟩

theorem readsDate_canonicalText (coerces : o.coerceTypes = true) (texts : o.coerceNativeTypes = false)
    {base : BaseType} {f : DateFacets} (written : isMail base f = false) {fields : DateFields}
    (readable : fields.Readable o.fastDateValidation) :
    ReadsDate base f o (.string ((DateForm.ofBase base).canonicalText fields))
      (.string ((DateForm.ofBase base).canonicalText fields)) := by
  obtain ⟨shown, read, same⟩ := DateForm.exists_read_canonicalText readable (.ofBase base)
  have again := ReadsDate.written written read texts
  rwa [if_pos coerces, same] at again

theorem date_idempotent (coerces : o.coerceTypes = true) {base : BaseType} {f : DateFacets}
    (written : f.format ≠ some .rfc2616) (shown : v.YearShown) (h : date base f o l v = .accept w) :
    w.isMissing = false ∧ date base f o l' w = .accept w := by
  have written : isMail base f = false := by
    rw [isMail, beq_eq_false_iff_ne.mpr written, Bool.and_false]
  have native (foreign : o.coerceNativeTypes = true) (d : Calendar.DateTime) :
      ReadsDate base f o (.dateTime d) (.dateTime d) := by
    have again : ReadsDate base f o (.dateTime d) _ := .native d
    rwa [nativeDate, foreign, Bool.true_or, if_pos rfl] at again
  cases date_eq_accept_iff.mp h with
  | native d =>
    rcases foreign : o.coerceNativeTypes with _ | _
    · rw [nativeDate, foreign, coerces, written]
      have readable := DateFields.readable_ofNative o.fastDateValidation (shown d rfl)
      exact ⟨rfl, date_eq_accept_iff.mpr (readsDate_canonicalText coerces foreign written readable)⟩
    · rw [nativeDate, foreign, Bool.true_or, if_pos rfl]
      exact ⟨rfl, date_eq_accept_iff.mpr (native foreign d)⟩
  | mail mail =>
    rw [written] at mail
    cases mail
  | instant _ _ foreign => exact ⟨rfl, date_eq_accept_iff.mpr (native foreign _)⟩
  | written _ read foreign =>
    rw [if_pos coerces]
    have readable := DateForm.readable_of_read read
    exact ⟨rfl, date_eq_accept_iff.mpr (readsDate_canonicalText coerces foreign written readable)⟩

end Scalars

section Items

variable {rules : ItemRules} {st out : ItemState}

def ItemState.Stands (st : ItemState) (rules : ItemRules) (part : Part) : Prop :=
  ∀ l, items rules part l 0 .start st.output = some st

theorem admits_of_dropsDuplicates (drops : rules.dropsDuplicates = true) (st : ItemState) (w : Value) :
    st.Admits rules w := by
  rw [ItemState.Admits, drops, Bool.not_true, Bool.and_false]

theorem ItemState.Stands.keep (positive : 0 < rules.limit) (drops : rules.dropsDuplicates = true)
    (stands : st.Stands rules part) (clean : st.Clean)
    (again : ∀ l, part l w = some (.accept w)) : (st.keep rules w).Stands rules part := by
  intro l
  unfold ItemState.keep
  split
  · exact stands l
  · rename_i new
    have admits := admits_of_dropsDuplicates drops st w
    change items rules part l 0 .start (st.output ++ [w]) = _
    rw [items_append, stands l, Option.bind_some,
      items_cons_accept clean positive (again _) admits, ItemState.keep, if_neg new]
    rfl

theorem items_stands (idempotent : part.Idempotent) (settled : part.Settled False)
    (positive : 0 < rules.limit) (drops : rules.dropsDuplicates = true) {list : List Value}
    (shown : ∀ v ∈ list, v.Every Value.YearShown) {i : Nat} (stands : st.Stands rules part)
    (run : items rules part l i st list = some out) (clean : out.Clean) :
    out.Stands rules part := by
  -- On the items still to come: those that have come out lead a second loop to the same state.
  induction list generalizing i st with
  | nil =>
    obtain rfl := Option.some.inj run
    exact stands
  | cons v rest ih =>
    have before := (items_grown run).clean clean
    obtain ⟨w, accepted, -, follows⟩ := exists_of_items_cons settled positive run clean
    have again := idempotent _ _ _ (shown v List.mem_cons_self) accepted
    exact ih (fun v hv => shown v (List.mem_cons_of_mem _ hv))
      (stands.keep positive drops before again) follows

end Items

theorem array_idempotent (coerces : o.coerceTypes = true) (idempotent : part.Idempotent)
    (settled : part.Settled False) {ρ : Type} {f : ArrayFacets ρ} (shown : v.Every Value.YearShown)
    (h : array f o firstOnly part l v = some (.accept w)) :
    w.isMissing = false ∧ array f o firstOnly part l' w = some (.accept w) := by
  obtain ⟨list, st, read, run, clean, within, rfl⟩ := array_eq_accept_iff.mp h
  have shown : ∀ v ∈ list, v.Every Value.YearShown := by
    rcases itemsOf?_cases read with rfl | ⟨rfl, -⟩
    · exact fun v hv => shown.item hv
    · intro x hx
      rwa [List.mem_singleton.mp hx]
  have stands := items_stands idempotent settled (positive_itemRules f o firstOnly) coerces shown
    (fun _ => rfl) run clean
  exact ⟨rfl, array_eq_accept_iff.mpr ⟨_, st, rfl, stands l', clean, within, rfl⟩⟩

section Keys

variable {rules : KeyRules} {st out : KeyState} {key : String} {p : PropertyRule} {value : Option Value}
  {given : Keyed Value} {properties : Keyed PropertyRule}

structure KeyState.Stands (st : KeyState) (rules : KeyRules) : Prop where
  clean : st.Clean
  differ : Keyed.Distinct st.output
  treats : ∀ e ∈ st.output, ∀ l, Treats rules l e.1 e.2 (some e.2)

theorem KeyState.Stands.put (stands : st.Stands rules)
    (treats : ∀ w, value = some w → ∀ l, Treats rules l key w (some w)) :
    (st.put key value).Stands rules := by
  rcases value with _ | w
  · exact stands
  · refine ⟨stands.clean, ?_, fun e he => ?_⟩
    · exact Keyed.distinct_insert stands.differ
    · rcases Keyed.mem_insert he with he | rfl
      · exact stands.treats e he
      · exact treats w rfl

theorem eq_of_present?_eq_some {x : Value} (h : w.present? = some x) : x = w := by
  unfold Value.present? at h
  split at h
  · cases h
  · exact (Option.some.inj h).symm

theorem treats_of_present (found : Keyed.get? rules.properties key = some p)
    (again : ∀ l, p.part l w = some (.accept w)) {x : Value} (h : w.present? = some x)
    (l : Location) : Treats rules l key x (some x) := by
  obtain rfl := eq_of_present?_eq_some h
  rw [← h]
  apply Treats.declared found
  unfold givenProperty
  split
  · rfl
  · exact again _

theorem Treats.idempotent {v : Value} (idempotent : ∀ e ∈ rules.properties, e.2.part.Idempotent)
    (shown : v.Every Value.YearShown) (treats : Treats rules l key v value) {x : Value}
    (h : value = some x) (l' : Location) : Treats rules l' key x (some x) := by
  cases treats with
  | dropped => cases h
  | kept undeclared stays additional =>
    obtain rfl := Option.some.inj h
    exact .kept undeclared stays additional
  | @declared p w found accepted =>
    unfold givenProperty at accepted
    split at accepted
    · rename_i aside
      obtain rfl := Report.accept_inj.mp (Option.some.inj accepted)
      obtain rfl := eq_of_present?_eq_some h
      rw [← h]
      apply Treats.declared found
      rw [givenProperty, if_pos aside]
    · exact treats_of_present found (idempotent _ (Keyed.mem_of_get? found) _ _ _ shown accepted) h l'

theorem givenKeys_stands (idempotent : ∀ e ∈ rules.properties, e.2.part.Idempotent)
    (settled : ∀ e ∈ rules.properties, e.2.part.Settled False) (positive : 0 < rules.limit)
    {fields : List (String × Value)} (shown : ∀ e ∈ fields, e.2.Every Value.YearShown)
    (stands : st.Stands rules) (run : givenKeys rules l st fields = some out) (clean : out.Clean) :
    out.Stands rules := by
  induction fields generalizing st with
  | nil =>
    obtain rfl := Option.some.inj run
    exact stands
  | cons e rest ih =>
    obtain ⟨value, treats, run⟩ := exists_of_givenKeys_cons
      (fun key p found => settled _ (Keyed.mem_of_get? found)) positive run clean
    have again w (h : value = some w) := treats.idempotent idempotent (shown e List.mem_cons_self) h
    exact ih (fun e he => shown e (List.mem_cons_of_mem _ he)) (stands.put again) run

def PropertyRule.Idle (p : PropertyRule) : Prop :=
  (p.required || p.hasDefault) = false ∨ ∀ l, p.part l .undefined = some (.accept .undefined)

theorem undefined_of_present? (h : w.present? = none) : w = .undefined := by
  unfold Value.present? at h
  split at h
  · cases w with
    | undefined => rfl
    | _ => rename_i absent; cases absent
  · cases h

theorem mem_keys_put (st : KeyState) (key : String) (value : Option Value) {k : String}
    (h : k ∈ st.output.keys) : k ∈ (st.put key value).output.keys := by
  rcases value with _ | w
  · exact h
  · change k ∈ (Keyed.insert st.output key w).keys
    rw [Keyed.keys_insert]
    split
    · exact h
    · exact List.mem_append_left _ h

theorem mem_keys_put_self (st : KeyState) (key : String) (w : Value) :
    key ∈ (st.put key (some w)).output.keys := by
  change key ∈ (Keyed.insert st.output key w).keys
  rw [Keyed.keys_insert]
  split
  · assumption
  · exact List.mem_append_right _ List.mem_cons_self

theorem every_undefined : Value.undefined.Every Value.YearShown := by
  rintro x ⟨⟩ d ⟨⟩

theorem Treats.idle (idempotent : p.part.Idempotent) (aside : p.ignored = true → p.required = false)
    {v : Value} (shown : v.Every Value.YearShown) (found : Keyed.get? rules.properties key = some p)
    (treats : Treats rules l key v none) : p.Idle := by
  generalize hv : (none : Option Value) = value at treats
  cases treats with
  | dropped undeclared =>
    rw [found] at undeclared
    cases undeclared
  | kept => cases hv
  | declared found' accepted =>
    obtain rfl := Option.some.inj (found.symm.trans found')
    obtain rfl := undefined_of_present? hv.symm
    unfold givenProperty at accepted
    split at accepted
    -- Set aside: the requirement does not count, and there is no default.
    · rename_i ignored
      simp only [Bool.and_eq_true, Bool.not_eq_true'] at ignored
      left
      rw [aside ignored.1.1, ignored.2, Bool.or_self]
    · exact .inr (idempotent _ _ _ shown accepted)

theorem givenKeys_idle (idempotent : ∀ e ∈ rules.properties, e.2.part.Idempotent)
    (settled : ∀ e ∈ rules.properties, e.2.part.Settled False)
    (aside : ∀ e ∈ rules.properties, e.2.ignored = true → e.2.required = false)
    (positive : 0 < rules.limit) {fields : List (String × Value)}
    (shown : ∀ e ∈ fields, e.2.Every Value.YearShown)
    (run : givenKeys rules l st fields = some out) (clean : out.Clean) :
    (∀ k ∈ st.output.keys, k ∈ out.output.keys) ∧
      ∀ e ∈ fields, e.1 ∉ out.output.keys →
        ∀ p, Keyed.get? rules.properties e.1 = some p → p.Idle := by
  induction fields generalizing st with
  | nil =>
    obtain rfl := Option.some.inj run
    exact ⟨fun _ h => h, fun _ h => nomatch h⟩
  | cons e rest ih =>
    obtain ⟨value, treats, run⟩ := exists_of_givenKeys_cons
      (fun key p found => settled _ (Keyed.mem_of_get? found)) positive run clean
    obtain ⟨grows, idle⟩ := ih (fun e he => shown e (List.mem_cons_of_mem _ he)) run
    refine ⟨fun k hk => grows k (mem_keys_put st e.1 value hk), fun e' he' lacks p found => ?_⟩
    rcases List.mem_cons.mp he' with rfl | he'
    · rcases value with _ | w
      · have member := Keyed.mem_of_get? found
        exact treats.idle (idempotent _ member) (aside _ member) (shown _ List.mem_cons_self) found
      · exact absurd (grows _ (mem_keys_put_self st _ w)) lacks
    · exact idle e' he' lacks p found

theorem absentKeys_stands (idempotent : ∀ e ∈ properties, e.2.part.Idempotent)
    (settled : ∀ e ∈ properties, e.2.part.Settled False) (positive : 0 < rules.limit)
    (found : ∀ e ∈ properties, Keyed.get? rules.properties e.1 = some e.2)
    (stands : st.Stands rules) (run : absentKeys rules l given st properties = some out)
    (clean : out.Clean) :
    out.Stands rules ∧ (∀ k ∈ st.output.keys, k ∈ out.output.keys) ∧
      ∀ e ∈ properties, Keyed.hasKey given e.1 = false → e.1 ∉ out.output.keys → e.2.Idle := by
  induction properties generalizing st with
  | nil =>
    obtain rfl := Option.some.inj run
    exact ⟨stands, fun _ h => h, fun _ h => nomatch h⟩
  | cons e rest ih =>
    obtain ⟨key, p⟩ := e
    have ih {st : KeyState} := @ih st (fun e he => idempotent e (List.mem_cons_of_mem _ he))
      (fun e he => settled e (List.mem_cons_of_mem _ he))
      (fun e he => found e (List.mem_cons_of_mem _ he))
    rcases due : p.due given key with _ | _
    · rw [absentKeys_cons_of_not_due stands.clean positive due] at run
      obtain ⟨stands, grows, idle⟩ := ih stands run
      refine ⟨stands, grows, fun e he absent lacks => ?_⟩
      rcases List.mem_cons.mp he with rfl | he
      · left
        rwa [PropertyRule.due, absent, Bool.false_or, Bool.not_not] at due
      · exact idle e he absent lacks
    · obtain ⟨w, accepted, run⟩ := exists_of_absentKeys_cons (settled _ List.mem_cons_self) positive
        run clean due
      have again := idempotent _ List.mem_cons_self _ _ _ every_undefined accepted
      have treats x (h : w.present? = some x) :=
        treats_of_present (found _ List.mem_cons_self) again h
      obtain ⟨stands, grows, idle⟩ := ih (stands.put treats) run
      refine ⟨stands, fun k hk => grows k (mem_keys_put st key _ hk), fun e he absent lacks => ?_⟩
      rcases List.mem_cons.mp he with rfl | he
      · rcases hp : w.present? with _ | x
        · obtain rfl := undefined_of_present? hp
          exact .inr again
        · rw [hp] at grows
          exact absurd (grows _ (mem_keys_put_self st _ x)) lacks
      · exact idle e he absent lacks

/-! The same keys once more. -/

theorem givenKeys_of_treats (positive : 0 < rules.limit) {fields : List (String × Value)}
    (treats : ∀ e ∈ fields, Treats rules l e.1 e.2 (some e.2)) (clean : st.Clean)
    (differ : Keyed.Distinct (st.output ++ fields)) :
    givenKeys rules l st fields = some { st with output := st.output ++ fields } := by
  induction fields generalizing st with
  | nil =>
    rw [List.append_nil]
    rfl
  | cons e rest ih =>
    obtain ⟨key, v⟩ := e
    rw [givenKeys_cons_accept clean positive (treats _ List.mem_cons_self)]
    have next := @ih (st.put key (some v)) (fun e he => treats e (List.mem_cons_of_mem _ he)) clean
    rw [KeyState.output_put differ, List.append_assoc] at next
    exact next differ

theorem absentKeys_of_idle (positive : 0 < rules.limit) (clean : st.Clean)
    (idle : ∀ e ∈ properties, Keyed.hasKey given e.1 = false → e.2.Idle) :
    absentKeys rules l given st properties = some st := by
  induction properties with
  | nil => rfl
  | cons e rest ih =>
    obtain ⟨key, p⟩ := e
    have ih := ih fun e he => idle e (List.mem_cons_of_mem _ he)
    rcases due : p.due given key with _ | _
    · rw [absentKeys_cons_of_not_due clean positive due, ih]
    · have absent : Keyed.hasKey given key = false := by
        simp only [PropertyRule.due, Bool.not_eq_true', Bool.or_eq_false_iff] at due
        exact due.1
      have wanted : (p.required || p.hasDefault) = true := by
        simp only [PropertyRule.due, absent, Bool.false_or, Bool.not_not] at due
        exact due
      rcases idle _ List.mem_cons_self absent with idle | again
      · rw [wanted] at idle
        cases idle
      · rw [absentKeys_cons_of_due clean positive due, again, Option.bind_some,
          KeyState.take_accept]
        exact ih

end Keys

theorem object_idempotent {ρ : Type} {f : ObjectFacets ρ} {name : Option String}
    (plain : f.discriminator = none ∧ f.minProperties = none ∧ f.maxProperties = none)
    {properties : Keyed PropertyRule} (differ : Keyed.Distinct properties)
    (idempotent : ∀ e ∈ properties, e.2.part.Idempotent)
    (settled : ∀ e ∈ properties, e.2.part.Settled False)
    (aside : ∀ e ∈ properties, e.2.ignored = true → e.2.required = false)
    (shown : v.Every Value.YearShown)
    (h : object f name o firstOnly properties l v = some (.accept w)) :
    w.isMissing = false ∧ object f name o firstOnly properties l' w = some (.accept w) := by
  obtain ⟨given, st, out, rfl, -, first, second, clean, -, rfl⟩ := object_eq_accept_iff.mp h
  have positive := positive_keyRules f o firstOnly properties
  have before := (absentKeys_grown second).clean clean
  have shown : ∀ e ∈ given, e.2.Every Value.YearShown := fun e he => shown.field he
  have found : ∀ e ∈ properties, Keyed.get? properties e.1 = some e.2 :=
    fun e he => Keyed.get?_of_mem differ he
  have start : KeyState.start.Stands (keyRules f o firstOnly properties) :=
    ⟨⟨rfl, rfl⟩, List.nodup_nil, fun _ h => nomatch h⟩
  have stands := givenKeys_stands idempotent settled positive shown start first before
  obtain ⟨-, idle⟩ := givenKeys_idle idempotent settled aside positive shown first before
  obtain ⟨stands, grows, idle'⟩ := absentKeys_stands idempotent settled positive found stands second clean
  have told (given : Keyed Value) : discriminated f name l' given = none := by
    rw [discriminated, discriminator?, plain.1]
    rfl
  have within (count : Nat) : outside count f.minProperties f.maxProperties = false := by
    rw [plain.2.1, plain.2.2]
    rfl
  have same : { KeyState.start with output := KeyState.start.output ++ out.output } = out := by
    obtain ⟨failures, errors⟩ := clean
    rw [KeyState.start, List.nil_append, ← failures, ← errors]
  have again : givenKeys (keyRules f o firstOnly properties) l' .start out.output =
      some { KeyState.start with output := KeyState.start.output ++ out.output } :=
    givenKeys_of_treats positive (fun e he => stands.treats e he l') ⟨rfl, rfl⟩ stands.differ
  refine ⟨rfl, object_eq_accept_iff.mpr ⟨out.output, out, out, rfl, told _, ?_, ?_, clean, within _, rfl⟩⟩
  · rw [again, same]
  -- A key that did not come out was given and left out, or it was not given.
  · apply absentKeys_of_idle positive clean
    intro e he absent
    have lacks : e.1 ∉ out.output.keys := by
      rw [← Keyed.hasKey_iff_mem_keys, absent]
      exact Bool.false_ne_true
    rcases there : Keyed.hasKey given e.1 with _ | _
    · exact idle' e he there lacks
    · obtain ⟨e', he', key⟩ := List.mem_map.mp (Keyed.hasKey_iff_mem_keys.mp there)
      refine idle e' he' ?_ e.2 ?_
      · rw [key]
        exact fun present => lacks (grows _ present)
      · rw [key]
        exact found e he

end Check
end Schemata

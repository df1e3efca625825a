import Schemata.Proofs.Validation.Acceptance
import Schemata.Proofs.Validation.DateText
import Schemata.Proofs.Validation.Scalars

/-! Types of dates. A text behind the guard is read in the form of the type; the outcome depends on
what is read, and under `coerceNativeTypes` on its native date-time. -/

namespace Schemata

namespace Node

/-- A type of a date base other than `datetime` in mail format, which is its own only alternative.
-/
structure OfDates (n : Node) (f : DateFacets) : Prop where
  shape : n.shape = .date f
  single : n.alternatives? = none
  written : Check.isMail n.base f = false

def dateForm (n : Node) : DateForm := .ofBase n.base

theorem ofDates_ofBase {base : BaseType} (dates : base.isDate = true) :
    (ofBase base).OfDates ⟨none⟩ := by
  cases base <;> first | exact ⟨rfl, rfl, rfl⟩ | cases dates

end Node

def DateRejection.expected (form : DateForm) : DateRejection → String
  | .form => form.label
  | .calendar => "a calendar date"

theorem DateRejection.expected_injective (form : DateForm) {r r' : DateRejection}
    (same : r.expected form = r'.expected form) : r = r' := by
  have differ : DateRejection.form.expected form ≠ DateRejection.calendar.expected form := by
    cases form <;> decide
  cases r <;> cases r'
  · rfl
  · exact absurd same differ
  · exact absurd same.symm differ
  · rfl

namespace Check

variable {g : Graph} {firstOnly : Bool} {fuel : Nat} {o : ValidationOptions} {n : Node} {f : DateFacets}
  {l : Location} {v w : Value} {s : String}

theorem run_ofDates (type : n.OfDates f) (enters : Enters n v) :
    run g firstOnly (fuel + 1) o n l v = some (date n.base f o l v) := by
  rw [run_single type.single, guarded_of_enters enters, shape, type.shape]

theorem date_text (type : n.OfDates f) :
    date n.base f o l (.string s) = writtenDate n.dateForm o l (.string s) s := by
  have written : ¬(n.base == .dateTime && f.format == some .rfc2616) = true :=
    Bool.eq_false_iff.mp type.written
  rw [date, if_neg written]
  rfl

theorem date_text_of_error (type : n.OfDates f) {r : DateRejection}
    (stopped : n.dateForm.read o.fastDateValidation s.toList = .error r) :
    date n.base f o l (.string s) = .reject l (.badFormat (.string s) (r.expected n.dateForm)) := by
  rw [date_text type, writtenDate, stopped]
  cases r <;> rfl

theorem enters_string : Enters n (.string s) ↔ passes n (.string s) = true :=
  ⟨Enters.passes, fun passes => ⟨rfl, passes⟩⟩

end Check

namespace Validator

open Check

def ofBase (base : BaseType) (o : ValidationOptions) : Validator := ⟨.initial, .ofBase base, o⟩

variable {v : Validator} {f : DateFacets} {steps : Nat} {value w : Value} {s : String}

theorem report?_ofDates (type : v.node.OfDates f) (enters : Enters v.node value) (firstOnly : Bool) :
    v.report? (steps + 1) firstOnly value = some (date v.node.base f v.options [] value) :=
  run_ofDates type enters

theorem validate?_ofDates_iff (type : v.node.OfDates f) (enters : Enters v.node value) :
    v.validate? (steps + 1) value = some (.ok w) ↔ ReadsDate v.node.base f v.options value w := by
  rw [validate?_eq_ok_iff, report?_ofDates type enters, Option.some_inj]
  exact date_eq_accept_iff

theorem validate?_of_reject {fault : Fault} {l : Location}
    (rejected : v.report? steps v.options.throwOnFirstError value = some (.reject l fault)) :
    v.validate? steps value = some (.error [⟨l, fault⟩]) := by
  rw [validate?, rejected]
  rfl

theorem validate?_of_unread (type : v.node.OfDates f) (steps : Nat)
    (passes : passes v.node (.string s) = true)
    {r : DateRejection} (stopped : v.node.dateForm.read v.options.fastDateValidation s.toList = .error r) :
    v.validate? (steps + 1) (.string s) =
      some (.error [⟨[], .badFormat (.string s) (r.expected v.node.dateForm)⟩]) := by
  refine validate?_of_reject ?_
  rw [report?_ofDates type (enters_string.mpr passes), date_text_of_error type stopped]

theorem validate?_of_read (type : v.node.OfDates f) (steps : Nat)
    (passes : passes v.node (.string s) = true)
    (texts : v.options.coerceNativeTypes = false) {fields : DateFields}
    (read : v.node.dateForm.read v.options.fastDateValidation s.toList = .ok fields) :
    v.validate? (steps + 1) (.string s) =
      some (.ok (if v.options.coerceTypes then .string (v.node.dateForm.canonicalText fields)
        else .string s)) :=
  (validate?_ofDates_iff type (enters_string.mpr passes)).mpr (.written type.written read texts)

theorem validate?_of_unknown (type : v.node.OfDates f) (steps : Nat)
    (passes : passes v.node (.string s) = true)
    (native : v.options.coerceNativeTypes = true) {fields : DateFields}
    (read : v.node.dateForm.read v.options.fastDateValidation s.toList = .ok fields)
    (unknown : fields.toNative? = none) :
    v.validate? (steps + 1) (.string s) =
      some (.error [⟨[], .badFormat (.string s) v.node.dateForm.label⟩]) := by
  refine validate?_of_reject ?_
  rw [report?_ofDates type (enters_string.mpr passes), date_text type, writtenDate, read]
  simp only [native, if_true, unknown]
  rfl

/-- A text is accepted exactly when it passes `typeOf` and is read by the form, and under
`coerceNativeTypes` has a native date-time. -/
theorem accepts_text_iff (type : v.node.OfDates f) (steps : Nat) (s : String) :
    (∃ w, v.validate? (steps + 1) (.string s) = some (.ok w)) ↔
      passes v.node (.string s) = true ∧
        ∃ fields, v.node.dateForm.read v.options.fastDateValidation s.toList = .ok fields ∧
          (v.options.coerceNativeTypes = true → fields.toNative?.isSome = true) := by
  constructor
  · rintro ⟨w, accepted⟩
    have ran := validate?_eq_ok_iff.mp accepted
    rw [report?, run_single type.single, guarded_eq_accept_iff] at ran
    obtain ⟨enters, -⟩ := ran.resolve_left fun absent => nomatch absent.1
    refine ⟨enters.passes, ?_⟩
    cases (validate?_ofDates_iff type enters).mp accepted with
    | mail mail => exact absurd mail (Bool.eq_false_iff.mp type.written)
    | instant _ read _ known => exact ⟨_, read, fun _ => Option.isSome_of_eq_some known⟩
    | written _ read texts => exact ⟨_, read, fun native => absurd native (Bool.eq_false_iff.mp texts)⟩
  · rintro ⟨passes, fields, read, known⟩
    have enters : Enters v.node (.string s) := enters_string.mpr passes
    rcases native : v.options.coerceNativeTypes with _ | _
    · exact ⟨_, validate?_of_read type steps passes native read⟩
    · obtain ⟨d, known⟩ := Option.isSome_iff_exists.mp (known native)
      exact ⟨_, (validate?_ofDates_iff type enters).mpr (.instant type.written read native known)⟩

end Validator

end Schemata

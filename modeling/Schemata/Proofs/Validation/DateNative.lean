import Schemata.Proofs.Text.Runs
import Schemata.Proofs.Validation.DateTypes

/-! Native date-times of date texts. Every text that a form reads has one unless its fraction has
digits of another script; so with `coerceNativeTypes` a type accepts what it accepts without, if the
text is ASCII. -/

namespace Schemata

namespace DateFields

variable {f : DateFields} {fast : Bool}

theorem isDigit_iff {c : Char} (decimal : Text.isDecimalDigit c = true) :
    c.isDigit = true ↔ c.toNat < 128 := by
  refine ⟨Text.toNat_lt_of_isDigit, fun low => ?_⟩
  rcases Bool.or_eq_true_iff.mp decimal with digit | high
  · exact digit
  · have high := of_decide_eq_true (Bool.and_eq_true_iff.mp high).1
    omega

/-! The parts of a native date-time. -/

theorem exists_nanos? (written : f.Written) (ascii : Text.IsAscii f.fractionText) :
    ∃ nanos, nanos? f.fraction = some nanos ∧ nanos < 10 ^ 9 := by
  unfold fractionText at ascii
  rcases hf : f.fraction with _ | digits
  · exact ⟨0, rfl, by decide⟩
  · rw [hf] at ascii
    obtain ⟨some_digits, short, decimal⟩ := written.fraction digits hf
    have isDigit : ∀ c ∈ digits ++ List.replicate (9 - digits.length) '0', c.isDigit = true := by
      refine List.forall_mem_append.mpr ⟨fun c hc => ?_, fun c => Text.isDigit_of_mem_zeros⟩
      exact (isDigit_iff (decimal c hc)).mpr ((Text.isAscii_cons.mp ascii).2 c hc)
    have numeral : Text.isNumeral (digits ++ List.replicate (9 - digits.length) '0') = true := by
      have some_text : digits ++ List.replicate (9 - digits.length) '0' ≠ [] :=
        fun none => some_digits (List.append_eq_nil_iff.mp none).1
      rw [Text.isNumeral, List.all_eq_true.mpr isDigit, List.isEmpty_eq_false_iff.mpr some_text]
      rfl
    have bound := Text.numeralValue_lt isDigit
    rw [List.length_append, List.length_replicate, Nat.add_sub_cancel' short] at bound
    exact ⟨_, if_pos numeral, bound⟩

theorem isAscii_of_nanos? {nanos : Nat} (h : nanos? f.fraction = some nanos) :
    Text.IsAscii f.fractionText := by
  unfold fractionText
  rcases hf : f.fraction with _ | digits
  · exact fun _ hc => nomatch hc
  · rw [hf, nanos?, Text.numeral?] at h
    split at h
    · rename_i numeral
      have isDigit := List.all_eq_true.mp (Bool.and_eq_true_iff.mp numeral).2
      exact Text.isAscii_cons.mpr ⟨by decide, fun c hc =>
        Text.toNat_lt_of_isDigit (isDigit c (List.mem_append_left _ hc))⟩
    · cases h

theorem lt_of_offsetSeconds? {text : List Char} {seconds : Int} (h : offsetSeconds? text = some seconds) :
    seconds.natAbs < 86400 := by
  unfold offsetSeconds? at h
  split at h
  · obtain rfl := Option.some.inj h
    decide
  · simp only [Option.bind_eq_bind, Option.bind_eq_some_iff, Prod.exists] at h
    obtain ⟨hours, _, -, _, -, minutes, _, -, h⟩ := h
    split at h
    · cases h
    · have seconds := Option.some.inj h
      split at seconds <;> omega
  · cases h

theorem exists_offsetSeconds? (inRange : f.InRange) :
    ∃ seconds, offsetSeconds? (f.offset.getD ['Z']) = some seconds := by
  rcases ho : f.offset with _ | text
  · exact ⟨0, rfl⟩
  · exact Option.isSome_iff_exists.mp (inRange.offset text ho)

theorem exists_calendarDate? (inRange : f.InRange) : ∃ date, f.calendarDate? = some date := by
  obtain ⟨first, found, -⟩ := inRange.exists_first
  exact ⟨first.addDays (f.day - 1), by rw [calendarDate?, found, Option.map_some]⟩

/-- What is read stands for a native date-time just if its fraction has ASCII digits. -/
theorem isSome_toNative?_iff (h : f.Readable fast) :
    f.toNative?.isSome = true ↔ Text.IsAscii f.fractionText := by
  obtain ⟨written, inRange, -⟩ := h
  obtain ⟨date, counted⟩ := exists_calendarDate? inRange
  obtain ⟨seconds, zone⟩ := exists_offsetSeconds? inRange
  unfold toNative?
  rw [counted, zone]
  simp only [Option.bind_eq_bind, Option.bind_some]
  constructor
  · intro known
    obtain ⟨d, known⟩ := Option.isSome_iff_exists.mp known
    obtain ⟨nanos, fraction, -⟩ := Option.bind_eq_some_iff.mp known
    exact isAscii_of_nanos? fraction
  · intro ascii
    obtain ⟨nanos, fraction, bound⟩ := exists_nanos? written ascii
    obtain ⟨time, clock⟩ : ∃ time, Calendar.TimeOfDay.of? f.hour f.minute f.second nanos = some time := by
      have hour := inRange.hour
      have minute := inRange.minute
      have second := inRange.second
      exact ⟨_, dif_pos ⟨by omega, by omega, by omega, by omega, by omega⟩⟩
    obtain ⟨d, instant⟩ : ∃ d, Calendar.DateTime.of? date time seconds = some d :=
      ⟨_, dif_pos (lt_of_offsetSeconds? zone)⟩
    rw [fraction, Option.bind_some, clock, Option.bind_some, instant]
    rfl

end DateFields

namespace Validator

variable {v : Validator} {f : DateFacets}

def giving (v : Validator) (coerceTypes coerceNativeTypes : Bool) : Validator :=
  { v with options := { v.options with coerceTypes := coerceTypes, coerceNativeTypes := coerceNativeTypes } }

/-- A text accepted without `coerceNativeTypes` is accepted with it exactly when it is ASCII;
otherwise it is then a format error. -/
theorem accepts_native_iff (type : v.node.OfDates f) (steps : Nat) (s : String) (coerces coerces' : Bool) :
    ((∃ w, (v.giving coerces true).validate? (steps + 1) (.string s) = some (.ok w)) ↔
        (∃ w, (v.giving coerces' false).validate? (steps + 1) (.string s) = some (.ok w)) ∧
          Text.IsAscii s.toList) ∧
      ((∃ w, (v.giving coerces' false).validate? (steps + 1) (.string s) = some (.ok w)) →
        ¬Text.IsAscii s.toList → (v.giving coerces true).validate? (steps + 1) (.string s) =
          some (.error [⟨[], .badFormat (.string s) v.node.dateForm.label⟩])) := by
  have native := accepts_text_iff (v := v.giving coerces true) type steps s
  have text := accepts_text_iff (v := v.giving coerces' false) type steps s
  have known {fields : DateFields}
      (read : v.node.dateForm.read v.options.fastDateValidation s.toList = .ok fields) :
      fields.toNative?.isSome = true ↔ Text.IsAscii s.toList := by
    have found := (DateForm.read_eq_ok_iff.mp read).1
    rw [DateFields.isSome_toNative?_iff (DateForm.readable_of_read read),
      DateForm.isAscii_iff_of_fields? found]
  rw [native, text]
  constructor
  · constructor
    · rintro ⟨passes, fields, read, some⟩
      exact ⟨⟨passes, fields, read, fun no => nomatch no⟩, (known read).mp (some rfl)⟩
    · rintro ⟨⟨passes, fields, read, -⟩, ascii⟩
      exact ⟨passes, fields, read, fun _ => (known read).mpr ascii⟩
  · rintro ⟨passes, fields, read, -⟩ foreign
    have unknown : fields.toNative? = none :=
      Option.not_isSome_iff_eq_none.mp fun some => foreign ((known read).mp some)
    exact validate?_of_unknown (v := v.giving coerces true) type steps passes rfl read unknown

theorem accepts_native_iff_of_half :
    (Node.ofBase .dateTime).OfDates ⟨none⟩ ∧
      ∃ w, ((ofBase .dateTime .standard).giving false true).validate? 1
        (.string "2020-02-29T10:00:00.5Z") = some (.ok w) := by
  have type : (ofBase .dateTime .standard).node.OfDates ⟨none⟩ := Node.ofDates_ofBase rfl
  have read : DateForm.dateTime.read false "2020-02-29T10:00:00.5Z".toList =
      .ok ⟨2020, 2, 29, 10, 0, 0, some ['5'], some ['Z'], true⟩ := by
    decide +kernel
  have accepted : ((ofBase .dateTime .standard).giving false false).validate? 1
      (.string "2020-02-29T10:00:00.5Z") = some (.ok (.string "2020-02-29T10:00:00.5Z")) :=
    validate?_of_read type 0 rfl rfl read
  exact ⟨type, (accepts_native_iff type 0 _ false false).1.mpr ⟨⟨_, accepted⟩, by decide⟩⟩

def arabicTenths : DateFields := ⟨2020, 1, 1, 10, 0, 0, some ['٣'], some ['Z'], true⟩

theorem native_rejects_arabic :
    ((ofBase .dateTime .standard).giving false false).validate? 1 (.string "2020-01-01T10:00:00.٣Z") =
        some (.ok (.string "2020-01-01T10:00:00.٣Z")) ∧
      ((ofBase .dateTime .standard).giving true false).validate? 1 (.string "2020-01-01T10:00:00.٣Z") =
        some (.ok (.string "2020-01-01T10:00:00.٣Z")) ∧
      ((ofBase .dateTime .standard).giving false true).validate? 1 (.string "2020-01-01T10:00:00.٣Z") =
        some (.error [⟨[], .badFormat (.string "2020-01-01T10:00:00.٣Z") "datetime (RFC 3339)"⟩]) := by
  have type : (ofBase .dateTime .standard).node.OfDates ⟨none⟩ := Node.ofDates_ofBase rfl
  have written : arabicTenths.Written := by
    refine ⟨by decide, ?_, ?_⟩
    · rintro _ ⟨⟩
      refine ⟨List.cons_ne_nil _ _, by decide, fun c hc => ?_⟩
      rw [List.mem_singleton.mp hc]
      exact Text.isDecimalDigit_arabic
    · rintro _ ⟨⟩
      exact .universal
  have readable : arabicTenths.Readable false := ⟨written, DateFields.inRange_iff.mp rfl, rfl⟩
  have text : DateForm.dateTime.canonicalText arabicTenths = "2020-01-01T10:00:00.٣Z" := rfl
  have read : DateForm.dateTime.read false "2020-01-01T10:00:00.٣Z".toList = .ok arabicTenths := by
    rw [← text, DateForm.canonicalText, String.toList_ofList]
    exact DateForm.read_canonical readable .dateTime
  have unknown : arabicTenths.toNative? = none := rfl
  have form : (ofBase .dateTime .standard).node.dateForm = .dateTime := rfl
  have plain := validate?_of_read (v := (ofBase .dateTime .standard).giving false false) type 0 rfl rfl
    read
  have coerced := validate?_of_read (v := (ofBase .dateTime .standard).giving true false) type 0 rfl rfl
    read
  have rejected := validate?_of_unknown (v := (ofBase .dateTime .standard).giving false true) type 0 rfl
    rfl read unknown
  exact ⟨plain, text ▸ form ▸ coerced, rejected⟩

end Validator

end Schemata

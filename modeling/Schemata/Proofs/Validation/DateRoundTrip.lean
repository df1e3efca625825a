import Schemata.Proofs.Validation.DateText

/-! Dates and times from text to text. What a form reads has a canonical text, and that text is read
as the same fields again, with a look at the calendar or without. -/

namespace Schemata.DateForm

open DateFields

variable {form : DateForm} {fast : Bool} {s : List Char} {f : DateFields}

theorem Reading.shown (h : Reading form s f) : form.shown f = f := by
  cases h with
  | dateOnly date =>
    obtain ⟨_, _, _, _, -, -, rfl⟩ := date?_eq_some_iff.mp date
    rfl
  | timeOnly minutes seconds =>
    obtain ⟨_, _, _, -, -, rfl⟩ := minutes?_eq_some_iff.mp minutes
    cases readsSeconds_of_seconds? seconds <;> rfl
  | dateTimeOnly date minutes seconds =>
    obtain ⟨_, _, _, _, -, -, rfl⟩ := date?_eq_some_iff.mp date
    obtain ⟨_, _, _, -, -, rfl⟩ := minutes?_eq_some_iff.mp minutes
    cases readsSeconds_of_seconds? seconds <;> rfl
  | dateTime _ date minutes seconds offset =>
    obtain ⟨_, _, _, _, -, -, rfl⟩ := date?_eq_some_iff.mp date
    obtain ⟨_, _, _, -, -, rfl⟩ := minutes?_eq_some_iff.mp minutes
    obtain ⟨_, _, rfl⟩ := (readsOffset_of_offset? offset).offset
    cases readsSeconds_of_seconds? seconds <;> rfl
  | day date =>
    obtain ⟨_, _, _, _, -, -, rfl⟩ := date?_eq_some_iff.mp date
    rfl
  | time _ date minutes seconds offset =>
    obtain ⟨_, _, _, _, -, -, rfl⟩ := date?_eq_some_iff.mp date
    obtain ⟨_, _, _, -, -, rfl⟩ := minutes?_eq_some_iff.mp minutes
    have clock := seconds.imp And.left readsSeconds_of_seconds?
    have zone := offset.imp And.left fun offset => (readsOffset_of_offset? offset).offset
    rcases clock with rfl | ⟨-⟩ | ⟨-⟩ <;> rcases zone with rfl | ⟨_, -, rfl⟩ <;> rfl

/-- The canonical text of what is read exists, is read as the same fields, and is its own canonical
text. -/
theorem read_canonicalText {text : String} (h : form.read fast text.toList = .ok f) :
    form.piece? f = some (form.canonical f) ∧
      form.read fast (form.canonicalText f).toList = .ok f ∧
      (form.read fast (form.canonicalText f).toList).map form.canonicalText =
        .ok (form.canonicalText f) := by
  have readable := readable_of_read h
  have shown := (reading_of_fields? (read_eq_ok_iff.mp h).1).shown
  have again : form.read fast (form.canonicalText f).toList = .ok f := by
    rw [canonicalText, String.toList_ofList, read_canonical readable, shown]
  refine ⟨?_, again, ?_⟩
  · rw [canonical_eq readable.fits, piece?_eq readable.fits]
  · rw [again]
    rfl

theorem read_canonicalText_of_leapDay :
    date.read false "2020-02-29 03:04:05.25".toList =
        .ok ⟨2020, 2, 29, 3, 4, 5, some ['2', '5'], none, true⟩ ∧
      date.piece? ⟨2020, 2, 29, 3, 4, 5, some ['2', '5'], none, true⟩ =
        some "2020-02-29T03:04:05.25".toList ∧
      date.read false "2020-02-29T03:04:05.25".toList =
        .ok ⟨2020, 2, 29, 3, 4, 5, some ['2', '5'], none, true⟩ := by
  have read : date.read false "2020-02-29 03:04:05.25".toList =
      .ok ⟨2020, 2, 29, 3, 4, 5, some ['2', '5'], none, true⟩ := by
    decide +kernel
  have written : date.canonical ⟨2020, 2, 29, 3, 4, 5, some ['2', '5'], none, true⟩ =
      "2020-02-29T03:04:05.25".toList := by
    decide
  obtain ⟨cut, again, -⟩ := read_canonicalText read
  rw [canonicalText, written, String.toList_ofList] at again
  exact ⟨read, written ▸ cut, again⟩

end Schemata.DateForm

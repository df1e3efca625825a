import Schemata.Proofs.Number.ExactValue
import Schemata.Proofs.Number.Layout
import Schemata.Proofs.Number.Nearest
import Schemata.Proofs.Number.Reading

/-! The text of an integer. A floating-point number without a fraction is written with digits and zeros
alone, so its text is read as an integer again: one that rounds to it, though not always the one that it is. -/

namespace Schemata

namespace Decimal

open Double

variable {tie : Tie} {m x : Nat} {q : Int}

theorem placeBelow_zero (whole : 0 ≤ q ∨ 2 ^ (-q).toNat ∣ m) :
    placeBelow m q 0 * gridUnit q 0 = 4 * m * gridScale q 0 := by
  refine Nat.div_mul_cancel ?_
  have unit : gridUnit q 0 = 2 ^ (2 - q).toNat := Nat.one_mul _
  have scale : gridScale q 0 = 2 ^ (q - 2).toNat := Nat.one_mul _
  have four : (4 : Nat) = 2 ^ 2 := rfl
  rw [unit, scale]
  rcases lt_or_ge q 0 with low | high
  · have places : (2 - q).toNat = 2 + (-q).toNat := by omega
    rw [places, pow_add, ← four]
    exact Dvd.dvd.mul_right (Nat.mul_dvd_mul_left 4 (whole.resolve_left (by omega))) _
  · refine Dvd.dvd.mul_right (Dvd.dvd.mul_right ?_ m) _
    rw [four]
    exact pow_dvd_pow 2 (by omega)

theorem exists_onGrid_zero (nonzero : m ≠ 0) (whole : 0 ≤ q ∨ 2 ^ (-q).toNat ∣ m) :
    ∃ x, onGrid tie m q 0 = some x := by
  rcases onGrid_cases tie m q 0 with ⟨x, hx, -⟩ | ⟨-, neither⟩
  · exact ⟨x, hx⟩
  · have here := placeBelow_zero whole
    have below := le_of_not_readsBack neither.1 here.le
    rw [here] at below
    have less : lowQuarters m q < 4 * m := by
      unfold lowQuarters
      split <;> omega
    exact absurd below (Nat.not_le.mpr (Nat.mul_lt_mul_of_pos_right less (gridScale_pos q 0)))

theorem leading_nonneg (nonzero : m ≠ 0) (whole : 0 ≤ q ∨ 2 ^ (-q).toNat ∣ m) : 0 ≤ leading m q := by
  have above : Nat.pow 2 (-q).toNat ≤ m * Nat.pow 2 q.toNat := by
    rcases lt_or_ge q 0 with low | high
    · refine (Nat.le_of_dvd (Nat.pos_of_ne_zero nonzero) (whole.resolve_left (by omega))).trans ?_
      exact Nat.le_mul_of_pos_right m (Nat.two_pow_pos _)
    · have none : (-q).toNat = 0 := by omega
      rw [none]
      exact Nat.mul_pos (Nat.pos_of_ne_zero nonzero) (Nat.two_pow_pos _)
  unfold leading leadingExponent
  rw [if_pos above]
  have some : 0 < (Text.numeral (m * Nat.pow 2 q.toNat / Nat.pow 2 (-q).toNat)).length :=
    List.length_pos_iff.mpr Nat.toDigits_ne_nil
  omega

theorem shortest_exponent_nonneg (tie : Tie) (canonical : Canonical m q) (nonzero : m ≠ 0)
    (whole : 0 ≤ q ∨ 2 ^ (-q).toNat ∣ m) : 0 ≤ (shortest tie m q).exponent := by
  obtain ⟨k, x, -, same, none⟩ := exists_shortest tie canonical nonzero
  have leads := leading_nonneg nonzero whole
  rw [same]
  by_contra past
  dsimp only at past
  obtain ⟨x, hx⟩ : ∃ x, onGrid tie m q 0 = some x := exists_onGrid_zero nonzero whole
  have ones : leading m q - ((leading m q).toNat : Nat) = 0 := by omega
  have skipped := none (leading m q).toNat (by omega)
  rw [ones, hx] at skipped
  cases skipped

end Decimal

namespace Double

variable {m : Nat} {q : Int}

theorem exists_digits_magnitude (canonical : Canonical m q) (nonzero : m ≠ 0)
    (whole : 0 ≤ q ∨ 2 ^ (-q).toNat ∣ m) :
    plainLayout.magnitude m q ≠ [] ∧ (∀ c ∈ plainLayout.magnitude m q, c.isDigit = true) ∧
      Rounds m q (Text.numeralValue (plainLayout.magnitude m q)) := by
  have rounds := Decimal.rounds_shortest plainLayout.tie canonical nonzero
  have exponent := Decimal.shortest_exponent_nonneg plainLayout.tie canonical nonzero whole
  obtain ⟨digits, first, found, some, digit, last, value⟩ :=
    Decimal.exists_significant (Decimal.shortest_digits_ne_zero plainLayout.tie canonical nonzero)
  have some_digit : 0 < digits.length := List.length_pos_iff.mpr some
  have zeros : first + 1 - digits.length = ((first.toNat + 1 - digits.length : Nat) : Int) := by omega
  have text : plainLayout.magnitude m q =
      digits ++ List.replicate (first.toNat + 1 - digits.length) '0' := by
    unfold FloatLayout.magnitude
    rw [if_neg nonzero, found]
    dsimp only
    have plain : plainLayout.isPositional first = true := rfl
    rw [if_pos plain, Decimal.positional, if_neg (by omega)]
    dsimp only
    rw [if_pos (by omega)]
    exact List.append_nil _
  rw [text]
  refine ⟨List.append_ne_nil_of_left_ne_nil some _, fun c hc => ?_, ?_⟩
  · exact (List.mem_append.mp hc).elim (digit c) Text.isDigit_of_mem_zeros
  · rw [← value, zeros, zpow_natCast] at rounds
    rw [Text.numeralValue_append_zeros, Nat.cast_mul, mul_comm]
    push_cast
    exact rounds

/-- The text of a number without a fraction writes an integer that rounds to it. -/
theorem exists_writesInteger_text {x : Double} {i : Int} (whole : x.toInt? = some i) :
    ∃ j, Text.WritesInteger x.text.toList j ∧ (ofInt j).place = x.place := by
  rcases x with _ | _ | ⟨s, m, q, canonical⟩
  · cases whole
  · cases whole
  have text : (finite s m q canonical).text.toList =
      (if s then ['-'] else []) ++ plainLayout.magnitude m q := String.toList_ofList
  rw [text]
  by_cases none : m = 0
  · subst none
    have digits (c : Char) (h : c ∈ ['0']) : c.isDigit = true := Text.isDigit_of_mem_zeros (k := 1) h
    have zero : Text.withSign s (Text.numeralValue ['0']) = 0 := by cases s <;> rfl
    have laid : plainLayout.magnitude 0 q = ['0'] := by rw [FloatLayout.magnitude, if_pos rfl]; rfl
    rw [laid]
    refine ⟨_, Text.writesInteger_withSign (List.cons_ne_nil '0' []) digits s, ?_⟩
    rw [zero, place_ofInt_of_le (by decide), place_of_stands (stands_of_toInt? toInt?_of_zero)]
  · obtain ⟨some, digit, rounds⟩ := exists_digits_magnitude canonical none
      (isSome_toInt?_iff.mp (Option.isSome_of_eq_some whole))
    obtain ⟨k, value⟩ : ∃ k, Text.numeralValue (plainLayout.magnitude m q) = k := ⟨_, rfl⟩
    rw [value] at rounds
    have positive : k ≠ 0 := by
      rintro rfl
      exact none (rounds.unique (rounds_zero (-1074)) canonical.normal (show Canonical 0 (-1074) by decide).normal).1
    refine ⟨_, Text.writesInteger_withSign some digit s, ?_⟩
    have sign : decide (Text.withSign s k < 0) = s := by
      rw [Bool.eq_iff_iff, decide_eq_true_iff]
      exact Text.withSign_neg_iff positive
    have nonzero : Text.withSign s k ≠ 0 := by
      rw [← Int.natAbs_ne_zero, Text.natAbs_withSign]
      exact positive
    rw [value, ofInt_of_rounds nonzero canonical (by rwa [Text.natAbs_withSign]), sign]

theorem text_safeInteger (s : Bool) : (finite s (Nat.pow 2 52) 1 (by decide)).text.toList =
    Text.signedNumeral (Text.withSign s (2 ^ 53)) := by
  cases s <;> decide +kernel

theorem eq_safeInteger {x : Double} {i : Int} (whole : x.toInt? = some i) (size : i.natAbs = 2 ^ 53) :
    ∃ s, x = finite s (Nat.pow 2 52) 1 (by decide) ∧ i = Text.withSign s (2 ^ 53) := by
  obtain ⟨s, m, q, canonical, rfl, units⟩ := stands_of_toInt? whole
  have magnitude : magnitudeUnits m q = magnitudeUnits (2 ^ 52) 1 :=
    calc
      magnitudeUnits m q = (signedUnits s m q).natAbs := (natAbs_signedUnits s m q).symm
      _ = 2 ^ 53 * unitsOfOne := by rw [units, Int.natAbs_mul, Int.natAbs_natCast, size]
      _ = magnitudeUnits (2 ^ 53) 0 := (magnitudeUnits_zero _).symm
      _ = magnitudeUnits (2 ^ 52) 1 := magnitudeUnits_carry (by decide)
  obtain ⟨rfl, rfl⟩ := eq_of_magnitudeUnits_eq canonical (by decide) magnitude
  have value : (finite s (Nat.pow 2 52) 1 (by decide)).toInt? = some (Text.withSign s (2 ^ 53)) := by
    cases s <;> decide
  exact ⟨s, rfl, Option.some.inj (whole.symm.trans value)⟩

theorem text_exact_of_safe {x : Double} {i j : Int} (whole : x.toInt? = some i) (safe : i.natAbs ≤ 2 ^ 53)
    (writes : Text.WritesInteger x.text.toList j) : j = i := by
  rcases Nat.eq_or_lt_of_le safe with size | less
  · obtain ⟨s, rfl, rfl⟩ := eq_safeInteger whole size
    rw [text_safeInteger] at writes
    exact writes.unique (Text.writesInteger_signedNumeral _)
  · obtain ⟨j', writes', place⟩ := exists_writesInteger_text whole
    obtain rfl := writes.unique writes'
    have positive : (0 : Int) < unitsOfOne := Int.natCast_pos.mpr unitsOfOne_pos
    have near := near_ofInt j
    rw [place, place_of_stands (stands_of_toInt? whole), Near, ← Int.neg_mul] at near
    rcases near with same | ⟨above, -⟩ | ⟨below, -⟩
    · exact (Int.eq_of_mul_eq_mul_right positive.ne' same).symm
    · have := Int.le_of_mul_le_mul_right above positive
      omega
    · have := Int.le_of_mul_le_mul_right below positive
      omega

end Double

namespace Number

variable {n : Number} {i : Int}

/-- The text of an integer writes it, except that a floating-point number may be written as another one that it
is the nearest to. -/
theorem exists_writesInteger_text (whole : n.toInt? = some i) :
    ∃ j, Text.WritesInteger n.text.toList j ∧ (Double.ofInt j).place = n.place ∧
      ((∀ x, n ≠ .float x) ∨ i.natAbs ≤ 2 ^ 53 → j = i) := by
  have exactly (i : Int) : Text.WritesInteger (String.ofList (Text.signedNumeral i)).toList i := by
    rw [String.toList_ofList]
    exact Text.writesInteger_signedNumeral i
  cases n with
  | float x =>
    obtain ⟨j, writes, place⟩ := Double.exists_writesInteger_text whole
    refine ⟨j, writes, place, fun either => ?_⟩
    exact Double.text_exact_of_safe whole (either.resolve_left fun other => other x rfl) writes
  | int v => exact ⟨_, exactly _, rfl, fun _ => Option.some.inj whole⟩
  | uint v => exact ⟨_, exactly v.toNat, rfl, fun _ => Option.some.inj whole⟩
  | big v => exact ⟨_, exactly _, rfl, fun _ => Option.some.inj whole⟩

theorem ofNumeral_ne_float (i : Int) (x : Double) : ofNumeral i ≠ .float x := by
  unfold ofNumeral ofInt
  split_ifs <;> rintro ⟨⟩

theorem equal_iff_of_toInt? {m : Number} {j : Int} (hm : m.toInt? = some j) (hn : n.toInt? = some i) :
    m.equal n = true ↔ j = i := by
  rw [equal, compare?_of_toInt? hm hn, beq_iff_eq, Option.some_inj, compare_eq_iff_eq]

theorem Smallest.isFinite {m : Number} (h : m.Smallest) : m.IsFinite := by
  cases h <;> exact fun _ h => nomatch h

theorem ofText?_of_writes {s : String} (writes : Text.WritesInteger (Text.trim s.toList) i) :
    ofText? s = some (ofNumeral i) := ofChars?_of_numeral (Text.writesInteger_iff.mp writes)

theorem ofText?_of_not_writes {s : String} (none : ∀ i, ¬Text.WritesInteger (Text.trim s.toList) i)
    (taken : ofText? s = some n) : ∃ x, n = .float x ∧ x.isFinite = true := by
  refine ofChars?_of_not_numeral (Option.eq_none_iff_forall_not_mem.mpr fun i numeral => ?_) taken
  exact none i (Text.writesInteger_iff.mpr numeral)

theorem exists_ofText?_iff {s : String} :
    (∃ n, ofText? s = some n ∧ (∀ x, n ≠ .float x) ∧ n.toInt? = some i) ↔
      Text.WritesInteger (Text.trim s.toList) i := by
  constructor
  · rintro ⟨n, taken, other, value⟩
    by_cases writes : ∃ j, Text.WritesInteger (Text.trim s.toList) j
    · obtain ⟨j, writes⟩ := writes
      obtain rfl := Option.some.inj (taken.symm.trans (ofText?_of_writes writes))
      rw [toInt?_ofNumeral] at value
      exact Option.some.inj value ▸ writes
    · obtain ⟨x, rfl, -⟩ := ofText?_of_not_writes (not_exists.mp writes) taken
      exact absurd rfl (other x)
  · exact fun writes => ⟨_, ofText?_of_writes writes, ofNumeral_ne_float i, toInt?_ofNumeral i⟩

/-- A text is read as an integer form exactly when it is an integer numeral, and then as that
integer; any other text is read as a finite double, or is an error. The text of an integer in any
form is read as one that rounds to the same double, and as itself unless the form is a double beyond
`2 ^ 53` whose text writes another integer. Exactly one number in smallest form equals it. -/
theorem integer_literals_exact :
    (∀ s : String, (∀ i, (∃ n, ofText? s = some n ∧ (∀ x, n ≠ .float x) ∧ n.toInt? = some i) ↔
        Text.WritesInteger (Text.trim s.toList) i) ∧
      (ofText? s = none ∨ (∃ i, Text.WritesInteger (Text.trim s.toList) i) ∨
        ∃ x, ofText? s = some (.float x) ∧ x.isFinite = true)) ∧
    ∀ (n : Number) (i : Int), n.toInt? = some i →
      (∃ m, ofText? n.text = some m ∧ (∀ x, m ≠ .float x) ∧
        m.toDouble.compare? n.toDouble = some .eq ∧
        (m.equal n = true ↔ Text.WritesInteger n.text.toList i) ∧
        ((∀ x, n ≠ .float x) ∨ i.natAbs ≤ 2 ^ 53 → m.equal n = true)) ∧
      ∀ m : Number, m.Smallest ∧ m.equal n = true ↔ m = ofInt i := by
  refine ⟨fun s => ⟨fun i => exists_ofText?_iff, ?_⟩, fun n i whole => ⟨?_, fun m => ?_⟩⟩
  · by_cases writes : ∃ i, Text.WritesInteger (Text.trim s.toList) i
    · exact .inr (.inl writes)
    · rcases taken : ofText? s with _ | n
      · exact .inl rfl
      · obtain ⟨x, rfl, finite⟩ := ofText?_of_not_writes (not_exists.mp writes) taken
        exact .inr (.inr ⟨x, rfl, finite⟩)
  · obtain ⟨j, writes, place, exactly⟩ := exists_writesInteger_text whole
    have value := toInt?_ofNumeral j
    have same := equal_iff_of_toInt? value whole
    refine ⟨_, ofText?_of_writes (writes.trim_eq.symm ▸ writes), ofNumeral_ne_float j, ?_, ?_, fun either =>
      same.mpr (exactly either)⟩
    · rw [Double.compare?_eq (toDouble_ne_nan (isFinite_of_toInt? value).isNaN_eq)
        (toDouble_ne_nan (isFinite_of_toInt? whole).isNaN_eq)]
      refine congrArg some (compare_eq_iff_eq.mpr ?_)
      exact (place_of_toInt? value).trans place
    · rw [same]
      exact ⟨fun h => h ▸ writes, fun h => writes.unique h⟩
  · constructor
    · rintro ⟨smallest, same⟩
      obtain rfl | ⟨j, hm, hn⟩ := eq_or_toInt?_of_equal same smallest.isFinite (isFinite_of_toInt? whole)
      · exact eq_ofInt_of_smallest smallest whole
      · rw [whole] at hn
        exact eq_ofInt_of_smallest smallest (hm.trans hn.symm)
    · rintro rfl
      exact ⟨smallest_ofInt i, (equal_iff_of_toInt? (toInt?_ofInt i) whole).mpr rfl⟩

theorem integer_literals_exact_of_blanks :
    (∃ n, ofText? " +0123456789012345678901234567890\n" = some n ∧ (∀ x, n ≠ .float x) ∧
      n.toInt? = some 123456789012345678901234567890) ∧
    (∃ m, ofText? (Number.big 123456789012345678901234567890).text = some m ∧
      m.equal (.big 123456789012345678901234567890) = true) ∧
    Number.Smallest (ofInt 123456789012345678901234567890) := by
  refine ⟨((integer_literals_exact.1 _).1 _).mpr ?_, ?_, ?_⟩
  · exact Text.writesInteger_iff.mpr (by decide +kernel)
  · obtain ⟨⟨m, taken, -, -, -, same⟩, -⟩ :=
      integer_literals_exact.2 (.big 123456789012345678901234567890) _ rfl
    exact ⟨m, taken, same (.inl fun _ h => nomatch h)⟩
  · exact (((integer_literals_exact.2 (.big 123456789012345678901234567890) _ rfl).2 _).mpr rfl).1

/-- The double `2 ^ 60` displays as 1152921504606847000, which is another integer. -/
theorem not_text_equal : ¬∀ n : Number, n.isInteger = true → ∃ m, ofText? n.text = some m ∧ m.equal n = true := by
  intro each
  have taken : ofText? (Number.float (.finite false (Nat.pow 2 52) 8 (by decide))).text =
      some (.int 1152921504606847000) := by decide +kernel
  have other : (Number.int 1152921504606847000).equal (.float (.finite false (Nat.pow 2 52) 8 (by decide))) =
      false := by decide +kernel
  obtain ⟨m, found, same⟩ := each (.float (.finite false (Nat.pow 2 52) 8 (by decide))) (by decide)
  obtain rfl := Option.some.inj (taken.symm.trans found)
  rw [other] at same
  cases same

end Number
end Schemata

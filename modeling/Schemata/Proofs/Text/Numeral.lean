import Mathlib.Algebra.Ring.Nat
import Schemata.Text.Numeral
import Schemata.Text.Slice

/-! Numerals: what they hold, what is read back from them, and where they end. -/

namespace Schemata.Text

variable {width n : Nat}

theorem isDigit_of_mem_numeral {c : Char} (h : c ∈ numeral n) : c.isDigit = true :=
  Nat.isDigit_of_mem_toDigits (by decide) (by decide) h

theorem numeral_injective {m n : Nat} (h : numeral m = numeral n) : m = n := by
  rw [← numeralValue_numeral m, h, numeralValue_numeral]

theorem length_paddedNumeral (width : Nat) (positive : 0 < width) (fits : n < 10 ^ width) :
    (paddedNumeral width n).length = width := by
  have short : (numeral n).length ≤ width :=
    (Nat.length_toDigits_le_iff (by decide) positive).mpr fits
  rw [paddedNumeral, List.length_append, List.length_replicate]
  exact Nat.sub_add_cancel short

theorem le_length_paddedNumeral (width n : Nat) : width ≤ (paddedNumeral width n).length := by
  rw [paddedNumeral, List.length_append, List.length_replicate]
  omega

theorem lt_length_paddedNumeral (positive : 0 < width) (wide : 10 ^ width ≤ n) :
    width < (paddedNumeral width n).length := by
  have long : ¬(numeral n).length ≤ width := fun short =>
    Nat.not_lt.mpr wide ((Nat.length_toDigits_le_iff (by decide) positive).mp short)
  rw [paddedNumeral, List.length_append]
  omega

theorem isDigit_of_mem_paddedNumeral {c : Char} (h : c ∈ paddedNumeral width n) :
    c.isDigit = true := by
  rcases List.mem_append.mp h with h | h
  · rw [List.eq_of_mem_replicate h]
    rfl
  · exact isDigit_of_mem_numeral h

theorem isAscii_paddedNumeral (width n : Nat) : IsAscii (paddedNumeral width n) :=
  fun _ h => toNat_lt_of_isDigit (isDigit_of_mem_paddedNumeral h)

@[simp] theorem numeralValue_paddedNumeral (width n : Nat) :
    numeralValue (paddedNumeral width n) = n := by
  rw [paddedNumeral, numeralValue, Nat.ofDigitChars_append, Nat.ofDigitChars_replicate_zero,
    Nat.mul_zero]
  exact numeralValue_numeral n

theorem le_ofDigitChars (s : List Char) (front : Nat) : front ≤ Nat.ofDigitChars 10 s front := by
  rw [Nat.ofDigitChars_eq_ofDigitChars_zero]
  exact Nat.le_trans (Nat.le_mul_of_pos_left front (Nat.pow_pos (by decide))) (Nat.le_add_right _ _)

theorem ofDigitChars_lt {s : List Char} (digits : ∀ c ∈ s, c.isDigit = true) (init : Nat) :
    Nat.ofDigitChars 10 s init < (init + 1) * 10 ^ s.length := by
  induction s generalizing init with
  | nil =>
    rw [List.length_nil, Nat.pow_zero, Nat.mul_one]
    exact Nat.lt_succ_self init
  | cons c rest ih =>
    have small : c.toNat - '0'.toNat ≤ 9 := by
      have high : c.toNat ≤ '9'.toNat := (Char.isDigit_iff_toNat.mp (digits c List.mem_cons_self)).2
      have nine : '9'.toNat = 57 := rfl
      have zero : '0'.toNat = 48 := rfl
      omega
    rw [Nat.ofDigitChars_cons, List.length_cons, Nat.pow_succ', ← Nat.mul_assoc]
    refine Nat.lt_of_lt_of_le (ih (fun c hc => digits c (List.mem_cons_of_mem _ hc)) _) ?_
    exact Nat.mul_le_mul_right _ (by omega)

theorem numeralValue_lt {s : List Char} (digits : ∀ c ∈ s, c.isDigit = true) :
    numeralValue s < 10 ^ s.length := by
  have bound := ofDigitChars_lt digits 0
  rwa [Nat.zero_add, Nat.one_mul] at bound

theorem isDigit_of_mem_zeros {k : Nat} {c : Char} (h : c ∈ List.replicate k '0') :
    c.isDigit = true := by
  rw [List.eq_of_mem_replicate h]
  rfl

theorem numeralValue_append_zeros (s : List Char) (k : Nat) :
    numeralValue (s ++ List.replicate k '0') = 10 ^ k * numeralValue s := by
  rw [numeralValue, Nat.ofDigitChars_append, Nat.ofDigitChars_replicate_zero]
  rfl

theorem numeralValue_zeros_append (k : Nat) (s : List Char) :
    numeralValue (List.replicate k '0' ++ s) = numeralValue s := by
  rw [numeralValue, Nat.ofDigitChars_append, Nat.ofDigitChars_replicate_zero, Nat.mul_zero]
  rfl

theorem numeralValue_cons (c : Char) (s : List Char) :
    numeralValue (c :: s) = 10 ^ s.length * (c.toNat - '0'.toNat) + numeralValue s := by
  rw [numeralValue, Nat.ofDigitChars_cons, Nat.ofDigitChars_eq_ofDigitChars_zero, Nat.mul_zero,
    Nat.zero_add]
  rfl

theorem eq_of_numeralValue_eq {s t : List Char} (digits : ∀ c ∈ s, c.isDigit = true)
    (digits' : ∀ c ∈ t, c.isDigit = true) (length : s.length = t.length)
    (value : numeralValue s = numeralValue t) : s = t := by
  induction s generalizing t with
  | nil => exact (List.length_eq_zero_iff.mp length.symm).symm
  | cons c s ih =>
    rcases t with _ | ⟨d, t⟩
    · cases length
    · have length : s.length = t.length := Nat.succ.inj length
      rw [List.forall_mem_cons] at digits digits'
      rw [numeralValue_cons, numeralValue_cons, ← length] at value
      have low := numeralValue_lt digits.2
      have low' := numeralValue_lt digits'.2
      rw [← length] at low'
      have first (x : Nat) {r : Nat} (low : r < 10 ^ s.length) :
          (10 ^ s.length * x + r) / 10 ^ s.length = x := by
        rw [Nat.mul_add_div (Nat.pow_pos (by decide)), Nat.div_eq_of_lt low, Nat.add_zero]
      have same : c.toNat - '0'.toNat = d.toNat - '0'.toNat := by
        rw [← first (c.toNat - '0'.toNat) low, value, first _ low']
      have char : c = d := by
        have := (Char.isDigit_iff_toNat.mp digits.1).1
        have := (Char.isDigit_iff_toNat.mp digits'.1).1
        exact Char.toNat_inj.mp (by omega)
      rw [same] at value
      rw [char, ih digits.2 digits'.2 length (Nat.add_left_cancel value)]

theorem paddedNumeral_numeralValue {s : List Char} (some_digit : s ≠ [])
    (digits : ∀ c ∈ s, c.isDigit = true) : paddedNumeral s.length (numeralValue s) = s := by
  have length := length_paddedNumeral s.length (List.length_pos_iff.mpr some_digit) (numeralValue_lt digits)
  exact eq_of_numeralValue_eq (fun _ => isDigit_of_mem_paddedNumeral) digits length
    (numeralValue_paddedNumeral _ _)

theorem exists_zeros_append (s : List Char) :
    ∃ k, s = (s.reverse.dropWhile (· == '0')).reverse ++ List.replicate k '0' := by
  refine ⟨(s.reverse.takeWhile (· == '0')).length, ?_⟩
  have zeros : s.reverse.takeWhile (· == '0') =
      List.replicate (s.reverse.takeWhile (· == '0')).length '0' := by
    refine List.eq_replicate_of_mem fun c hc => beq_iff_eq.mp ?_
    exact List.all_eq_true.mp (List.all_takeWhile (p := (· == '0'))) c hc
  rw [← List.reverse_replicate, ← zeros, ← List.reverse_append, List.takeWhile_append_dropWhile,
    List.reverse_reverse]

theorem span_append {p : Char → Bool} {s rest : List Char} (all : ∀ c ∈ s, p c = true)
    (ends : ∀ c ∈ rest.head?, p c = false) :
    (s ++ rest).takeWhile p = s ∧ (s ++ rest).dropWhile p = rest := by
  rw [List.takeWhile_append_of_pos all, List.dropWhile_append_of_pos all]
  rcases rest with _ | ⟨c, rest⟩
  · exact ⟨List.append_nil s, rfl⟩
  · have stop : ¬p c = true := Bool.eq_false_iff.mp (ends c rfl)
    rw [List.takeWhile_cons_of_neg stop, List.dropWhile_cons_of_neg stop, List.append_nil]
    exact ⟨rfl, rfl⟩

/-! White space. -/

theorem trimLeft_eq_self {s : List Char} (plain : ∀ c ∈ s, isBlank c = false) : trimLeft s = s := by
  rcases s with _ | ⟨c, rest⟩
  · rfl
  · exact List.dropWhile_cons_of_neg (Bool.eq_false_iff.mp (plain c List.mem_cons_self))

theorem trim_eq_self {s : List Char} (plain : ∀ c ∈ s, isBlank c = false) : trim s = s := by
  rw [trim, trimLeft_eq_self plain, trimLeft_eq_self fun c hc => plain c (List.mem_reverse.mp hc),
    List.reverse_reverse]

theorem isBlank_of_isDigit {c : Char} (digit : c.isDigit = true) : isBlank c = false := by
  obtain ⟨low, high⟩ := Char.isDigit_iff_toNat.mp digit
  have zero : '0'.toNat = 48 := rfl
  have nine : '9'.toNat = 57 := rfl
  simp only [isBlank, Bool.or_eq_false_iff, Bool.and_eq_false_iff, decide_eq_false_iff_not, beq_eq_false_iff_ne]
  omega

/-! Signs. -/

variable {i j : Int}

theorem splitSign_of_digit {c : Char} (digit : c.isDigit = true) (rest : List Char) :
    splitSign (c :: rest) = (false, c :: rest) := by
  unfold splitSign
  split
  · rename_i same
    obtain ⟨rfl, -⟩ := List.cons.inj same
    cases digit
  · rename_i same
    obtain ⟨rfl, -⟩ := List.cons.inj same
    cases digit
  · rfl

theorem exists_digit_numeral (n : Nat) : ∃ c rest, numeral n = c :: rest ∧ c.isDigit = true := by
  rcases hn : numeral n with _ | ⟨c, rest⟩
  · exact absurd hn Nat.toDigits_ne_nil
  · have member : c ∈ numeral n := hn ▸ List.mem_cons_self
    exact ⟨c, rest, rfl, isDigit_of_mem_numeral member⟩

theorem signedNumeral?_minus (n : Nat) : signedNumeral? ('-' :: numeral n) = some (-(n : Int)) := by
  simp only [signedNumeral?, splitSign, numeral?_numeral, if_true]
  rfl

theorem signedNumeral?_plus (n : Nat) : signedNumeral? ('+' :: numeral n) = some n := by
  simp only [signedNumeral?, splitSign, numeral?_numeral, Bool.false_eq_true, if_false]
  rfl

theorem signedNumeral?_numeral (n : Nat) : signedNumeral? (numeral n) = some n := by
  obtain ⟨c, rest, starts, digit⟩ := exists_digit_numeral n
  have sign : splitSign (numeral n) = (false, numeral n) := by
    rw [starts, splitSign_of_digit digit]
  simp only [signedNumeral?, sign, numeral?_numeral, Bool.false_eq_true, if_false]
  rfl

theorem signedNumeral?_signedNumeral (i : Int) : signedNumeral? (signedNumeral i) = some i := by
  unfold signedNumeral
  split
  · rw [signedNumeral?_minus]
    exact congrArg some (by omega)
  · rw [signedNumeral?_numeral]
    exact congrArg some (by omega)

theorem signedNumeral_injective (h : signedNumeral i = signedNumeral j) : i = j := by
  refine Option.some.inj ?_
  rw [← signedNumeral?_signedNumeral, h, signedNumeral?_signedNumeral]

theorem signedNumeral_ne_nil (i : Int) : signedNumeral i ≠ [] := by
  unfold signedNumeral
  split
  · exact List.cons_ne_nil _ _
  · exact Nat.toDigits_ne_nil

theorem mem_signedNumeral {c : Char} (h : c ∈ signedNumeral i) : c.isDigit = true ∨ c = '-' := by
  unfold signedNumeral at h
  split at h
  · exact (List.mem_cons.mp h).elim .inr fun h => .inl (isDigit_of_mem_numeral h)
  · exact .inl (isDigit_of_mem_numeral h)

end Schemata.Text

import Mathlib.Tactic.SplitIfs
import Schemata.Number.Basic
import Schemata.Proofs.Text.Numeral

/-! Reading numerals as numbers. The words take digits one by one and give up where a sum leaves them; so
each takes exactly the numerals of its integers, and together with integers of any size every numeral is read
as the integer that it writes. -/

namespace Schemata

namespace Text

variable {s : List Char} {negative : Bool} {n : Nat} {i : Int}

def withSign (negative : Bool) (n : Nat) : Int := if negative then -n else n

theorem withSign_step (negative : Bool) (n digit : Nat) :
    (if negative then withSign negative n * 10 - digit else withSign negative n * 10 + digit) =
      withSign negative (10 * n + digit) := by
  unfold withSign
  split <;> push_cast <;> omega

theorem natAbs_withSign (negative : Bool) (n : Nat) : (withSign negative n).natAbs = n := by
  unfold withSign
  split <;> omega

theorem withSign_neg_iff (positive : n ≠ 0) : withSign negative n < 0 ↔ negative = true := by
  unfold withSign
  split
  · exact iff_of_true (by omega) ‹_›
  · exact iff_of_false (by omega) ‹_›

theorem withSign_tens (negative : Bool) (n : Nat) :
    withSign negative n * 10 = withSign negative (10 * n) := by
  have step := withSign_step negative n 0
  simpa using step

theorem sumWithin?_eq {fits : Int → Bool}
    (inward : ∀ a b : Nat, a ≤ b → fits (withSign negative b) = true → fits (withSign negative a) = true)
    (here : fits (withSign negative n) = true) (digits : ∀ c ∈ s, c.isDigit = true) :
    sumWithin? fits negative (withSign negative n) s =
      if fits (withSign negative (Nat.ofDigitChars 10 s n)) then
        some (withSign negative (Nat.ofDigitChars 10 s n)) else none := by
  induction s generalizing n with
  | nil => exact (if_pos here).symm
  | cons c rest ih =>
    obtain ⟨digit, digits⟩ := List.forall_mem_cons.mp digits
    obtain ⟨next, hn⟩ : ∃ k, 10 * n + (c.toNat - '0'.toNat) = k := ⟨_, rfl⟩
    rw [sumWithin?, if_pos digit, Nat.ofDigitChars_cons, hn]
    dsimp only
    rw [withSign_step, withSign_tens, hn]
    split
    · rename_i both
      exact ih (Bool.and_eq_true_iff.mp both).2 digits
    · rename_i out
      rw [if_neg fun last => out ?_]
      have next := inward _ _ (le_ofDigitChars rest next) last
      exact Bool.and_eq_true_iff.mpr ⟨inward _ _ (by omega) next, next⟩

theorem sumWithin?_of_not_digits {fits : Int → Bool} (other : ¬∀ c ∈ s, c.isDigit = true) (sum : Int) :
    sumWithin? fits negative sum s = none := by
  induction s generalizing sum with
  | nil => exact absurd (fun _ h => nomatch h) other
  | cons c rest ih =>
    rw [sumWithin?]
    by_cases digit : c.isDigit = true
    · have later := ih fun digits => other (List.forall_mem_cons.mpr ⟨digit, digits⟩)
      rw [if_pos digit]
      dsimp only
      rw [later, ite_self]
    · exact if_neg digit

theorem isNumeral_iff : isNumeral s = true ↔ s ≠ [] ∧ ∀ c ∈ s, c.isDigit = true := by
  rw [isNumeral, Bool.and_eq_true, Bool.not_eq_true', List.isEmpty_eq_false_iff, List.all_eq_true]

theorem sumWithin?_zero {fits : Int → Bool}
    (inward : ∀ a b : Nat, a ≤ b → fits (withSign negative b) = true → fits (withSign negative a) = true)
    (zero : fits 0 = true) :
    (if s.isEmpty then none else sumWithin? fits negative 0 s) =
      ((numeral? s).map (withSign negative)).filter fits := by
  have start : withSign negative 0 = 0 := by cases negative <;> rfl
  unfold numeral?
  by_cases empty : s = []
  · rw [empty]
    rfl
  · rw [if_neg (mt List.isEmpty_iff.mp empty)]
    by_cases digits : ∀ c ∈ s, c.isDigit = true
    · have sum := sumWithin?_eq inward (start ▸ zero) digits
      rw [start] at sum
      rw [sum, if_pos (isNumeral_iff.mpr ⟨empty, digits⟩), Option.map_some, Option.filter_some]
      rfl
    · rw [sumWithin?_of_not_digits digits, if_neg fun h => digits (isNumeral_iff.mp h).2]
      rfl

inductive WritesInteger : List Char → Int → Prop
  | plain {digits : List Char} (any : digits ≠ []) (digit : ∀ c ∈ digits, c.isDigit = true) :
      WritesInteger digits (numeralValue digits)
  | plus {digits : List Char} (any : digits ≠ []) (digit : ∀ c ∈ digits, c.isDigit = true) :
      WritesInteger ('+' :: digits) (numeralValue digits)
  | minus {digits : List Char} (any : digits ≠ []) (digit : ∀ c ∈ digits, c.isDigit = true) :
      WritesInteger ('-' :: digits) (-(numeralValue digits : Int))

theorem signedNumeral?_eq (s : List Char) :
    signedNumeral? s = (numeral? (splitSign s).2).map (withSign (splitSign s).1) := by
  unfold signedNumeral?
  dsimp only
  cases numeral? (splitSign s).2 <;> rfl

theorem numeral?_eq_some_iff : numeral? s = some n ↔
    s ≠ [] ∧ (∀ c ∈ s, c.isDigit = true) ∧ n = numeralValue s := by
  unfold numeral?
  split
  · rename_i digits
    obtain ⟨any, digits⟩ := isNumeral_iff.mp digits
    rw [Option.some_inj]
    exact ⟨fun same => ⟨any, digits, same.symm⟩, fun h => h.2.2.symm⟩
  · rename_i other
    exact iff_of_false (fun h => nomatch h) fun h => other (isNumeral_iff.mpr ⟨h.1, h.2.1⟩)

theorem splitSign_cases (s : List Char) : (∃ rest, s = '-' :: rest ∧ splitSign s = (true, rest)) ∨
    (∃ rest, s = '+' :: rest ∧ splitSign s = (false, rest)) ∨
    (s.head? ≠ some '-' ∧ s.head? ≠ some '+' ∧ splitSign s = (false, s)) := by
  unfold splitSign
  split
  · exact .inl ⟨_, rfl, rfl⟩
  · exact .inr (.inl ⟨_, rfl, rfl⟩)
  · rename_i minus plus
    refine .inr (.inr ⟨fun h => ?_, fun h => ?_, rfl⟩) <;> obtain ⟨rest, rfl⟩ := List.head?_eq_some_iff.mp h
    · exact minus rest rfl
    · exact plus rest rfl

theorem writesInteger_iff : WritesInteger s i ↔ signedNumeral? s = some i := by
  rw [signedNumeral?_eq]
  constructor
  · intro writes
    cases writes with
    | plain any digit =>
      obtain ⟨c, rest, rfl⟩ := List.exists_cons_of_ne_nil any
      rw [splitSign_of_digit (digit c List.mem_cons_self), numeral?_eq_some_iff.mpr ⟨any, digit, rfl⟩]
      rfl
    | plus any digit =>
      rw [splitSign, numeral?_eq_some_iff.mpr ⟨any, digit, rfl⟩]
      rfl
    | minus any digit =>
      rw [splitSign, numeral?_eq_some_iff.mpr ⟨any, digit, rfl⟩]
      rfl
  · intro taken
    obtain ⟨n, digits, rfl⟩ := Option.map_eq_some_iff.mp taken
    obtain ⟨any, digit, rfl⟩ := numeral?_eq_some_iff.mp digits
    rcases splitSign_cases s with ⟨rest, rfl, split⟩ | ⟨rest, rfl, split⟩ | ⟨-, -, split⟩ <;>
      rw [split] at any digit ⊢
    · exact .minus any digit
    · exact .plus any digit
    · exact .plain any digit

theorem WritesInteger.unique {j : Int} (h : WritesInteger s i) (h' : WritesInteger s j) : i = j :=
  Option.some.inj ((writesInteger_iff.mp h).symm.trans (writesInteger_iff.mp h'))

theorem WritesInteger.trim_eq (h : WritesInteger s i) : trim s = s := by
  refine trim_eq_self fun c hc => ?_
  cases h with
  | plain _ digit => exact isBlank_of_isDigit (digit c hc)
  | plus _ digit | minus _ digit =>
    rcases List.mem_cons.mp hc with rfl | hc
    · rfl
    · exact isBlank_of_isDigit (digit c hc)

theorem writesInteger_signedNumeral (i : Int) : WritesInteger (signedNumeral i) i :=
  writesInteger_iff.mpr (signedNumeral?_signedNumeral i)

theorem writesInteger_withSign {digits : List Char} (any : digits ≠ [])
    (digit : ∀ c ∈ digits, c.isDigit = true) (negative : Bool) :
    WritesInteger ((if negative then ['-'] else []) ++ digits) (withSign negative (numeralValue digits)) := by
  cases negative
  · exact .plain any digit
  · exact .minus any digit

end Text

namespace Number

variable {s : List Char} {i : Int}

theorem powers : Int.pow 2 63 = 9223372036854775808 ∧ Int.pow 2 64 = 18446744073709551616 := by decide

theorem fitsUInt64_zero : decide (FitsUInt64 0) = true :=
  decide_eq_true ⟨Int.le_refl 0, by rw [powers.2]; decide⟩

theorem fitsInt64_inward (negative : Bool) (a b : Nat) (le : a ≤ b)
    (h : decide (FitsInt64 (Text.withSign negative b)) = true) :
    decide (FitsInt64 (Text.withSign negative a)) = true := by
  rw [decide_eq_true_eq] at h ⊢
  have := powers
  cases negative <;> simp only [FitsInt64, Text.withSign, Bool.false_eq_true, if_true, if_false] at h ⊢ <;>
    omega

theorem fitsUInt64_inward (a b : Nat) (le : a ≤ b)
    (h : decide (FitsUInt64 (Text.withSign false b)) = true) :
    decide (FitsUInt64 (Text.withSign false a)) = true := by
  rw [decide_eq_true_eq] at h ⊢
  have := powers
  simp only [FitsUInt64, Text.withSign, Bool.false_eq_true, if_false] at h ⊢
  omega

theorem signedWord?_eq (s : List Char) : signedWord? s =
    ((Text.signedNumeral? s).filter fun i => decide (FitsInt64 i)).map Int64.ofInt := by
  rw [Text.signedNumeral?_eq, ← Text.sumWithin?_zero (fitsInt64_inward _) (by decide)]
  unfold signedWord?
  dsimp only
  split <;> rfl

theorem sumWithin?_unsigned (digits : List Char) :
    (if digits.isEmpty then none
      else Text.sumWithin? (fun i => decide (FitsUInt64 i)) false 0 digits) =
    ((Text.numeral? digits).map (Text.withSign false)).filter fun i => decide (FitsUInt64 i) :=
  Text.sumWithin?_zero fitsUInt64_inward fitsUInt64_zero

theorem unsignedWord?_eq (s : List Char) : unsignedWord? s =
    if (Text.splitSign s).1 then none
    else ((Text.signedNumeral? s).filter fun i => decide (FitsUInt64 i)).map fun i =>
      UInt64.ofNat i.toNat := by
  rw [Text.signedNumeral?_eq]
  rcases Text.splitSign_cases s with ⟨rest, rfl, split⟩ | ⟨rest, rfl, split⟩ | ⟨-, plus, split⟩
  · rw [split, if_pos rfl]
    rfl
  · rw [split, if_neg Bool.false_ne_true, ← sumWithin?_unsigned, apply_ite (Option.map _)]
    rfl
  · rw [split, if_neg Bool.false_ne_true, ← sumWithin?_unsigned, apply_ite (Option.map _), unsignedWord?.eq_2]
    · rfl
    · rintro rest rfl
      exact plus rfl

theorem toInt?_int_ofInt (fits : FitsInt64 i) : (int (Int64.ofInt i)).toInt? = some i := by
  have := powers
  exact congrArg some (Int64.toInt_ofInt_of_le fits.1 (by have := fits.2; omega))

theorem toInt?_ofInt (i : Int) : (ofInt i).toInt? = some i := by
  have := powers
  unfold ofInt
  split
  · split
    · exact toInt?_int_ofInt ‹_›
    · rfl
  · split
    · rename_i fits
      obtain ⟨low, high⟩ := fits
      refine congrArg some ?_
      rw [UInt64.toNat_ofNat_of_lt' (show i.toNat < 2 ^ 64 by omega)]
      exact Int.toNat_of_nonneg low
    · rfl

theorem toInt?_ofNumeral (i : Int) : (ofNumeral i).toInt? = some i := by
  unfold ofNumeral
  split
  · exact toInt?_int_ofInt ‹_›
  · exact toInt?_ofInt i

/-- The numbers that no smaller form holds: zero and below signed, above unsigned, and of any size beyond the
words. -/
inductive Smallest : Number → Prop
  | int {v : Int64} (low : v.toInt ≤ 0) : Smallest (.int v)
  | uint {v : UInt64} (high : 0 < v.toNat) : Smallest (.uint v)
  | big {i : Int} (signed : ¬FitsInt64 i) (unsigned : ¬FitsUInt64 i) : Smallest (.big i)

theorem smallest_ofInt (i : Int) : (ofInt i).Smallest := by
  have := powers
  have value := toInt?_ofInt i
  unfold ofInt at value ⊢
  split
  · split
    · rename_i low fits
      rw [if_pos low, if_pos fits] at value
      exact .int ((Option.some.inj value).symm ▸ low)
    · rename_i low out
      exact .big out fun fits => by
        unfold FitsInt64 FitsUInt64 at *
        omega
  · split
    · rename_i high fits
      rw [if_neg high, if_pos fits] at value
      refine .uint ?_
      have value := Option.some.inj value
      omega
    · rename_i high out
      exact .big (fun fits => by
        unfold FitsInt64 FitsUInt64 at *
        omega) out

theorem eq_ofInt_of_smallest {n : Number} (smallest : n.Smallest) (value : n.toInt? = some i) :
    n = ofInt i := by
  have := powers
  cases smallest with
  | @int v low =>
    obtain rfl := Option.some.inj value
    rw [ofInt, if_pos low, if_pos ⟨by have := v.le_toInt; omega, by have := v.toInt_lt; omega⟩, Int64.ofInt_toInt]
  | @uint v high =>
    obtain rfl := Option.some.inj value
    have fits : FitsUInt64 v.toNat := ⟨Int.natCast_nonneg _, by have := v.toNat_lt; omega⟩
    rw [ofInt, if_neg (by omega), if_pos fits, Int.toNat_natCast, UInt64.ofNat_toNat]
  | @big j signed unsigned =>
    obtain rfl := Option.some.inj value
    unfold ofInt
    rw [if_neg signed, if_neg unsigned, ite_self]

theorem not_minus_of_pos (numeral : Text.signedNumeral? s = some i) (pos : 0 < i) :
    (Text.splitSign s).1 = false := by
  rw [Text.signedNumeral?_eq] at numeral
  obtain ⟨n, -, rfl⟩ := Option.map_eq_some_iff.mp numeral
  rw [← Bool.not_eq_true]
  intro minus
  rw [minus, Text.withSign, if_pos rfl] at pos
  omega

theorem trim_isEmpty_of_numeral (numeral : Text.signedNumeral? s = some i) : s.isEmpty = false := by
  rw [List.isEmpty_eq_false_iff]
  rintro rfl
  exact nomatch numeral

theorem ofChars?_of_numeral (numeral : Text.signedNumeral? (Text.trim s) = some i) :
    ofChars? s = some (ofNumeral i) := by
  have := powers
  unfold ofChars? ofNumeral
  dsimp only
  rw [trim_isEmpty_of_numeral numeral, if_neg Bool.false_ne_true, signedWord?_eq, unsignedWord?_eq, numeral,
    Option.filter_some]
  by_cases signed : FitsInt64 i
  · rw [if_pos (decide_eq_true signed), if_pos signed]
    rfl
  · rw [if_neg (mt of_decide_eq_true signed), if_neg signed, Option.filter_some, Option.map_none]
    by_cases unsigned : FitsUInt64 i
    · have pos : 0 < i := by
        unfold FitsInt64 FitsUInt64 at *
        omega
      rw [if_neg (ne_true_of_eq_false (not_minus_of_pos numeral pos)), if_pos (decide_eq_true unsigned), ofInt,
        if_neg (Int.not_le.mpr pos), if_pos unsigned]
      rfl
    · rw [if_neg (mt of_decide_eq_true unsigned), Option.map_none, ite_self]

theorem ofChars?_of_not_numeral (other : Text.signedNumeral? (Text.trim s) = none) {n : Number}
    (taken : ofChars? s = some n) : ∃ x, n = .float x ∧ x.isFinite = true := by
  unfold ofChars? at taken
  dsimp only at taken
  rw [signedWord?_eq, unsignedWord?_eq, other, Option.filter_none, Option.map_none, Option.filter_none,
    Option.map_none, ite_self] at taken
  dsimp only at taken
  split at taken
  · cases taken
  split at taken
  · split at taken
    · split at taken
      · exact ⟨_, (Option.some.inj taken).symm, ‹_›⟩
      · cases taken
    · cases taken
  · cases taken

end Number
end Schemata

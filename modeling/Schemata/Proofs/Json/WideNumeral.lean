import Schemata.Proofs.Json.Reading
import Schemata.Proofs.Json.Scaling

/-! Integers beyond a word in JSON text. They are written as bare digits up to 128 bits, but only as many leading
digits are read as an unsigned word holds; these are rounded and multiplied by a power of ten, which is rounded
too. -/

namespace Schemata.Json.Numeral

open Double

variable {s t : List Char} {c : Char} {n front : Nat} {i : Int} {rest : List Char}

def leadingDigits (n : Nat) : Nat × Nat :=
  if n < Nat.pow 2 64 then (n, 0)
  else ((leadingDigits (n / 10)).1, (leadingDigits (n / 10)).2 + 1)
termination_by n
decreasing_by all_goals exact Nat.div_lt_self (Nat.pos_of_ne_zero fun none => by subst none; contradiction) (by decide)

theorem leadingDigits_of_fits (fits : n < Nat.pow 2 64) : leadingDigits n = (n, 0) := by
  rw [leadingDigits, if_pos fits]

theorem leadingDigits_of_wide (wide : ¬n < Nat.pow 2 64) :
    leadingDigits n = ((leadingDigits (n / 10)).1, (leadingDigits (n / 10)).2 + 1) := by
  rw [leadingDigits, if_neg wide]

theorem leadingDigits_bounds (n : Nat) :
    (leadingDigits n).1 < Nat.pow 2 64 ∧ (leadingDigits n).1 * 10 ^ (leadingDigits n).2 ≤ n ∧
      (n ≠ 0 → (leadingDigits n).1 ≠ 0) := by
  induction n using leadingDigits.induct with
  | case1 n fits =>
    rw [leadingDigits_of_fits fits]
    exact ⟨fits, by rw [pow_zero, Nat.mul_one], id⟩
  | case2 n wide ih =>
    obtain ⟨small, below, some⟩ := ih
    have large : Nat.pow 2 64 = 18446744073709551616 := rfl
    rw [leadingDigits_of_wide wide]
    refine ⟨small, ?_, fun _ => some (by omega)⟩
    dsimp only
    rw [pow_succ, ← Nat.mul_assoc]
    omega

theorem accumulate_concat (front : Nat) (s : List Char) (c : Char) :
    accumulate front (s ++ [c]) =
      if (accumulate front s).2 = s.length ∧ (accumulate front s).1 * 10 + (c.toNat - 48) < Nat.pow 2 64 then
        ((accumulate front s).1 * 10 + (c.toNat - 48), s.length + 1)
      else accumulate front s := by
  induction s generalizing front with
  | nil =>
    rw [List.nil_append, accumulate]
    dsimp only [accumulate]
    exact if_congr (and_iff_right rfl).symm rfl rfl
  | cons d s ih =>
    rw [List.cons_append, accumulate, accumulate]
    dsimp only
    split
    · rw [ih, List.length_cons]
      simp only [Nat.add_right_cancel_iff]
      split <;> rfl
    · rw [if_neg]
      exact fun h => Nat.succ_ne_zero _ h.1.symm

theorem accumulate_numeral_eq (n : Nat) :
    (leadingDigits n).2 < (Text.numeral n).length ∧ accumulate 0 (Text.numeral n) =
      ((leadingDigits n).1, (Text.numeral n).length - (leadingDigits n).2) := by
  induction n using leadingDigits.induct with
  | case1 n fits =>
    rw [leadingDigits_of_fits fits, accumulate_numeral fits]
    exact ⟨List.length_pos_iff.mpr Nat.toDigits_ne_nil, rfl⟩
  | case2 n wide ih =>
    obtain ⟨inside, taken⟩ := ih
    have large : Nat.pow 2 64 = 18446744073709551616 := rfl
    have split : Text.numeral n = Text.numeral (n / 10) ++ [Nat.digitChar (n % 10)] :=
      Nat.toDigits_of_base_le (by decide) (by omega)
    have digit : (Nat.digitChar (n % 10)).toNat - 48 = n % 10 := by
      rw [Nat.toNat_digitChar_of_lt_ten (Nat.mod_lt n (by decide))]
      omega
    rw [leadingDigits_of_wide wide, split, accumulate_concat, taken, digit, List.length_append, List.length_singleton]
    dsimp only
    refine ⟨Nat.succ_lt_succ inside, ?_⟩
    rw [if_neg, Nat.add_sub_add_right]
    rintro ⟨all, fits⟩
    -- All digits in front are taken only where they fit, and then they are the number without its last one.
    have none : (leadingDigits (n / 10)).2 = 0 := by omega
    have front : (leadingDigits (n / 10)).1 = n / 10 := by
      by_contra other
      have short : n / 10 < Nat.pow 2 64 := by
        by_contra wide
        rw [leadingDigits_of_wide wide] at none
        cases none
      exact other (congrArg Prod.fst (leadingDigits_of_fits short))
    rw [front] at fits
    omega

/-- What is read for an integer beyond the words: its leading digits as a floating-point number, times the power of
ten of those behind them. -/
def nearby (i : Int) : Double :=
  let (word, behind) := leadingDigits i.natAbs
  float?.signed (decide (i < 0)) (if behind = 0 then ofInt word else (ofInt word).mul (powerOfTen behind))

def FitsWord (i : Int) : Prop := -Int.pow 2 63 ≤ i ∧ i < Int.pow 2 64

instance (i : Int) : Decidable (FitsWord i) := inferInstanceAs (Decidable (_ ∧ _))

theorem isFinite_leadingDigits {word behind : Nat} (some : word ≠ 0) (small : word < Nat.pow 2 64)
    (within : 10 ^ behind ≤ 2 ^ 127) : ((ofInt word).mul (powerOfTen behind)).isFinite = true := by
  have short : behind ≤ 400 := by
    by_contra long
    have := Nat.pow_le_pow_right (show 0 < 10 by decide) (show 40 ≤ behind by omega)
    omega
  have canonical : Canonical (Nat.pow 2 52) (75 : Nat) := by decide
  have le : 10 ^ behind ≤ Nat.pow 2 52 * 2 ^ 75 := within.trans_eq (by decide)
  obtain ⟨m, q, c, front, low⟩ := exists_ofInt_of_le some small.le
  obtain ⟨m', q', c', power, -, low'⟩ := exists_powerOfTen canonical short le
  have product : Canonical (Nat.pow 2 52) 141 := by decide
  rw [front, power]
  refine isFinite_mul_of_le product ?_
  have bound {m : Nat} {q : Int} (c : Canonical m q) : (m : ℚ) ≤ 2 ^ 53 := by
    have small : m ≤ 2 ^ 53 := c.normal.small.le
    exact_mod_cast small
  calc
    (m * m' : ℚ) * 2 ^ (q + q') ≤ (2 ^ 53 * 2 ^ 53) * 2 ^ (87 : Int) := by
      refine mul_le_mul (mul_le_mul (bound c) (bound c') (by positivity) (by positivity))
        (zpow_le_zpow_right₀ one_le_two ?_) (by positivity) (by positivity)
      push_cast at low'
      omega
    _ = (Nat.pow 2 52 : Nat) * 2 ^ (141 : Int) := by norm_num [Nat.pow_eq]

theorem value?_of_behind {negative : Bool} {whole : List Char} {word behind : Nat}
    (taken : accumulate 0 whole = (word, whole.length - behind)) (inside : behind < whole.length)
    (more : behind ≠ 0) :
    Parts.value? ⟨negative, whole, [], none⟩ = (float? negative word behind none).map .float := by
  have skipped : whole.length - (whole.length - behind) = behind := by omega
  have none_left : (behind == 0) = false := beq_eq_false_iff_ne.mpr more
  unfold Parts.value?
  rw [taken]
  dsimp only
  rw [skipped, none_left, Bool.and_false, if_neg Bool.false_ne_true, accumulate]
  dsimp only
  rw [Int.natCast_zero, Int.sub_zero]

theorem value?_of_low {whole : List Char} {word : Nat} (taken : accumulate 0 whole = (word, whole.length))
    (low : Nat.pow 2 63 < word) :
    Parts.value? ⟨true, whole, [], none⟩ = some (.float (ofInt word).neg) := by
  unfold Parts.value?
  rw [taken]
  dsimp only
  rw [Nat.sub_self]
  exact if_neg fun within : 0 < word ∧ word ≤ Nat.pow 2 63 => absurd within.2 (Nat.not_le.mpr low)

/-- An integer beyond the words is read as what is near to it. -/
theorem value?_of_wide (held : FitsInt128 i) (wide : ¬FitsWord i) :
    Parts.value? ⟨decide (i < 0), Text.numeral i.natAbs, [], none⟩ = some (.float (nearby i)) := by
  have powers : Int.pow 2 63 = 2 ^ 63 ∧ Int.pow 2 64 = 2 ^ 64 ∧ Nat.pow 2 63 = 2 ^ 63 ∧
      Nat.pow 2 64 = 2 ^ 64 ∧ Int.pow 2 127 = 2 ^ 127 := by decide
  unfold FitsInt128 FitsWord at *
  obtain ⟨n, hn⟩ : ∃ n, i.natAbs = n := ⟨_, rfl⟩
  obtain ⟨inside, taken⟩ := accumulate_numeral_eq n
  obtain ⟨small, below, some⟩ := leadingDigits_bounds n
  have some := some (by omega)
  unfold nearby
  rw [hn]
  by_cases fits : n < Nat.pow 2 64
  · have negative : i < 0 := by omega
    rw [leadingDigits_of_fits fits] at taken ⊢
    rw [decide_eq_true negative, value?_of_low taken (by omega)]
    rfl
  · have more : (leadingDigits n).2 ≠ 0 := by
      rw [leadingDigits_of_wide fits]
      exact Nat.succ_ne_zero _
    obtain ⟨word, hword⟩ : ∃ word, (leadingDigits n).1 = word := ⟨_, rfl⟩
    obtain ⟨behind, hbehind⟩ : ∃ behind, (leadingDigits n).2 = behind := ⟨_, rfl⟩
    dsimp only
    rw [hword] at small below some taken ⊢
    rw [hbehind] at below taken inside more ⊢
    have power : 10 ^ behind ≤ 2 ^ 127 :=
      calc
        10 ^ behind ≤ word * 10 ^ behind := Nat.le_mul_of_pos_left _ (Nat.pos_of_ne_zero some)
        _ ≤ n := below
        _ ≤ 2 ^ 127 := by omega
    have finite := isFinite_leadingDigits some small power
    have short : behind ≤ 308 := by
      by_contra long
      have := Nat.pow_le_pow_right (show 0 < 10 by decide) (show 40 ≤ behind by omega)
      omega
    have scaled : scale? (ofInt word) behind = .some ((ofInt word).mul (powerOfTen behind)) := by
      rw [scale?, Int.natAbs_natCast, if_pos short, if_pos (Int.natCast_nonneg behind)]
      exact if_pos finite
    rw [value?_of_behind taken inside more, if_neg more, float?, scaled]
    rfl

theorem isFinite_nearby (held : FitsInt128 i) (wide : ¬FitsWord i) : (nearby i).isFinite = true := by
  cases plain_of_value? (value?_of_wide held wide) with
  | float finite => exact finite

theorem decode_of_wide (held : FitsInt128 i) (wide : ¬FitsWord i) (stops : Stops rest) :
    decode (Text.signedNumeral i ++ rest) = some (.float (nearby i), rest) := by
  rw [decode, parts?_signedNumeral i stops, Option.bind_eq_bind, Option.bind_some]
  simp only [value?_of_wide held wide, Option.bind_eq_bind, Option.bind_some]
  rfl

end Schemata.Json.Numeral

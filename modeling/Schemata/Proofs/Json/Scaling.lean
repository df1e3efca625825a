import Schemata.Json.Numeral
import Schemata.Proofs.Number.Nearest

/-! Powers of ten in the reading of numbers. A significand that is multiplied by one may become too large, and
then the number is refused; one that is divided stays finite. So every floating-point number that is read is
finite. -/

namespace Schemata.Json.Numeral

open Double

variable {k M e : Nat} {exponent : Int} {f g : Double} {negative : Bool}

theorem exists_powerOfTen (canonical : Canonical M e) (small : k ≤ 400) (le : 10 ^ k ≤ M * 2 ^ e) :
    ∃ m q, ∃ canonical' : Canonical m q, powerOfTen k = finite false m q canonical' ∧
      (1 : ℚ) ≤ m * 2 ^ q ∧ q ≤ e := by
  have size : (Nat.log2 1 : Int) * 30103 / 100000 + k = k := by
    have none : Nat.log2 1 = 0 := by decide
    rw [none, Nat.cast_zero, Int.zero_mul, Int.zero_ediv, Int.zero_add]
  have shape : powerOfTen k = ofRatio false (1 * Nat.pow 10 k) (Nat.pow 10 0) := by
    unfold powerOfTen ofDecimal
    rw [if_neg Nat.one_ne_zero]
    dsimp only
    rw [size, if_neg (by omega), if_neg (by omega), Int.toNat_natCast, Int.toNat_neg_natCast]
  have value : ((1 * Nat.pow 10 k : Nat) : ℚ) / (Nat.pow 10 0 : Nat) = 10 ^ k := by
    rw [Nat.one_mul, Nat.pow_eq, Nat.pow_eq, pow_zero, Nat.cast_one, div_one]
    exact Nat.cast_pow 10 k
  have le : (10 ^ k : ℚ) ≤ M * 2 ^ (e : Int) := by
    rw [zpow_natCast]
    exact_mod_cast le
  obtain ⟨m, q, canonical', found, rounds, low⟩ :=
    exists_ofRatio_of_le false (n := 1 * Nat.pow 10 k) (d := Nat.pow 10 0)
      (Nat.mul_ne_zero Nat.one_ne_zero (Nat.pow_pos (by decide)).ne') (Nat.pow_pos (by decide)) canonical
      (value.trans_le le)
  rw [value] at rounds
  have one : Canonical (Nat.pow 2 52) (-52) := by decide
  have unit : ((Nat.pow 2 52 : Nat) : ℚ) * 2 ^ (-52 : Int) = 1 := by norm_num [Nat.pow_eq]
  have above : -52 ≤ q := by
    refine rounds.exponent_le (rounds_self (Nat.pow 2 52) (-52)) canonical'.normal one.normal ?_
    rw [unit]
    exact one_le_pow₀ (by norm_num)
  have dense : Nat.pow 2 52 ≤ m := canonical'.2.2.2.resolve_left (by omega)
  refine ⟨m, q, canonical', shape.trans found, ?_, low⟩
  rw [← unit]
  exact mul_le_mul (Nat.cast_le.mpr dense) (zpow_le_zpow_right₀ one_le_two above) (by positivity) (by positivity)

theorem canonical_greatest : Canonical (Nat.pow 2 53 - 1) (971 : Nat) := by decide

theorem isFinite_div_powerOfTen (finite : f.isFinite = true) (small : k ≤ 308) :
    (f.div (powerOfTen k)).isFinite = true := by
  -- The exponent stays a variable: its power is too large to be looked at.
  obtain ⟨most, same, greatest⟩ : ∃ most, 308 = most ∧ 10 ^ most ≤ (Nat.pow 2 53 - 1) * 2 ^ 971 :=
    ⟨308, rfl, by decide +kernel⟩
  have le := (Nat.pow_le_pow_right (by decide) (small.trans_eq same)).trans greatest
  obtain ⟨m, q, canonical, shape, one, -⟩ := exists_powerOfTen canonical_greatest (by omega) le
  rcases f with _ | _ | ⟨s, m', q', canonical'⟩
  · cases finite
  · cases finite
  · rw [shape]
    exact isFinite_div_of_le one

theorem isFinite_of_scale? (finite : f.isFinite = true) (scaled : scale? f exponent = some g) :
    g.isFinite = true := by
  fun_induction scale? f exponent with
  | case1 f exponent small up product fits =>
    obtain rfl := Option.some.inj scaled
    exact fits
  | case2 => cases scaled
  | case3 f exponent small down =>
    obtain rfl := Option.some.inj scaled
    exact isFinite_div_powerOfTen finite small
  | case4 =>
    obtain rfl := Option.some.inj scaled
    rfl
  | case5 => cases scaled
  | case6 f exponent large some down ih =>
    exact ih (isFinite_div_powerOfTen finite (Nat.le_refl 308)) scaled

theorem isFinite_signed (finite : f.isFinite = true) (negative : Bool) :
    (float?.signed negative f).isFinite = true := by
  unfold float?.signed
  split
  · rcases f with _ | _ | _
    · cases finite
    · cases finite
    · rfl
  · exact finite

theorem isFinite_ofInt {n : Nat} (fits : n < Nat.pow 2 64) : (ofInt n).isFinite = true := by
  rcases Nat.eq_zero_or_pos n with rfl | some
  · rfl
  · obtain ⟨m, q, canonical, shape, -⟩ := exists_ofInt_of_le some.ne' fits.le
    rw [shape]
    rfl

theorem isFinite_of_float? {significand : Nat} {power : Option (Bool × List Char)}
    (fits : significand < Nat.pow 2 64) (taken : float? negative significand exponent power = some f) :
    f.isFinite = true := by
  have scaled {e : Int} (taken : (scale? (ofInt significand) e).map (float?.signed negative) = some f) :
      f.isFinite = true := by
    obtain ⟨g, scaled, rfl⟩ := Option.map_eq_some_iff.mp taken
    exact isFinite_signed (isFinite_of_scale? (isFinite_ofInt fits) scaled) negative
  unfold float? at taken
  split at taken
  · exact scaled taken
  · dsimp only at taken
    split at taken
    · split at taken
      · cases taken
      · obtain rfl := Option.some.inj taken
        exact isFinite_signed rfl negative
    · exact scaled taken

theorem accumulate_lt {front : Nat} (fits : front < Nat.pow 2 64) (s : List Char) :
    (accumulate front s).1 < Nat.pow 2 64 := by
  induction s generalizing front with
  | nil => exact fits
  | cons c s ih =>
    rw [accumulate]
    dsimp only
    split
    · exact ih ‹_›
    · exact fits

/-- The forms that written numbers take: integers that are not negative, negative integers, and finite
floating-point numbers. -/
inductive Plain : Number → Prop
  | uint (v : UInt64) : Plain (.uint v)
  | int {v : Int64} (negative : v.toInt < 0) : Plain (.int v)
  | float {x : Double} (finite : x.isFinite = true) : Plain (.float x)

theorem plain_of_value? {p : Parts} {n : Number} (taken : p.value? = some n) : Plain n := by
  have fits := accumulate_lt (Nat.two_pow_pos 64) p.whole
  unfold Parts.value? at taken
  rcases hw : accumulate 0 p.whole with ⟨word, count⟩
  rw [hw] at taken fits
  dsimp only at taken fits
  split at taken
  · split at taken
    · split at taken
      · rename_i small
        obtain rfl := Option.some.inj taken
        refine .int ?_
        have power : Nat.pow 2 63 = 2 ^ 63 := rfl
        rw [Int64.toInt_ofInt_of_le (by omega) (by omega)]
        omega
      · obtain rfl := Option.some.inj taken
        exact .float (isFinite_signed (isFinite_ofInt fits) true)
    · obtain rfl := Option.some.inj taken
      exact .uint _
  · obtain ⟨x, scaled, rfl⟩ := Option.map_eq_some_iff.mp taken
    exact .float (isFinite_of_float? (accumulate_lt fits p.fraction) scaled)

/-- Whatever number a text gives, it is in one of the forms of written numbers. -/
theorem plain_of_decode {s rest : List Char} {n : Number} (taken : decode s = some (n, rest)) : Plain n := by
  obtain ⟨⟨p, after⟩, -, taken⟩ := Option.bind_eq_some_iff.mp taken
  obtain ⟨n', value, same⟩ := Option.bind_eq_some_iff.mp taken
  obtain ⟨rfl, -⟩ := Prod.mk.inj (Option.some.inj same)
  exact plain_of_value? value

end Schemata.Json.Numeral

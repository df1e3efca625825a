import Mathlib
import Schemata.Number.Decimal

/-! The fewest digits that read back. The decimals nearest to one floating-point number are nearest to
no other, seventeen digits always hold one of them, and so the digits that are chosen tell the number
that they were chosen for. -/

namespace Schemata

namespace Double

variable {m m' k : Nat} {q q' : Int} {x y : ℚ}

def lowQuarters (m : Nat) (q : Int) : Nat :=
  if m = Nat.pow 2 52 ∧ -1074 < q then 4 * m - 1 else 4 * m - 2

/-- The real numbers that round to `m · 2 ^ q`: up to half way to its neighbours, inclusive if the
significand is even. -/
structure Rounds (m : Nat) (q : Int) (x : ℚ) : Prop where
  low : lowQuarters m q * 2 ^ (q - 2) ≤ x
  high : x ≤ (4 * m + 2 : Nat) * 2 ^ (q - 2)
  strict : m % 2 = 1 → lowQuarters m q * 2 ^ (q - 2) < x ∧ x < (4 * m + 2 : Nat) * 2 ^ (q - 2)

theorem rounds_zero (q : Int) : Rounds 0 q 0 := by
  have empty : lowQuarters 0 q = 0 := by
    unfold lowQuarters
    split <;> rfl
  refine ⟨?_, by positivity, fun odd => nomatch odd⟩
  rw [empty, Nat.cast_zero, zero_mul]

theorem Rounds.not_touch (h : Rounds m q y) (h' : Rounds m' q' x)
    (above : ((4 * m + 2 : Nat) : ℚ) * 2 ^ (q - 2) ≤ lowQuarters m' q' * 2 ^ (q' - 2))
    (odd : m % 2 = 1 ∨ m' % 2 = 1) (le : x ≤ y) : False := by
  rcases odd with odd | odd
  · exact absurd ((above.trans h'.low).trans le) (not_le.mpr (h.strict odd).2)
  · exact absurd ((le.trans h.high).trans above) (not_le.mpr (h'.strict odd).1)

theorem Rounds.not_apart (h : Rounds m q y) (h' : Rounds m' q' x)
    (above : ((4 * m + 2 : Nat) : ℚ) * 2 ^ (q - 2) < lowQuarters m' q' * 2 ^ (q' - 2)) (le : x ≤ y) : False :=
  absurd (((above.trans_le h'.low).trans_le le).trans_le h.high) (lt_irrefl _)

theorem Rounds.not_lt_of_exponent_eq (h : Rounds m q x) (h' : Rounds m' q x) : ¬m < m' := by
  intro less
  have positive : (0 : ℚ) < 2 ^ (q - 2) := by positivity
  have bound : 4 * m' - 2 ≤ lowQuarters m' q := by
    unfold lowQuarters
    split <;> omega
  rcases Nat.lt_or_ge (m + 1) m' with far | near
  · exact h.not_apart h' (mul_lt_mul_of_pos_right (Nat.cast_lt.mpr (by omega)) positive) (le_refl x)
  · refine h.not_touch h' ?_ (by omega) (le_refl x)
    exact mul_le_mul_of_nonneg_right (Nat.cast_le.mpr (by omega)) positive.le

structure Normal (m : Nat) (q : Int) : Prop where
  small : m < 2 ^ 53
  low : -1074 ≤ q
  dense : q = -1074 ∨ 2 ^ 52 ≤ m

theorem Canonical.normal (canonical : Canonical m q) : Normal m q :=
  ⟨canonical.1, canonical.2.1, canonical.2.2.2⟩

theorem Normal.canonical (normal : Normal m q) (high : q ≤ 971) : Canonical m q :=
  ⟨normal.small, normal.low, high, normal.dense⟩

theorem Rounds.exponent_le (h : Rounds m q y) (h' : Rounds m' q' x) (normal : Normal m q)
    (normal' : Normal m' q') (le : x ≤ y) : q' ≤ q := by
  by_contra less
  rw [not_le] at less
  have small := normal.small
  have low := normal.low
  -- The larger exponent is not the least one, so its significand has all its places.
  have dense : 2 ^ 52 ≤ m' := normal'.dense.resolve_left (by omega)
  have bound : 2 ^ 54 - 1 ≤ lowQuarters m' q' := by
    have first : Nat.pow 2 52 = 2 ^ 52 := rfl
    unfold lowQuarters
    rw [first]
    split <;> omega
  have positive : (0 : ℚ) < 2 ^ (q - 2) := by positivity
  have double : (2 : ℚ) ^ (q - 2) * 2 ≤ 2 ^ (q' - 2) := by
    rw [← zpow_add_one₀ two_ne_zero]
    exact zpow_le_zpow_right₀ one_le_two (by omega)
  have top : ((2 ^ 54 - 1 : Nat) : ℚ) * (2 ^ (q - 2) * 2) ≤ lowQuarters m' q' * 2 ^ (q' - 2) :=
    mul_le_mul (Nat.cast_le.mpr bound) double (by positivity) (Nat.cast_nonneg _)
  have scaled : ((2 ^ 54 - 1 : Nat) : ℚ) * (2 ^ (q - 2) * 2) =
      ((2 ^ 55 - 2 : Nat) : ℚ) * 2 ^ (q - 2) := by
    push_cast
    ring
  rw [scaled] at top
  rcases Nat.lt_or_ge (4 * m + 2) (2 ^ 55 - 2) with far | near
  · refine h.not_apart h' (lt_of_lt_of_le ?_ top) le
    exact mul_lt_mul_of_pos_right (Nat.cast_lt.mpr far) positive
  · refine h.not_touch h' (le_trans ?_ top) (.inl (by omega)) le
    exact mul_le_mul_of_nonneg_right (Nat.cast_le.mpr (by omega)) positive.le

theorem Rounds.unique (h : Rounds m q x) (h' : Rounds m' q' x) (normal : Normal m q)
    (normal' : Normal m' q') : m = m' ∧ q = q' := by
  obtain rfl : q = q' :=
    le_antisymm (h'.exponent_le h normal' normal (le_refl x)) (h.exponent_le h' normal normal' (le_refl x))
  exact ⟨le_antisymm (not_lt.mp (h'.not_lt_of_exponent_eq h))
    (not_lt.mp (h.not_lt_of_exponent_eq h')), rfl⟩

theorem rounds_self (m : Nat) (q : Int) : Rounds m q (m * 2 ^ q) := by
  have positive : (0 : ℚ) < 2 ^ (q - 2) := by positivity
  have quarters : (m : ℚ) * 2 ^ q = (4 * m : Nat) * 2 ^ (q - 2) := by
    rw [zpow_sub₀ two_ne_zero]
    push_cast
    ring
  have below : lowQuarters m q ≤ 4 * m := by
    unfold lowQuarters
    split <;> omega
  rw [quarters]
  refine ⟨mul_le_mul_of_nonneg_right (Nat.cast_le.mpr below) positive.le,
    mul_le_mul_of_nonneg_right (Nat.cast_le.mpr (by omega)) positive.le, fun odd => ⟨?_, ?_⟩⟩
  · refine mul_lt_mul_of_pos_right (Nat.cast_lt.mpr ?_) positive
    unfold lowQuarters
    split <;> omega
  · exact mul_lt_mul_of_pos_right (Nat.cast_lt.mpr (by omega)) positive

end Double

namespace Decimal

open Double

variable {tie : Tie} {m : Nat} {q step : Int} {x : Nat}

def value (d : Decimal) : ℚ := d.digits * 10 ^ d.exponent

theorem zpow_mul_pow_toNat {b : ℚ} (nonzero : b ≠ 0) (z : Int) :
    b ^ z * b ^ (-z).toNat = b ^ z.toNat := by
  rw [← zpow_natCast, ← zpow_natCast, ← zpow_add₀ nonzero]
  congr 1
  omega

def gridUnit (q step : Int) : Nat := Nat.pow 10 step.toNat * Nat.pow 2 (2 - q).toNat

def gridScale (q step : Int) : Nat := Nat.pow 10 (-step).toNat * Nat.pow 2 (q - 2).toNat

theorem gridUnit_pos (q step : Int) : 0 < gridUnit q step :=
  Nat.mul_pos (Nat.pow_pos (by decide)) (Nat.pow_pos (by decide))

theorem gridScale_pos (q step : Int) : 0 < gridScale q step :=
  Nat.mul_pos (Nat.pow_pos (by decide)) (Nat.pow_pos (by decide))

def gridFactor (q step : Int) : ℚ := 10 ^ (-step).toNat * 2 ^ (2 - q).toNat

theorem gridFactor_pos (q step : Int) : 0 < gridFactor q step := by
  unfold gridFactor
  positivity

theorem cast_mul_gridScale (a : Nat) (q step : Int) :
    ((a * gridScale q step : Nat) : ℚ) = a * 2 ^ (q - 2) * gridFactor q step := by
  have two := zpow_mul_pow_toNat (b := 2) two_ne_zero (q - 2)
  rw [neg_sub] at two
  unfold gridScale gridFactor
  push_cast [Nat.pow_eq]
  rw [← two]
  ring

theorem cast_mul_gridUnit (x : Nat) (q step : Int) :
    ((x * gridUnit q step : Nat) : ℚ) = x * 10 ^ step * gridFactor q step := by
  have ten := zpow_mul_pow_toNat (b := 10) (by norm_num) step
  unfold gridUnit gridFactor
  push_cast [Nat.pow_eq]
  rw [← ten]
  ring

theorem scale_le_unit_iff (a x : Nat) : a * gridScale q step ≤ x * gridUnit q step ↔
    (a : ℚ) * 2 ^ (q - 2) ≤ x * 10 ^ step := by
  rw [← Nat.cast_le (α := ℚ), cast_mul_gridScale, cast_mul_gridUnit]
  exact mul_le_mul_iff_left₀ (gridFactor_pos q step)

theorem unit_le_scale_iff (a x : Nat) : x * gridUnit q step ≤ a * gridScale q step ↔
    (x : ℚ) * 10 ^ step ≤ a * 2 ^ (q - 2) := by
  rw [← Nat.cast_le (α := ℚ), cast_mul_gridScale, cast_mul_gridUnit]
  exact mul_le_mul_iff_left₀ (gridFactor_pos q step)

def readsBack (m : Nat) (q step : Int) (x : Nat) : Bool :=
  let low := lowQuarters m q * gridScale q step
  let high := (4 * m + 2) * gridScale q step
  if m % 2 = 0 then low ≤ x * gridUnit q step && x * gridUnit q step ≤ high
  else low < x * gridUnit q step && x * gridUnit q step < high

theorem rounds_of_readsBack (h : readsBack m q step x = true) : Rounds m q (x * 10 ^ step) := by
  unfold readsBack at h
  dsimp only at h
  split at h
  · rename_i even
    simp only [Bool.and_eq_true, decide_eq_true_eq] at h
    exact ⟨(scale_le_unit_iff _ _).mp h.1, (unit_le_scale_iff _ _).mp h.2, fun odd => by omega⟩
  · simp only [Bool.and_eq_true, decide_eq_true_eq] at h
    have low := not_le.mp (mt (unit_le_scale_iff _ _).mpr (Nat.not_le.mpr h.1))
    have high := not_le.mp (mt (scale_le_unit_iff _ _).mpr (Nat.not_le.mpr h.2))
    exact ⟨low.le, high.le, fun _ => ⟨low, high⟩⟩

def placeBelow (m : Nat) (q step : Int) : Nat := 4 * m * gridScale q step / gridUnit q step

theorem onGrid_eq (tie : Tie) (m : Nat) (q step : Int) :
    onGrid tie m q step =
      let below := placeBelow m q step
      let above := below + 1
      if readsBack m q step below then
        if readsBack m q step above then
          let down := 4 * m * gridScale q step - below * gridUnit q step
          let up := above * gridUnit q step - 4 * m * gridScale q step
          if down < up then some below
          else if up < down then some above
          else match tie with
            | .up => some above
            | .toEven => if below % 2 = 0 then some below else some above
        else some below
      else if readsBack m q step above then some above
      else none := by
  rfl

theorem onGrid_cases (tie : Tie) (m : Nat) (q step : Int) :
    (∃ x, onGrid tie m q step = some x ∧ readsBack m q step x = true) ∨
      onGrid tie m q step = none ∧ readsBack m q step (placeBelow m q step) = false ∧
        readsBack m q step (placeBelow m q step + 1) = false := by
  rw [onGrid_eq]
  dsimp only
  rcases below : readsBack m q step (placeBelow m q step) with _ | _
  · rcases above : readsBack m q step (placeBelow m q step + 1) with _ | _
    · exact .inr ⟨rfl, rfl, rfl⟩
    · exact .inl ⟨_, rfl, above⟩
  · rcases above : readsBack m q step (placeBelow m q step + 1) with _ | _
    · exact .inl ⟨_, rfl, below⟩
    · left
      rw [if_pos rfl, if_pos rfl]
      cases tie with
      | up =>
        dsimp only
        split_ifs
        · exact ⟨_, rfl, below⟩
        · exact ⟨_, rfl, above⟩
        · exact ⟨_, rfl, above⟩
      | toEven =>
        dsimp only
        split_ifs
        · exact ⟨_, rfl, below⟩
        · exact ⟨_, rfl, above⟩
        · exact ⟨_, rfl, below⟩
        · exact ⟨_, rfl, above⟩

theorem readsBack_of_onGrid (h : onGrid tie m q step = some x) : readsBack m q step x = true := by
  rcases onGrid_cases tie m q step with ⟨y, hy, reads⟩ | ⟨none, -⟩
  · rwa [Option.some.inj (h.symm.trans hy)]
  · rw [none] at h
    cases h

theorem le_of_not_readsBack (h : readsBack m q step x = false)
    (below : x * gridUnit q step ≤ 4 * m * gridScale q step) :
    x * gridUnit q step ≤ lowQuarters m q * gridScale q step := by
  have room : 4 * m * gridScale q step < (4 * m + 2) * gridScale q step :=
    Nat.mul_lt_mul_of_pos_right (by omega) (gridScale_pos q step)
  unfold readsBack at h
  dsimp only at h
  split at h
  all_goals
    simp only [Bool.and_eq_false_iff, decide_eq_false_iff_not] at h
    omega

theorem ge_of_not_readsBack (h : readsBack m q step x = false)
    (above : 4 * m * gridScale q step < x * gridUnit q step) :
    (4 * m + 2) * gridScale q step ≤ x * gridUnit q step := by
  have room : lowQuarters m q * gridScale q step ≤ 4 * m * gridScale q step := by
    refine Nat.mul_le_mul_right _ ?_
    unfold lowQuarters
    split <;> omega
  unfold readsBack at h
  dsimp only at h
  split at h
  all_goals
    simp only [Bool.and_eq_false_iff, decide_eq_false_iff_not] at h
    omega

theorem exists_onGrid (canonical : Canonical m q)
    (fine : 10 ^ 16 * gridUnit q step ≤ 4 * m * gridScale q step) :
    ∃ x, onGrid tie m q step = some x := by
  rcases onGrid_cases tie m q step with ⟨x, hx, -⟩ | ⟨-, neither⟩
  · exact ⟨x, hx⟩
  exfalso
  have below := le_of_not_readsBack neither.1 (Nat.div_mul_le_self _ _)
  have above := ge_of_not_readsBack neither.2
    (Nat.lt_mul_of_div_lt (Nat.lt_succ_self _) (gridUnit_pos q step))
  -- The two neighbours are one step apart and enclose all that rounds to the number.
  have spread : (4 * m + 2 - lowQuarters m q) * gridScale q step ≤ gridUnit q step := by
    rw [Nat.sub_mul]
    rw [Nat.succ_mul (placeBelow m q step)] at above
    omega
  have whole : 10 ^ 16 * (4 * m + 2 - lowQuarters m q) ≤ 4 * m := by
    refine Nat.le_of_mul_le_mul_right ?_ (gridScale_pos q step)
    rw [Nat.mul_assoc]
    exact (Nat.mul_le_mul_left _ spread).trans fine
  have small : m < 2 ^ 53 := canonical.1
  have first : Nat.pow 2 52 = 2 ^ 52 := rfl
  unfold lowQuarters at whole
  rw [first] at whole
  split at whole <;> omega

theorem zpow_leadingExponent_le {n d : Nat} (hn : 0 < n) (hd : 0 < d) :
    (10 : ℚ) ^ leadingExponent n d ≤ n / d := by
  have denominator : (0 : ℚ) < d := Nat.cast_pos.mpr hd
  rw [le_div_iff₀ denominator]
  unfold leadingExponent
  split
  · have some : 0 < (Text.numeral (n / d)).length := List.length_pos_iff.mpr Nat.toDigits_ne_nil
    obtain ⟨k, length⟩ : ∃ k, (Text.numeral (n / d)).length = k + 1 :=
      ⟨_, (Nat.sub_add_cancel some).symm⟩
    rw [length, Nat.cast_succ, add_sub_cancel_right, zpow_natCast]
    have leading : 10 ^ k ≤ n / d := by
      rcases Nat.eq_zero_or_pos k with rfl | positive
      · rename_i large
        exact Nat.div_pos large hd
      · by_contra less
        have short := (Nat.length_toDigits_le_iff (by decide) positive).mpr (Nat.not_le.mp less)
        exact absurd (length ▸ short : k + 1 ≤ k) (Nat.not_succ_le_self k)
    exact_mod_cast (Nat.mul_le_mul_right d leading).trans (Nat.div_mul_le_self n d)
  · rename_i small
    obtain ⟨k, length⟩ : ∃ k, (Text.numeral ((n + d - 1) / n - 1)).length = k := ⟨_, rfl⟩
    rw [length, zpow_neg, zpow_natCast, inv_mul_le_iff₀ (by positivity)]
    have positive : 0 < k := length ▸ List.length_pos_iff.mpr Nat.toDigits_ne_nil
    have short : (n + d - 1) / n - 1 < 10 ^ k :=
      (Nat.length_toDigits_le_iff (by decide) positive).mp length.le
    have ceiling : d ≤ n * ((n + d - 1) / n) := by
      have split := Nat.div_add_mod (n + d - 1) n
      have rest := Nat.mod_lt (n + d - 1) hn
      omega
    have bound : d ≤ 10 ^ k * n := by
      rw [Nat.mul_comm]
      exact ceiling.trans (Nat.mul_le_mul_left n (by omega))
    exact_mod_cast bound

def leading (m : Nat) (q : Int) : Int :=
  leadingExponent (m * Nat.pow 2 q.toNat) (Nat.pow 2 (-q).toNat)

/-- The shortest digits are found on the first of 17 grids that has a point rounding to the double.
-/
theorem exists_shortest (tie : Tie) (canonical : Canonical m q) (nonzero : m ≠ 0) :
    ∃ (k : Nat) (x : Nat), onGrid tie m q (leading m q - k) = some x ∧
      shortest tie m q = ⟨x, leading m q - k⟩ ∧
      ∀ j < k, onGrid tie m q (leading m q - (j : Nat)) = none := by
  obtain ⟨first, leads⟩ : ∃ first, leading m q = first := ⟨_, rfl⟩
  rw [leads]
  have high : (10 : ℚ) ^ first ≤ m * 2 ^ q := by
    rw [← leads]
    refine (zpow_leadingExponent_le (Nat.mul_pos (Nat.pos_of_ne_zero nonzero)
      (Nat.pow_pos (by decide))) (Nat.pow_pos (by decide))).trans (le_of_eq ?_)
    have two := zpow_mul_pow_toNat (b := 2) two_ne_zero q
    push_cast [Nat.pow_eq]
    rw [← two, ← mul_assoc]
    exact mul_div_cancel_right₀ _ (by positivity)
  have last : ∃ x, onGrid tie m q (first - (16 : Nat)) = some x := by
    refine exists_onGrid canonical ((unit_le_scale_iff _ _).mpr ?_)
    push_cast
    rw [zpow_sub₀ (by norm_num), zpow_sub₀ two_ne_zero]
    norm_num
    linarith
  have found : ((List.range 17).findSome? fun (k : Nat) =>
      (onGrid tie m q (first - k)).map fun x => (⟨x, first - k⟩ : Decimal)).isSome := by
    obtain ⟨x, hx⟩ := last
    refine List.findSome?_isSome_iff.mpr ⟨16, List.mem_range.mpr (by decide), ?_⟩
    rw [hx]
    rfl
  obtain ⟨d, hd⟩ := Option.isSome_iff_exists.mp found
  have same : shortest tie m q = d := by
    unfold leading at leads
    unfold shortest
    rw [leads]
    dsimp only
    rw [hd]
    rfl
  obtain ⟨front, k, back, split, hk, none⟩ := List.findSome?_eq_some_iff.mp hd
  obtain ⟨x, hx, rfl⟩ := Option.map_eq_some_iff.mp hk
  refine ⟨k, x, hx, same, fun j less => Option.map_eq_none_iff.mp (none j ?_)⟩
  have inside : k < 17 := List.mem_range.mp (split ▸ List.mem_append_right front List.mem_cons_self)
  have member : j ∈ front ++ k :: back := split ▸ List.mem_range.mpr (less.trans inside)
  have sorted : (front ++ k :: back).Pairwise (· < ·) := split ▸ List.pairwise_lt_range
  have later := (List.pairwise_cons.mp (List.pairwise_append.mp sorted).2.1).1
  refine (List.mem_append.mp member).resolve_right fun behind => ?_
  rcases List.mem_cons.mp behind with rfl | behind
  · exact Nat.lt_irrefl j less
  · exact Nat.lt_asymm less (later j behind)

/-- The shortest digits round to the double. -/
theorem rounds_shortest (tie : Tie) (canonical : Canonical m q) (nonzero : m ≠ 0) :
    Rounds m q (shortest tie m q).value := by
  obtain ⟨k, x, hx, same, -⟩ := exists_shortest tie canonical nonzero
  rw [same]
  exact rounds_of_readsBack (readsBack_of_onGrid hx)

theorem shortest_digits_ne_zero (tie : Tie) (canonical : Canonical m q) (nonzero : m ≠ 0) :
    (shortest tie m q).digits ≠ 0 := fun none => by
  have low := (rounds_shortest tie canonical nonzero).low
  rw [value, none, Nat.cast_zero, zero_mul] at low
  refine absurd low (not_le.mpr (mul_pos (Nat.cast_pos.mpr ?_) (by positivity)))
  unfold lowQuarters
  split <;> omega

end Decimal
end Schemata

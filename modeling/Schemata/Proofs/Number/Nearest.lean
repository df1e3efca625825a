import Schemata.Proofs.Number.Shortest

/-! Rounding of quotients. A positive quotient is made the number that it rounds to, or an infinity where the
format ends before that number; so what lies below a number of the format is finite. -/

namespace Schemata

theorem roundHalfEven_strict {n d : Nat} (hd : 0 < d) (odd : roundHalfEven n d % 2 = 1) :
    2 * n < 2 * (d * roundHalfEven n d) + d ∧ 2 * (d * roundHalfEven n d) < 2 * n + d := by
  have hn := Nat.div_add_mod n d
  have hr := Nat.mod_lt n hd
  unfold roundHalfEven at odd ⊢
  dsimp only at odd ⊢
  split at odd
  · rw [if_pos ‹_›]
    omega
  · split at odd
    · rw [if_neg ‹_›, if_pos ‹_›, Nat.mul_add]
      omega
    · split at odd <;> omega

namespace Double

variable {m k n d : Nat} {q : Int} {i : Int} {x : ℚ} {s : Bool}

/-- Within half a unit of the number, and strictly within if odd. -/
structure Within (k : Nat) (q : Int) (x : ℚ) : Prop where
  low : (4 * k - 2 : ℚ) * 2 ^ (q - 2) ≤ x
  high : x ≤ (4 * k + 2) * 2 ^ (q - 2)
  strict : k % 2 = 1 → (4 * k - 2 : ℚ) * 2 ^ (q - 2) < x ∧ x < (4 * k + 2) * 2 ^ (q - 2)

def wholeUnits (n d : Nat) (q : Int) : Nat :=
  roundHalfEven (n * Nat.pow 2 (-q).toNat) (d * Nat.pow 2 q.toNat)

theorem zpow_eq_quarters (q : Int) : (2 : ℚ) ^ q = 4 * 2 ^ (q - 2) := by
  rw [zpow_sub₀ two_ne_zero]
  norm_num
  ring

theorem within_wholeUnits (n : Nat) (hd : 0 < d) (q : Int) : Within (wholeUnits n d q) q (n / d) := by
  obtain ⟨up, hup⟩ : ∃ a, Nat.pow 2 (-q).toNat = a := ⟨_, rfl⟩
  obtain ⟨down, hdown⟩ : ∃ a, Nat.pow 2 q.toNat = a := ⟨_, rfl⟩
  have scaled := Decimal.zpow_mul_pow_toNat (b := 2) two_ne_zero q
  have up_pos : (0 : ℚ) < up := by
    rw [← hup]
    exact Nat.cast_pos.mpr (Nat.two_pow_pos _)
  have down_pos : 0 < d * down := Nat.mul_pos hd (hdown ▸ Nat.two_pow_pos _)
  have d_pos : (0 : ℚ) < d := Nat.cast_pos.mpr hd
  have unit : (down : ℚ) = 4 * 2 ^ (q - 2) * up := by
    rw [← zpow_eq_quarters, ← hup, ← hdown, Nat.pow_eq, Nat.pow_eq]
    push_cast
    exact scaled.symm
  have high := roundHalfEven_le (n * up) (d * down)
  have low := le_roundHalfEven (n * up) down_pos
  have strict := roundHalfEven_strict (n := n * up) down_pos
  unfold wholeUnits
  rw [hup, hdown]
  generalize roundHalfEven (n * up) (d * down) = k at high low strict ⊢
  rw [← Nat.cast_le (α := ℚ)] at high low
  rw [← Nat.cast_lt (α := ℚ), ← Nat.cast_lt (α := ℚ)] at strict
  push_cast [unit] at high low strict
  have positive : (0 : ℚ) < d * up := mul_pos d_pos up_pos
  refine ⟨?_, ?_, fun odd => ⟨?_, ?_⟩⟩
  · rw [le_div_iff₀ d_pos]
    exact le_of_mul_le_mul_right (by linarith) up_pos
  · rw [div_le_iff₀ d_pos]
    exact le_of_mul_le_mul_right (by linarith) up_pos
  · rw [lt_div_iff₀ d_pos]
    exact lt_of_mul_lt_mul_right (by linarith [(strict odd).2]) up_pos.le
  · rw [div_lt_iff₀ d_pos]
    exact lt_of_mul_lt_mul_right (by linarith [(strict odd).1]) up_pos.le

theorem pow_le_quotient_iff (hd : 0 < d) (e : Int) :
    d * Nat.pow 2 e.toNat ≤ n * Nat.pow 2 (-e).toNat ↔ (2 ^ e : ℚ) ≤ n / d := by
  have scaled := Decimal.zpow_mul_pow_toNat (b := 2) two_ne_zero e
  have positive : (0 : ℚ) < 2 ^ (-e).toNat := by positivity
  rw [le_div_iff₀ (Nat.cast_pos.mpr hd), ← mul_le_mul_iff_left₀ positive, mul_right_comm, scaled,
    ← Nat.cast_le (α := ℚ)]
  push_cast [Nat.pow_eq]
  rw [mul_comm (d : ℚ)]

theorem quotient_log2 (hn : n ≠ 0) (hd : 0 < d) :
    (2 ^ ((n.log2 : Int) - d.log2) : ℚ) < 2 * (n / d) ∧ (n / d : ℚ) < 2 * 2 ^ ((n.log2 : Int) - d.log2) := by
  have d_pos : (0 : ℚ) < d := Nat.cast_pos.mpr hd
  obtain ⟨e, he⟩ : ∃ e : Int, (n.log2 : Int) - d.log2 = e := ⟨_, rfl⟩
  have positive : (0 : ℚ) < 2 ^ e := by positivity
  have log : (2 ^ n.log2 : ℚ) = 2 ^ e * 2 ^ d.log2 := by
    rw [← zpow_natCast, ← zpow_natCast, ← zpow_add₀ two_ne_zero]
    congr 1
    omega
  have n_low : (2 ^ n.log2 : ℚ) ≤ n := by exact_mod_cast Nat.log2_self_le hn
  have n_high : (n : ℚ) < 2 ^ (n.log2 + 1) := by exact_mod_cast (Nat.lt_log2_self : n < 2 ^ (n.log2 + 1))
  have d_low : (2 ^ d.log2 : ℚ) ≤ d := by exact_mod_cast Nat.log2_self_le hd.ne'
  have d_high : (d : ℚ) < 2 ^ (d.log2 + 1) := by exact_mod_cast (Nat.lt_log2_self : d < 2 ^ (d.log2 + 1))
  rw [pow_succ] at n_high d_high
  rw [he]
  constructor
  · rw [mul_div_assoc', lt_div_iff₀ d_pos]
    have := mul_lt_mul_of_pos_left d_high positive
    linarith
  · rw [div_lt_iff₀ d_pos]
    have := mul_le_mul_of_nonneg_left d_low positive.le
    linarith

/-- From its last place on, a positive quotient has 53 bits. -/
theorem lastPlace_spec (hn : n ≠ 0) (hd : 0 < d) :
    2 ^ 52 * 2 ^ lastPlace n d ≤ (n / d : ℚ) ∧ (n / d : ℚ) < 2 ^ 53 * 2 ^ lastPlace n d := by
  obtain ⟨below, above⟩ := quotient_log2 hn hd
  obtain ⟨e, he⟩ : ∃ e : Int, (n.log2 : Int) - d.log2 = e := ⟨_, rfl⟩
  rw [he] at below above
  have places (k : Nat) : (2 : ℚ) ^ k * 2 ^ (e - k) = 2 ^ e := by
    rw [← zpow_natCast, ← zpow_add₀ two_ne_zero]
    congr 1
    omega
  have low := places 52
  have high := places 53
  have next : (2 : ℚ) ^ (e - 52) = 2 * 2 ^ (e - 53) := by
    rw [← zpow_one_add₀ two_ne_zero]
    congr 1
    omega
  push_cast at low high
  unfold lastPlace
  dsimp only
  rw [he]
  split
  · rename_i leading
    have leading := (pow_le_quotient_iff hd e).mp leading
    exact ⟨by linarith, by linarith⟩
  · rename_i short
    have short := not_le.mp (mt (pow_le_quotient_iff hd e).mpr short)
    exact ⟨by linarith, by linarith⟩

theorem lowQuarters_first (above : -1074 < q) : lowQuarters (2 ^ 52) q = 2 ^ 54 - 1 := by
  have first : (2 ^ 52 : Nat) = Nat.pow 2 52 := rfl
  unfold lowQuarters
  rw [if_pos ⟨first, above⟩]
  norm_num

theorem Within.rounds_carried (within : Within (2 ^ 53) q x) (low : -1074 ≤ q) : Rounds (2 ^ 52) (q + 1) x := by
  obtain ⟨below, above, -⟩ := within
  have twice : (2 : ℚ) ^ (q + 1 - 2) = 2 * 2 ^ (q - 2) := by
    rw [add_sub_right_comm, zpow_add_one₀ two_ne_zero, mul_comm]
  push_cast at below above
  refine ⟨?_, ?_, fun odd => absurd odd (by norm_num)⟩
  · rw [lowQuarters_first (by omega), twice]
    push_cast
    linarith
  · rw [twice]
    push_cast
    linarith

theorem Within.rounds_first (within : Within (2 ^ 52) q x) (low : -1074 < q) (leads : 2 ^ 52 * 2 ^ q ≤ x) :
    Rounds (2 ^ 52) q x := by
  obtain ⟨-, above, -⟩ := within
  have quarter := zpow_eq_quarters q
  have positive : (0 : ℚ) < 2 ^ (q - 2) := by positivity
  push_cast at above
  refine ⟨?_, ?_, fun odd => absurd odd (by norm_num)⟩
  · rw [lowQuarters_first low]
    push_cast
    linarith
  · push_cast
    linarith

theorem Within.rounds_others (within : Within k q x) (nonneg : 0 ≤ x)
    (other : ¬(k = Nat.pow 2 52 ∧ -1074 < q)) : Rounds k q x := by
  obtain ⟨below, above, strict⟩ := within
  have quarters : lowQuarters k q = 4 * k - 2 := if_neg other
  have high : ((4 * k + 2 : Nat) : ℚ) = 4 * k + 2 := by
    push_cast
    rfl
  rcases Nat.eq_zero_or_pos k with rfl | some
  · refine ⟨?_, high ▸ above, fun odd => nomatch odd⟩
    rw [quarters]
    simpa using nonneg
  · have low : ((4 * k - 2 : Nat) : ℚ) = 4 * k - 2 := by
      rw [Nat.cast_sub (by omega)]
      push_cast
      rfl
    rw [← low, ← quarters] at below strict
    rw [← high] at above strict
    exact ⟨below, above, strict⟩

theorem wholeUnits_le (hn : n ≠ 0) (hd : 0 < d) (keeps : lastPlace n d ≤ q) : wholeUnits n d q ≤ 2 ^ 53 := by
  have ends := (lastPlace_spec hn hd).2
  have within := within_wholeUnits n hd q
  generalize wholeUnits n d q = k at within ⊢
  have quarter := zpow_eq_quarters q
  have positive : (0 : ℚ) < 2 ^ (q - 2) := by positivity
  have widen : (2 : ℚ) ^ lastPlace n d ≤ 2 ^ q := zpow_le_zpow_right₀ one_le_two keeps
  have bound : (4 * k - 2 : ℚ) < 2 ^ 55 := by
    refine lt_of_mul_lt_mul_right ?_ positive.le
    linarith [within.low]
  have bound : 4 * k < 2 ^ 55 + 2 := by exact_mod_cast (by linarith : (4 * k : ℚ) < 2 ^ 55 + 2)
  omega

theorem first_le_wholeUnits (hn : n ≠ 0) (hd : 0 < d) : 2 ^ 52 ≤ wholeUnits n d (lastPlace n d) := by
  have leads := (lastPlace_spec hn hd).1
  have within := within_wholeUnits n hd (lastPlace n d)
  generalize lastPlace n d = q at leads within ⊢
  generalize wholeUnits n d q = k at within ⊢
  have quarter := zpow_eq_quarters q
  have positive : (0 : ℚ) < 2 ^ (q - 2) := by positivity
  have bound : (2 ^ 54 : ℚ) ≤ 4 * k + 2 := by
    refine le_of_mul_le_mul_right ?_ positive
    linarith [within.high]
  have bound : 2 ^ 54 ≤ 4 * k + 2 := by exact_mod_cast bound
  omega

/-- A positive quotient is rounded to nearest even, or overflows to infinity. -/
theorem exists_ofRatio (s : Bool) (hn : n ≠ 0) (hd : 0 < d) :
    ∃ m q, ofRatio s n d = ofParts s m q ∧ Normal m q ∧ Rounds m q (n / d) := by
  obtain ⟨q, hq⟩ : ∃ q, max (lastPlace n d) (-1074) = q := ⟨_, rfl⟩
  have keeps : lastPlace n d ≤ q := hq ▸ le_max_left _ _
  have low : -1074 ≤ q := hq ▸ le_max_right _ _
  have within := within_wholeUnits n hd q
  have high := wholeUnits_le hn hd keeps
  have first (above : -1074 < q) : 2 ^ 52 * 2 ^ q ≤ (n / d : ℚ) ∧ 2 ^ 52 ≤ wholeUnits n d q := by
    have same : lastPlace n d = q := by omega
    exact same ▸ ⟨(lastPlace_spec hn hd).1, first_le_wholeUnits hn hd⟩
  obtain ⟨k, hk⟩ : ∃ k, wholeUnits n d q = k := ⟨_, rfl⟩
  rw [hk] at within high first
  have shape : ofRatio s n d = if k = Nat.pow 2 53 then ofParts s (Nat.pow 2 52) (q + 1) else ofParts s k q := by
    unfold wholeUnits at hk
    unfold ofRatio
    rw [if_neg hn, hq]
    dsimp only
    rw [hk]
  rw [shape]
  split
  · rename_i carried
    have carried : k = 2 ^ 53 := carried
    rw [carried] at within
    exact ⟨_, _, rfl, ⟨Nat.pow_lt_pow_right one_lt_two (by decide), by omega, .inr (Nat.le_refl _)⟩,
      within.rounds_carried low⟩
  · rename_i kept
    have kept : k ≠ 2 ^ 53 := kept
    refine ⟨_, _, rfl, ⟨by omega, low, ?_⟩, ?_⟩
    · rcases eq_or_lt_of_le low with least | above
      · exact .inl least.symm
      · exact .inr (first above).2
    · by_cases here : k = Nat.pow 2 52 ∧ -1074 < q
      · obtain ⟨rfl, above⟩ := here
        exact within.rounds_first above (first above).1
      · exact within.rounds_others (by positivity) here

theorem ofRatio_of_rounds (s : Bool) (hn : n ≠ 0) (hd : 0 < d) (canonical : Canonical m q)
    (rounds : Rounds m q (n / d)) : ofRatio s n d = finite s m q canonical := by
  obtain ⟨m', q', shape, normal, rounded⟩ := exists_ofRatio s hn hd
  obtain ⟨rfl, rfl⟩ := rounded.unique rounds normal canonical.normal
  rw [shape, ofParts, dif_pos canonical]

theorem exists_ofRatio_of_le (s : Bool) (hn : n ≠ 0) (hd : 0 < d) (canonical : Canonical m q)
    (le : (n / d : ℚ) ≤ m * 2 ^ q) :
    ∃ m' q', ∃ canonical' : Canonical m' q', ofRatio s n d = finite s m' q' canonical' ∧
      Rounds m' q' (n / d) ∧ q' ≤ q := by
  obtain ⟨m', q', shape, normal, rounded⟩ := exists_ofRatio s hn hd
  have low := (rounds_self m q).exponent_le rounded canonical.normal normal le
  have canonical' := normal.canonical (low.trans canonical.2.2.1)
  refine ⟨m', q', canonical', ?_, rounded, low⟩
  rw [shape, ofParts, dif_pos canonical']

theorem ofInt_of_rounds (nonzero : i ≠ 0) (canonical : Canonical m q) (rounds : Rounds m q i.natAbs) :
    ofInt i = finite (decide (i < 0)) m q canonical := by
  refine ofRatio_of_rounds _ (Int.natAbs_ne_zero.mpr nonzero) Nat.one_pos canonical ?_
  rwa [Nat.cast_one, div_one]

/-! Products and quotients of finite numbers. -/

variable {m' M : Nat} {q' Q : Int} {t : Bool}

theorem cast_scaled (a b : Nat) (e : Int) :
    ((a * Nat.pow 2 e.toNat : Nat) : ℚ) / ((b * Nat.pow 2 (-e).toNat : Nat) : ℚ) = a / b * 2 ^ e := by
  have scaled := Decimal.zpow_mul_pow_toNat (b := 2) two_ne_zero e
  have positive : (0 : ℚ) < 2 ^ (-e).toNat := by positivity
  push_cast [Nat.pow_eq]
  rw [← scaled, mul_div_mul_comm, mul_div_assoc, div_self positive.ne', mul_one]

theorem isFinite_ofRatio_of_le (s : Bool) (hd : 0 < d) (canonical : Canonical M Q)
    (le : (n / d : ℚ) ≤ M * 2 ^ Q) : (ofRatio s n d).isFinite = true := by
  rcases Nat.eq_zero_or_pos n with rfl | some
  · rfl
  · obtain ⟨m', q', _, shape, -⟩ := exists_ofRatio_of_le s some.ne' hd canonical le
    rw [shape]
    rfl

theorem isFinite_mul_of_le {c : Canonical m q} {c' : Canonical m' q'} (canonical : Canonical M Q)
    (le : (m * m' : ℚ) * 2 ^ (q + q') ≤ M * 2 ^ Q) :
    ((finite s m q c).mul (finite t m' q' c')).isFinite = true := by
  have scaled := cast_scaled (m * m') 1 (q + q')
  rw [Nat.one_mul, Nat.cast_one, div_one, Nat.cast_mul m m'] at scaled
  exact isFinite_ofRatio_of_le _ (Nat.two_pow_pos _) canonical (scaled.trans_le le)

theorem isFinite_div_of_le {c : Canonical m q} {c' : Canonical m' q'} (le : (1 : ℚ) ≤ m' * 2 ^ q') :
    ((finite s m q c).div (finite t m' q' c')).isFinite = true := by
  have some : m' ≠ 0 := by
    rintro rfl
    rw [Nat.cast_zero, zero_mul] at le
    exact absurd le (by norm_num)
  have divisor : (0 : ℚ) < m' := Nat.cast_pos.mpr (Nat.pos_of_ne_zero some)
  have positive : (0 : ℚ) < 2 ^ q' := by positivity
  refine (congrArg isFinite (if_neg some)).trans ?_
  refine isFinite_ofRatio_of_le _ (Nat.mul_pos (Nat.pos_of_ne_zero some) (Nat.two_pow_pos _)) c ?_
  rw [cast_scaled m m' (q - q'), zpow_sub₀ two_ne_zero, ← mul_div_mul_comm]
  exact div_le_self (by positivity) le

theorem exists_ofInt_of_le (hn : n ≠ 0) (high : n ≤ 2 ^ 64) :
    ∃ m q, ∃ canonical : Canonical m q, ofInt n = finite false m q canonical ∧ q ≤ 12 := by
  have canonical : Canonical (Nat.pow 2 52) 12 := by decide
  have le : ((n : Nat) / (1 : Nat) : ℚ) ≤ (Nat.pow 2 52 : Nat) * 2 ^ (12 : Int) := by
    have high : (n : ℚ) ≤ 2 ^ 64 := by exact_mod_cast high
    rw [Nat.cast_one, div_one]
    refine high.trans (le_of_eq ?_)
    norm_num [Nat.pow_eq]
  obtain ⟨m, q, canonical', shape, -, low⟩ := exists_ofRatio_of_le false hn Nat.one_pos canonical le
  refine ⟨m, q, canonical', ?_, low⟩
  rw [← shape]
  rfl

end Double
end Schemata

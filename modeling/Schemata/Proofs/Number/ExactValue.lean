import Schemata.Proofs.Number.Order

/-! The exact values of numbers. A finite number is one rational number, in whichever form it is held, and
finite numbers are ordered as their values are. An integer that is compared with a fraction is rounded
first; but a fraction lies below `2 ^ 53`, and up to there no integer is changed by it. -/

namespace Schemata

namespace Double

variable {x : Double} {i : Int} {k : Nat}

def value : Double → ℚ
  | finite s m q _ => if s then -(m * 2 ^ q) else m * 2 ^ q
  | _ => 0

theorem magnitudeUnits_zero (m : Nat) : magnitudeUnits m 0 = m * unitsOfOne :=
  SizeIs.units (k := m) rfl (by decide)

theorem cast_unitsOfOne : (unitsOfOne : ℚ) = 2 ^ (1074 : Int) := by
  rw [unitsOfOne, cast_magnitudeUnits (by decide), Nat.cast_one, zpow_zero, one_mul, one_mul]

theorem cast_place (finite : x.isFinite = true) : (x.place : ℚ) = x.value * unitsOfOne := by
  rcases x with _ | _ | ⟨s, m, q, canonical⟩
  · cases finite
  · cases finite
  · have magnitude : (magnitudeUnits m q : ℚ) = m * 2 ^ q * unitsOfOne := by
      rw [cast_magnitudeUnits canonical.2.1, cast_unitsOfOne]
    cases s
    · exact magnitude
    · change ((-(magnitudeUnits m q : Int) : Int) : ℚ) = -(m * 2 ^ q) * unitsOfOne
      rw [Int.cast_neg, Int.cast_natCast, magnitude, neg_mul]

/-! Small integers are not rounded. -/

theorem roundedUnits_of_dvd (divides : 2 ^ (k.log2 - 52) ∣ k) : roundedUnits k = k * unitsOfOne := by
  obtain ⟨c, hc⟩ := divides
  have scaled : k * 2 ^ (52 - k.log2) = 2 ^ (k.log2 - 52) * (c * 2 ^ (52 - k.log2)) := by
    rw [← Nat.mul_assoc, ← hc]
  have exactly : significand k = c * 2 ^ (52 - k.log2) := by
    rw [significand, scaled]
    exact roundHalfEven_mul_left _ (Nat.two_pow_pos _)
  have size : SizeIs (significand k) (k.log2 - 52) k := by
    have above : (-(k.log2 - 52 : Int)).toNat = 52 - k.log2 := by omega
    have below : (k.log2 - 52 : Int).toNat = k.log2 - 52 := by omega
    rw [SizeIs, above, below, scaled, exactly, Nat.mul_comm]
  exact size.units (by omega)

theorem roundedUnits_of_le (small : k ≤ 2 ^ 53) : roundedUnits k = k * unitsOfOne := by
  refine roundedUnits_of_dvd ?_
  rcases Nat.eq_or_lt_of_le small with rfl | less
  · rw [Nat.log2_two_pow]
    decide
  · rcases Nat.eq_zero_or_pos k with rfl | positive
    · exact dvd_zero _
    · have places : k.log2 < 53 := (Nat.log2_lt positive.ne').mpr less
      have whole : k.log2 - 52 = 0 := by omega
      rw [whole]
      exact one_dvd k

theorem place_ofInt_of_le (small : i.natAbs ≤ 2 ^ 53) : (ofInt i).place = i * unitsOfOne := by
  have within : i.natAbs * unitsOfOne ≤ limit :=
    calc
      i.natAbs * unitsOfOne ≤ 2 ^ 53 * unitsOfOne := Nat.mul_le_mul_right _ small
      _ = magnitudeUnits (2 ^ 53) 0 := (magnitudeUnits_zero _).symm
      _ ≤ limit := magnitudeUnits_mono (Nat.le_refl _) (by decide)
  rw [place_ofInt, roundedUnits_of_le small, Nat.min_eq_left within, signed, Nat.cast_mul]
  split
  · rename_i negative
    rw [Int.ofNat_natAbs_of_nonpos (of_decide_eq_true negative).le, neg_mul, neg_neg]
  · rename_i nonnegative
    rw [Int.natAbs_of_nonneg (Int.not_lt.mp (mt decide_eq_true nonnegative))]

theorem natAbs_place_lt (finite : x.isFinite = true) (fraction : x.toInt? = none) :
    x.place.natAbs < 2 ^ 53 * unitsOfOne := by
  rcases x with _ | _ | ⟨s, m, q, canonical⟩
  · cases finite
  · cases finite
  · have low : q < 0 := by
      by_contra whole
      have integer : (Double.finite s m q canonical).toInt?.isSome :=
        isSome_toInt?_iff.mpr (.inl (Int.not_lt.mp whole))
      rw [fraction] at integer
      cases integer
    calc
      (place (.finite s m q canonical)).natAbs = magnitudeUnits m q := natAbs_signedUnits s m q
      _ < magnitudeUnits (2 ^ 53) 0 := magnitudeUnits_lt canonical.1 low.le
      _ = 2 ^ 53 * unitsOfOne := magnitudeUnits_zero _

def Near (p q : Int) : Prop :=
  p = q ∨ (2 ^ 53 * unitsOfOne ≤ p ∧ 2 ^ 53 * unitsOfOne ≤ q) ∨
    (p ≤ -(2 ^ 53 * unitsOfOne) ∧ q ≤ -(2 ^ 53 * unitsOfOne))

theorem near_ofInt (i : Int) : Near (ofInt i).place (i * unitsOfOne) := by
  have units : (0 : Int) ≤ unitsOfOne := Int.natCast_nonneg _
  rcases le_total i.natAbs (2 ^ 53) with small | large
  · exact .inl (place_ofInt_of_le small)
  · have edge {j : Int} (small : j.natAbs ≤ 2 ^ 53) := place_ofInt_of_le small
    rcases Int.natAbs_eq i with positive | negative
    · have le : 2 ^ 53 ≤ i := by omega
      refine .inr (.inl ⟨?_, Int.mul_le_mul_of_nonneg_right le units⟩)
      rw [← edge (j := 2 ^ 53) (by decide)]
      exact place_ofInt_mono le
    · have le : i ≤ -2 ^ 53 := by omega
      rw [Near, ← Int.neg_mul]
      refine .inr (.inr ⟨?_, Int.mul_le_mul_of_nonneg_right le units⟩)
      rw [← edge (j := -2 ^ 53) (by decide)]
      exact place_ofInt_mono le

theorem Near.compare_eq {p q r : Int} (near : Near p q) (small : r.natAbs < 2 ^ 53 * unitsOfOne) :
    compare r p = compare r q ∧ compare p r = compare q r := by
  rcases near with same | ⟨above, above'⟩ | ⟨below, below'⟩
  · rw [same]
    exact ⟨rfl, rfl⟩
  · have less : r < p ∧ r < q := by omega
    rw [compare_lt_iff_lt.mpr less.1, compare_lt_iff_lt.mpr less.2, compare_gt_iff_gt.mpr less.1,
      compare_gt_iff_gt.mpr less.2]
    exact ⟨rfl, rfl⟩
  · have more : p < r ∧ q < r := by omega
    rw [compare_gt_iff_gt.mpr more.1, compare_gt_iff_gt.mpr more.2, compare_lt_iff_lt.mpr more.1,
      compare_lt_iff_lt.mpr more.2]
    exact ⟨rfl, rfl⟩

end Double

namespace Number

variable {a b : Number} {i j : Int}

def value : Number → ℚ
  | int v => v.toInt
  | uint v => v.toNat
  | float x => x.value
  | big i => i

theorem isFinite_of_toInt? (h : a.toInt? = some i) : a.IsFinite := by
  rintro x rfl
  obtain ⟨s, m, q, canonical, rfl, -⟩ := Double.stands_of_toInt? h
  rfl

theorem value_of_toInt? (h : a.toInt? = some i) : a.value = i := by
  cases a with
  | float x =>
    have units : (Double.unitsOfOne : ℚ) ≠ 0 := Nat.cast_ne_zero.mpr Double.unitsOfOne_pos.ne'
    have place := Double.cast_place (isFinite_of_toInt? h x rfl)
    rw [Double.place_of_stands (Double.stands_of_toInt? h), Int.cast_mul, Int.cast_natCast] at place
    exact (mul_right_cancel₀ units place).symm
  | int v => exact congrArg Int.cast (Option.some.inj h)
  | uint v => exact (Int.cast_natCast v.toNat).symm.trans (congrArg Int.cast (Option.some.inj h))
  | big i => exact congrArg Int.cast (Option.some.inj h)

def units (a : Number) : Int :=
  match a.toInt? with
  | some i => i * Double.unitsOfOne
  | none => a.place

theorem units_of_toInt? (h : a.toInt? = some i) : a.units = i * Double.unitsOfOne := by
  rw [units, h]

theorem units_of_fraction (h : a.toInt? = none) : a.units = a.place := by
  rw [units, h]

theorem cast_units (finite : a.IsFinite) : (a.units : ℚ) = a.value * Double.unitsOfOne := by
  rcases h : a.toInt? with _ | i
  · obtain ⟨x, rfl⟩ := exists_float_of_toInt? h
    rw [units_of_fraction h]
    exact Double.cast_place (finite x rfl)
  · rw [units_of_toInt? h, value_of_toInt? h, Int.cast_mul, Int.cast_natCast]

theorem near_units (a : Number) : Double.Near a.place a.units := by
  rcases h : a.toInt? with _ | i
  · exact .inl (units_of_fraction h).symm
  · rw [place_of_toInt? h, units_of_toInt? h]
    exact Double.near_ofInt i

theorem compare_place (finite : a.IsFinite) (fraction : a.toInt? = none) (b : Number) :
    compare a.place b.place = compare a.units b.units ∧
      compare b.place a.place = compare b.units a.units := by
  obtain ⟨x, rfl⟩ := exists_float_of_toInt? fraction
  rw [units_of_fraction fraction]
  exact (near_units b).compare_eq (Double.natAbs_place_lt (finite x rfl) fraction)

theorem compare_mul_unitsOfOne (i j : Int) :
    compare (i * Double.unitsOfOne) (j * Double.unitsOfOne) = compare i j := by
  have positive : (0 : Int) < Double.unitsOfOne := Int.natCast_pos.mpr Double.unitsOfOne_pos
  rw [← cmp_eq_compare, ← cmp_eq_compare, cmp_mul_pos_right positive]

theorem compare?_eq_units (ha : a.IsFinite) (hb : b.IsFinite) :
    a.compare? b = some (compare a.units b.units) := by
  rcases fraction_or_integers a b with fraction | ⟨i, j, hi, hj⟩
  · rw [compare?_toDouble fraction,
      Double.compare?_eq (toDouble_ne_nan ha.isNaN_eq) (toDouble_ne_nan hb.isNaN_eq)]
    refine congrArg some ?_
    rcases fraction with fraction | fraction
    · exact (compare_place ha fraction b).1
    · exact (compare_place hb fraction a).2
  · rw [compare?_of_toInt? hi hj, units_of_toInt? hi, units_of_toInt? hj, compare_mul_unitsOfOne]

theorem compare?_value (ha : a.IsFinite) (hb : b.IsFinite) :
    a.compare? b = some (compare a.value b.value) := by
  have positive : (0 : ℚ) < Double.unitsOfOne := Nat.cast_pos.mpr Double.unitsOfOne_pos
  have same : compare a.units b.units = compare a.value b.value :=
    calc
      compare a.units b.units = cmp (a.units : ℚ) b.units := by
        rw [Int.cast_strictMono.cmp_map_eq, cmp_eq_compare]
      _ = cmp (a.value * Double.unitsOfOne) (b.value * Double.unitsOfOne) := by
        rw [cast_units ha, cast_units hb]
      _ = compare a.value b.value := by
        rw [cmp_mul_pos_right positive, cmp_eq_compare]
  rw [compare?_eq_units ha hb, same]

theorem equal_iff_value (ha : a.IsFinite) (hb : b.IsFinite) : a.equal b = true ↔ a.value = b.value := by
  rw [equal, compare?_value ha hb, beq_iff_eq, Option.some_inj, compare_eq_iff_eq]

/-- A number that is an integer, in whichever form it is held. -/
def Stands (a : Number) (i : Int) : Prop := a.IsFinite ∧ a.value = i

theorem stands_iff : a.Stands i ↔ a.toInt? = some i := by
  refine ⟨fun ⟨finite, value⟩ => ?_, fun h => ⟨isFinite_of_toInt? h, value_of_toInt? h⟩⟩
  have whole : (big i).IsFinite := fun _ h => nomatch h
  rcases eq_or_toInt?_of_equal ((equal_iff_value finite whole).mpr value) finite whole with
    rfl | ⟨j, hj, same⟩
  · rfl
  · obtain rfl := Option.some.inj same
    exact hj

theorem Stands.unique (h : a.Stands i) (h' : a.Stands j) : i = j :=
  Int.cast_injective (h.2.symm.trans h'.2)

theorem Stands.forall_iff (h : a.Stands i) {P : Int → Prop} :
    (∀ b j, some a = some b → b.Stands j → P j) ↔ P i := by
  refine ⟨fun each => each a i rfl h, ?_⟩
  rintro here _ j ⟨⟩ h'
  rwa [← h.unique h']

theorem le_iff_value (ha : a.IsFinite) (hb : b.IsFinite) : a.le b = true ↔ a.value ≤ b.value := by
  rw [le, compare?_value ha hb]
  rcases lt_trichotomy a.value b.value with less | same | more
  · rw [compare_lt_iff_lt.mpr less]
    exact iff_of_true rfl less.le
  · rw [compare_eq_iff_eq.mpr same]
    exact iff_of_true rfl same.le
  · rw [compare_gt_iff_gt.mpr more]
    exact iff_of_false Bool.false_ne_true more.not_ge

end Number

def FiniteNumber : Type := { n : Number // n.IsFinite }

namespace FiniteNumber

/-- Finite numbers compare as the rational numbers they are, across all forms: a total order, in
which equality is an equivalence. -/
theorem compare?_exact :
    (∀ a b : FiniteNumber, a.1.compare? b.1 = some (compare a.1.value b.1.value) ∧
      (a.1.equal b.1 = true ↔ a.1.value = b.1.value)) ∧
    (Equivalence fun a b : FiniteNumber => a.1.equal b.1 = true) ∧
    (∀ a b : FiniteNumber, a.1.le b.1 = true ∨ b.1.le a.1 = true) ∧
    (∀ a b c : FiniteNumber, a.1.le b.1 = true → b.1.le c.1 = true → a.1.le c.1 = true) ∧
    (∀ a b : FiniteNumber, a.1.le b.1 = true → b.1.le a.1 = true → a.1.equal b.1 = true) := by
  have equal (a b : FiniteNumber) := Number.equal_iff_value a.2 b.2
  have le (a b : FiniteNumber) := Number.le_iff_value a.2 b.2
  refine ⟨fun a b => ⟨Number.compare?_value a.2 b.2, equal a b⟩, ⟨?_, ?_, ?_⟩, ?_, ?_, ?_⟩
  · exact fun a => (equal a a).mpr rfl
  · exact fun {a b} same => (equal b a).mpr ((equal a b).mp same).symm
  · exact fun {a b c} hab hbc => (equal a c).mpr (((equal a b).mp hab).trans ((equal b c).mp hbc))
  · intro a b
    rw [le, le]
    exact le_total _ _
  · intro a b c hab hbc
    rw [le] at hab hbc ⊢
    exact hab.trans hbc
  · intro a b hab hba
    rw [le] at hab hba
    exact (equal a b).mpr (hab.antisymm hba)

def half : FiniteNumber := ⟨.float (.finite false (2 ^ 52) (-53) (by decide)), by rintro _ ⟨⟩; rfl⟩

def whole : FiniteNumber := ⟨.float (.finite false (2 ^ 52) (-52) (by decide)), by rintro _ ⟨⟩; rfl⟩

def one : FiniteNumber := ⟨.big 1, fun _ h => nomatch h⟩

def googolth : FiniteNumber := ⟨.big (10 ^ 400), fun _ h => nomatch h⟩

theorem compare?_exact_of_half :
    googolth.1.toDouble = .infinity false ∧ half.1.compare? googolth.1 = some .lt ∧
      one.1.equal whole.1 = true ∧ half.1.le googolth.1 = true := by
  obtain ⟨exactly, -, -, trans, -⟩ := compare?_exact
  have compared {a b : FiniteNumber} (less : a.1.value < b.1.value) : a.1.compare? b.1 = some .lt := by
    rw [(exactly a b).1, compare_lt_iff_lt.mpr less]
  have le {a b : FiniteNumber} (less : a.1.value < b.1.value) : a.1.le b.1 = true := by
    rw [Number.le, compared less]
  have value_half : half.1.value = 1 / 2 := by
    change (((2 ^ 52 : Nat) : ℚ) * 2 ^ (-53 : Int)) = 1 / 2
    norm_num [zpow_neg]
  have value_whole : whole.1.value = 1 := by
    change (((2 ^ 52 : Nat) : ℚ) * 2 ^ (-52 : Int)) = 1
    norm_num [zpow_neg]
  have value_one : one.1.value = 1 := Int.cast_one
  have value_googolth : googolth.1.value = 10 ^ 400 := Int.cast_pow 10 400
  have below : half.1.value < one.1.value := by
    rw [value_half, value_one]
    norm_num
  have above : one.1.value < googolth.1.value := by
    rw [value_one, value_googolth]
    exact one_lt_pow₀ (by norm_num) (by decide)
  refine ⟨by decide +kernel, compared (below.trans above), (exactly one whole).2.mpr ?_, ?_⟩
  · rw [value_one, value_whole]
  · exact trans half one googolth (le below) (le above)

end FiniteNumber

end Schemata

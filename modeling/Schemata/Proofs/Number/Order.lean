import Schemata.Proofs.Number.Sameness

/-! The order of numbers. Two integers are compared as they are, and anything else after rounding to the
format; so the numbers do not lie on one line. But rounding keeps the order of integers, so whoever goes
through several numbers and gives up one only for a lesser one ends with one that is below all of them. -/

namespace Schemata

theorem roundHalfEven_mono {n n' d : Nat} (hd : 0 < d) (le : n ≤ n') :
    roundHalfEven n d ≤ roundHalfEven n' d := by
  rcases Nat.eq_or_lt_of_le le with rfl | less
  · exact Nat.le_refl _
  · by_contra above
    have high := roundHalfEven_le n d
    have low := le_roundHalfEven n' hd
    have step : d * (roundHalfEven n' d + 1) ≤ d * roundHalfEven n d :=
      Nat.mul_le_mul_left d (Nat.lt_of_not_le above)
    rw [Nat.mul_add, Nat.mul_one] at step
    omega

namespace Double

variable {m m' k k' : Nat} {q q' i j : Int} {s : Bool} {x y : Double}

theorem magnitudeUnits_mono (hm : m ≤ m') (hq : q ≤ q') : magnitudeUnits m q ≤ magnitudeUnits m' q' :=
  Nat.mul_le_mul hm (Nat.pow_le_pow_right two_pos (Int.toNat_le_toNat (by omega)))

theorem magnitudeUnits_lt (hm : m < m') (hq : q ≤ q') : magnitudeUnits m q < magnitudeUnits m' q' :=
  calc
    magnitudeUnits m q < magnitudeUnits m' q := Nat.mul_lt_mul_of_pos_right hm (Nat.two_pow_pos _)
    _ ≤ magnitudeUnits m' q' := magnitudeUnits_mono (Nat.le_refl _) hq

theorem magnitudeUnits_carry (low : -1074 ≤ q) :
    magnitudeUnits (2 ^ 53) q = magnitudeUnits (2 ^ 52) (q + 1) := by
  obtain ⟨e, he⟩ : ∃ e : Nat, q + 1074 = e := ⟨(q + 1074).toNat, by omega⟩
  have next : (q + 1 + 1074).toNat = e + 1 := by omega
  unfold magnitudeUnits
  rw [next, he, Int.toNat_natCast, Nat.pow_eq, Nat.pow_eq, ← pow_add, ← pow_add]
  congr 1
  omega

def limit : Nat := magnitudeUnits (2 ^ 53) 971

theorem limit_pos : 0 < limit := magnitudeUnits_pos (Nat.two_pow_pos 53) 971

theorem Canonical.units_lt (canonical : Canonical m q) : magnitudeUnits m q < limit :=
  magnitudeUnits_lt canonical.1 canonical.2.2.1

def signed (s : Bool) (units : Nat) : Int := if s then -units else units

def place : Double → Int
  | nan => 0
  | infinity s => signed s limit
  | finite s m q _ => signed s (magnitudeUnits m q)

theorem compare?_eq (hx : x ≠ nan) (hy : y ≠ nan) : x.compare? y = some (compare x.place y.place) := by
  have positive : (0 : Int) < limit := Int.natCast_pos.mpr limit_pos
  have within s {m q} (canonical : Canonical m q) :
      -(limit : Int) < signed s (magnitudeUnits m q) ∧ signed s (magnitudeUnits m q) < limit := by
    have lt := canonical.units_lt
    unfold signed
    split <;> omega
  rcases x with _ | a | ⟨s, m, q, canonical⟩
  · exact absurd rfl hx
  · rcases y with _ | b | ⟨s', m', q', canonical'⟩
    · exact absurd rfl hy
    · cases a <;> cases b
      · exact congrArg some (compare_eq_iff_eq.mpr rfl).symm
      · exact congrArg some (compare_gt_iff_gt.mpr (neg_lt_self positive)).symm
      · exact congrArg some (compare_lt_iff_lt.mpr (neg_lt_self positive)).symm
      · exact congrArg some (compare_eq_iff_eq.mpr rfl).symm
    · obtain ⟨low, high⟩ := within s' canonical'
      cases a
      · exact congrArg some (compare_gt_iff_gt.mpr high).symm
      · exact congrArg some (compare_lt_iff_lt.mpr low).symm
  · rcases y with _ | b | ⟨s', m', q', canonical'⟩
    · exact absurd rfl hy
    · obtain ⟨low, high⟩ := within s canonical
      cases b
      · exact congrArg some (compare_lt_iff_lt.mpr high).symm
      · exact congrArg some (compare_gt_iff_gt.mpr low).symm
    · rfl

/-! Rounding integers. -/

def significand (k : Nat) : Nat := roundHalfEven (k * 2 ^ (52 - k.log2)) (2 ^ (k.log2 - 52))

def roundedUnits (k : Nat) : Nat := magnitudeUnits (significand k) (k.log2 - 52)

theorem roundedUnits_zero : roundedUnits 0 = 0 := by
  have none : significand 0 = 0 := by decide
  rw [roundedUnits, none, magnitudeUnits, Nat.zero_mul]

theorem significand_bounds (positive : k ≠ 0) : 2 ^ 52 ≤ significand k ∧ significand k ≤ 2 ^ 53 := by
  have unit : 0 < 2 ^ (k.log2 - 52) := Nat.two_pow_pos _
  have shift (a : Nat) : 2 ^ (k.log2 - 52) * 2 ^ (52 + a) = 2 ^ (k.log2 + a) * 2 ^ (52 - k.log2) := by
    rw [← pow_add, ← pow_add]
    congr 1
    omega
  unfold significand
  constructor
  · calc
      2 ^ 52 = roundHalfEven (2 ^ (k.log2 - 52) * 2 ^ 52) (2 ^ (k.log2 - 52)) :=
        (roundHalfEven_mul_left _ unit).symm
      _ ≤ _ := by
        refine roundHalfEven_mono unit ?_
        rw [shift 0]
        exact Nat.mul_le_mul_right _ (Nat.log2_self_le positive)
  · calc
      _ ≤ roundHalfEven (2 ^ (k.log2 - 52) * 2 ^ 53) (2 ^ (k.log2 - 52)) := by
        refine roundHalfEven_mono unit ?_
        rw [shift 1]
        exact Nat.mul_le_mul_right _ Nat.lt_log2_self.le
      _ = 2 ^ 53 := roundHalfEven_mul_left _ unit

theorem roundedUnits_mono (le : k ≤ k') : roundedUnits k ≤ roundedUnits k' := by
  rcases Nat.eq_zero_or_pos k with rfl | positive
  · rw [roundedUnits_zero]
    exact Nat.zero_le _
  · have positive' : k' ≠ 0 := by omega
    have places : k.log2 ≤ k'.log2 :=
      (Nat.le_log2 positive').mpr ((Nat.log2_self_le positive.ne').trans le)
    rcases Nat.eq_or_lt_of_le places with same | less
    · refine magnitudeUnits_mono ?_ (by rw [same])
      unfold significand
      rw [same]
      exact roundHalfEven_mono (Nat.two_pow_pos _) (Nat.mul_le_mul_right _ le)
    · calc
        roundedUnits k ≤ magnitudeUnits (2 ^ 53) (k.log2 - 52) :=
          magnitudeUnits_mono (significand_bounds positive.ne').2 (Int.le_refl _)
        _ = magnitudeUnits (2 ^ 52) (k.log2 - 52 + 1) := magnitudeUnits_carry (by omega)
        _ ≤ roundedUnits k' := magnitudeUnits_mono (significand_bounds positive').1 (by omega)

theorem place_ofParts (low : -1074 ≤ q) (dense : 2 ^ 52 ≤ m) (high : m < 2 ^ 53) :
    (ofParts s m q).place = signed s (min (magnitudeUnits m q) limit) := by
  unfold ofParts
  split
  · rename_i canonical
    rw [Nat.min_eq_left canonical.units_lt.le]
    rfl
  · rename_i beyond
    have large : 971 < q := by
      by_contra small
      exact beyond ⟨high, low, Int.not_lt.mp small, .inr dense⟩
    have wide : limit ≤ magnitudeUnits m q := by
      rw [limit, magnitudeUnits_carry (by omega)]
      exact magnitudeUnits_mono dense (by omega)
    rw [Nat.min_eq_right wide]
    rfl

theorem lastPlace_one (positive : k ≠ 0) : lastPlace k 1 = k.log2 - 52 := by
  have one : Nat.log2 1 = 0 := by decide
  have ones : (-(k.log2 : Int)).toNat = 0 := by omega
  unfold lastPlace
  dsimp only
  rw [one, Nat.cast_zero, Int.sub_zero, Int.toNat_natCast, if_pos]
  rw [ones]
  simpa using Nat.log2_self_le positive

theorem significand_eq (k : Nat) :
    roundHalfEven (k * Nat.pow 2 (-(k.log2 - 52 : Int)).toNat)
      (1 * Nat.pow 2 (k.log2 - 52 : Int).toNat) = significand k := by
  have above : (-(k.log2 - 52 : Int)).toNat = 52 - k.log2 := by omega
  have below : (k.log2 - 52 : Int).toNat = k.log2 - 52 := by omega
  rw [above, below, Nat.one_mul]
  rfl

theorem place_ofInt (i : Int) :
    (ofInt i).place = signed (decide (i < 0)) (min (roundedUnits i.natAbs) limit) := by
  rcases eq_or_ne i.natAbs 0 with none | some
  · obtain rfl : i = 0 := Int.natAbs_eq_zero.mp none
    rw [Int.natAbs_zero, roundedUnits_zero, Nat.zero_min, ofInt, ofRatio, Int.natAbs_zero, if_pos rfl,
      zero, place, magnitudeUnits, Nat.zero_mul]
  · obtain ⟨k, hk⟩ : ∃ k, i.natAbs = k := ⟨_, rfl⟩
    rw [hk] at some
    obtain ⟨dense, high⟩ := significand_bounds some
    unfold ofInt ofRatio
    rw [hk, if_neg some, lastPlace_one some, max_eq_left (by omega)]
    dsimp only
    rw [significand_eq]
    split
    · rename_i carried
      have carried : significand k = 2 ^ 53 := carried
      have low : (-1074 : Int) ≤ k.log2 - 52 := by omega
      rw [roundedUnits, carried, magnitudeUnits_carry low]
      exact place_ofParts (by omega) (Nat.le_refl _) (by decide)
    · rename_i kept
      exact place_ofParts (by omega) dense (Nat.lt_of_le_of_ne high kept)

theorem place_ofInt_mono (le : i ≤ j) : (ofInt i).place ≤ (ofInt j).place := by
  have units {k k' : Nat} (le : k ≤ k') : min (roundedUnits k) limit ≤ min (roundedUnits k') limit :=
    min_le_min_right _ (roundedUnits_mono le)
  rw [place_ofInt, place_ofInt]
  by_cases hi : i < 0 <;> by_cases hj : j < 0 <;>
    simp only [signed, hi, hj, decide_true, decide_false, if_true, Bool.false_eq_true, if_false]
  · have := @units j.natAbs i.natAbs (by omega)
    omega
  · omega
  · omega
  · have := @units i.natAbs j.natAbs (by omega)
    omega

theorem ofInt_ne_nan (i : Int) : ofInt i ≠ nan := by
  have parts (s m q) : ofParts s m q ≠ nan := by
    unfold ofParts
    split <;> rintro ⟨⟩
  unfold ofInt ofRatio
  dsimp only
  split
  · rintro ⟨⟩
  · split <;> exact parts _ _ _

theorem place_of_stands (h : x.Stands i) : x.place = i * unitsOfOne := by
  obtain ⟨s, m, q, canonical, rfl, units⟩ := h
  exact units

end Double

namespace Number

variable {a b c : Number} {i j : Int}

def isNaN : Number → Bool
  | .float .nan => true
  | _ => false

def place (n : Number) : Int := n.toDouble.place

theorem place_of_toInt? (h : a.toInt? = some i) : a.place = (Double.ofInt i).place := by
  cases a with
  | float x =>
    rw [Double.place_of_stands (Double.stands_ofInt h)]
    exact Double.place_of_stands (Double.stands_of_toInt? h)
  | _ => exact congrArg (fun i => (Double.ofInt i).place) (Option.some.inj h)

theorem toDouble_ne_nan (h : a.isNaN = false) : a.toDouble ≠ .nan := by
  cases a with
  | float x =>
    rintro rfl
    cases h
  | _ => exact Double.ofInt_ne_nan _

theorem le_iff_of_compare? (h : a.compare? b = some (compare i j)) : a.le b = true ↔ i ≤ j := by
  rw [le, h]
  rcases lt_trichotomy i j with less | rfl | more
  · rw [compare_lt_iff_lt.mpr less]
    exact iff_of_true rfl less.le
  · rw [compare_eq_iff_eq.mpr rfl]
    exact iff_of_true rfl (le_refl i)
  · rw [compare_gt_iff_gt.mpr more]
    exact iff_of_false Bool.false_ne_true more.not_ge

theorem le_iff_of_toInt? (ha : a.toInt? = some i) (hb : b.toInt? = some j) :
    a.le b = true ↔ i ≤ j := le_iff_of_compare? (compare?_of_toInt? ha hb)

theorem le_iff_place (fraction : a.toInt? = none ∨ b.toInt? = none) (ha : a.isNaN = false)
    (hb : b.isNaN = false) : a.le b = true ↔ a.place ≤ b.place := by
  apply le_iff_of_compare?
  rw [compare?_toDouble fraction, Double.compare?_eq (toDouble_ne_nan ha) (toDouble_ne_nan hb)]
  rfl

theorem isNaN_iff : a.isNaN = true ↔ a = .float .nan := by
  refine ⟨fun h => ?_, fun same => same ▸ rfl⟩
  unfold isNaN at h
  split at h
  · rfl
  · cases h

theorem IsFinite.isNaN_eq (h : a.IsFinite) : a.isNaN = false := by
  rw [← Bool.not_eq_true, isNaN_iff]
  rintro rfl
  cases h _ rfl

theorem nan_le (ha : a.isNaN = true) (b : Number) : a.le b = false := by
  obtain rfl := isNaN_iff.mp ha
  have unordered : (Number.float .nan).compare? b = none := by
    rw [compare?_toDouble (.inl rfl)]
    rfl
  rw [le, unordered]

theorem le_nan (hb : b.isNaN = true) (a : Number) : a.le b = false := by
  obtain rfl := isNaN_iff.mp hb
  have unordered : a.compare? (.float .nan) = none := by
    rw [compare?_toDouble (.inr rfl)]
    cases a.toDouble <;> rfl
  rw [le, unordered]

theorem fraction_or_integers (a b : Number) : (a.toInt? = none ∨ b.toInt? = none) ∨
    ∃ i j, a.toInt? = some i ∧ b.toInt? = some j := by
  rcases a.toInt? with _ | i
  · exact .inl (.inl rfl)
  · rcases b.toInt? with _ | j
    · exact .inl (.inr rfl)
    · exact .inr ⟨i, j, rfl, rfl⟩

theorem place_le_place (ha : a.isNaN = false) (hb : b.isNaN = false) (le : a.le b = true) :
    a.place ≤ b.place := by
  rcases fraction_or_integers a b with fraction | ⟨i, j, hi, hj⟩
  · exact (le_iff_place fraction ha hb).mp le
  · rw [place_of_toInt? hi, place_of_toInt? hj]
    exact Double.place_ofInt_mono ((le_iff_of_toInt? hi hj).mp le)

theorem le_total (ha : a.isNaN = false) (hb : b.isNaN = false) : a.le b = true ∨ b.le a = true := by
  rcases fraction_or_integers a b with fraction | ⟨i, j, hi, hj⟩
  · rw [le_iff_place fraction ha hb, le_iff_place fraction.symm hb ha]
    exact Int.le_total _ _
  · rw [le_iff_of_toInt? hi hj, le_iff_of_toInt? hj hi]
    exact Int.le_total _ _

theorem le_self (ha : a.isNaN = false) : a.le a = true := (le_total ha ha).elim id id

/-- Transitive if one step is strict: two integers may both compare equal to an infinity between
them. -/
theorem le_trans_of_strict (ha : a.isNaN = false) (hb : b.isNaN = false) (hc : c.isNaN = false)
    (hab : a.le b = true) (hbc : b.le c = true) (strict : b.le a = false ∨ c.le b = false) :
    a.le c = true := by
  have low := place_le_place ha hb hab
  have high := place_le_place hb hc hbc
  rcases fraction_or_integers a c with fraction | ⟨i, k, hi, hk⟩
  · exact (le_iff_place fraction ha hc).mpr (low.trans high)
  · rw [le_iff_of_toInt? hi hk]
    rcases hj : b.toInt? with _ | j
    -- Between two integers, what is no integer keeps their places apart.
    · have apart : a.place < c.place := by
        rw [← Bool.not_eq_true, ← Bool.not_eq_true, le_iff_place (.inl hj) hb ha,
          le_iff_place (.inr hj) hc hb] at strict
        omega
      by_contra above
      have back : c.place ≤ a.place := by
        rw [place_of_toInt? hi, place_of_toInt? hk]
        exact Double.place_ofInt_mono (Int.not_le.mp above).le
      omega
    · exact ((le_iff_of_toInt? hi hj).mp hab).trans ((le_iff_of_toInt? hj hk).mp hbc)

end Number
end Schemata

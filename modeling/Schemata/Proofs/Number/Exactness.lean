import Mathlib
import Schemata.Number.Basic

/-! Floating-point numbers that are integers. Such a number and the integer of any size that it is
compare alike with every number and divide alike, since the integer rounds to just that number. -/

namespace Schemata

namespace Double

variable {x y z : Double} {i j : Int} {s : Bool} {m k : Nat} {q : Int}

def SizeIs (m : Nat) (q : Int) (k : Nat) : Prop := k * 2 ^ (-q).toNat = m * 2 ^ q.toNat

theorem exists_of_toInt? {canonical : Canonical m q}
    (h : (Double.finite s m q canonical).toInt? = some i) :
    ∃ k : Nat, SizeIs m q k ∧ i = if s then -(k : Int) else k := by
  obtain ⟨_, found, rfl⟩ := Option.map_eq_some_iff.mp h
  obtain ⟨k, size, same⟩ := Option.bind_eq_some_iff.mp found
  obtain rfl := Option.some.inj same
  refine ⟨k, ?_, rfl⟩
  unfold SizeIs
  split at size
  · rename_i whole
    obtain rfl := Option.some.inj size
    have none : (-q).toNat = 0 := by omega
    rw [none, pow_zero, mul_one]
    rfl
  · split at size
    · rename_i divides
      obtain rfl := Option.some.inj size
      have none : q.toNat = 0 := by omega
      rw [none, pow_zero, mul_one]
      exact Nat.div_mul_cancel (Nat.dvd_of_mod_eq_zero divides)
    · cases size

def unitsOfOne : Nat := magnitudeUnits 1 0

theorem magnitudeUnits_pos (positive : 0 < m) (q : Int) : 0 < magnitudeUnits m q :=
  Nat.mul_pos positive (Nat.two_pow_pos _)

theorem unitsOfOne_pos : 0 < unitsOfOne := magnitudeUnits_pos Nat.one_pos 0

theorem SizeIs.units (size : SizeIs m q k) (low : -1074 ≤ q) :
    magnitudeUnits m q = k * unitsOfOne := by
  unfold SizeIs at size
  unfold unitsOfOne magnitudeUnits
  -- The exponent stays a variable: its power is too large to be looked at.
  obtain ⟨e, he⟩ : ∃ e : Nat, (1074 : Int) = e := ⟨1074, rfl⟩
  rw [he] at low ⊢
  change m * 2 ^ (q + e).toNat = k * (1 * 2 ^ (0 + e : Int).toNat)
  rw [one_mul]
  rcases Int.le_total 0 q with whole | fractional
  · have none : (-q).toNat = 0 := by omega
    have split : (q + e).toNat = q.toNat + (0 + e : Int).toNat := by omega
    rw [none, pow_zero, mul_one] at size
    rw [size, split, pow_add, mul_assoc]
  · have none : q.toNat = 0 := by omega
    have split : (0 + e : Int).toNat = (-q).toNat + (q + e).toNat := by omega
    rw [none, pow_zero, mul_one] at size
    rw [← size, mul_assoc, ← pow_add, ← split]

/-- A finite number that is as many units as an integer. -/
def Stands (x : Double) (i : Int) : Prop :=
  ∃ s m q canonical, x = .finite s m q canonical ∧ signedUnits s m q = i * unitsOfOne

theorem stands_of_toInt? (h : x.toInt? = some i) : x.Stands i := by
  rcases x with _ | _ | ⟨s, m, q, canonical⟩
  · cases h
  · cases h
  · obtain ⟨k, size, rfl⟩ := exists_of_toInt? h
    refine ⟨s, m, q, canonical, rfl, ?_⟩
    unfold signedUnits
    rw [size.units canonical.2.1, Nat.cast_mul]
    cases s
    · simp only [Bool.false_eq_true, if_false]
    · simp only [if_true, Int.neg_mul]

theorem SizeIs.log2_eq (size : SizeIs m q k) (dense : 2 ^ 52 ≤ m) (high : m < 2 ^ 53) :
    (k.log2 : Int) = q + 52 := by
  unfold SizeIs at size
  have positive : k ≠ 0 := by
    rintro rfl
    rw [zero_mul] at size
    exact absurd size.symm (Nat.mul_pos (by omega) (Nat.two_pow_pos _)).ne'
  rcases Int.le_total 0 q with whole | fractional
  · have none : (-q).toNat = 0 := by omega
    rw [none, pow_zero, mul_one] at size
    have log : k.log2 = 52 + q.toNat := by
      rw [Nat.log2_eq_iff positive, size, pow_add, add_right_comm, pow_add _ (52 + 1)]
      exact ⟨Nat.mul_le_mul_right _ dense, Nat.mul_lt_mul_of_pos_right high (Nat.two_pow_pos _)⟩
    omega
  · have none : q.toNat = 0 := by omega
    obtain ⟨a, ha⟩ : ∃ a, (-q).toNat = a := ⟨_, rfl⟩
    rw [none, ha, pow_zero, mul_one] at size
    have small : a ≤ 52 := by
      by_contra large
      have : 2 ^ 53 ≤ 2 ^ a := Nat.pow_le_pow_right (by decide) (by omega)
      have : 1 * 2 ^ a ≤ k * 2 ^ a := Nat.mul_le_mul_right _ (Nat.pos_of_ne_zero positive)
      omega
    have below : 2 ^ (52 - a) * 2 ^ a = 2 ^ 52 := by rw [← pow_add, Nat.sub_add_cancel small]
    have above : 2 ^ (52 - a + 1) * 2 ^ a = 2 ^ 53 := by
      rw [← pow_add, add_right_comm, Nat.sub_add_cancel small]
    have log : k.log2 = 52 - a := by
      rw [Nat.log2_eq_iff positive]
      constructor
      · exact Nat.le_of_mul_le_mul_right (by omega) (Nat.two_pow_pos a)
      · exact Nat.lt_of_mul_lt_mul_right (a := 2 ^ a) (by omega)
    omega

theorem ofInt_of_toInt? {canonical : Canonical m q} (nonzero : m ≠ 0)
    (h : (Double.finite s m q canonical).toInt? = some i) :
    ofInt i = .finite s m q canonical := by
  obtain ⟨k, size, rfl⟩ := exists_of_toInt? h
  have low : -1074 ≤ q := canonical.2.1
  have high : m < 2 ^ 53 := canonical.1
  have positive : k ≠ 0 := by
    rintro rfl
    unfold SizeIs at size
    rw [zero_mul] at size
    exact absurd size.symm (Nat.mul_pos (Nat.pos_of_ne_zero nonzero) (Nat.two_pow_pos _)).ne'
  -- The least exponent of the format leaves no room for a nonzero integer.
  have dense : 2 ^ 52 ≤ m := by
    rcases canonical.2.2.2 with least | dense
    · obtain ⟨a, ha⟩ : ∃ a, (-q).toNat = a := ⟨_, rfl⟩
      have none : q.toNat = 0 := by omega
      have size : k * 2 ^ a = m := by
        unfold SizeIs at size
        rwa [ha, none, pow_zero, mul_one] at size
      have far : 2 ^ 53 ≤ 2 ^ a := Nat.pow_le_pow_right (by decide) (by omega)
      have once : 1 * 2 ^ a ≤ k * 2 ^ a := Nat.mul_le_mul_right _ (Nat.pos_of_ne_zero positive)
      omega
    · exact dense
  have place : lastPlace k 1 = q := by
    have log := size.log2_eq dense high
    have one : Nat.log2 1 = 0 := by decide
    unfold lastPlace
    dsimp only
    rw [one, Nat.cast_zero, Int.sub_zero, Int.toNat_natCast, if_pos]
    · omega
    · have none : (-(k.log2 : Int)).toNat = 0 := by omega
      rw [none]
      simpa using Nat.log2_self_le positive
  have rounded : roundHalfEven (k * Nat.pow 2 (-q).toNat) (1 * Nat.pow 2 q.toNat) = m := by
    have size : k * Nat.pow 2 (-q).toNat = Nat.pow 2 q.toNat * m := size.trans (Nat.mul_comm _ _)
    rw [size, Nat.one_mul]
    exact roundHalfEven_mul_left m (Nat.two_pow_pos _)
  have sign : decide ((if s then -(k : Int) else k) < 0) = s := by
    cases s
    · exact decide_eq_false (by simp)
    · exact decide_eq_true (by simpa using Nat.pos_of_ne_zero positive)
  have natAbs : (if s then -(k : Int) else k).natAbs = k := by
    cases s
    · rfl
    · exact Int.natAbs_neg k
  unfold ofInt ofRatio
  rw [sign, natAbs, if_neg positive, place, max_eq_left low]
  dsimp only
  have held : m ≠ Nat.pow 2 53 := Nat.ne_of_lt high
  rw [rounded, if_neg held, ofParts, dif_pos canonical]

theorem stands_zero : (zero false).Stands 0 := by
  refine ⟨false, 0, -1074, by decide, rfl, ?_⟩
  simp only [signedUnits, magnitudeUnits, Nat.zero_mul, Int.zero_mul, Bool.false_eq_true, if_false,
    Nat.cast_zero]

theorem stands_ofInt (h : x.toInt? = some i) : (ofInt i).Stands i := by
  have stands := stands_of_toInt? h
  rcases x with _ | _ | ⟨s, m, q, canonical⟩
  · cases h
  · cases h
  · rcases Nat.eq_zero_or_pos m with rfl | positive
    · obtain ⟨k, size, rfl⟩ := exists_of_toInt? h
      obtain rfl : k = 0 := by
        unfold SizeIs at size
        rw [zero_mul] at size
        exact (Nat.mul_eq_zero.mp size).resolve_right (Nat.two_pow_pos _).ne'
      cases s
      · exact stands_zero
      · exact stands_zero
    · rw [ofInt_of_toInt? positive.ne' h]
      exact stands

/-! Order and remainder look at the units alone. -/

theorem compare?_of_stands (hx : x.Stands i) (hy : y.Stands j) :
    x.compare? y = some (compare i j) := by
  obtain ⟨s, m, q, canonical, rfl, units⟩ := hx
  obtain ⟨s', m', q', canonical', rfl, units'⟩ := hy
  have positive : (0 : Int) < unitsOfOne := Int.natCast_pos.mpr unitsOfOne_pos
  change some (compare (signedUnits s m q) (signedUnits s' m' q')) = _
  rw [units, units', ← cmp_eq_compare, cmp_mul_pos_right positive, cmp_eq_compare]

theorem compare?_right_of_stands (hx : x.Stands i) (hy : y.Stands i) (z : Double) :
    z.compare? x = z.compare? y := by
  obtain ⟨s, m, q, canonical, rfl, units⟩ := hx
  obtain ⟨s', m', q', canonical', rfl, units'⟩ := hy
  rcases z with _ | _ | ⟨t, a, b, _⟩
  · rfl
  · rfl
  · change some (compare (signedUnits t a b) (signedUnits s m q)) =
      some (compare (signedUnits t a b) (signedUnits s' m' q'))
    rw [units, units']

theorem compare?_left_of_stands (hx : x.Stands i) (hy : y.Stands i) (z : Double) :
    x.compare? z = y.compare? z := by
  obtain ⟨s, m, q, canonical, rfl, units⟩ := hx
  obtain ⟨s', m', q', canonical', rfl, units'⟩ := hy
  rcases z with _ | _ | ⟨t, a, b, _⟩
  · rfl
  · rfl
  · change some (compare (signedUnits s m q) (signedUnits t a b)) =
      some (compare (signedUnits s' m' q') (signedUnits t a b))
    rw [units, units']

theorem natAbs_signedUnits (s : Bool) (m : Nat) (q : Int) :
    (signedUnits s m q).natAbs = magnitudeUnits m q := by
  unfold signedUnits
  cases s
  · rfl
  · exact Int.natAbs_neg _

theorem isMultipleOf_of_stands (hx : x.Stands i) (hy : y.Stands i) (z : Double) :
    x.isMultipleOf z = y.isMultipleOf z := by
  obtain ⟨s, m, q, canonical, rfl, units⟩ := hx
  obtain ⟨s', m', q', canonical', rfl, units'⟩ := hy
  have same : magnitudeUnits m q = magnitudeUnits m' q' := by
    rw [← natAbs_signedUnits s, ← natAbs_signedUnits s', units, units']
  rcases z with _ | _ | ⟨t, a, b, _⟩
  · rfl
  · have zeros : m = 0 ↔ m' = 0 := by
      have zero_iff (a : Nat) (b : Int) : magnitudeUnits a b = 0 ↔ a = 0 := by
        unfold magnitudeUnits
        rw [Nat.mul_eq_zero]
        exact or_iff_left (Nat.two_pow_pos _).ne'
      rw [← zero_iff m q, ← zero_iff m' q', same]
    change (m == 0) = (m' == 0)
    rw [Bool.eq_iff_iff, beq_iff_eq, beq_iff_eq, zeros]
  · change (a != 0 && magnitudeUnits m q % magnitudeUnits a b == 0) =
      (a != 0 && magnitudeUnits m' q' % magnitudeUnits a b == 0)
    rw [same]

end Double

namespace Number

variable {n a : Number} {i : Int}

theorem compare?_big_right (h : n.toInt? = some i) (a : Number) :
    a.compare? n = a.compare? (.big i) := by
  rcases n with v | v | y | v
  case float =>
    have h : y.toInt? = some i := h
    rcases a with v | v | x | v
    case float =>
      rcases hx : x.toInt? with _ | j
      · have rounded : compare? (.float x) (.big i) = x.compare? (.ofInt i) := by
          unfold compare?
          dsimp only [toInt?]
          rw [hx]
          rfl
        rw [rounded]
        exact Double.compare?_right_of_stands (Double.stands_of_toInt? h) (Double.stands_ofInt h) x
      · have exactly : compare? (.float x) (.big i) = some (compare j i) := by
          unfold compare?
          dsimp only [toInt?]
          rw [hx]
        rw [exactly]
        exact Double.compare?_of_stands (Double.stands_of_toInt? hx) (Double.stands_of_toInt? h)
    all_goals
      unfold compare?
      dsimp only [toInt?]
      rw [h]
  all_goals
    obtain rfl := Option.some.inj h
    cases a <;> rfl

theorem compare?_big_left (h : n.toInt? = some i) (a : Number) :
    n.compare? a = (Number.big i).compare? a := by
  rcases n with v | v | y | v
  case float =>
    have h : y.toInt? = some i := h
    rcases a with v | v | x | v
    case float =>
      rcases hx : x.toInt? with _ | j
      · have rounded : compare? (.big i) (.float x) = (Double.ofInt i).compare? x := by
          unfold compare?
          dsimp only [toInt?]
          rw [hx]
          rfl
        rw [rounded]
        exact Double.compare?_left_of_stands (Double.stands_of_toInt? h) (Double.stands_ofInt h) x
      · have exactly : compare? (.big i) (.float x) = some (compare i j) := by
          unfold compare?
          dsimp only [toInt?]
          rw [hx]
        rw [exactly]
        exact Double.compare?_of_stands (Double.stands_of_toInt? h) (Double.stands_of_toInt? hx)
    all_goals
      unfold compare?
      dsimp only [toInt?]
      rw [h]
  all_goals
    obtain rfl := Option.some.inj h
    cases a <;> rfl

theorem isMultipleOf_big (h : n.toInt? = some i) (a : Number) :
    n.isMultipleOf a true = (Number.big i).isMultipleOf a true := by
  have whole : (Number.big i).toInt? = some i := rfl
  unfold isMultipleOf
  rw [h, whole]
  rcases a.toInt? with _ | j
  · rcases n with v | v | y | v
    case float =>
      exact Double.isMultipleOf_of_stands (Double.stands_of_toInt? h) (Double.stands_ofInt h) _
    all_goals
      obtain rfl := Option.some.inj h
      rfl
  · rfl

end Number
end Schemata

import Schemata.Proofs.Number.Exactness
import Schemata.Proofs.Number.Shortest

/-! Equal numbers. Two of them that are equal are one integer, however it is held, or one and the same
floating-point number. -/

namespace Schemata

namespace Double

variable {x y : Double} {s s' : Bool} {m m' : Nat} {q q' : Int}

theorem isSome_toInt?_iff {canonical : Canonical m q} :
    (Double.finite s m q canonical).toInt?.isSome ↔ 0 ≤ q ∨ 2 ^ (-q).toNat ∣ m := by
  have pow : Nat.pow 2 (-q).toNat = 2 ^ (-q).toNat := rfl
  unfold toInt?
  rw [Option.isSome_map]
  split
  · rename_i whole
    exact ⟨fun _ => .inl whole, fun _ => rfl⟩
  · rename_i fractional
    split
    · rename_i divides
      exact ⟨fun _ => .inr (Nat.dvd_of_mod_eq_zero divides), fun _ => rfl⟩
    · rename_i rest
      refine ⟨(nomatch ·), fun either => ?_⟩
      exact absurd (Nat.mod_eq_zero_of_dvd (either.resolve_left fractional)) rest

theorem toInt?_of_zero {canonical : Canonical 0 q} :
    (Double.finite s 0 q canonical).toInt? = some 0 := by
  unfold toInt?
  cases s <;> simp

theorem isSome_toInt?_ofParts {negative : Bool} (divides : 0 ≤ q ∨ 2 ^ (-q).toNat ∣ m)
    (finite : (ofParts negative m q).isFinite = true) : (ofParts negative m q).toInt?.isSome := by
  unfold ofParts at finite ⊢
  split at finite
  · rename_i canonical
    rw [dif_pos canonical]
    exact isSome_toInt?_iff.mpr divides
  · cases finite

theorem isSome_toInt?_ofInt {i : Int} (finite : (ofInt i).isFinite = true) :
    (ofInt i).toInt?.isSome := by
  unfold ofInt ofRatio at finite ⊢
  split at finite
  · rename_i none
    rw [if_pos none, zero, toInt?_of_zero]
    rfl
  · rename_i some
    rw [if_neg some]
    obtain ⟨q, hq⟩ : ∃ q, max (lastPlace i.natAbs 1) (-1074) = q := ⟨_, rfl⟩
    rw [hq] at finite ⊢
    obtain ⟨m, hm⟩ : ∃ m, roundHalfEven (i.natAbs * Nat.pow 2 (-q).toNat) (1 * Nat.pow 2 q.toNat) = m :=
      ⟨_, rfl⟩
    dsimp only at finite ⊢
    rw [hm] at finite ⊢
    -- Below the place of the ones nothing is rounded.
    have exact_of_neg (fractional : q < 0) : m = i.natAbs * 2 ^ (-q).toNat := by
      have one : q.toNat = 0 := by omega
      have kept := roundHalfEven_mul_left (i.natAbs * Nat.pow 2 (-q).toNat) Nat.one_pos
      rw [Nat.one_mul] at kept
      rw [← hm, one]
      exact kept
    split at finite
    · rename_i carried
      rw [if_pos carried]
      refine isSome_toInt?_ofParts ?_ finite
      rcases lt_or_ge q (-1) with low | high
      · right
        have twice : 2 ^ (-q).toNat = 2 * 2 ^ (-(q + 1)).toNat := by
          rw [← pow_succ']
          congr 1
          omega
        refine ⟨i.natAbs, ?_⟩
        have kept := exact_of_neg (by omega)
        rw [carried, twice] at kept
        have half : Nat.pow 2 53 = 2 * Nat.pow 2 52 := rfl
        rw [half, Nat.mul_left_comm] at kept
        rw [Nat.mul_comm]
        exact Nat.eq_of_mul_eq_mul_left two_pos kept
      · exact .inl (by omega)
    · rename_i kept
      rw [if_neg kept]
      refine isSome_toInt?_ofParts ?_ finite
      rcases lt_or_ge q 0 with low | high
      · exact .inr (exact_of_neg low ▸ Nat.dvd_mul_left _ _)
      · exact .inl high

theorem cast_magnitudeUnits (low : -1074 ≤ q) :
    (magnitudeUnits m q : ℚ) = m * 2 ^ q * 2 ^ (1074 : Int) := by
  obtain ⟨e, he⟩ : ∃ e : Nat, q + 1074 = e := ⟨(q + 1074).toNat, by omega⟩
  unfold magnitudeUnits
  rw [mul_assoc, ← zpow_add₀ two_ne_zero, he, Int.toNat_natCast, zpow_natCast, Nat.pow_eq]
  push_cast
  rfl

theorem eq_of_magnitudeUnits_eq (canonical : Canonical m q) (canonical' : Canonical m' q')
    (h : magnitudeUnits m q = magnitudeUnits m' q') : m = m' ∧ q = q' := by
  have same : (m : ℚ) * 2 ^ q = m' * 2 ^ q' := by
    have h : (magnitudeUnits m q : ℚ) = magnitudeUnits m' q' := congrArg _ h
    rw [cast_magnitudeUnits canonical.2.1, cast_magnitudeUnits canonical'.2.1] at h
    exact mul_right_cancel₀ (zpow_ne_zero _ two_ne_zero) h
  exact (rounds_self m q).unique (same ▸ rounds_self m' q') canonical.normal canonical'.normal

theorem eq_or_zero_of_compare? (h : x.compare? y = some .eq)
    (finite : x.isFinite = true ∨ y.isFinite = true) :
    x = y ∨ x.toInt? = some 0 ∧ y.toInt? = some 0 := by
  have both : x.isFinite = true ∧ y.isFinite = true := by
    rcases x with _ | b | _ <;> rcases y with _ | b' | _
    case infinity.infinity => exact finite.elim (nomatch ·) (nomatch ·)
    case infinity.finite => cases b <;> cases h
    case finite.infinity => cases b' <;> cases h
    case finite.finite => exact ⟨rfl, rfl⟩
    all_goals cases h
  rcases x with _ | _ | ⟨s, m, q, canonical⟩
  · cases both.1
  · cases both.1
  rcases y with _ | _ | ⟨s', m', q', canonical'⟩
  · cases both.2
  · cases both.2
  have units : signedUnits s m q = signedUnits s' m' q' := by
    have h := Option.some.inj h
    exact compare_eq_iff_eq.mp h
  have magnitudes : magnitudeUnits m q = magnitudeUnits m' q' := by
    rw [← natAbs_signedUnits s, ← natAbs_signedUnits s', units]
  obtain ⟨rfl, rfl⟩ := eq_of_magnitudeUnits_eq canonical canonical' magnitudes
  rcases Nat.eq_zero_or_pos m with rfl | positive
  · exact .inr ⟨toInt?_of_zero, toInt?_of_zero⟩
  · left
    have some := magnitudeUnits_pos positive q
    have sign : s = s' := by
      unfold signedUnits at units
      cases s <;> cases s'
      · rfl
      · simp only [Bool.false_eq_true, if_false, if_true] at units
        omega
      · simp only [Bool.false_eq_true, if_false, if_true] at units
        omega
      · rfl
    rw [sign]

end Double

namespace Number

variable {a b : Number} {i j : Int}

def IsFinite (n : Number) : Prop := ∀ x, n = .float x → x.isFinite = true

theorem compare?_of_toInt? (ha : a.toInt? = some i) (hb : b.toInt? = some j) :
    a.compare? b = some (compare i j) := by
  rw [compare?_big_right hb, compare?_big_left ha]
  rfl

theorem equal_of_toInt? (ha : a.toInt? = some i) (hb : b.toInt? = some i) : a.equal b = true := by
  rw [equal, compare?_of_toInt? ha hb, compare_eq_iff_eq.mpr rfl]
  rfl

theorem compare?_toDouble (h : a.toInt? = none ∨ b.toInt? = none) :
    a.compare? b = a.toDouble.compare? b.toDouble := by
  unfold compare?
  split
  · rfl
  · split
    · rename_i ha hb
      rw [ha, hb] at h
      exact h.elim (nomatch ·) (nomatch ·)
    · rfl

theorem exists_float_of_toInt? (h : a.toInt? = none) : ∃ x, a = .float x := by
  cases a with
  | float x => exact ⟨x, rfl⟩
  | _ => cases h

theorem toInt?_toDouble_eq_none_iff (finite : a.toDouble.isFinite = true) :
    a.toDouble.toInt? = none ↔ a.toInt? = none := by
  cases a with
  | float x => exact Iff.rfl
  | _ =>
    refine ⟨fun lacks => ?_, (nomatch ·)⟩
    have whole := Double.isSome_toInt?_ofInt finite
    rw [Option.isSome_iff_ne_none] at whole
    exact absurd lacks whole

theorem equal_self (finite : a.IsFinite) : a.equal a = true := by
  cases a with
  | float x =>
    rcases x with _ | _ | ⟨s, m, q, canonical⟩
    · cases finite _ rfl
    · cases finite _ rfl
    · change (some (compare (Double.signedUnits s m q) (Double.signedUnits s m q)) == some .eq) = true
      rw [compare_eq_iff_eq.mpr rfl]
      rfl
  | _ => exact equal_of_toInt? rfl rfl

theorem eq_or_toInt?_of_equal (h : a.equal b = true) (ha : a.IsFinite) (hb : b.IsFinite) :
    a = b ∨ ∃ i, a.toInt? = some i ∧ b.toInt? = some i := by
  have h : a.compare? b = some .eq := beq_iff_eq.mp h
  by_cases fraction : a.toInt? = none ∨ b.toInt? = none
  · left
    rw [compare?_toDouble fraction] at h
    have finite : a.toDouble.isFinite = true ∨ b.toDouble.isFinite = true := by
      refine fraction.imp (fun lacks => ?_) fun lacks => ?_
      · obtain ⟨x, rfl⟩ := exists_float_of_toInt? lacks
        exact ha x rfl
      · obtain ⟨y, rfl⟩ := exists_float_of_toInt? lacks
        exact hb y rfl
    have same : a.toDouble = b.toDouble := by
      refine (Double.eq_or_zero_of_compare? h finite).resolve_right fun zero => ?_
      rcases fraction with lacks | lacks
      · obtain ⟨x, rfl⟩ := exists_float_of_toInt? lacks
        cases lacks.symm.trans zero.1
      · obtain ⟨y, rfl⟩ := exists_float_of_toInt? lacks
        cases lacks.symm.trans zero.2
    have finite : b.toDouble.isFinite = true := by
      rwa [same, or_self] at finite
    have either : a.toInt? = none ↔ b.toInt? = none := by
      rw [← toInt?_toDouble_eq_none_iff (same ▸ finite), ← toInt?_toDouble_eq_none_iff finite, same]
    rw [either, or_self] at fraction
    obtain ⟨x, rfl⟩ := exists_float_of_toInt? (either.mpr fraction)
    obtain ⟨y, rfl⟩ := exists_float_of_toInt? fraction
    exact congrArg Number.float same
  · rw [not_or] at fraction
    obtain ⟨i, hi⟩ := Option.ne_none_iff_exists'.mp fraction.1
    obtain ⟨j, hj⟩ := Option.ne_none_iff_exists'.mp fraction.2
    rw [compare?_of_toInt? hi hj, Option.some.injEq, compare_eq_iff_eq] at h
    exact .inr ⟨i, hi, h ▸ hj⟩

end Number
end Schemata

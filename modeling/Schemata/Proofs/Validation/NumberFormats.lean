import Schemata.Proofs.Validation.NumberTypes

/-! Integer formats. Those of any size are checked on exact integers. The others are checked after
rounding to a double, which moves no integer across their bounds, as these lie below `2 ^ 53`. -/

namespace Schemata

namespace Check

variable {x m : Number} {i j : Int} {exact : Bool} {bound : Option Number} {f : NumberFacets}

theorem compareBy_exact (hx : x.toInt? = some i) (hm : m.toInt? = some j) :
    compareBy true x m = some (compare i j) := Number.compare?_of_toInt? hx hm

theorem compareBy_rounded (hx : x.toInt? = some i) (hm : m.toInt? = some j) (small : j.natAbs < 2 ^ 53) :
    compareBy false x m = some (compare i j) := by
  have ordered {n : Number} {k : Int} (h : n.toInt? = some k) : n.toDouble ≠ .nan :=
    Number.toDouble_ne_nan (Number.isFinite_of_toInt? h).isNaN_eq
  have edge : m.place = j * Double.unitsOfOne := by
    rw [Number.place_of_toInt? hm, Double.place_ofInt_of_le small.le]
  have within : (j * Double.unitsOfOne).natAbs < 2 ^ 53 * Double.unitsOfOne := by
    rw [Int.natAbs_mul, Int.natAbs_natCast]
    exact Nat.mul_lt_mul_of_pos_right small Double.unitsOfOne_pos
  have near := Number.near_units x
  rw [Number.units_of_toInt? hx] at near
  calc
    compareBy false x m = some (compare x.place m.place) := Double.compare?_eq (ordered hx) (ordered hm)
    _ = some (compare i j) := by
      rw [edge, (near.compare_eq within).2, Number.compare_mul_unitsOfOne]

def Tells (exact : Bool) (x : Number) (i : Int) (m : Number) : Prop :=
  ∃ j, m.Stands j ∧ compareBy exact x m = some (compare i j)

theorem any_eq_false_iff {order : Ordering} (tells : ∀ m, bound = some m → Tells exact x i m) :
    bound.any (compareBy exact x · == some order) = false ↔
      ∀ m j, bound = some m → m.Stands j → compare i j ≠ order := by
  rcases bound with _ | m
  · exact iff_of_true rfl fun _ _ h => nomatch h
  · obtain ⟨j, stands, compared⟩ := tells m rfl
    rw [stands.forall_iff, Option.any_some, compared, ← Bool.not_eq_true, beq_iff_eq, Option.some_inj]

theorem numberFits_iff (hx : x.toInt? = some i) (free : f.allowed = [])
    (low : ∀ m, lowest f = some m → Tells (isExact f) x i m)
    (high : ∀ m, highest f = some m → Tells (isExact f) x i m) (integer : Bool) :
    NumberFits f integer x ↔ (∀ m j, lowest f = some m → m.Stands j → j ≤ i) ∧
      (∀ m j, highest f = some m → m.Stands j → i ≤ j) ∧
      ∀ m, f.multipleOf = some m → x.isMultipleOf m (isExact f) = true := by
  have whole : x.isInteger = true := Option.isSome_of_eq_some hx
  have above : (lowest f).any (compareBy (isExact f) x · == some .lt) = false ↔
      ∀ m j, lowest f = some m → m.Stands j → j ≤ i := by
    simp only [any_eq_false_iff low, ne_eq, compare_lt_iff_lt, not_lt]
  have below : (highest f).any (compareBy (isExact f) x · == some .gt) = false ↔
      ∀ m j, highest f = some m → m.Stands j → i ≤ j := by
    simp only [any_eq_false_iff high, ne_eq, compare_gt_iff_gt, not_lt]
  rw [← above, ← below]
  constructor
  · rintro ⟨-, -, range, multiple⟩
    rw [Bool.or_eq_false_iff] at range
    exact ⟨range.1, range.2, multiple⟩
  · rintro ⟨above, below, multiple⟩
    refine ⟨?_, ?_, Bool.or_eq_false_iff.mpr ⟨above, below⟩, multiple⟩
    · rw [whole, Bool.not_true, Bool.and_false]
    · rw [free]
      rfl

end Check

namespace NumberFormat

variable {format : NumberFormat}

theorem minimum_of_isBig (big : format.isBig = true) :
    format.minimum = if format = uint64 then some (signed 0) else none := by
  cases format <;> first | rfl | cases big

theorem maximum_of_isBig (big : format.isBig = true) : format.maximum = none := by
  cases format <;> first | rfl | cases big

theorem stands_signed_zero : (signed 0).Stands 0 := Number.stands_iff.mpr rfl

end NumberFormat

namespace NumberFacets

/-- Facets of an arbitrary-size format with integer bounds and divisor and no enum. -/
structure OfAnySize (f : NumberFacets) : Prop where
  format : ∃ format, f.format = some format ∧ format.isBig = true
  minimum : ∀ m, f.minimum = some m → ∃ j, m.Stands j
  maximum : ∀ m, f.maximum = some m → ∃ j, m.Stands j
  multipleOf : ∀ m, f.multipleOf = some m → ∃ j, m.Stands j
  free : f.allowed = []

/-- Within the bounds (0 from below for an unsigned format without `minimum`), and a multiple of a
nonzero `multipleOf`. -/
structure AdmitsExactly (f : NumberFacets) (i : Int) : Prop where
  atLeast : ∀ m j, f.minimum = some m → m.Stands j → j ≤ i
  natural : f.format = some .uint64 → f.minimum = none → 0 ≤ i
  atMost : ∀ m j, f.maximum = some m → m.Stands j → i ≤ j
  multiple : ∀ m j, f.multipleOf = some m → m.Stands j → j ≠ 0 ∧ j ∣ i

variable {f : NumberFacets} {x m : Number} {i : Int}

open Check

theorem OfAnySize.isExact_eq (big : f.OfAnySize) : isExact f = true := by
  obtain ⟨format, has, big⟩ := big.format
  rw [isExact, has, Option.any_some, big]

theorem OfAnySize.highest_eq (big : f.OfAnySize) : highest f = f.maximum := by
  obtain ⟨format, has, big⟩ := big.format
  rw [highest, has, Option.bind_some, NumberFormat.maximum_of_isBig big, Option.or_none]

theorem OfAnySize.lowest_eq_some_iff (big : f.OfAnySize) : lowest f = some m ↔
    f.minimum = some m ∨ f.minimum = none ∧ f.format = some .uint64 ∧ m = NumberFormat.signed 0 := by
  obtain ⟨format, has, big⟩ := big.format
  rw [lowest, has, Option.bind_some, NumberFormat.minimum_of_isBig big, Option.or_eq_some_iff,
    Option.some_inj]
  refine or_congr_right (and_congr_right fun _ => ?_)
  split
  · rename_i unsigned
    simp [unsigned, eq_comm]
  · rename_i other
    simp [other]

theorem OfAnySize.numberFits_iff (big : f.OfAnySize) (hx : x.toInt? = some i) (integer : Bool) :
    NumberFits f integer x ↔ f.AdmitsExactly i := by
  have tells {m : Number} (integral : ∃ j, m.Stands j) : Tells (isExact f) x i m := by
    obtain ⟨j, stands⟩ := integral
    rw [big.isExact_eq]
    exact ⟨j, stands, compareBy_exact hx (Number.stands_iff.mp stands)⟩
  have low (m : Number) (h : lowest f = some m) : Tells (isExact f) x i m := by
    rcases big.lowest_eq_some_iff.mp h with given | ⟨-, -, rfl⟩
    · exact tells (big.minimum m given)
    · exact tells ⟨0, NumberFormat.stands_signed_zero⟩
  have high (m : Number) (h : highest f = some m) : Tells (isExact f) x i m :=
    tells (big.maximum m (big.highest_eq ▸ h))
  have multiple {m : Number} {j : Int} (stands : m.Stands j) :
      x.isMultipleOf m (isExact f) = true ↔ j ≠ 0 ∧ j ∣ i := by
    rw [big.isExact_eq, Number.isMultipleOf, hx, Number.stands_iff.mp stands, Int.dvd_iff_emod_eq_zero]
    simp only [if_true, Bool.and_eq_true, bne_iff_ne, beq_iff_eq]
  rw [Check.numberFits_iff hx big.free low high, big.highest_eq]
  constructor
  · rintro ⟨above, below, divides⟩
    refine ⟨fun m j h => above m j (big.lowest_eq_some_iff.mpr (.inl h)), fun unsigned none => ?_, below, ?_⟩
    · exact above _ 0 (big.lowest_eq_some_iff.mpr (.inr ⟨none, unsigned, rfl⟩))
        NumberFormat.stands_signed_zero
    · exact fun m j h stands => (multiple stands).mp (divides m h)
  · intro admitted
    refine ⟨fun m j h stands => ?_, admitted.atMost, fun m h => ?_⟩
    · rcases big.lowest_eq_some_iff.mp h with given | ⟨none, unsigned, rfl⟩
      · exact admitted.atLeast m j given stands
      · obtain rfl := NumberFormat.stands_signed_zero.unique stands
        exact admitted.natural unsigned none
    · obtain ⟨j, stands⟩ := big.multipleOf m h
      exact (multiple stands).mpr (admitted.multiple m j h stands)

theorem OfAnySize.checksAs (big : f.OfAnySize) {o : ValidationOptions} {v : Value}
    (gives : v.GivesInteger o.strictTypes i) {alt : Node} (numeric : alt.shape = .number f) (l : Location) :
    ChecksAs o l v (·.AdmitsExactly i) (if o.coerceTypes then .number (.big i) else v) alt := by
  obtain ⟨x, read, hx⟩ := exists_numberOf? gives
  have coerced : coercedNumber (isExact f) x = .big i := by
    rw [big.isExact_eq, coercedNumber, if_pos rfl, hx]
  exact .of_fits numeric read (big.numberFits_iff hx) coerced l

end NumberFacets

namespace Validator

variable {v : Validator} {value : Value} {i : Int}

/-- A format of any size decides on exact integers, whatever form holds the value, the bounds and
the divisor, and under coercion returns exactly that integer. -/
theorem validate?_anySize (big : ∀ alt ∈ v.node.alternatives, ∃ f, alt.shape = .number f ∧ f.OfAnySize)
    (gives : value.GivesInteger v.options.strictTypes i) (steps : Nat) :
    ∃ r, v.validate? (steps + 2) value = some r ∧
      ((∃ w, r = .ok w) ↔ v.node.Offers value (·.AdmitsExactly i)) ∧
      (∀ w, r = .ok w → w = if v.options.coerceTypes then .number (.big i) else value) ∧
      ∀ f, v.node.alternatives? = none → v.node.shape = .number f → v.node.header.typeOf = none →
        ((∃ w, r = .ok w) ↔ f.AdmitsExactly i) := by
  have checks (alt : Node) (mem : alt ∈ v.node.alternatives) :
      Check.ChecksAs v.options [] value (·.AdmitsExactly i)
        (if v.options.coerceTypes then .number (.big i) else value) alt := by
    obtain ⟨f, numeric, big⟩ := big alt mem
    exact big.checksAs gives numeric []
  obtain ⟨r, decided, accepts, out⟩ :=
    validate?_amountsTo (Check.present_of_givesInteger gives) checks steps
  refine ⟨r, decided, accepts, out, fun f single shape plain => ?_⟩
  rw [accepts, Node.offers_iff_of_single single shape,
    and_iff_right (Check.passes_of_none plain value)]

def thirds : NumberFacets :=
  ⟨[], some .uint64, none, some (.float (.finite false (2 ^ 52) 18 (by decide))), some (.int 3)⟩

def thirdsNode : Node :=
  .extend (some 14) (some "Thirds") .integer [.ofBase .integer] Header.empty (.number thirds)

theorem thirds_maximum : ∀ m, thirds.maximum = some m → m.Stands (2 ^ 70) := by
  rintro _ ⟨⟩
  exact Number.stands_iff.mpr (by decide +kernel)

theorem thirds_multipleOf : ∀ m, thirds.multipleOf = some m → m.Stands 3 := by
  rintro _ ⟨⟩
  exact Number.stands_iff.mpr rfl

theorem validate?_anySize_of_thirds :
    validate? ⟨.initial, thirdsNode, .coercing⟩ 2 (.number (.big (2 ^ 70 - 1))) =
        some (.ok (.number (.big (2 ^ 70 - 1)))) ∧
      ¬∃ w, validate? ⟨.initial, thirdsNode, .coercing⟩ 2 (.string "1180591620717411303426") =
        some (.ok w) := by
  have big : ∀ alt ∈ thirdsNode.alternatives, ∃ f, alt.shape = .number f ∧ f.OfAnySize := by
    intro alt mem
    obtain rfl := List.mem_singleton.mp mem
    exact ⟨thirds, rfl, ⟨⟨.uint64, rfl, rfl⟩, fun _ => (nomatch ·), fun m h => ⟨_, thirds_maximum m h⟩,
      fun m h => ⟨_, thirds_multipleOf m h⟩, rfl⟩⟩
  constructor
  · have gives : (Value.number (.big (2 ^ 70 - 1))).GivesInteger false (2 ^ 70 - 1) :=
      .number (Number.stands_iff.mpr rfl)
    have admitted : thirds.AdmitsExactly (2 ^ 70 - 1) := by
      refine ⟨fun _ _ => (nomatch ·), fun _ _ => by decide, fun m j h stands => ?_, fun m j h stands => ?_⟩
      · rw [stands.unique (thirds_maximum m h)]
        decide
      · rw [stands.unique (thirds_multipleOf m h)]
        decide
    obtain ⟨r, decided, -, out, accepts⟩ :=
      validate?_anySize (v := ⟨.initial, thirdsNode, .coercing⟩) big gives 0
    obtain ⟨w, rfl⟩ := (accepts thirds rfl rfl rfl).mpr admitted
    rw [decided, out w rfl]
    rfl
  · have gives : (Value.string "1180591620717411303426").GivesInteger false (2 ^ 70 + 2) :=
      .numeral rfl (by decide +kernel)
    obtain ⟨r, decided, -, -, accepts⟩ :=
      validate?_anySize (v := ⟨.initial, thirdsNode, .coercing⟩) big gives 0
    rintro ⟨w, accepted⟩
    have admitted := (accepts thirds rfl rfl rfl).mp ⟨w, Option.some.inj (decided.symm.trans accepted)⟩
    have within := admitted.atMost _ _ rfl (thirds_maximum _ rfl)
    exact absurd within (by decide)

end Validator

/-! Formats with bounds. -/

namespace NumberFormat

variable {format : NumberFormat} {low high : Int}

/-- The range of a fixed-size format; that of `int` is where doubles are exact. -/
def range? : NumberFormat → Option (Int × Int)
  | int8 => some (-2 ^ 7, 2 ^ 7 - 1)
  | int16 => some (-2 ^ 15, 2 ^ 15 - 1)
  | int32 => some (-2 ^ 31, 2 ^ 31 - 1)
  | int => some (-(2 ^ 53 - 1), 2 ^ 53 - 1)
  | uint8 => some (0, 2 ^ 8 - 1)
  | uint16 => some (0, 2 ^ 16 - 1)
  | uint32 => some (0, 2 ^ 32 - 1)
  | int64 | uint64 | long | bigint | float | double => none

theorem isBig_of_range? (h : format.range? = some (low, high)) : format.isBig = false := by
  cases format <;> first | rfl | cases h

theorem minimum_of_range? (h : format.range? = some (low, high)) :
    low.natAbs < 2 ^ 53 ∧ ∃ m, format.minimum = some m ∧ m.Stands low := by
  cases format <;> cases h <;> exact ⟨by decide, _, rfl, Number.stands_iff.mpr (by decide)⟩

theorem maximum_of_range? (h : format.range? = some (low, high)) :
    high.natAbs < 2 ^ 53 ∧ ∃ m, format.maximum = some m ∧ m.Stands high := by
  cases format <;> cases h <;> exact ⟨by decide, _, rfl, Number.stands_iff.mpr (by decide)⟩

end NumberFormat

namespace NumberFacets

def ofFormat (format : NumberFormat) : NumberFacets := ⟨[], some format, none, none, none⟩

def Spans (f : NumberFacets) (i : Int) : Prop :=
  ∃ low high, f.format.bind NumberFormat.range? = some (low, high) ∧ low ≤ i ∧ i ≤ high

variable {format : NumberFormat} {low high i : Int} {x : Number}

open Check

theorem spans_ofFormat_iff (range : format.range? = some (low, high)) :
    (ofFormat format).Spans i ↔ low ≤ i ∧ i ≤ high := by
  have bound : (ofFormat format).format.bind NumberFormat.range? = some (low, high) := range
  rw [Spans, bound]
  constructor
  · rintro ⟨_, _, ⟨⟩, within⟩
    exact within
  · exact fun within => ⟨low, high, rfl, within⟩

theorem numberFits_ofFormat_iff (range : format.range? = some (low, high)) (hx : x.toInt? = some i)
    (integer : Bool) : NumberFits (ofFormat format) integer x ↔ low ≤ i ∧ i ≤ high := by
  have rounded : isExact (ofFormat format) = false := NumberFormat.isBig_of_range? range
  obtain ⟨small, least, hl, stands⟩ := NumberFormat.minimum_of_range? range
  obtain ⟨small', greatest, hg, stands'⟩ := NumberFormat.maximum_of_range? range
  have lowest_eq : lowest (ofFormat format) = some least := hl
  have highest_eq : highest (ofFormat format) = some greatest := hg
  have tells {m : Number} {j : Int} (small : j.natAbs < 2 ^ 53) (stands : m.Stands j) :
      Tells (isExact (ofFormat format)) x i m := by
    rw [rounded]
    exact ⟨j, stands, compareBy_rounded hx (Number.stands_iff.mp stands) small⟩
  rw [Check.numberFits_iff hx rfl (fun m h => ?_) (fun m h => ?_), lowest_eq, highest_eq, stands.forall_iff,
    stands'.forall_iff]
  · constructor
    · rintro ⟨above, below, -⟩
      exact ⟨above, below⟩
    · rintro ⟨above, below⟩
      exact ⟨above, below, fun _ h => nomatch h⟩
  · obtain rfl := Option.some.inj (lowest_eq.symm.trans h)
    exact tells small stands
  · obtain rfl := Option.some.inj (highest_eq.symm.trans h)
    exact tells small' stands'

end NumberFacets

namespace Validator

variable {v : Validator} {value : Value} {i : Int}

/-- A fixed-size format accepts exactly the integers of its range: comparison after rounding to a
double moves no integer across a bound. -/
theorem validate?_inRange (formats : ∀ alt ∈ v.node.alternatives, ∃ format low high,
      alt.shape = .number (.ofFormat format) ∧ format.range? = some (low, high))
    (gives : value.GivesInteger v.options.strictTypes i) (steps : Nat) :
    ∃ r, v.validate? (steps + 2) value = some r ∧ ((∃ w, r = .ok w) ↔ v.node.Offers value (·.Spans i)) ∧
      ∀ format low high, v.node.alternatives? = none → v.node.shape = .number (.ofFormat format) →
        format.range? = some (low, high) → v.node.header.typeOf = none →
        ((∃ w, r = .ok w) ↔ low ≤ i ∧ i ≤ high) := by
  obtain ⟨x, read, hx⟩ := Check.exists_numberOf? gives
  have checks (alt : Node) (mem : alt ∈ v.node.alternatives) : Check.ChecksAs v.options [] value (·.Spans i)
      (if v.options.coerceTypes then .number x else value) alt := by
    obtain ⟨format, low, high, shape, range⟩ := formats alt mem
    have kept : Check.coercedNumber (Check.isExact (.ofFormat format)) x = x :=
      if_neg (Bool.eq_false_iff.mp (NumberFormat.isBig_of_range? range))
    have fits (integer : Bool) :=
      (NumberFacets.numberFits_ofFormat_iff range hx integer).trans (NumberFacets.spans_ofFormat_iff range).symm
    exact .of_fits shape read fits kept []
  obtain ⟨r, decided, accepts, -⟩ := validate?_amountsTo (Check.present_of_givesInteger gives) checks steps
  refine ⟨r, decided, accepts, fun format low high single shape range plain => ?_⟩
  rw [accepts, Node.offers_iff_of_single single shape, and_iff_right (Check.passes_of_none plain value),
    NumberFacets.spans_ofFormat_iff range]

def plainNode : Node :=
  .extend (some 14) (some "Plain") .number [.ofBase .number] Header.empty (.number (.ofFormat .int))

theorem validate?_inRange_of_plain :
    (∃ w, validate? ⟨.initial, plainNode, .strict⟩ 2 (.number (.int (2 ^ 53 - 1))) = some (.ok w)) ∧
      (¬∃ w, validate? ⟨.initial, plainNode, .strict⟩ 2 (.number (.uint (2 ^ 53))) = some (.ok w)) ∧
      ¬∃ w, validate? ⟨.initial, plainNode, .strict⟩ 2 (.number (.big (10 ^ 400))) = some (.ok w) := by
  have formats : ∀ alt ∈ plainNode.alternatives, ∃ format low high,
      alt.shape = .number (.ofFormat format) ∧ format.range? = some (low, high) := by
    intro alt mem
    obtain rfl := List.mem_singleton.mp mem
    exact ⟨.int, _, _, rfl, rfl⟩
  have accepts {n : Number} {i : Int} (hn : n.toInt? = some i) :
      (∃ w, validate? ⟨.initial, plainNode, .strict⟩ 2 (.number n) = some (.ok w)) ↔
        -(2 ^ 53 - 1) ≤ i ∧ i ≤ 2 ^ 53 - 1 := by
    obtain ⟨r, decided, -, accepts⟩ := validate?_inRange (v := ⟨.initial, plainNode, .strict⟩) formats
      (.number (Number.stands_iff.mpr hn)) 0
    rw [← accepts .int _ _ rfl rfl rfl rfl, decided]
    simp only [Option.some_inj]
  refine ⟨(accepts (i := 2 ^ 53 - 1) (by decide)).mpr (by decide), ?_, ?_⟩
  · rw [accepts (i := 2 ^ 53) (by decide)]
    decide
  · rw [accepts (i := 10 ^ 400) rfl]
    have beyond : (2 ^ 53 - 1 : Int) < 10 ^ 400 :=
      lt_of_lt_of_le (by decide) (pow_le_pow_right₀ (by decide) (by decide : 20 ≤ 400))
    exact fun within => absurd within.2 beyond.not_ge

end Validator

end Schemata

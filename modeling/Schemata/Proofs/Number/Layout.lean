import Schemata.Json.Numeral
import Schemata.Proofs.Number.Shortest
import Schemata.Proofs.Text.Numeral

/-! Floating-point numbers laid out as text. What is laid out is a decimal literal of the digits that
were chosen, so finite numbers with one text are one number. -/

namespace Schemata

/-- A decimal literal in its parts, with a digit in front. -/
structure Spelling where
  whole : List Char
  fraction : Option (List Char)
  power : Option Int
  digits : ∀ c ∈ whole ++ fraction.getD [], c.isDigit = true
  starts : whole ≠ []

namespace DecimalLiteral

def size (l : DecimalLiteral) : ℚ := l.digits * 10 ^ l.exponent

end DecimalLiteral

namespace Spelling

variable (s : Spelling)

def powerChars (e : Int) : List Char :=
  'e' :: (if e < 0 then '-' else '+') :: Text.numeral e.natAbs

def fractionChars (digits : List Char) : List Char := '.' :: digits

def chars : List Char :=
  s.whole ++ (s.fraction.elim [] fractionChars ++ s.power.elim [] powerChars)

def literal : DecimalLiteral :=
  ⟨false, Text.numeralValue (s.whole ++ s.fraction.getD []),
    s.power.getD 0 - (s.fraction.getD []).length⟩

theorem exponentPart?_power (power : Option Int) :
    DecimalLiteral.exponentPart? (power.elim [] powerChars) = some (power.getD 0) := by
  rcases power with _ | e
  · rfl
  · change Text.signedNumeral? ((if e < 0 then '-' else '+') :: Text.numeral e.natAbs) = some e
    split
    · rw [Text.signedNumeral?_minus]
      exact congrArg some (by omega)
    · rw [Text.signedNumeral?_plus]
      exact congrArg some (by omega)

theorem power_ends (power : Option Int) :
    ∀ c ∈ (power.elim [] powerChars).head?, c.isDigit = false := by
  rcases power with _ | e
  · exact fun _ h => nomatch h
  · rintro _ ⟨⟩
    rfl

theorem exists_digit : ∃ c rest, s.chars = c :: rest ∧ c.isDigit = true := by
  rcases hw : s.whole with _ | ⟨c, rest⟩
  · exact absurd hw s.starts
  · have member : c ∈ s.whole := hw ▸ List.mem_cons_self
    exact ⟨c, rest ++ _, by rw [chars, hw]; rfl, s.digits c (List.mem_append_left _ member)⟩

theorem chars_ne_nil : s.chars ≠ [] := List.append_ne_nil_of_left_ne_nil s.starts _

theorem ofChars?_chars : DecimalLiteral.ofChars? s.chars = some s.literal := by
  obtain ⟨c, rest, starts, digit⟩ := s.exists_digit
  have sign : Text.splitSign s.chars = (false, s.chars) := by
    rw [starts, Text.splitSign_of_digit digit]
  have some_whole : s.whole.isEmpty = false := List.isEmpty_eq_false_iff.mpr s.starts
  have power := exponentPart?_power s.power
  have digits (c : Char) (h : c ∈ s.whole) : c.isDigit = true := s.digits c (List.mem_append_left _ h)
  unfold DecimalLiteral.ofChars?
  rw [sign]
  unfold chars literal
  rcases hf : s.fraction with _ | fraction
  · have whole := Text.span_append digits (power_ends s.power)
    -- The digits end here, since there is no point.
    have other : ∀ rest, s.power.elim [] powerChars ≠ '.' :: rest := by
      rcases s.power with _ | e
      · exact fun _ h => nomatch h
      · exact fun _ h => nomatch h
    simp only [Option.elim_none, List.nil_append, whole, some_whole, Bool.false_and,
      Bool.false_eq_true, if_false]
    rw [power]
    simp
  · have stop : ∀ c ∈ (fractionChars fraction ++ s.power.elim [] powerChars).head?,
        c.isDigit = false := by
      rintro _ ⟨⟩
      rfl
    have whole := Text.span_append digits stop
    have digits (c : Char) (h : c ∈ fraction) : c.isDigit = true := by
      refine s.digits c (List.mem_append_right _ ?_)
      rw [hf]
      exact h
    have after := Text.span_append digits (power_ends s.power)
    simp only [Option.elim_some, whole, some_whole, Bool.false_and, Bool.false_eq_true, if_false]
    simp only [fractionChars, List.cons_append, after, power]
    rfl

structure Spells (s : Spelling) (text : List Char) (x : ℚ) : Prop where
  chars : s.chars = text
  size : s.literal.size = x
  marked : s.fraction ≠ none ∨ s.power ≠ none

end Spelling

namespace Decimal

variable {d : Decimal} {digits : List Char} {first : Int}

theorem exists_significant (nonzero : d.digits ≠ 0) :
    ∃ digits first, d.significant = (digits, first) ∧ digits ≠ [] ∧
      (∀ c ∈ digits, c.isDigit = true) ∧ d.exponent ≤ first + 1 - digits.length ∧
      Text.numeralValue digits * 10 ^ (first + 1 - digits.length) = d.value := by
  obtain ⟨numeral, hn⟩ : ∃ s, Text.numeral d.digits = s := ⟨_, rfl⟩
  obtain ⟨digits, hd⟩ : ∃ s, (numeral.reverse.dropWhile (· == '0')).reverse = s := ⟨_, rfl⟩
  obtain ⟨k, split⟩ := Text.exists_zeros_append numeral
  rw [hd] at split
  have value : d.digits = 10 ^ k * Text.numeralValue digits := by
    rw [← Text.numeralValue_append_zeros, ← split, ← hn, Text.numeralValue_numeral]
  have length : (numeral.length : Int) = digits.length + k := by
    rw [split, List.length_append, List.length_replicate, Nat.cast_add]
  refine ⟨digits, d.exponent + numeral.length - 1, ?_, ?_, fun c hc => ?_, by omega, ?_⟩
  · unfold significant
    dsimp only
    rw [hn, hd]
  · rintro rfl
    exact nonzero value
  · have member : c ∈ Text.numeral d.digits := by
      rw [hn, split]
      exact List.mem_append_left _ hc
    exact Text.isDigit_of_mem_numeral member
  · have exponent : d.exponent + numeral.length - 1 + 1 - digits.length = d.exponent + k := by omega
    unfold Decimal.value
    rw [exponent, value, zpow_add₀ (by norm_num), zpow_natCast]
    push_cast
    ring

theorem exists_spells_below (digit : ∀ c ∈ digits, c.isDigit = true) (k : Nat) :
    ∃ s : Spelling, s.Spells ('0' :: '.' :: (List.replicate k '0' ++ digits))
      (Text.numeralValue digits * 10 ^ (-(k + digits.length) : Int)) := by
  refine ⟨⟨['0'], some (List.replicate k '0' ++ digits), none, fun c hc => ?_, List.cons_ne_nil _ _⟩,
    ?_, ?_, .inl (Option.some_ne_none _)⟩
  · rcases List.mem_append.mp hc with hc | hc
    · exact Text.isDigit_of_mem_zeros (k := 1) hc
    · exact (List.mem_append.mp hc).elim Text.isDigit_of_mem_zeros (digit c)
  · simp [Spelling.chars, Spelling.fractionChars]
  · have value : Text.numeralValue (['0'] ++ (List.replicate k '0' ++ digits)) =
        Text.numeralValue digits := by
      rw [← List.append_assoc, ← List.replicate_one, List.replicate_append_replicate]
      exact Text.numeralValue_zeros_append _ _
    simp only [DecimalLiteral.size, Spelling.literal, Option.getD_some, Option.getD_none, value,
      List.length_append, List.length_replicate, Nat.cast_add, zero_sub]

theorem exists_spells_whole (some_digits : digits ≠ []) (digit : ∀ c ∈ digits, c.isDigit = true)
    (k : Nat) : ∃ s : Spelling, s.Spells (digits ++ List.replicate k '0' ++ ['.', '0'])
      (Text.numeralValue digits * 10 ^ (k : Int)) := by
  refine ⟨⟨digits ++ List.replicate k '0', some ['0'], none, fun c hc => ?_,
    List.append_ne_nil_of_left_ne_nil some_digits _⟩, ?_, ?_, .inl (Option.some_ne_none _)⟩
  · rcases List.mem_append.mp hc with hc | hc
    · exact (List.mem_append.mp hc).elim (digit c) Text.isDigit_of_mem_zeros
    · exact Text.isDigit_of_mem_zeros (k := 1) hc
  · simp [Spelling.chars, Spelling.fractionChars]
  · have value : Text.numeralValue (digits ++ List.replicate k '0' ++ ['0']) =
        10 ^ (k + 1) * Text.numeralValue digits := by
      rw [List.append_assoc, ← List.replicate_one, List.replicate_append_replicate]
      exact Text.numeralValue_append_zeros _ _
    simp only [DecimalLiteral.size, Spelling.literal, Option.getD_some, Option.getD_none, value,
      List.length_singleton, Nat.cast_one, zero_sub, zpow_neg_one, zpow_natCast]
    push_cast
    ring

theorem exists_spells_among (some_digits : digits ≠ []) (digit : ∀ c ∈ digits, c.isDigit = true)
    (k : Nat) : ∃ s : Spelling, s.Spells (digits.take (k + 1) ++ '.' :: digits.drop (k + 1))
      (Text.numeralValue digits * 10 ^ (-(digits.drop (k + 1)).length : Int)) := by
  refine ⟨⟨digits.take (k + 1), some (digits.drop (k + 1)), none, ?_, ?_⟩, ?_, ?_,
    .inl (Option.some_ne_none _)⟩
  · rw [Option.getD_some, List.take_append_drop]
    exact digit
  · rw [Ne, List.take_eq_nil_iff, not_or]
    exact ⟨Nat.succ_ne_zero _, some_digits⟩
  · simp [Spelling.chars, Spelling.fractionChars]
  · simp only [DecimalLiteral.size, Spelling.literal, Option.getD_some, Option.getD_none,
      List.take_append_drop, zero_sub]

theorem exists_spells_positional (some_digits : digits ≠ []) (digit : ∀ c ∈ digits, c.isDigit = true)
    (first : Int) : ∃ s : Spelling, s.Spells (positional ['.', '0'] digits first)
      (Text.numeralValue digits * 10 ^ (first + 1 - digits.length)) := by
  unfold positional
  split
  · have exponent : first + 1 - digits.length = -(((-first - 1).toNat : Int) + digits.length) := by
      omega
    rw [exponent]
    exact exists_spells_below digit _
  · dsimp only
    split
    · have exponent : first + 1 - digits.length = ((first.toNat + 1 - digits.length : Nat) : Int) := by
        omega
      rw [exponent]
      exact exists_spells_whole some_digits digit _
    · have exponent : first + 1 - digits.length = -((digits.drop (first.toNat + 1)).length : Int) := by
        rw [List.length_drop]
        omega
      rw [exponent]
      exact exists_spells_among some_digits digit _

theorem exists_spells_scientific (some : digits ≠ []) (digit : ∀ c ∈ digits, c.isDigit = true)
    (first : Int) : ∃ s : Spelling, s.Spells (scientific digits first)
      (Text.numeralValue digits * 10 ^ (first + 1 - digits.length)) := by
  rcases digits with _ | ⟨c, _ | ⟨c', rest⟩⟩
  · exact absurd rfl some
  · refine ⟨⟨[c], .none, .some first, ?_, by simp⟩, rfl, ?_, .inr (Option.some_ne_none _)⟩
    · rw [Option.getD_none, List.append_nil]
      exact digit
    · simp [DecimalLiteral.size, Spelling.literal]
  · refine ⟨⟨[c], .some (c' :: rest), .some first, ?_, by simp⟩, ?_, ?_, .inr (Option.some_ne_none _)⟩
    · exact digit
    · simp [Spelling.chars, Spelling.fractionChars, Spelling.powerChars, scientific]
    · have exponent : first + 1 - ((c :: c' :: rest).length : Int) = first - (c' :: rest).length := by
        rw [List.length_cons (a := c)]
        omega
      rw [exponent]
      rfl

end Decimal

namespace FloatLayout

open Double

variable {layout : FloatLayout} {m m' : Nat} {q q' : Int} {x y : Double} {text : List Char}

theorem exists_spells_magnitude (layout : FloatLayout) (whole : layout.wholeTail = ['.', '0'])
    (canonical : Canonical m q) :
    ∃ s : Spelling, ∃ x, s.Spells (layout.magnitude m q) x ∧ Rounds m q x := by
  unfold magnitude
  split
  · rename_i zero
    have digits (c : Char) (h : c ∈ ['0'] ++ ['0']) : c.isDigit = true :=
      Text.isDigit_of_mem_zeros (k := 2) h
    have value : Text.numeralValue (['0'] ++ ['0']) = 0 := rfl
    refine ⟨⟨['0'], some ['0'], none, digits, List.cons_ne_nil _ _⟩, 0,
      ⟨?_, ?_, .inl (Option.some_ne_none _)⟩, ?_⟩
    · rw [whole]
      rfl
    · simp only [DecimalLiteral.size, Spelling.literal, Option.getD_some, value, Nat.cast_zero, zero_mul]
    · rw [zero]
      exact rounds_zero q
  · rename_i nonzero
    have rounds := Decimal.rounds_shortest layout.tie canonical nonzero
    have digits := Decimal.shortest_digits_ne_zero layout.tie canonical nonzero
    obtain ⟨digits, first, found, some, digit, -, value⟩ := Decimal.exists_significant digits
    rw [← value] at rounds
    rw [found, whole]
    dsimp only
    split
    · obtain ⟨s, spells⟩ := Decimal.exists_spells_positional some digit first
      exact ⟨s, _, spells, rounds⟩
    · obtain ⟨s, spells⟩ := Decimal.exists_spells_scientific some digit first
      exact ⟨s, _, spells, rounds⟩

theorem magnitude_injective (whole : layout.wholeTail = ['.', '0']) (canonical : Canonical m q)
    (canonical' : Canonical m' q') (same : layout.magnitude m q = layout.magnitude m' q') :
    m = m' ∧ q = q' := by
  obtain ⟨s, x, spells, rounds⟩ := exists_spells_magnitude _ whole canonical
  obtain ⟨s', x', spells', rounds'⟩ := exists_spells_magnitude _ whole canonical'
  have literal : s.literal = s'.literal := by
    refine Option.some.inj ?_
    rw [← s.ofChars?_chars, ← s'.ofChars?_chars, spells.chars, spells'.chars, same]
  have value : x = x' := by rw [← spells.size, ← spells'.size, literal]
  exact rounds.unique (value ▸ rounds') canonical.normal canonical'.normal

theorem write?_injective (whole : layout.wholeTail = ['.', '0']) (hx : layout.write? x = some text)
    (hy : layout.write? y = some text) : x = y := by
  rcases x with _ | _ | ⟨s, m, q, canonical⟩
  · cases hx
  · cases hx
  rcases y with _ | _ | ⟨s', m', q', canonical'⟩
  · cases hy
  · cases hy
  obtain ⟨z, _, spells, -⟩ := exists_spells_magnitude _ whole canonical
  obtain ⟨z', _, spells', -⟩ := exists_spells_magnitude _ whole canonical'
  obtain ⟨c, rest, starts, digit⟩ := z.exists_digit
  obtain ⟨c', rest', starts', digit'⟩ := z'.exists_digit
  have same := Option.some.inj (hx.trans hy.symm)
  have sign : s = s' := by
    rw [← spells.chars, ← spells'.chars, starts, starts'] at same
    rcases s with _ | _ <;> rcases s' with _ | _
    · rfl
    · obtain ⟨rfl, -⟩ := List.cons.inj same
      cases digit
    · obtain ⟨rfl, -⟩ := List.cons.inj same
      cases digit'
    · rfl
  subst sign
  obtain ⟨rfl, rfl⟩ := magnitude_injective whole canonical canonical' (List.append_cancel_left same)
  rfl

end FloatLayout
end Schemata

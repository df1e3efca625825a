import Schemata.Declaration.Reader
import Schemata.Proofs.Json.WideNumeral
import Schemata.Proofs.Number.Display

/-! Integers as facets of declarations. What is written of an integer is always taken as a number; it is the same
integer where a word holds it, and where it is written as a string. -/

namespace Schemata

theorem Json.outline_openRecord (s : List Char) : Json.outline (String.ofList ('\x7b' :: s)) =
    .entries (Json.elements '\x7d' (Json.entry (Json.value 126)) s).1
      ((Json.elements '\x7d' (Json.entry (Json.value 126)) s).2.any Json.isEnd) := by
  rw [Json.outline, String.toList_ofList, Json.skipSpace_cons rfl]
  rfl

theorem Reading.number_string {s : String} {n : Number} (taken : Number.ofText? s = some n) :
    Reading.number (Tree.string s).reading = .ok (some n) := by
  unfold Tree.reading Reading.number
  dsimp only
  rw [taken]

inductive NumberFacet where
  | minimum
  | maximum
  | multipleOf

namespace NumberFacet

def key : NumberFacet → String
  | minimum => "minimum"
  | maximum => "maximum"
  | multipleOf => "multipleOf"

def set (facet : NumberFacet) (d : Declaration) (n : Option Number) : Declaration :=
  match facet with
  | minimum => { d with details.minimum := n }
  | maximum => { d with details.maximum := n }
  | multipleOf => { d with details.multipleOf := n }

def declaration (facet : NumberFacet) (written : List Char) : String :=
  String.ofList (Json.record [Json.member facet.key written])

theorem find?_fields (facet : NumberFacet) : Declaration.fields.find? (fun f => f.name == facet.key) =
    some ⟨facet.key, fun d r => return facet.set d (← Reading.number r)⟩ := by
  cases facet <;> rfl

theorem ofText?_declaration (facet : NumberFacet) {written : List Char} {t : Tree}
    (read : Json.Reads (Json.value 126) written t) :
    Declaration.ofText? (facet.declaration written) =
      (Reading.number t.reading).map (facet.set .blank) := by
  have members : List.Forall₂ (Json.Reads (Json.entry (Json.value 126)))
      [Json.member facet.key written] [(facet.key, t)] := .cons (Json.reads_member facet.key read) .nil
  have outline : Json.outline (facet.declaration written) = .entries [(facet.key, t)] true := by
    rw [declaration, Json.record, List.cons_append, Json.outline_openRecord,
      Json.elements_of_reads (.inr rfl) members []]
    rfl
  have entries : RecordField.ofEntries .malformed Declaration.fields [] .blank [(facet.key, t.reading)] =
      (Reading.number t.reading).map (facet.set .blank) := by
    unfold RecordField.ofEntries
    rw [List.contains_nil, if_neg Bool.false_ne_true, find?_fields]
    dsimp only
    cases Reading.number t.reading <;> rfl
  rw [Declaration.ofText?, outline, RecordField.ofOutline, List.map_singleton, entries]
  cases Reading.number t.reading <;> rfl

end NumberFacet

namespace Json.Numeral

variable {n : Number} {i : Int}

theorem encode_of_held (whole : n.toInt? = some i) (integer : ∀ x, n ≠ .float x) (held : FitsInt128 i) :
    encode n = Text.signedNumeral i := by
  cases n with
  | float x => exact absurd rfl (integer x)
  | int v =>
    obtain rfl := Option.some.inj whole
    rfl
  | uint v =>
    obtain rfl := Option.some.inj whole
    exact (if_neg (Int.not_lt.mpr (Int.natCast_nonneg _))).symm
  | big v =>
    obtain rfl := Option.some.inj whole
    exact if_pos held

theorem encodeChar_of_mem_signedNumeral {c : Char} (member : c ∈ Text.signedNumeral i) :
    Quoted.encodeChar c = [c] := by
  rcases Text.mem_signedNumeral member with digit | rfl
  · have low := (Char.isDigit_iff_toNat.mp digit).1
    have high := (Char.isDigit_iff_toNat.mp digit).2
    have other {d : Char} (out : d.toNat < '0'.toNat ∨ '9'.toNat < d.toNat) : c ≠ d := by
      rintro rfl
      omega
    have graphic : ¬c.toNat < 0x20 := by
      have zero : '0'.toNat = 48 := rfl
      omega
    unfold Quoted.encodeChar
    rw [if_neg (other (by decide)), if_neg (other (by decide)), if_neg (other (by decide)),
      if_neg (other (by decide)), if_neg (other (by decide)), if_neg (other (by decide)),
      if_neg (other (by decide)), if_neg graphic]
  · rfl

theorem encode_of_beyond (whole : n.toInt? = some i) (integer : ∀ x, n ≠ .float x) (beyond : ¬FitsInt128 i) :
    encode n = Quoted.encode (Text.signedNumeral i) := by
  have powers : Int.pow 2 127 = 2 ^ 127 := by decide
  have plain : (Text.signedNumeral i).flatMap Quoted.encodeChar = Text.signedNumeral i := by
    rw [List.flatMap_congr fun c member => encodeChar_of_mem_signedNumeral member, List.flatMap_singleton']
  rw [Quoted.encode, plain]
  cases n with
  | float x => exact absurd rfl (integer x)
  | int v =>
    obtain rfl := Option.some.inj whole
    have low := v.le_toInt
    have high := v.toInt_lt
    unfold FitsInt128 at beyond
    omega
  | uint v =>
    obtain rfl := Option.some.inj whole
    have high := v.toNat_lt
    unfold FitsInt128 at beyond
    omega
  | big v =>
    obtain rfl := Option.some.inj whole
    exact if_neg beyond

theorem exists_reads_encode (whole : n.toInt? = some i) (integer : ∀ x, n ≠ .float x) :
    ∃ t m, (∀ depth, Reads (value depth) (encode n) t) ∧ Reading.number t.reading = .ok (some m) ∧
      (m.equal n = true ↔ FitsWord i ∨ ¬FitsInt128 i ∨ (nearby i).toInt? = some i) := by
  by_cases held : FitsInt128 i
  · rw [encode_of_held whole integer held]
    by_cases word : FitsWord i
    · obtain ⟨m, decoded, value⟩ := decode_signedNumeral word.1 word.2
      refine ⟨.number m, m, fun depth => reads_of_decode decoded, rfl, iff_of_true ?_ (.inl word)⟩
      exact Number.equal_of_toInt? value whole
    · refine ⟨.number (.float (nearby i)), .float (nearby i), fun depth =>
        reads_of_decode fun rest stops => decode_of_wide held word stops, rfl, ?_⟩
      rw [or_iff_right word, or_iff_right (not_not.mpr held)]
      refine ⟨fun same => ?_, fun value => Number.equal_of_toInt? value whole⟩
      have finite := isFinite_nearby held word
      obtain rfl | ⟨j, value, same⟩ := Number.eq_or_toInt?_of_equal same (fun x h => Number.float.inj h ▸ finite)
        (Number.isFinite_of_toInt? whole)
      · exact absurd rfl (integer _)
      · rw [whole] at same
        exact value.trans same.symm
  · refine ⟨.string (String.ofList (Text.signedNumeral i)), Number.ofNumeral i, fun depth => ?_, ?_, ?_⟩
    · have read : Reads (Json.value depth) _ _ := reads_string (String.ofList (Text.signedNumeral i))
      rw [encode_of_beyond whole integer held]
      rwa [String.toList_ofList] at read
    · have writes := Text.writesInteger_signedNumeral i
      have taken : Number.ofText? (String.ofList (Text.signedNumeral i)) = some (Number.ofNumeral i) := by
        refine Number.ofText?_of_writes ?_
        rwa [String.toList_ofList, writes.trim_eq]
      exact Reading.number_string taken
    · exact iff_of_true (Number.equal_of_toInt? (Number.toInt?_ofNumeral i) whole) (.inr (.inl held))

end Json.Numeral

namespace NumberFacet

open Json.Numeral

variable {n : Number} {i : Int}

/-- An integer written as a numeric facet is read back as the same integer exactly when it fits a
64-bit word, when it is beyond 128 bits (and so written as a string), or when the double read from
its digits equals it. -/
theorem reads_back_iff (whole : n.toInt? = some i) (integer : ∀ x, n ≠ .float x) :
    ∃ m, (∃ t, (∀ depth, Json.Reads (Json.value depth) (encode n) t) ∧
        Reading.number t.reading = .ok (some m)) ∧
      (∀ facet : NumberFacet, Declaration.ofText? (facet.declaration (encode n)) =
        .ok (facet.set .blank (some m))) ∧
      (m.equal n = true ↔ FitsWord i ∨ ¬FitsInt128 i ∨ (nearby i).toInt? = some i) := by
  obtain ⟨t, m, read, taken, same⟩ := exists_reads_encode whole integer
  refine ⟨m, ⟨t, read, taken⟩, fun facet => ?_, same⟩
  rw [facet.ofText?_declaration (read 126), taken]
  rfl

theorem reads_back_of_beyond : ∃ m,
    Declaration.ofText? (multipleOf.declaration (encode (.big (Int.pow 2 130 + 1)))) =
      .ok (multipleOf.set .blank (some m)) ∧ m.equal (.big (Int.pow 2 130 + 1)) = true := by
  obtain ⟨m, -, taken, same⟩ := reads_back_iff (n := .big (Int.pow 2 130 + 1)) rfl fun _ h => nomatch h
  exact ⟨m, taken .multipleOf, same.mpr (.inr (.inl (by decide)))⟩

/-- `2 ^ 64 + 1` is written as its digits, which are read as the double `2 ^ 64`. -/
theorem not_reads_back : ¬∀ (n : Number) (i : Int), n.toInt? = some i → (∀ x, n ≠ .float x) →
    ∃ m, Declaration.ofText? (maximum.declaration (encode n)) = .ok (maximum.set .blank (some m)) ∧
      m.equal n = true := by
  intro each
  obtain ⟨m, taken, same⟩ := each (.big 18446744073709551617) _ rfl fun _ h => nomatch h
  have found : (success? (Declaration.ofText? (maximum.declaration (encode (.big 18446744073709551617))))).bind
      (·.details.maximum) = some (.float (.finite false (Nat.pow 2 52) 12 (by decide))) := by
    decide +kernel
  rw [taken] at found
  obtain rfl := Option.some.inj found
  have other : (Number.float (.finite false (Nat.pow 2 52) 12 (by decide))).equal (.big 18446744073709551617) =
      false := by decide +kernel
  rw [other] at same
  cases same

end NumberFacet
end Schemata

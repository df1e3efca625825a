import Mathlib.Tactic.SplitIfs
import Schemata.Json.Quoted

/-! Strings in JSON text: what is written reads back, and what follows it is left. -/

namespace Schemata.Json.Quoted

theorem unit?_control : ∀ n < 32,
    unit? '0' '0' (Text.hexDigit (n / 16)) (Text.hexDigit (n % 16)) = some n := by
  decide

theorem decode_plain {c : Char} (quote : c ≠ '"') (slash : c ≠ '\\') (graphic : ¬c.toNat < 0x20)
    (rest : List Char) :
    decode (c :: rest) = (decode rest).map fun (s, rest) => (c :: s, rest) := by
  have stays : ¬(decide (c.toNat < 0x20) || decide (c = '\\')) = true := by
    simp only [Bool.or_eq_true, decide_eq_true_eq, graphic, slash, or_self, not_false_eq_true]
  rw [decode.eq_def]
  split
  · rename_i h
    cases h
  · rename_i h
    exact absurd (List.cons.inj h).1 quote
  · rename_i h
    exact absurd (List.cons.inj h).1 slash
  · rename_i h
    exact absurd (List.cons.inj h).1 slash
  · rename_i h
    obtain ⟨rfl, rfl⟩ := List.cons.inj h
    rw [if_neg stays]

theorem decode_escape {e c : Char} (h : escaped? e = some c) (rest : List Char) :
    decode ('\\' :: e :: rest) = (decode rest).map fun (s, rest) => (c :: s, rest) := by
  rw [decode.eq_def]
  split
  · rename_i h
    cases h
  · rename_i h
    cases (List.cons.inj h).1
  · rename_i same
    obtain ⟨rfl, -⟩ := List.cons.inj (List.cons.inj same).2
    cases h
  · rename_i same
    obtain ⟨rfl, rfl⟩ := List.cons.inj (List.cons.inj same).2
    rw [h]
  · rename_i other same
    obtain ⟨rfl, rfl⟩ := List.cons.inj same
    exact absurd rfl (other _ _ rfl)

theorem decode_encodeChar (c : Char) (rest : List Char) :
    decode (encodeChar c ++ rest) = (decode rest).map fun (s, rest) => (c :: s, rest) := by
  unfold encodeChar
  split_ifs with h1 h2 h3 h4 h5 h6 h7 h8
  · exact decode_escape (h1.symm ▸ rfl) rest
  · exact decode_escape (h2.symm ▸ rfl) rest
  · exact decode_escape (h3 ▸ rfl) rest
  · exact decode_escape (h4 ▸ rfl) rest
  · exact decode_escape (h5 ▸ rfl) rest
  · exact decode_escape (h6 ▸ rfl) rest
  · exact decode_escape (h7 ▸ rfl) rest
  · have unit := unit?_control c.toNat h8
    have trail : isTrail c.toNat = false := by
      simp only [isTrail, Bool.and_eq_false_iff, decide_eq_false_iff_not]
      omega
    have lead : isLead c.toNat = false := by
      simp only [isLead, Bool.and_eq_false_iff, decide_eq_false_iff_not]
      omega
    simp only [List.cons_append, List.nil_append, decode, unit, trail, lead, Bool.false_eq_true, if_false,
      Char.ofNat_toNat]
  · exact decode_plain h1 h2 h8 rest

theorem decode_flatMap (s rest : List Char) :
    decode (s.flatMap encodeChar ++ '"' :: rest) = some (s, rest) := by
  induction s with
  | nil => simp [decode]
  | cons c s ih =>
    rw [List.flatMap_cons, List.append_assoc, decode_encodeChar, ih]
    rfl

theorem encode_append_inj {s s' rest rest' : List Char} (h : encode s ++ rest = encode s' ++ rest') :
    s = s' ∧ rest = rest' := by
  have body (s rest : List Char) : encode s ++ rest = '"' :: (s.flatMap encodeChar ++ '"' :: rest) := by
    simp [encode]
  rw [body, body] at h
  have same := congrArg decode (List.cons.inj h).2
  rw [decode_flatMap, decode_flatMap] at same
  exact Prod.mk.inj (Option.some.inj same)

end Schemata.Json.Quoted

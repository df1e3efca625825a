import Mathlib.Data.Char
import Mathlib.Data.List.Lex
import Schemata.Text.Utf8

/-! The order of texts. A text comes before another one by its characters just if it does by the bytes of these. -/

namespace Schemata.Text.Utf8

variable {a b : Nat} {s t : List Char}

def bytes (s : List Char) : List Nat := s.flatMap fun c => encode c.toNat

theorem toNat_lt (c : Char) : c.toNat < 0x110000 := by
  rcases c.valid with low | ⟨-, high⟩
  · exact Nat.lt_trans low (by decide)
  · exact high

theorem encode_append_lt (less : a < b) (high : b < 0x110000) (xs ys : List Nat) :
    encode a ++ xs < encode b ++ ys := by
  unfold encode
  split_ifs <;> simp only [List.cons_append, List.nil_append, List.cons_lt_cons_iff] <;> omega

theorem bytes_lt_of_lt (less : s < t) : bytes s < bytes t := by
  induction s generalizing t with
  | nil =>
    cases t with
    | nil => exact absurd less (List.not_lt_nil [])
    | cons d t =>
      obtain ⟨byte, more, starts⟩ : ∃ byte more, encode d.toNat = byte :: more := by
        unfold encode
        split_ifs <;> exact ⟨_, _, rfl⟩
      rw [bytes, bytes, List.flatMap_cons, starts]
      exact List.nil_lt_cons _ _
  | cons c s ih =>
    cases t with
    | nil => exact absurd less (List.not_lt_nil _)
    | cons d t =>
      rw [bytes, bytes, List.flatMap_cons, List.flatMap_cons]
      rcases List.cons_lt_cons_iff.mp less with first | ⟨rfl, behind⟩
      · exact encode_append_lt first (toNat_lt d) _ _
      · exact List.append_left_lt (ih behind)

/-- The order of texts is that of their UTF-8 bytes. -/
theorem bytes_lt_iff : bytes s < bytes t ↔ s < t := by
  refine ⟨fun less => ?_, bytes_lt_of_lt⟩
  rcases lt_trichotomy s t with before | rfl | after
  · exact before
  · exact absurd less (List.lt_irrefl _)
  · exact absurd less (List.lt_asymm (bytes_lt_of_lt after))

end Schemata.Text.Utf8

import Schemata.Text.Category

/-! Tables of runs. A set made of a table holds the numbers whose tag is wanted, and the tag of a number
is found in the runs up to it, however long the table is. -/

namespace Schemata.Text

namespace Run

variable {wanted : String → Bool} {n start : Nat} {inside : Bool} {runs : List Run}

def tagAt? : Nat → List Run → Option String
  | _, [] => none
  | n, run :: rest => if n < run.length then some run.tag else tagAt? (n - run.length) rest

theorem le_of_mem_changesOf {c : Nat} (h : c ∈ changesOf wanted start inside runs) : start ≤ c := by
  induction runs generalizing start inside with
  | nil => exact (CharSet.mem_changeAt h).elim (fun same => Nat.le_of_eq same.symm) fun h => nomatch h
  | cons run rest ih =>
    rcases CharSet.mem_changeAt h with rfl | h
    · exact Nat.le_refl c
    · exact Nat.le_trans (Nat.le_add_right start run.length) (ih h)

theorem hasFrom_changeAt_of_le {before after : Bool} {rest : List Nat} (le : start ≤ n) :
    CharSet.hasFrom before (CharSet.changeAt start before after rest) n =
      CharSet.hasFrom after rest n := by
  unfold CharSet.changeAt
  split
  · rename_i same
    rw [same]
  · rename_i other
    have turned : (!before) = after := by
      cases before <;> cases after <;> first | rfl | exact absurd rfl other
    rw [CharSet.hasFrom, if_neg (Nat.not_lt.mpr le), turned]

theorem hasFrom_changesOf (wanted : String → Bool) (runs : List Run) (start : Nat) (inside : Bool)
    (n : Nat) :
    CharSet.hasFrom inside (changesOf wanted start inside runs) (start + n) =
      (tagAt? n runs).any wanted := by
  induction runs generalizing start inside n with
  | nil =>
    rw [changesOf, hasFrom_changeAt_of_le (Nat.le_add_right start n)]
    rfl
  | cons run rest ih =>
    rw [changesOf, hasFrom_changeAt_of_le (Nat.le_add_right start n), tagAt?]
    split
    · rename_i within
      refine CharSet.hasFrom_of_lt fun c hc => ?_
      exact Nat.lt_of_lt_of_le (Nat.add_lt_add_left within start) (le_of_mem_changesOf hc)
    · rename_i beyond
      have place : start + n = start + run.length + (n - run.length) := by omega
      rw [place]
      exact ih _ _ _

theorem hasNumber_setOf (wanted : String → Bool) (runs : List Run) (n : Nat) :
    (setOf wanted runs).hasNumber n = (tagAt? n runs).any wanted := by
  have holds := hasFrom_changesOf wanted runs 0 false n
  rwa [Nat.zero_add] at holds

/-! Reading a part of a table. -/

theorem tagAt?_of_prefix {tag : String} {front : List Run} (starts : front <+: runs)
    (found : tagAt? n front = some tag) : tagAt? n runs = some tag := by
  obtain ⟨more, rfl⟩ := starts
  induction front generalizing n with
  | nil => cases found
  | cons run rest ih =>
    rw [List.cons_append, tagAt?]
    rw [tagAt?] at found
    split
    · rename_i within
      rwa [if_pos within] at found
    · rename_i beyond
      rw [if_neg beyond] at found
      exact ih found

theorem decode_prefix (fuel : Nat) {fuel' : Nat} {s : List Char} (enough : s.length ≤ fuel') :
    decode fuel s <+: decode fuel' s := by
  induction fuel generalizing fuel' s with
  | zero => exact List.nil_prefix
  | succ fuel ih =>
    cases s with
    | nil => cases fuel' <;> exact List.prefix_refl _
    | cons c rest =>
      obtain ⟨fuel', rfl⟩ := Nat.exists_eq_add_of_le' (Nat.le_trans (Nat.le_add_left 1 _) enough)
      have left : ((rest.dropWhile Char.isLower).dropWhile Char.isDigit).length ≤ rest.length :=
        ((List.dropWhile_sublist _).trans (List.dropWhile_sublist _)).length_le
      rw [decode, decode]
      exact (List.prefix_cons_inj _).mpr (ih (Nat.le_trans left (Nat.le_of_succ_le_succ enough)))

end Run

theorem isDecimalDigit_arabic : isDecimalDigit '٣' = true := by
  have number : '٣'.toNat = 1635 := rfl
  have tag : Run.tagAt? 1635 categoryRuns = some "Nd" := by
    rw [categoryRuns, Run.ofPieces]
    -- The sixteen pieces at the front of the table are enough, and less than seven hundred runs.
    iterate 16 rw [List.flatMap_cons, String.toList_ofList]
    refine Run.tagAt?_of_prefix (Run.decode_prefix 700 (Nat.le_refl _)) ?_
    decide +kernel
  have has : decimalDigits.has '٣' = true := by
    rw [CharSet.has, decimalDigits, ofCategory, Run.hasNumber_setOf, number, tag]
    rfl
  rw [isDecimalDigit, has]
  rfl

end Schemata.Text

import Mathlib.Data.List.Basic
import Schemata.Proofs.Text.Numeral
import Schemata.Validation.Location

/-! The path of a location. If no key is empty or has a point or bracket, the last step can be
parsed off the end of the path, so the path determines the location. -/

namespace Schemata

namespace Segment

def Plain : Segment → Prop
  | key k => k ≠ "" ∧ '.' ∉ k.toList ∧ '[' ∉ k.toList ∧ ']' ∉ k.toList
  | index _ => True

instance (s : Segment) : Decidable s.Plain :=
  match s with
  | key k => inferInstanceAs (Decidable (k ≠ "" ∧ '.' ∉ k.toList ∧ '[' ∉ k.toList ∧ ']' ∉ k.toList))
  | index _ => .isTrue trivial

end Segment

namespace Location

variable {front front' : List Char} {s s' : Segment} {l l' : Location}

def Plain (l : Location) : Prop := ∀ s ∈ l, s.Plain

instance (l : Location) : Decidable l.Plain := inferInstanceAs (Decidable (∀ s ∈ l, s.Plain))

theorem append_cons_inj {c : Char} {back back' : List Char} (last : c ∉ back)
    (last' : c ∉ back') (same : front ++ c :: back = front' ++ c :: back') :
    front = front' ∧ back = back' := by
  -- Were one front longer than the other, its character would be within the other back.
  rcases List.append_eq_append_iff.mp same with ⟨more, hf, hb⟩ | ⟨more, hf, hb⟩
  · rcases more with _ | ⟨d, more⟩
    · exact ⟨(hf.trans (List.append_nil front)).symm, (List.cons.inj hb).2⟩
    · obtain ⟨-, rfl⟩ := List.cons.inj hb
      exact absurd (List.mem_append_right more List.mem_cons_self) last
  · rcases more with _ | ⟨d, more⟩
    · exact ⟨hf.trans (List.append_nil front'), (List.cons.inj hb).2.symm⟩
    · obtain ⟨-, rfl⟩ := List.cons.inj hb
      exact absurd (List.mem_append_right more List.mem_cons_self) last'

theorem bracket_not_mem_numeral (i : Nat) : '[' ∉ Text.numeral i := by
  intro h
  cases Text.isDigit_of_mem_numeral h

theorem extendPath_index (front : List Char) (i : Nat) :
    extendPath front (.index i) = front ++ '[' :: Text.numeral i ++ [']'] := rfl

theorem extendPath_key (front : List Char) (k : String) : extendPath front (.key k) =
    if front = [] then k.toList else front ++ '.' :: k.toList := by
  rw [extendPath]
  simp only [List.isEmpty_iff]

theorem extendPath_ne_nil (plain : s.Plain) : extendPath front s ≠ [] := by
  cases s with
  | key k =>
    rw [extendPath_key]
    split
    · exact fun none => plain.1 (String.toList_eq_nil_iff.mp none)
    · exact List.append_ne_nil_of_right_ne_nil _ (List.cons_ne_nil _ _)
  | index i =>
    rw [extendPath_index]
    exact List.append_ne_nil_of_right_ne_nil _ (List.cons_ne_nil _ _)

theorem extendPath_key_ne_index {k : String} {i : Nat} (plain : (Segment.key k).Plain) :
    extendPath front (.key k) ≠ extendPath front' (.index i) := by
  obtain ⟨nonempty, -, -, bracket⟩ := plain
  have nonempty : k.toList ≠ [] := fun none => nonempty (String.toList_eq_nil_iff.mp none)
  intro same
  rw [extendPath_index] at same
  have key : (extendPath front (.key k)).getLast? = k.toList.getLast? := by
    rw [extendPath_key]
    split
    · rfl
    · rw [List.getLast?_append_cons, List.getLast?_cons_of_ne_nil nonempty]
  have last : k.toList.getLast? = some ']' := by
    rw [← key, same, List.getLast?_concat]
  exact bracket (List.mem_of_getLast? last)

theorem extendPath_inj (plain : s.Plain) (plain' : s'.Plain)
    (same : extendPath front s = extendPath front' s') : front = front' ∧ s = s' := by
  cases s with
  | key k =>
    cases s' with
    | key k' =>
      obtain ⟨-, point, -, -⟩ := plain
      obtain ⟨-, point', -, -⟩ := plain'
      rw [extendPath_key, extendPath_key] at same
      split at same <;> split at same
      · rename_i root root'
        exact ⟨root.trans root'.symm, congrArg Segment.key (String.toList_inj.mp same)⟩
      · exact absurd (same ▸ List.mem_append_right _ List.mem_cons_self) point
      · exact absurd (same ▸ List.mem_append_right _ List.mem_cons_self) point'
      · obtain ⟨fronts, keys⟩ := append_cons_inj point point' same
        exact ⟨fronts, congrArg Segment.key (String.toList_inj.mp keys)⟩
    | index j => exact absurd same (extendPath_key_ne_index plain)
  | index i =>
    cases s' with
    | key k' => exact absurd same.symm (extendPath_key_ne_index plain')
    | index j =>
      rw [extendPath_index, extendPath_index] at same
      obtain ⟨fronts, digits⟩ := append_cons_inj (bracket_not_mem_numeral i)
        (bracket_not_mem_numeral j) (List.append_cancel_right same)
      exact ⟨fronts, congrArg Segment.index (Text.numeral_injective digits)⟩

theorem eq_of_pathChars_eq (plain : l.Plain) (plain' : l'.Plain) (same : l.pathChars = l'.pathChars) :
    l = l' := by
  -- From the innermost step, which is the last one of the path, to the root.
  induction l generalizing l' with
  | nil =>
    cases l' with
    | nil => rfl
    | cons s' rest' => exact absurd same.symm (extendPath_ne_nil (plain' s' List.mem_cons_self))
  | cons s rest ih =>
    cases l' with
    | nil => exact absurd same (extendPath_ne_nil (plain s List.mem_cons_self))
    | cons s' rest' =>
      obtain ⟨fronts, step⟩ :=
        extendPath_inj (plain s List.mem_cons_self) (plain' s' List.mem_cons_self) same
      have inner := ih (fun t ht => plain t (List.mem_cons_of_mem _ ht))
        (fun t ht => plain' t (List.mem_cons_of_mem _ ht)) fronts
      rw [step, inner]

/-- Locations with plain keys (not empty, without point or bracket) are equal if their paths are. -/
theorem eq_of_path_eq (plain : l.Plain) (plain' : l'.Plain) (same : l.path = l'.path) : l = l' :=
  eq_of_pathChars_eq plain plain' (String.ofList_inj.mp same)

theorem eq_of_path_eq_of_orders :
    let reached : Location := ((atKey [] "orders").atIndex 2).atKey "sku"
    let listed : Location := [.key "sku", .index 2, .key "orders"]
    reached.path = "orders[2].sku" ∧ listed.path = "orders[2].sku" ∧ reached.Plain ∧ listed.Plain ∧
      reached = listed :=
  ⟨by decide, by decide, by decide, by decide, eq_of_path_eq (by decide) (by decide) (by decide)⟩

/-- A key with a point in it is shown as two keys are. -/
example : Location.path [.key "orders.sku"] = Location.path [.key "sku", .key "orders"] := by decide

end Location

end Schemata

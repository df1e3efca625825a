/-!
Pieces of a text between two places that are counted in bytes. There is none where a place lies
behind the end or inside of a character.
-/

namespace Schemata.Text

def byteCount : List Char → Nat
  | [] => 0
  | c :: s => c.utf8Size + byteCount s

def splitBytes? : Nat → List Char → Option (List Char × List Char)
  | 0, s => some ([], s)
  | _ + 1, [] => none
  | n + 1, c :: s =>
    if c.utf8Size ≤ n + 1 then
      (splitBytes? (n + 1 - c.utf8Size) s).map fun (front, back) => (c :: front, back)
    else none

def slice? (start stop : Nat) (s : List Char) : Option (List Char) := do
  let (_, back) ← splitBytes? start s
  if start ≤ stop then
    let (piece, _) ← splitBytes? (stop - start) back
    return piece
  else none

@[simp] theorem byteCount_nil : byteCount [] = 0 := rfl

@[simp] theorem byteCount_cons (c : Char) (s : List Char) :
    byteCount (c :: s) = c.utf8Size + byteCount s := rfl

@[simp] theorem byteCount_append (s t : List Char) :
    byteCount (s ++ t) = byteCount s + byteCount t := by
  induction s with
  | nil => rw [List.nil_append, byteCount_nil, Nat.zero_add]
  | cons c s ih => rw [List.cons_append, byteCount_cons, byteCount_cons, ih, Nat.add_assoc]

theorem length_le_byteCount (s : List Char) : s.length ≤ byteCount s := by
  induction s with
  | nil => exact Nat.le_refl 0
  | cons c s ih =>
    rw [byteCount_cons, List.length_cons, Nat.add_comm]
    exact Nat.add_le_add c.utf8Size_pos ih

theorem splitBytes?_append (front back : List Char) :
    splitBytes? (byteCount front) (front ++ back) = some (front, back) := by
  induction front with
  | nil =>
    cases back <;> rfl
  | cons c front ih =>
    have size : byteCount (c :: front) - c.utf8Size = byteCount front := by
      rw [byteCount_cons, Nat.add_sub_cancel_left]
    have fits : c.utf8Size ≤ byteCount (c :: front) := Nat.le_add_right _ _
    obtain ⟨n, count⟩ : ∃ n, byteCount (c :: front) = n + 1 :=
      Nat.exists_eq_succ_of_ne_zero (Nat.ne_of_gt (Nat.lt_of_lt_of_le c.utf8Size_pos fits))
    rw [count] at size fits ⊢
    rw [List.cons_append, splitBytes?, if_pos fits, size, ih]
    rfl

theorem eq_of_splitBytes? {n : Nat} {s front back : List Char}
    (h : splitBytes? n s = some (front, back)) : s = front ++ back ∧ byteCount front = n := by
  induction s generalizing n front with
  | nil =>
    cases n with
    | zero =>
      obtain ⟨rfl, rfl⟩ := Prod.mk.inj (Option.some.inj h)
      exact ⟨rfl, rfl⟩
    | succ n => cases h
  | cons c s ih =>
    cases n with
    | zero =>
      obtain ⟨rfl, rfl⟩ := Prod.mk.inj (Option.some.inj h)
      exact ⟨rfl, rfl⟩
    | succ n =>
      rw [splitBytes?] at h
      split at h
      · rename_i fits
        obtain ⟨⟨front, back⟩, split, h⟩ := Option.map_eq_some_iff.mp h
        obtain ⟨rfl, rfl⟩ := Prod.mk.inj h
        obtain ⟨rfl, count⟩ := ih split
        exact ⟨rfl, by rw [byteCount_cons, count, Nat.add_sub_cancel' fits]⟩
      · cases h

theorem splitBytes?_eq_some_iff {n : Nat} {s front back : List Char} :
    splitBytes? n s = some (front, back) ↔ s = front ++ back ∧ byteCount front = n := by
  refine ⟨eq_of_splitBytes?, ?_⟩
  rintro ⟨rfl, rfl⟩
  exact splitBytes?_append front back

theorem slice?_eq_some_iff {start stop : Nat} {s piece : List Char} :
    slice? start stop s = some piece ↔ ∃ front back, s = front ++ (piece ++ back) ∧
      byteCount front = start ∧ start + byteCount piece = stop := by
  unfold slice?
  simp only [Option.bind_eq_bind, Option.bind_eq_some_iff, splitBytes?_eq_some_iff, Prod.exists]
  constructor
  · rintro ⟨front, _, ⟨rfl, count⟩, h⟩
    split at h
    · rename_i ordered
      obtain ⟨⟨piece', back⟩, split, same⟩ := Option.bind_eq_some_iff.mp h
      obtain rfl := Option.some.inj same
      obtain ⟨rfl, size⟩ := splitBytes?_eq_some_iff.mp split
      exact ⟨front, back, rfl, count, by rw [size, Nat.add_sub_cancel' ordered]⟩
    · cases h
  · rintro ⟨front, back, rfl, count, rfl⟩
    have size : byteCount piece = start + byteCount piece - start := (Nat.add_sub_cancel_left ..).symm
    refine ⟨front, _, ⟨rfl, count⟩, ?_⟩
    rw [if_pos (Nat.le_add_right _ _), ← size, splitBytes?_append]
    rfl

theorem prefix_of_slice? {stop : Nat} {s piece : List Char} (h : slice? 0 stop s = some piece) :
    piece <+: s := by
  obtain ⟨front, back, rfl, count, -⟩ := slice?_eq_some_iff.mp h
  have none : front = [] := List.eq_nil_of_length_eq_zero (Nat.le_zero.mp (count ▸ length_le_byteCount front))
  rw [none]
  exact List.prefix_append piece back

theorem slice?_append (front piece back : List Char) :
    slice? (byteCount front) (byteCount front + byteCount piece) (front ++ (piece ++ back)) =
      some piece :=
  slice?_eq_some_iff.mpr ⟨front, back, rfl, rfl, rfl⟩

/-! Texts of ASCII characters, of which each is one byte. -/

def IsAscii (s : List Char) : Prop := ∀ c ∈ s, c.toNat < 128

instance (s : List Char) : Decidable (IsAscii s) :=
  List.decidableBAll (fun c : Char => c.toNat < 128) s

variable {c : Char} {s t : List Char}

theorem isAscii_append : IsAscii (s ++ t) ↔ IsAscii s ∧ IsAscii t :=
  List.forall_mem_append

theorem isAscii_cons : IsAscii (c :: s) ↔ c.toNat < 128 ∧ IsAscii s :=
  List.forall_mem_cons

theorem toNat_lt_of_isDigit (digit : c.isDigit = true) : c.toNat < 128 :=
  Nat.lt_of_le_of_lt (Char.isDigit_iff_toNat.mp digit).2 (by decide)

theorem utf8Size_eq_one (low : c.toNat < 128) : c.utf8Size = 1 :=
  Char.utf8Size_eq_one_iff.mpr (UInt32.le_iff_toNat_le.mpr (Nat.le_of_lt_succ low))

theorem byteCount_of_isAscii (ascii : IsAscii s) : byteCount s = s.length := by
  induction s with
  | nil => rfl
  | cons c s ih =>
    obtain ⟨low, ascii⟩ := isAscii_cons.mp ascii
    rw [byteCount_cons, List.length_cons, ih ascii, utf8Size_eq_one low, Nat.add_comm]

end Schemata.Text

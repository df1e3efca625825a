import Schemata.Proofs.Number.Layout
import Schemata.Proofs.Number.Sameness

/-! Numbers in JSON text. Finite numbers with one text are equal, and a number is told from what
follows it. -/

namespace Schemata

/-- The numbers that are written as numerals: all but infinities, what is not a number, and integers
beyond 128 bits. -/
def Number.HasNumeral : Number → Prop
  | .float x => x.isFinite = true
  | .big v => Json.Numeral.FitsInt128 v
  | _ => True

namespace Json.Numeral

variable {a b : Number} {rest rest' : List Char} {i : Int} {c : Char}

def isMark (c : Char) : Bool := c.isDigit || c = '-' || c = '+' || c = '.' || c = 'e'

inductive Form (n : Number) : Prop
  | integer {i : Int} (whole : n.toInt? = some i) (text : encode n = Text.signedNumeral i)
  | float {x : Double} {negative : Bool} {s : Spelling} (held : n = .float x)
      (written : layout.write? x = some (encode n))
      (text : encode n = (if negative then ['-'] else []) ++ s.chars)
      (marked : s.fraction ≠ none ∨ s.power ≠ none)

theorem form (h : a.HasNumeral) : Form a := by
  cases a with
  | int v => exact .integer rfl rfl
  | uint v =>
    refine .integer rfl ?_
    have positive : ¬(v.toNat : Int) < 0 := by omega
    rw [Text.signedNumeral, if_neg positive]
    rfl
  | big v => exact .integer rfl (if_pos h)
  | float x =>
    rcases x with _ | _ | ⟨negative, m, q, canonical⟩
    · cases h
    · cases h
    · obtain ⟨s, _, spells, -⟩ := FloatLayout.exists_spells_magnitude layout rfl canonical
      have text : encode (.float (.finite negative m q canonical)) =
          (if negative then ['-'] else []) ++ s.chars := by
        rw [spells.chars]
        rfl
      exact .float rfl rfl text spells.marked

theorem isMark_of_isDigit (h : c.isDigit = true) : isMark c = true := by
  simp only [isMark, h, Bool.true_or]

theorem isMark_of_mem_spelling {s : Spelling} (h : c ∈ s.chars) : isMark c = true := by
  have digit (h : c ∈ s.whole ++ s.fraction.getD []) : isMark c = true :=
    isMark_of_isDigit (s.digits c h)
  rcases List.mem_append.mp h with h | h
  · exact digit (List.mem_append_left _ h)
  rcases List.mem_append.mp h with h | h
  · rcases hf : s.fraction with _ | fraction <;> rw [hf] at h digit
    · cases h
    · rcases List.mem_cons.mp h with rfl | h
      · rfl
      · exact digit (List.mem_append_right _ h)
  · rcases hp : s.power with _ | e <;> rw [hp] at h
    · cases h
    · rcases List.mem_cons.mp h with rfl | h
      · rfl
      rcases List.mem_cons.mp h with rfl | h
      · split <;> rfl
      · exact isMark_of_isDigit (Text.isDigit_of_mem_numeral h)

theorem isMark_of_mem_signedNumeral (h : c ∈ Text.signedNumeral i) : isMark c = true := by
  rcases Text.mem_signedNumeral h with digit | rfl
  · exact isMark_of_isDigit digit
  · rfl

theorem isMark_of_mem_encode (h : a.HasNumeral) (member : c ∈ encode a) : isMark c = true := by
  cases form h with
  | integer _ text => exact isMark_of_mem_signedNumeral (text ▸ member)
  | @float _ negative _ _ _ text =>
    rw [text] at member
    rcases List.mem_append.mp member with member | member
    · split at member
      · obtain rfl := List.mem_singleton.mp member
        rfl
      · cases member
    · exact isMark_of_mem_spelling member

theorem encode_ne_nil (h : a.HasNumeral) : encode a ≠ [] := by
  cases form h with
  | integer _ text =>
    rw [text]
    exact Text.signedNumeral_ne_nil _
  | float _ _ text =>
    rw [text]
    exact List.append_ne_nil_of_right_ne_nil _ (Spelling.chars_ne_nil _)

theorem exists_mem_spelling {s : Spelling} (marked : s.fraction ≠ none ∨ s.power ≠ none) :
    ∃ c ∈ s.chars, c.isDigit = false ∧ c ≠ '-' := by
  rcases marked with marked | marked
  · obtain ⟨fraction, hf⟩ := Option.ne_none_iff_exists'.mp marked
    refine ⟨'.', List.mem_append_right _ (List.mem_append_left _ ?_), rfl, by decide⟩
    rw [hf]
    exact List.mem_cons_self
  · obtain ⟨e, he⟩ := Option.ne_none_iff_exists'.mp marked
    refine ⟨'e', List.mem_append_right _ (List.mem_append_right _ ?_), rfl, by decide⟩
    rw [he]
    exact List.mem_cons_self

theorem equal_of_encode_eq (ha : a.HasNumeral) (hb : b.HasNumeral) (h : encode a = encode b) :
    a.equal b = true := by
  have mixed {a b : Number} {i : Int} {negative : Bool} {s : Spelling}
      (text : encode a = Text.signedNumeral i)
      (text' : encode b = (if negative then ['-'] else []) ++ s.chars)
      (marked : s.fraction ≠ none ∨ s.power ≠ none) (h : encode a = encode b) : False := by
    obtain ⟨c, member, other, unsigned⟩ := exists_mem_spelling marked
    have member : c ∈ Text.signedNumeral i := by
      rw [← text, h, text']
      exact List.mem_append_right _ member
    rcases Text.mem_signedNumeral member with digit | minus
    · exact Bool.false_ne_true (other.symm.trans digit)
    · exact unsigned minus
  cases form ha with
  | integer whole text =>
    cases form hb with
    | integer whole' text' =>
      rw [text, text'] at h
      obtain rfl := Text.signedNumeral_injective h
      exact Number.equal_of_toInt? whole whole'
    | float _ _ text' marked => exact (mixed text text' marked h).elim
  | float held written text marked =>
    cases form hb with
    | integer _ text' => exact (mixed text' text marked h.symm).elim
    | float held' written' _ _ =>
      obtain rfl := held
      obtain rfl := held'
      rw [h] at written
      obtain rfl := FloatLayout.write?_injective rfl written written'
      refine Number.equal_self ?_
      rintro _ ⟨⟩
      exact ha

theorem isFinite_of_hasNumeral (h : a.HasNumeral) : a.IsFinite := by
  rintro x rfl
  exact h

theorem encode_eq_of_equal (ha : a.HasNumeral) (hb : b.HasNumeral) (h : a.equal b = true)
    (once : ∀ i, a.toInt? = some i → b.toInt? = some i → encode a = encode b) :
    encode a = encode b := by
  rcases Number.eq_or_toInt?_of_equal h (isFinite_of_hasNumeral ha) (isFinite_of_hasNumeral hb) with
    rfl | ⟨i, hi, hj⟩
  · rfl
  · exact once i hi hj

theorem encode_append_inj (ha : a.HasNumeral) (hb : b.HasNumeral)
    (ends : ∀ c ∈ rest.head?, isMark c = false) (ends' : ∀ c ∈ rest'.head?, isMark c = false)
    (h : encode a ++ rest = encode b ++ rest') : encode a = encode b ∧ rest = rest' := by
  have split := Text.span_append (fun _ => isMark_of_mem_encode ha) ends
  have split' := Text.span_append (fun _ => isMark_of_mem_encode hb) ends'
  rw [h] at split
  exact ⟨split.1.symm.trans split'.1, split.2.symm.trans split'.2⟩

end Json.Numeral
end Schemata

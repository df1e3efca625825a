import Schemata.Json.Visitor
import Schemata.Proofs.Json.Scaling
import Schemata.Proofs.Related

/-! Visitors. Two of them that make related things of the parts of a text make related things of the whole text, or
nothing both of them. A document is what one of them makes, so whatever a visitor makes of a text can be told from
the document that is read off it. -/

namespace Schemata.Json

variable {α β : Type} {R : α → β → Prop} {s : List Char}

/-- The same place was reached with related things, or no place by either. -/
def Abreast (R : α → β → Prop) : Option (α × List Char) → Option (β × List Char) → Prop :=
  Option.Rel fun p q => R p.1 q.1 ∧ p.2 = q.2

def Member (R : α → β → Prop) (e : String × α) (f : String × β) : Prop := e.1 = f.1 ∧ R e.2 f.2

section Sequences

variable {close : Char} {item : List Char → Option (α × List Char)} {item' : List Char → Option (β × List Char)}

theorem sequence_abreast (each : ∀ s, Abreast R (item s) (item' s)) (fuel : Nat) (s : List Char) :
    List.Forall₂ R (sequence close item fuel s).1 (sequence close item' fuel s).1 ∧
      (sequence close item fuel s).2 = (sequence close item' fuel s).2 := by
  induction fuel generalizing s with
  | zero => exact ⟨.nil, rfl⟩
  | succ fuel ih =>
    have here := each s
    rw [sequence, sequence]
    generalize item s = found, item' s = found' at here ⊢
    cases here with
    | none => exact ⟨.nil, rfl⟩
    | @some p q same =>
      obtain ⟨x, rest⟩ := p
      obtain ⟨y, rest'⟩ := q
      obtain ⟨related, rfl⟩ := same
      dsimp only
      rcases skipSpace rest with _ | ⟨c, more⟩
      · exact ⟨.cons related .nil, rfl⟩
      · dsimp only
        split
        · exact ⟨.cons related (ih more).1, (ih more).2⟩
        · split
          · exact ⟨.cons related .nil, rfl⟩
          · exact ⟨.cons related .nil, rfl⟩

theorem elements_abreast (each : ∀ s, Abreast R (item s) (item' s)) (s : List Char) :
    List.Forall₂ R (elements close item s).1 (elements close item' s).1 ∧
      (elements close item s).2 = (elements close item' s).2 := by
  rw [elements, elements]
  rcases skipSpace s with _ | ⟨c, rest⟩
  · exact ⟨.nil, rfl⟩
  · dsimp only
    split
    · exact ⟨.nil, rfl⟩
    · exact sequence_abreast each _ _

theorem entry_abreast (each : ∀ s, Abreast R (item s) (item' s)) (s : List Char) :
    Abreast (Member R) (entry item s) (entry item' s) := by
  unfold entry
  split
  · split
    · exact .none
    · split
      · rename_i rest _
        have here := each rest
        generalize item rest = found, item' rest = found' at here ⊢
        cases here with
        | none => exact .none
        | some same => exact .some ⟨⟨rfl, same.1⟩, same.2⟩
      · exact .none
  · exact .none

theorem closed_abreast {xs : List α × Option (List Char)} {ys : List β × Option (List Char)}
    {γ δ : Type} {S : γ → δ → Prop} {f : List α → γ} {g : List β → δ}
    (same : List.Forall₂ R xs.1 ys.1 ∧ xs.2 = ys.2)
    (close : List.Forall₂ R xs.1 ys.1 → S (f xs.1) (g ys.1)) :
    Abreast S (xs.2.map fun s => (f xs.1, s)) (ys.2.map fun s => (g ys.1, s)) := by
  rw [same.2]
  cases ys.2 with
  | none => exact .none
  | some s => exact .some ⟨close same.1, rfl⟩

end Sequences

namespace Visitor

variable {v : Visitor α} {w : Visitor β}

/-- One visitor makes of each part what is related to what the other one makes of it, given related things for the
elements. Numbers come in the forms in which they are written. -/
structure Simulates (R : α → β → Prop) (v : Visitor α) (w : Visitor β) : Prop where
  null : R v.null w.null
  bool (b : Bool) : R (v.bool b) (w.bool b)
  uint (n : UInt64) : R (v.uint n) (w.uint n)
  int {n : Int64} (negative : n.toInt < 0) : R (v.int n) (w.int n)
  float {x : Double} (finite : x.isFinite = true) : R (v.float x) (w.float x)
  string (s : String) : R (v.string s) (w.string s)
  list {xs : List α} {ys : List β} (each : List.Forall₂ R xs ys) : R (v.list xs) (w.list ys)
  map {es : List (String × α)} {fs : List (String × β)} (each : List.Forall₂ (Member R) es fs) :
    R (v.map es) (w.map fs)

theorem Simulates.number (sim : Simulates R v w) (s : List Char) :
    Abreast R ((Numeral.decode s).bind fun (n, s) => (v.number? n).map (·, s))
      ((Numeral.decode s).bind fun (n, s) => (w.number? n).map (·, s)) := by
  rcases decoded : Numeral.decode s with _ | ⟨n, rest⟩
  · exact .none
  · cases Numeral.plain_of_decode decoded with
    | uint n => exact .some ⟨sim.uint n, rfl⟩
    | int negative => exact .some ⟨sim.int negative, rfl⟩
    | float finite => exact .some ⟨sim.float finite, rfl⟩

theorem Simulates.quoted (sim : Simulates R v w) (s : List Char) :
    Abreast R ((Quoted.decode s).map fun (text, s) => (v.string (String.ofList text), s))
      ((Quoted.decode s).map fun (text, s) => (w.string (String.ofList text), s)) := by
  rcases Quoted.decode s with _ | ⟨text, rest⟩
  · exact .none
  · exact .some ⟨sim.string _, rfl⟩

theorem Simulates.visit (sim : Simulates R v w) (depth : Nat) (s : List Char) :
    Abreast R (v.visit depth s) (w.visit depth s) := by
  induction depth generalizing s with
  | zero =>
    rw [Visitor.visit, Visitor.visit]
    split
    · exact .some ⟨sim.null, rfl⟩
    · exact .some ⟨sim.bool true, rfl⟩
    · exact .some ⟨sim.bool false, rfl⟩
    · exact sim.quoted _
    · exact .none
    · exact .none
    · exact sim.number _
  | succ depth ih =>
    rw [Visitor.visit, Visitor.visit]
    split
    · exact .some ⟨sim.null, rfl⟩
    · exact .some ⟨sim.bool true, rfl⟩
    · exact .some ⟨sim.bool false, rfl⟩
    · exact sim.quoted _
    · exact closed_abreast (elements_abreast ih _) sim.list
    · exact closed_abreast (elements_abreast (entry_abreast ih) _) sim.map
    · exact sim.number _

/-- What two visitors make of a text is related, or neither of them makes anything of it. -/
theorem Simulates.read? (sim : Simulates R v w) (text : String) :
    Option.Rel R (v.read? text) (w.read? text) := by
  have here := sim.visit depthLimit text.toList
  unfold Visitor.read?
  generalize v.visit depthLimit text.toList = found, w.visit depthLimit text.toList = found' at here ⊢
  cases here with
  | none => exact .none
  | @some p q same =>
    obtain ⟨x, rest⟩ := p
    obtain ⟨y, rest'⟩ := q
    obtain ⟨related, rfl⟩ := same
    dsimp only
    split
    · exact .some related
    · exact .none

end Visitor

/-! Documents. -/

def documentVisitor : Visitor Tree where
  null := .null
  bool b := .bool b
  uint n := .number (.uint n)
  int n := .number (.int n)
  float x := .number (.float x)
  string s := .string s
  list items := .list items
  map entries := .map entries

theorem number_documentVisitor (s : List Char) :
    ((Numeral.decode s).map fun (n, s) => (Tree.number n, s)) =
      (Numeral.decode s).bind fun (n, s) => (documentVisitor.number? n).map (·, s) := by
  rcases decoded : Numeral.decode s with _ | ⟨n, rest⟩
  · rfl
  · cases Numeral.plain_of_decode decoded <;> rfl

theorem value_eq_visit (depth : Nat) : value depth = documentVisitor.visit depth := by
  induction depth with
  | zero =>
    funext s
    rw [value.eq_def, Visitor.visit]
    simp only [number_documentVisitor]
    rfl
  | succ depth ih =>
    funext s
    rw [value.eq_def, Visitor.visit]
    simp only [number_documentVisitor, ih]
    rfl

theorem read?_eq_visit (text : String) : Json.read? text = documentVisitor.read? text := by
  rw [Json.read?, Visitor.read?, value_eq_visit]
  rcases documentVisitor.visit depthLimit text.toList with _ | ⟨t, rest⟩ <;> rfl

end Schemata.Json

import Schemata.Value

/-! The values that occur in a value: itself, and what occurs in its items and fields. -/

namespace Schemata.Value

/-- What holds of a value when it holds of its items and fields holds of all values. -/
@[elab_as_elim]
theorem partsInduction {motive : Value → Prop} (null : motive null) (undefined : motive undefined)
    (bool : ∀ b, motive (bool b)) (number : ∀ n, motive (number n)) (string : ∀ s, motive (string s))
    (array : ∀ items, (∀ v ∈ items, motive v) → motive (array items))
    (object : ∀ fields, (∀ e ∈ fields, motive e.2) → motive (object fields))
    (dateTime : ∀ d, motive (dateTime d)) (v : Value) : motive v := by
  induction hs : sizeOf v using Nat.strongRecOn generalizing v with
  | ind size ih =>
    subst hs
    cases v with
    | null => exact null
    | undefined => exact undefined
    | bool b => exact bool b
    | number n => exact number n
    | string s => exact string s
    | array items =>
      refine array items fun v hv => ih _ ?_ v rfl
      have smaller := List.sizeOf_lt_of_mem hv
      simp only [Value.array.sizeOf_spec]
      omega
    | object fields =>
      refine object fields fun e he => ih _ ?_ e.2 rfl
      have smaller := List.sizeOf_lt_of_mem he
      obtain ⟨k, v⟩ := e
      simp only [Prod.mk.sizeOf_spec, Value.object.sizeOf_spec] at smaller ⊢
      omega
    | dateTime d => exact dateTime d

inductive Occurs (x : Value) : Value → Prop
  | here : Occurs x x
  | item {items : List Value} {v : Value} (member : v ∈ items) (inside : Occurs x v) :
      Occurs x (.array items)
  | field {fields : List (String × Value)} {e : String × Value} (member : e ∈ fields)
      (inside : Occurs x e.2) : Occurs x (.object fields)

def Every (P : Value → Prop) (v : Value) : Prop := ∀ x, Occurs x v → P x

def KeysDiffer (v : Value) : Prop := ∀ fields, v = .object fields → Keyed.Distinct fields

variable {P : Value → Prop} {v : Value}

theorem Every.self (h : v.Every P) : P v := h v .here

theorem Every.item {items : List Value} (h : (Value.array items).Every P) (member : v ∈ items) :
    v.Every P := fun x inside => h x (.item member inside)

theorem Every.field {fields : List (String × Value)} {e : String × Value}
    (h : (Value.object fields).Every P) (member : e ∈ fields) : e.2.Every P :=
  fun x inside => h x (.field member inside)

theorem every_array {items : List Value} (self : P (.array items)) (each : ∀ v ∈ items, v.Every P) :
    (Value.array items).Every P := by
  intro x h
  cases h with
  | here => exact self
  | item member inside => exact each _ member x inside

theorem every_object {fields : List (String × Value)} (self : P (.object fields))
    (each : ∀ e ∈ fields, e.2.Every P) : (Value.object fields).Every P := by
  intro x h
  cases h with
  | here => exact self
  | field member inside => exact each _ member x inside

end Schemata.Value

import Mathlib
import Schemata.Library.Basic
import Schemata.Proofs.Node.Alternatives
import Schemata.Proofs.Validation.Calls

/-! Termination of validation. Items and properties are smaller than the value that holds them, and
alternatives have no alternatives, so the only endless run wraps one value as the only item of array
types again and again. -/

namespace Schemata

namespace Check

structure Alternates (g : Graph) (firstOnly : Bool) (c c' : Call) : Prop where
  asks : Asks g firstOnly c c'
  mem : ∃ alternatives, c.node.alternatives? = some alternatives ∧ c'.node ∈ alternatives
  value : c'.value = c.value

/-- A non-array is wrapped as the only item of an array type. -/
structure Wraps (g : Graph) (firstOnly : Bool) (c c' : Call) : Prop where
  asks : Asks g firstOnly c c'
  array : ∃ f r, c.node.shape = .array f ∧ f.items = some r ∧ c'.node = g.resolve r
  items : itemsOf? c.options c.value = some [c.value]
  value : c'.value = c.value

def Rewraps (g : Graph) (firstOnly : Bool) (c c' : Call) : Prop :=
  Wraps g firstOnly c c' ∨ ∃ b, Alternates g firstOnly c b ∧ Wraps g firstOnly b c'

/-- A value is wrapped without end. -/
def Endless (g : Graph) (firstOnly : Bool) (c : Call) : Prop :=
  ∃ row : Nat → Call, row 0 = c ∧ ∀ i, Rewraps g firstOnly (row i) (row (i + 1))

variable {g : Graph} {firstOnly : Bool} {c c' : Call}

theorem mem_of_itemsOf? {o : ValidationOptions} {v x : Value} {list : List Value}
    (h : itemsOf? o v = some list) (hx : x ∈ list) :
    sizeOf x < sizeOf v ∨ x = v ∧ itemsOf? o v = some [v] := by
  rcases itemsOf?_cases h with rfl | ⟨rfl, -⟩
  · have := List.sizeOf_lt_of_mem hx
    rw [Value.array.sizeOf_spec]
    omega
  · exact .inr ⟨List.mem_singleton.mp hx, h⟩

theorem Asks.smaller_or_same (asks : Asks g firstOnly c c') :
    sizeOf c'.value < sizeOf c.value ∨ Alternates g firstOnly c c' ∨ Wraps g firstOnly c c' := by
  have asks' := asks
  cases asks with
  | only enters found => exact .inr (.inl ⟨asks', ⟨_, found, List.mem_cons_self⟩, rfl⟩)
  | trial enters several =>
    exact .inr (.inl ⟨asks', ⟨_, several.found, List.mem_append_right _ List.mem_cons_self⟩, rfl⟩)
  | part enters several =>
    exact .inr (.inl ⟨asks', ⟨_, several.found, List.mem_append_right _ List.mem_cons_self⟩, rfl⟩)
  | item enters single shape typed list =>
    rcases mem_of_itemsOf? list (List.mem_append_right _ List.mem_cons_self) with lt | ⟨same, wraps⟩
    · exact .inl lt
    · exact .inr (.inr ⟨asks', ⟨_, _, shape, typed, rfl⟩, wraps, same⟩)
  | @property _ _ _ _ given before rest key x _ _ _ _ _ _ _ list =>
    have mem : (key, x) ∈ given := list ▸ List.mem_append_right _ List.mem_cons_self
    have := List.sizeOf_lt_of_mem mem
    left
    simp only [Value.object.sizeOf_spec, Prod.mk.sizeOf_spec] at this ⊢
    omega

theorem Alternates.not_alternates {b : Call} (h : Alternates g firstOnly c b) :
    ¬Alternates g firstOnly b c' := by
  rintro ⟨-, ⟨_, found', -⟩, -⟩
  obtain ⟨_, found, mem⟩ := h.mem
  rw [Node.alternatives?_of_mem found mem] at found'
  cases found'

theorem Asks.exists_lt (asks : Asks g firstOnly c c') {fuel : Nat} {r : Report}
    (h : c.report? g firstOnly fuel = some r) :
    ∃ fuel' < fuel, ∃ r', c'.report? g firstOnly fuel' = some r' := by
  cases fuel with
  | zero => cases h
  | succ fuel => exact ⟨fuel, Nat.lt_succ_self fuel, asks.report h⟩

theorem Rewraps.exists_lt (h : Rewraps g firstOnly c c') {fuel : Nat} {r : Report}
    (decided : c.report? g firstOnly fuel = some r) :
    ∃ fuel' < fuel, ∃ r', c'.report? g firstOnly fuel' = some r' := by
  rcases h with wraps | ⟨b, alternates, wraps⟩
  · exact wraps.asks.exists_lt decided
  · obtain ⟨fuel', lt, r', decided'⟩ := alternates.asks.exists_lt decided
    obtain ⟨fuel'', lt', r'', decided''⟩ := wraps.asks.exists_lt decided'
    exact ⟨fuel'', lt'.trans lt, r'', decided''⟩

theorem Endless.not_report {fuel : Nat} : ∀ {c : Call}, Endless g firstOnly c → ∀ r,
    c.report? g firstOnly fuel ≠ some r := by
  -- Each time that the value is wrapped takes some of the steps.
  induction fuel using Nat.strong_induction_on with
  | _ fuel ih =>
    rintro c ⟨row, rfl, step⟩ r decided
    obtain ⟨fuel', lt, r', decided'⟩ := (step 0).exists_lt decided
    exact ih fuel' lt ⟨fun i => row (i + 1), rfl, fun i => step (i + 1)⟩ r' decided'

theorem Call.Ends.of_reaches (ends : c.Ends g firstOnly)
    (path : Relation.ReflTransGen (Asks g firstOnly) c c') : c'.Ends g firstOnly := by
  induction path with
  | refl => exact ends
  | tail _ asks ih =>
    obtain ⟨fuel, r, decided⟩ := ih
    obtain ⟨fuel', -, decided'⟩ := asks.exists_lt decided
    exact ⟨fuel', decided'⟩

theorem ends_of_not_endless {c : Call} (h : ∀ c', Relation.ReflTransGen (Asks g firstOnly) c c' →
    ¬Endless g firstOnly c') : c.Ends g firstOnly := by
  -- By the size of the value and, for one value, by the rows in which it is wrapped.
  induction hsize : sizeOf c.value using Nat.strong_induction_on generalizing c with
  | _ size ih =>
    have finite : Acc (fun b c => Rewraps g firstOnly c b) c := by
      by_contra infinite
      exact h c .refl (not_acc_iff_exists_descending_chain.mp infinite)
    induction finite with
    | intro c _ wrapped =>
      subst hsize
      refine ends_of_asks fun c' asks => ?_
      rcases asks.smaller_or_same with smaller | alternates | wraps
      · exact ih _ smaller (fun d path => h d (.head asks path)) rfl
      -- An alternative is no step of such a row; what it asks for next is.
      · refine ends_of_asks fun d asks' => ?_
        rcases asks'.smaller_or_same with smaller | alternates' | wraps
        · rw [alternates.value] at smaller
          exact ih _ smaller (fun e path => h e (.head asks (.head asks' path))) rfl
        · exact absurd alternates' alternates.not_alternates
        · refine wrapped d (.inr ⟨c', alternates, wraps⟩)
            (fun e path => h e (.head asks (.head asks' path))) ?_
          rw [wraps.value, alternates.value]
      · exact wrapped c' (.inl wraps) (fun e path => h e (.head asks path)) (by rw [wraps.value])

/-- A call leads to an endless wrapping. -/
def Stuck (g : Graph) (firstOnly : Bool) (c : Call) : Prop :=
  ∃ c', Relation.ReflTransGen (Asks g firstOnly) c c' ∧ Endless g firstOnly c'

/-- A call terminates exactly when it does not lead to an endless wrapping. -/
theorem ends_iff : c.Ends g firstOnly ↔ ¬Stuck g firstOnly c := by
  constructor
  · rintro ends ⟨c', path, endless⟩
    obtain ⟨fuel, r, decided⟩ := ends.of_reaches path
    exact endless.not_report r decided
  · exact fun free => ends_of_not_endless fun c' path endless => free ⟨c', path, endless⟩

theorem stuck_of_nested {o : ValidationOptions} {n : Node} {v : Value} {f : ArrayFacets Ref}
    {r : Ref} (l : Location) (enters : Enters n v) (single : n.alternatives? = none)
    (shape : n.shape = .array f) (typed : f.items = some r) (same : g.resolve r = n)
    (wraps : itemsOf? o v = some [v]) : Stuck g firstOnly ⟨o, n, l, v⟩ := by
  let row (i : Nat) : Call := ⟨o, n, (Location.atIndex · 0)^[i] l, v⟩
  refine ⟨row 0, .refl, row, rfl, fun i => .inl ⟨?_, ⟨f, r, shape, typed, same.symm⟩, wraps, rfl⟩⟩
  have asks : Asks g firstOnly (row i) ⟨o, g.resolve r, Location.atIndex (row i).location 0, v⟩ :=
    .first enters single shape typed wraps
  have next : row (i + 1) = ⟨o, n, Location.atIndex (row i).location 0, v⟩ :=
    congrArg (Call.mk o n · v) (Function.iterate_succ_apply' _ i l)
  rw [same] at asks
  rw [next]
  exact asks

theorem Asks.unwrapped (asks : Asks g firstOnly c c')
    (h : (c.options.coerceTypes || !c.options.strictTypes) = false) :
    (c'.options.coerceTypes || !c'.options.strictTypes) = false := by
  cases asks with
  | trial => rfl
  | _ => exact h

theorem Wraps.wrapped (h : Wraps g firstOnly c c') :
    (c.options.coerceTypes || !c.options.strictTypes) = true := by
  rcases itemsOf?_cases h.items with itself | ⟨-, wraps⟩
  · have smaller := congrArg sizeOf itself
    simp only [Value.array.sizeOf_spec, List.cons.sizeOf_spec] at smaller
    omega
  · exact wraps

theorem not_stuck_of_unwrapped (h : (c.options.coerceTypes || !c.options.strictTypes) = false) :
    ¬Stuck g firstOnly c := by
  rintro ⟨c', path, row, start, step⟩
  have h' : (c'.options.coerceTypes || !c'.options.strictTypes) = false := by
    clear start
    induction path with
    | refl => exact h
    | tail _ asks ih => exact asks.unwrapped ih
  subst start
  rcases step 0 with wraps | ⟨b, alternates, wraps⟩
  · exact Bool.eq_false_iff.mp h' wraps.wrapped
  · exact Bool.eq_false_iff.mp (alternates.asks.unwrapped h') wraps.wrapped

end Check

namespace Validator

def call (v : Validator) (value : Value) : Check.Call := ⟨v.options, v.node, [], value⟩

theorem exists_validate?_iff (v : Validator) (value : Value) :
    (∃ steps out, v.validate? steps value = some out) ↔
      (v.call value).Ends v.graph v.options.throwOnFirstError := by
  refine exists_congr fun steps => ⟨?_, ?_⟩
  · rintro ⟨out, h⟩
    obtain ⟨r, h, -⟩ := Option.map_eq_some_iff.mp h
    exact ⟨r, h⟩
  · rintro ⟨r, h⟩
    exact ⟨_, Option.map_eq_some_iff.mpr ⟨r, h, rfl⟩⟩

theorem exists_validateOrRaise?_iff (v : Validator) (value : Value) :
    (∃ steps out, v.validateOrRaise? steps value = some out) ↔
      (v.call value).Ends v.graph true := by
  refine exists_congr fun steps => ⟨?_, ?_⟩
  · rintro ⟨out, h⟩
    obtain ⟨r, h, -⟩ := Option.map_eq_some_iff.mp h
    exact ⟨r, h⟩
  · rintro ⟨r, h⟩
    exact ⟨_, Option.map_eq_some_iff.mpr ⟨r, h, rfl⟩⟩

/-- Validation terminates exactly when it does not lead to a value that array types wrap without
end; under `strictTypes` without `coerceTypes` it always does. -/
theorem validate?_ends_iff (v : Validator) (value : Value) :
    ((∃ steps out, v.validate? steps value = some out) ↔
      ¬Check.Stuck v.graph v.options.throwOnFirstError (v.call value)) ∧
    ((∃ steps out, v.validateOrRaise? steps value = some out) ↔
      ¬Check.Stuck v.graph true (v.call value)) ∧
    (v.options.strictTypes = true → v.options.coerceTypes = false →
      (∃ steps out, v.validate? steps value = some out) ∧
        ∃ steps out, v.validateOrRaise? steps value = some out) := by
  rw [exists_validate?_iff, exists_validateOrRaise?_iff]
  refine ⟨Check.ends_iff, Check.ends_iff, fun strict plain => ?_⟩
  have unwrapped : ((v.call value).options.coerceTypes || !(v.call value).options.strictTypes) =
      false := by
    rw [call, strict, plain]
    rfl
  exact ⟨Check.ends_iff.mpr (Check.not_stuck_of_unwrapped unwrapped),
    Check.ends_iff.mpr (Check.not_stuck_of_unwrapped unwrapped)⟩

def nest : Declaration :=
  { DeclarationOf.named "A" with extends? := some (.name "array"), items := some (.name "A") }

def nestNode : Node :=
  .extend (some 14) (some "A") .array [Node.ofBase .array] Header.empty
    (.array ⟨some (.forward 14 "A"), none, none, none⟩)

def nestGraph : Graph := ⟨15, [(14, nestNode)]⟩

theorem validate?_ends_of_strict_nest :
    ∃ steps out, validate? ⟨nestGraph, nestNode, .strict⟩ steps (.number (.uint 5)) = some out :=
  ((validate?_ends_iff ⟨nestGraph, nestNode, .strict⟩ (.number (.uint 5))).2.2 rfl rfl).1

theorem nest_added : ∃ a, Library.initial.addTypes .initial [nest] = .ok a ∧
    a.graph = nestGraph ∧ a.library.type? "A" = some nestNode := by
  refine ⟨⟨nestGraph, ⟨Library.initial.types ++ [("A", nestNode)]⟩, [nestNode]⟩, ?_, rfl, ?_⟩
  · cbv
  · rfl

/-- `A = {type: array, items: A}` is added, and never decides 5. -/
theorem not_validate?_ends : ∃ a, Library.initial.addTypes .initial [nest] = .ok a ∧
    ∃ n, a.library.type? "A" = some n ∧
      ∀ steps, validate? ⟨a.graph, n, .standard⟩ steps (.number (.uint 5)) = none := by
  obtain ⟨a, added, graph, found⟩ := nest_added
  refine ⟨a, added, nestNode, found, fun steps => ?_⟩
  rw [graph, Option.eq_none_iff_forall_ne_some]
  intro out decided
  refine Check.ends_iff.mp ((exists_validate?_iff _ _).mp ⟨steps, out, decided⟩) ?_
  exact Check.stuck_of_nested [] ⟨rfl, rfl⟩ rfl rfl rfl rfl rfl

end Validator
end Schemata

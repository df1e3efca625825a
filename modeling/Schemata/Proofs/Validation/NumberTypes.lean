import Schemata.Proofs.Node.Alternatives
import Schemata.Proofs.Number.ExactValue
import Schemata.Proofs.Number.Reading
import Schemata.Proofs.Validation.Scalars

/-! Numeric types. An integer reaches the facets in whichever form holds it, or as a numeral in a
string outside of `strictTypes`; a type whose alternatives are all numeric accepts what one of them
does. -/

namespace Schemata

/-- A number that is an integer, or a numeral in a string outside of `strictTypes`. -/
inductive Value.GivesInteger (strict : Bool) : Value → Int → Prop
  | number {n : Number} {i : Int} (stands : n.Stands i) : GivesInteger strict (.number n) i
  | numeral {s : String} {i : Int} (loose : strict = false)
      (written : Text.signedNumeral? (Text.trim s.toList) = some i) : GivesInteger strict (.string s) i

/-- `typeOf` passes, and some alternative has facets that admit the value. -/
def Node.Offers (n : Node) (value : Value) (admits : NumberFacets → Prop) : Prop :=
  Check.passes n value = true ∧
    ∃ alt ∈ n.alternatives, Check.passes alt value = true ∧ ∃ f, alt.shape = .number f ∧ admits f

theorem Node.offers_iff_of_single {n : Node} {f : NumberFacets} (single : n.alternatives? = none)
    (shape : n.shape = .number f) (value : Value) (admits : NumberFacets → Prop) :
    n.Offers value admits ↔ Check.passes n value = true ∧ admits f := by
  rw [Offers, alternatives_of_none single]
  constructor
  · rintro ⟨passes, alt, mem, -, f', shape', admitted⟩
    obtain rfl := List.mem_singleton.mp mem
    obtain rfl := Shape.number.inj (shape.symm.trans shape')
    exact ⟨passes, admitted⟩
  · rintro ⟨passes, admitted⟩
    exact ⟨passes, n, List.mem_singleton_self n, passes, f, shape, admitted⟩

namespace Check

variable {g : Graph} {firstOnly : Bool} {o : ValidationOptions} {n : Node} {l : Location} {v out : Value}
  {A : Prop} {part : Part}

theorem exists_numberOf? {strict : Bool} {i : Int} (gives : v.GivesInteger strict i) :
    ∃ x, numberOf? strict v = some x ∧ x.toInt? = some i := by
  cases gives with
  | number stands => exact ⟨_, rfl, Number.stands_iff.mp stands⟩
  | @numeral s i loose written =>
    refine ⟨Number.ofNumeral i, ?_, Number.toInt?_ofNumeral i⟩
    rw [numberOf?, loose, if_neg Bool.false_ne_true, Number.ofText?, Number.ofChars?_of_numeral written]

theorem present_of_givesInteger {strict : Bool} {i : Int} (gives : v.GivesInteger strict i) :
    v.isMissing = false := by
  cases gives <;> rfl

def AmountsTo (outcome : Option Report) (condition : Prop) (out : Value) : Prop :=
  ∃ r, outcome = some r ∧ ∀ w, r = .accept w ↔ condition ∧ w = out

theorem guarded_amountsTo (present : v.isMissing = false) (inner : AmountsTo (part l v) A out)
    (acceptsNil : Bool) :
    AmountsTo (guarded n acceptsNil o part l v) (passes n v = true ∧ A) out := by
  by_cases passes : passes n v = true
  · rw [guarded_of_enters ⟨present, passes⟩, and_iff_right passes]
    exact inner
  · have stays : ¬Enters n v := fun enters => passes enters.passes
    obtain ⟨r, decided⟩ := guarded_of_not_enters (o := o) (l := l) stays acceptsNil part
    refine ⟨r, decided, fun w => iff_of_false ?_ fun h => passes h.1.1⟩
    rintro rfl
    rcases guarded_eq_accept_iff.mp decided with ⟨absent, -⟩ | ⟨enters, -⟩
    · rw [present] at absent
      cases absent
    · exact stays enters

theorem firstMatch_amountsTo {alternatives : List Node} {candidateOf : Node → Candidate}
    {admits : Node → Prop} (each : ∀ alt ∈ alternatives, (candidateOf alt).precheck = none ∧
      (candidateOf alt).part.Settled False ∧ AmountsTo ((candidateOf alt).part l v) (admits alt) out)
    (last : List ValidationError) :
    AmountsTo (firstMatch firstOnly l v last (alternatives.map candidateOf))
      (∃ alt ∈ alternatives, admits alt) out := by
  induction alternatives generalizing last with
  | nil =>
    refine ⟨_, rfl, fun w => iff_of_false ?_ fun ⟨⟨alt, mem, _⟩, _⟩ => nomatch mem⟩
    intro accepted
    split at accepted
    · exact Report.reject_ne_accept accepted
    · cases congrArg Report.output accepted
  | cons alt rest ih =>
    obtain ⟨plain, settled, r, decided, accepts⟩ := each alt List.mem_cons_self
    have tried : candidate (candidateOf alt) l v = some (verdict r) := by
      rw [candidate_eq, Candidate.trial, plain, Option.elim_none, Option.bind_some, decided]
      rfl
    rw [List.map_cons, firstMatch_cons, tried, Option.bind_some, verdict]
    by_cases clean : r.errors = []
    · obtain ⟨w, rfl⟩ := (settled _ _ _ decided).eq_accept clean
      obtain ⟨admitted, rfl⟩ := (accepts w).mp rfl
      refine ⟨.accept w, rfl, fun w' => ?_⟩
      rw [Report.accept_inj, and_iff_right ⟨alt, List.mem_cons_self, admitted⟩]
      exact eq_comm
    · have refused : ¬admits alt := by
        intro admitted
        rw [(accepts out).mpr ⟨admitted, rfl⟩] at clean
        exact clean rfl
      rw [if_neg (mt List.isEmpty_iff.mp clean)]
      have others := ih (fun alt mem => each alt (List.mem_cons_of_mem _ mem)) r.errors
      simpa only [List.exists_mem_cons_iff, refused, false_or] using others

variable {admits : NumberFacets → Prop}

def ChecksAs (o : ValidationOptions) (l : Location) (v : Value) (admits : NumberFacets → Prop) (out : Value)
    (alt : Node) : Prop :=
  ∃ f, alt.shape = .number f ∧ ∀ w, number f (alt.base == .integer) o l v = .accept w ↔ admits f ∧ w = out

theorem ChecksAs.of_fits {alt : Node} {f : NumberFacets} {x y : Number} (numeric : alt.shape = .number f)
    (read : numberOf? o.strictTypes v = some x) (fits : ∀ integer, NumberFits f integer x ↔ admits f)
    (coerced : coercedNumber (isExact f) x = y) (l : Location) :
    ChecksAs o l v admits (if o.coerceTypes then .number y else v) alt := by
  refine ⟨f, numeric, fun w => ?_⟩
  rw [number_eq_accept_iff, read]
  simp only [Option.some_inj, exists_eq_left', fits, coerced]

theorem ChecksAs.amountsTo {alt : Node} (checks : ChecksAs o l v admits out alt)
    (present : v.isMissing = false) (single : alt.alternatives? = none) (g : Graph) (firstOnly : Bool)
    (fuel : Nat) :
    AmountsTo (run g firstOnly (fuel + 1) o alt l v)
      (passes alt v = true ∧ ∃ f, alt.shape = .number f ∧ admits f) out := by
  obtain ⟨f, numeric, accepts⟩ := checks
  rw [run_single single]
  refine guarded_amountsTo present ⟨number f (alt.base == .integer) o l v, ?_, fun w => ?_⟩ false
  · rw [shape, numeric]
  · rw [accepts, numeric]
    simp

theorem ChecksAs.needsTrial_eq {alt : Node} (checks : ChecksAs o l v admits out alt) :
    needsTrial alt = false := by
  obtain ⟨f, numeric, -⟩ := checks
  rw [needsTrial, numeric]

theorem run_amountsTo (present : v.isMissing = false)
    (checks : ∀ alt ∈ n.alternatives, ChecksAs o l v admits out alt) (g : Graph) (firstOnly : Bool)
    (fuel : Nat) :
    AmountsTo (run g firstOnly (fuel + 2) o n l v) (n.Offers v admits) out := by
  rcases found : n.alternatives? with _ | alternatives
  · have itself : n.alternatives = [n] := Node.alternatives_of_none found
    have own := checks n (itself ▸ List.mem_singleton_self n)
    rw [Node.Offers, itself]
    simpa using own.amountsTo present found g firstOnly (fuel + 1)
  · have same : n.alternatives = alternatives := Node.alternatives_of_some found
    rw [same] at checks
    have each (alt : Node) (mem : alt ∈ alternatives) :=
      (checks alt mem).amountsTo present (Node.alternatives?_of_mem found mem) g firstOnly fuel
    rw [Node.Offers, same]
    by_cases single : ∃ only, alternatives = [only]
    · obtain ⟨only, rfl⟩ := single
      rw [run_only found]
      simpa using guarded_amountsTo present (each only List.mem_cons_self) _
    · rw [run_several ⟨found, fun only h => single ⟨only, h⟩⟩]
      refine guarded_amountsTo present (firstMatch_amountsTo (fun alt mem => ⟨?_, ?_, each alt mem⟩) []) _
      · rw [asCandidate, (checks alt mem).needsTrial_eq]
        rfl
      · exact settled_run g firstOnly (fuel + 1) o alt

end Check

namespace Validator

theorem validate?_amountsTo {v : Validator} {value out : Value} {admits : NumberFacets → Prop}
    (present : value.isMissing = false)
    (checks : ∀ alt ∈ v.node.alternatives, Check.ChecksAs v.options [] value admits out alt) (steps : Nat) :
    ∃ r, v.validate? (steps + 2) value = some r ∧ ((∃ w, r = .ok w) ↔ v.node.Offers value admits) ∧
      ∀ w, r = .ok w → w = out := by
  obtain ⟨report, decided, accepts⟩ :=
    Check.run_amountsTo present checks v.graph v.options.throwOnFirstError steps
  obtain ⟨r, validated⟩ : ∃ r, v.validate? (steps + 2) value = some r :=
    ⟨_, congrArg (Option.map _) decided⟩
  have ok (w : Value) : r = .ok w ↔ v.node.Offers value admits ∧ w = out := by
    rw [← accepts, ← Option.some_inj, ← validated, validate?_eq_ok_iff, report?, decided, Option.some_inj]
  refine ⟨r, validated, ⟨fun ⟨w, accepted⟩ => ((ok w).mp accepted).1, fun offers => ?_⟩, fun w accepted => ?_⟩
  · exact ⟨out, (ok out).mpr ⟨offers, rfl⟩⟩
  · exact ((ok w).mp accepted).2

end Validator

end Schemata

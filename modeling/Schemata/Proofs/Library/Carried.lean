import Schemata.Proofs.Facet.Gathering
import Schemata.Proofs.Library.Singly
import Schemata.Proofs.Node.Declared

/-! The facets of a declaration in its own shape. The facet table admits for a base exactly what the
shape of that base can hold, so a facet that is set is either carried or an error. -/

namespace Schemata

def Shape.allowed? {μ ρ : Type} (s : Shape μ ρ) : Option (List Value) :=
  (s.string?.map (·.allowed)).or (s.number?.map (·.allowed))

namespace DeclarationOf

structure CarriedBy (k : Known) (d : Declaration) (s : Shape Node Ref) : Prop where
  allowed : ∀ list, d.details.allowed = some list → s.allowed? = some list
  patterns : List.Forall₂ (fun source p => Pattern.ofSource? source = some p) d.details.patterns
    ((s.string?.map (·.patterns)).getD [])
  minLength : s.string?.bind (·.minLength) = d.details.minLength
  maxLength : s.string?.bind (·.maxLength) = d.details.maxLength
  format : ∀ name, d.details.format = some name →
    (∃ f, NumberFormat.ofName? name = some f ∧ s.number?.bind (·.format) = some f) ∨
      ∃ f, DateFormat.ofName? name = some f ∧ s.date?.bind (·.format) = some f
  minimum : s.number?.bind (·.minimum) = d.details.minimum
  maximum : s.number?.bind (·.maximum) = d.details.maximum
  multipleOf : s.number?.bind (·.multipleOf) = d.details.multipleOf
  items : Option.Rel (TypeRef.ItemsPointTo k) d.items (s.array?.bind (·.items))
  uniqueItems : s.array?.bind (·.uniqueItems) = d.details.uniqueItems
  minItems : s.array?.bind (·.minItems) = d.details.minItems
  maxItems : s.array?.bind (·.maxItems) = d.details.maxItems
  properties : ∀ list, d.properties = some list → ∃ f, s.object? = some f ∧
    ∀ key r, Keyed.get? (Keyed.ofEntries list) key = some r →
      ∃ x, r.PointsTo k x ∧ Keyed.get? f.properties key = some ⟨x, false⟩
  additionalProperties : s.object?.bind (·.additionalProperties) = d.details.additionalProperties
  discriminator : s.object?.bind (·.discriminator) = d.details.discriminator
  discriminatorValue : ∀ v, d.details.discriminatorValue = some v →
    ∃ text, v.scalarText? = some text ∧ s.object?.bind (·.discriminatorValue) = some text
  minProperties : s.object?.bind (·.minProperties) = d.details.minProperties
  maxProperties : s.object?.bind (·.maxProperties) = d.details.maxProperties
  anyOf : ∀ refs, d.anyOf = some refs →
    ∃ members, s = .union members ∧ List.Forall₂ (TypeRef.Denotes k) refs members

end DeclarationOf

theorem forall₂_of_mapM {ε α β : Type} {f : α → Except ε β} {xs : List α} {ys : List β}
    (h : xs.mapM f = .ok ys) : List.Forall₂ (fun x y => f x = .ok y) xs ys := by
  induction xs generalizing ys with
  | nil =>
    obtain rfl := Except.ok.inj h
    exact .nil
  | cons x xs ih =>
    rw [List.mapM_cons] at h
    rcases first : f x with e | y <;> rw [first] at h
    · cases h
    · rcases others : xs.mapM f with e | rest <;> rw [others] at h
      · cases h
      · obtain rfl := Except.ok.inj h
        exact .cons first (ih others)

namespace DeclarationDetails

variable {d : DeclarationDetails} {type : String}

theorem patterns?_eq_ok {list : List Pattern} (h : d.patterns? type = .ok list) :
    List.Forall₂ (fun source p => Pattern.ofSource? source = some p) d.patterns list := by
  refine (forall₂_of_mapM h).imp fun source p compiled => ?_
  rcases found : Pattern.ofSource? source with _ | q <;> simp only [found] at compiled
  · cases compiled
  · exact congrArg some (Except.ok.inj compiled)

theorem numberFormat?_eq_ok {format : Option NumberFormat} (h : d.numberFormat? type = .ok format)
    {name : String} (declared : d.format = some name) :
    ∃ f, NumberFormat.ofName? name = some f ∧ format = some f := by
  simp only [numberFormat?, declared] at h
  rcases known : NumberFormat.ofName? name with _ | f <;> simp only [known] at h
  · cases h
  · exact ⟨f, rfl, (Except.ok.inj h).symm⟩

theorem dateFormat?_eq_ok {target : BaseType} {format : Option DateFormat}
    (h : d.dateFormat? type target = .ok format) {name : String} (declared : d.format = some name) :
    ∃ f, DateFormat.ofName? name = some f ∧ format = some f := by
  simp only [dateFormat?, declared] at h
  split at h
  · rcases known : DateFormat.ofName? name with _ | f <;> simp only [known] at h
    · cases h
    · exact ⟨f, rfl, (Except.ok.inj h).symm⟩
  · cases h

theorem discriminatorText?_eq_ok {text : Option String} (h : d.discriminatorText? type = .ok text)
    {v : Value} (declared : d.discriminatorValue = some v) :
    ∃ s, v.scalarText? = some s ∧ text = some s := by
  simp only [discriminatorText?, declared] at h
  rcases scalar : v.scalarText? with _ | s <;> simp only [scalar] at h
  · cases h
  · exact ⟨s, rfl, (Except.ok.inj h).symm⟩

end DeclarationDetails

namespace DeclarationOf

variable {k : Known} {d : Declaration} {target : BaseType} {item : Option Ref}
  {entries : List (String × Property Ref)} {members : List Node} {s : Shape Node Ref}

theorem unset (name : String) {α : Type} {facet : Option α} {allowed : Bool}
    (applicable : d.foreignFacet? target = none) (row : (name, facet.isSome, allowed) ∈ d.facets target)
    (foreign : allowed = false) : facet = none := by
  by_contra set
  have set : facet.isSome = true := Option.isSome_iff_ne_none.mpr set
  have passes := allowed_of_foreignFacet?_eq_none applicable _ row set
  rw [foreign] at passes
  cases passes

theorem fits (name : String) {α : Type} {facet : Option α} {allowed : Bool} {x : α}
    (applicable : d.foreignFacet? target = none) (row : (name, facet.isSome, allowed) ∈ d.facets target)
    (set : facet = some x) : allowed = true := by
  have set : facet.isSome = true := by rw [set, Option.isSome_some]
  exact allowed_of_foreignFacet?_eq_none applicable _ row set

/-! What a shape has room for goes by the base type that it is made for. -/

section Room

variable {name : String} {e : DeclarationDetails} {found : Keyed (Property Ref)}
  (shaped : shapeOf? name e target item found members = .ok s)

include shaped

theorem string?_of_shapeOf? : ∃ patterns, (target == .string → e.patterns? name = .ok patterns) ∧
    s.string? = if target == .string then
      some ⟨e.allowed.getD [], patterns, e.minLength, e.maxLength⟩ else none := by
  cases target with
  | string =>
    obtain ⟨patterns, compiled, rfl⟩ := exists_of_map_eq_ok shaped
    exact ⟨patterns, fun _ => compiled, rfl⟩
  | any | boolean | nil | array | union =>
    obtain rfl := Except.ok.inj shaped
    exact ⟨[], nofun, rfl⟩
  | _ =>
    obtain ⟨_, -, rfl⟩ := exists_of_map_eq_ok shaped
    exact ⟨[], nofun, rfl⟩

theorem number?_of_shapeOf? : ∃ format,
    (target == .number || target == .integer → e.numberFormat? name = .ok format) ∧
    s.number? = if target == .number || target == .integer then
      some ⟨e.allowed.getD [], format, e.minimum, e.maximum, e.multipleOf⟩ else none := by
  cases target with
  | number | integer =>
    obtain ⟨format, known, rfl⟩ := exists_of_map_eq_ok shaped
    exact ⟨format, fun _ => known, rfl⟩
  | any | boolean | nil | array | union =>
    obtain rfl := Except.ok.inj shaped
    exact ⟨none, nofun, rfl⟩
  | _ =>
    obtain ⟨_, -, rfl⟩ := exists_of_map_eq_ok shaped
    exact ⟨none, nofun, rfl⟩

theorem date?_of_shapeOf? : ∃ format, (target.isDate → e.dateFormat? name target = .ok format) ∧
    s.date? = if target.isDate then some ⟨format⟩ else none := by
  cases target with
  | any | boolean | nil | array | union =>
    obtain rfl := Except.ok.inj shaped
    exact ⟨none, nofun, rfl⟩
  | string | number | integer | object =>
    obtain ⟨_, -, rfl⟩ := exists_of_map_eq_ok shaped
    exact ⟨none, nofun, rfl⟩
  | _ =>
    obtain ⟨format, known, rfl⟩ := exists_of_map_eq_ok shaped
    exact ⟨format, fun _ => known, rfl⟩

theorem array?_of_shapeOf? : s.array? = if target == .array then
    some ⟨item, e.uniqueItems, e.minItems, e.maxItems⟩ else none := by
  cases target with
  | any | boolean | nil | array | union =>
    obtain rfl := Except.ok.inj shaped
    rfl
  | _ =>
    obtain ⟨_, -, rfl⟩ := exists_of_map_eq_ok shaped
    rfl

theorem object?_of_shapeOf? : ∃ text, (target == .object → e.discriminatorText? name = .ok text) ∧
    s.object? = if target == .object then some ⟨found, e.additionalProperties, e.discriminator, text,
      e.minProperties, e.maxProperties⟩ else none := by
  cases target with
  | object =>
    obtain ⟨text, scalar, rfl⟩ := exists_of_map_eq_ok shaped
    exact ⟨text, fun _ => scalar, rfl⟩
  | any | boolean | nil | array | union =>
    obtain rfl := Except.ok.inj shaped
    exact ⟨none, nofun, rfl⟩
  | _ =>
    obtain ⟨_, -, rfl⟩ := exists_of_map_eq_ok shaped
    exact ⟨none, nofun, rfl⟩

end Room

/-- A facet that is set is carried by the shape of a base type that has it, and is an error for any
other. -/
theorem facet_carried (name : String) {F α : Type} {facets? : Option F} {f : F} {proj : F → Option α}
    {facet : Option α} {allowed : Bool} (applicable : d.foreignFacet? target = none)
    (row : (name, facet.isSome, allowed) ∈ d.facets target)
    (room : facets? = if allowed then some f else none) (declared : proj f = facet) :
    facets?.bind proj = facet := by
  cases allowed with
  | true =>
    rw [room, if_pos rfl]
    exact declared
  | false =>
    rw [room, if_neg Bool.false_ne_true, unset name applicable row rfl]
    rfl

section Told

variable {found : Keyed (Property Ref)} (applicable : d.foreignFacet? target = none)
  (shaped : shapeOf? d.displayName d.details target item found members = .ok s)

include applicable shaped

theorem allowed_carried {list : List Value} (declared : d.details.allowed = some list) :
    s.allowed? = some list := by
  obtain ⟨patterns, -, strings⟩ := string?_of_shapeOf? shaped
  obtain ⟨format, -, numbers⟩ := number?_of_shapeOf? shaped
  have fits : (target == .string || (target == .number || target == .integer)) = true :=
    fits "enum" applicable (by simp [facets]) declared
  by_cases string : target == .string
  · simp [Shape.allowed?, strings, string, declared]
  · have number : (target == .number || target == .integer) = true := by simpa [string] using fits
    simp only [Shape.allowed?, strings, numbers, if_neg string, if_pos number]
    simp [declared]

theorem patterns_carried : List.Forall₂ (fun source p => Pattern.ofSource? source = some p)
    d.details.patterns ((s.string?.map (·.patterns)).getD []) := by
  obtain ⟨patterns, compiled, strings⟩ := string?_of_shapeOf? shaped
  by_cases string : target == .string
  · rw [strings, if_pos string]
    exact DeclarationDetails.patterns?_eq_ok (compiled string)
  · have none : d.details.patterns = [] := by
      by_contra set
      have fits := allowed_of_foreignFacet?_eq_none applicable
        ("pattern", !d.details.patterns.isEmpty, target == .string) (by simp [facets]) (by simp [set])
      exact string fits
    rw [strings, if_neg string, none]
    exact .nil

theorem format_carried {name : String} (declared : d.details.format = some name) :
    (∃ f, NumberFormat.ofName? name = some f ∧ s.number?.bind (·.format) = some f) ∨
      ∃ f, DateFormat.ofName? name = some f ∧ s.date?.bind (·.format) = some f := by
  obtain ⟨format, numeric, numbers⟩ := number?_of_shapeOf? shaped
  obtain ⟨format', temporal, dates⟩ := date?_of_shapeOf? shaped
  have fits : (target == .number || target == .integer || target.isDate) = true :=
    fits "format" applicable (by simp [facets]) declared
  rcases Bool.or_eq_true_iff.mp fits with number | date
  · left
    obtain ⟨f, known, rfl⟩ := DeclarationDetails.numberFormat?_eq_ok (numeric number) declared
    refine ⟨f, known, ?_⟩
    rw [numbers, if_pos number]
    rfl
  · right
    obtain ⟨f, known, rfl⟩ := DeclarationDetails.dateFormat?_eq_ok (temporal date) declared
    refine ⟨f, known, ?_⟩
    rw [dates, if_pos date]
    rfl

theorem discriminatorValue_carried {v : Value} (declared : d.details.discriminatorValue = some v) :
    ∃ text, v.scalarText? = some text ∧ s.object?.bind (·.discriminatorValue) = some text := by
  obtain ⟨text, scalar, objects⟩ := object?_of_shapeOf? shaped
  have object : (target == .object) = true :=
    fits "discriminatorValue" applicable (by simp [facets]) declared
  obtain ⟨text, written, rfl⟩ := DeclarationDetails.discriminatorText?_eq_ok (scalar object) declared
  refine ⟨text, written, ?_⟩
  rw [objects, if_pos object]
  rfl

end Told

theorem carriedBy_of_shapeOf? (applicable : d.foreignFacet? target = none)
    (items : Option.Rel (TypeRef.ItemsPointTo k) d.items item)
    (properties : List.Forall₂ (TypeRef.EntryPointsTo k) (d.properties.getD []) entries)
    (union : List.Forall₂ (TypeRef.Denotes k) (d.anyOf.getD []) members)
    (shaped : shapeOf? d.displayName d.details target item (Keyed.ofEntries entries) members = .ok s) :
    d.CarriedBy k s := by
  obtain ⟨patterns, -, strings⟩ := string?_of_shapeOf? shaped
  obtain ⟨format, -, numbers⟩ := number?_of_shapeOf? shaped
  obtain ⟨text, -, objects⟩ := object?_of_shapeOf? shaped
  have arrays := array?_of_shapeOf? shaped
  constructor
  case allowed => exact fun _ => allowed_carried applicable shaped
  case patterns => exact patterns_carried applicable shaped
  case minLength => exact facet_carried "minLength" applicable (by simp [facets]) strings rfl
  case maxLength => exact facet_carried "maxLength" applicable (by simp [facets]) strings rfl
  case format => exact fun _ => format_carried applicable shaped
  case minimum => exact facet_carried "minimum" applicable (by simp [facets]) numbers rfl
  case maximum => exact facet_carried "maximum" applicable (by simp [facets]) numbers rfl
  case multipleOf => exact facet_carried "multipleOf" applicable (by simp [facets]) numbers rfl
  case items =>
    by_cases array : target == .array
    · rw [arrays, if_pos array]
      exact items
    · have none : d.items = none := items_eq_none applicable (by simpa using array)
      rw [arrays, if_neg array, none]
      exact .none
  case uniqueItems => exact facet_carried "uniqueItems" applicable (by simp [facets]) arrays rfl
  case minItems => exact facet_carried "minItems" applicable (by simp [facets]) arrays rfl
  case maxItems => exact facet_carried "maxItems" applicable (by simp [facets]) arrays rfl
  case properties =>
    intro list declared
    obtain rfl := target_eq_object declared applicable
    rw [declared] at properties
    exact ⟨_, objects, fun key r found => TypeRef.exists_of_get? properties found⟩
  case additionalProperties =>
    exact facet_carried "additionalProperties" applicable (by simp [facets]) objects rfl
  case discriminator =>
    exact facet_carried "discriminator" applicable (by simp [facets]) objects rfl
  case discriminatorValue => exact fun _ => discriminatorValue_carried applicable shaped
  case minProperties =>
    exact facet_carried "minProperties" applicable (by simp [facets]) objects rfl
  case maxProperties =>
    exact facet_carried "maxProperties" applicable (by simp [facets]) objects rfl
  case anyOf =>
    intro refs declared
    obtain rfl : target = .union := by
      by_contra other
      rw [anyOf_eq_none applicable other] at declared
      cases declared
    obtain rfl := Except.ok.inj shaped
    rw [declared] at union
    exact ⟨members, rfl, union⟩

theorem Describes.carriedBy {id : NodeId} {n : Node} (h : d.Describes k id n) :
    d.CarriedBy k n.ownShape := by
  obtain ⟨-, applicable, items, properties, union, shaped, made⟩ := h
  obtain ⟨first, rest, -, -, rfl⟩ := Building.compose_eq_pure made
  rw [ownShape_pure, Building.lift_eq_pure] at shaped
  exact carriedBy_of_shapeOf? applicable items properties union shaped

end DeclarationOf

namespace Library

variable {g g' : Graph} {l : Library} {d : Declaration} {n : Node}

def known (l : Library) : Known where
  direct name n := l.type? name = some n
  forward _ _ := False

theorem createType_describes (made : l.createType g d = .ok (n, g')) :
    ∃ id, d.Describes l.known id n := by
  rw [createType_eq] at made
  rcases run : (Batch.within l.types [] 0 []).build g.next d ⟨g.next + 1, [], []⟩ with e | ⟨m, p⟩
  · rw [run] at made
    cases made
  · rw [run] at made
    obtain ⟨rfl, -⟩ := Prod.mk.inj (Except.ok.inj made)
    have start : Batch.Sound l.types [] [] ⟨g.next + 1, [], []⟩ := Batch.sound_start fun _ _ _ h => nomatch h
    have keeps : (Batch.within l.types [] 0 []).Keeps (Batch.regime l.types [] []) :=
      Batch.within_keeps_regime 0 []
    obtain ⟨sound, -, describes⟩ := Scope.build_yields keeps g.next d _ _ _ start run
    refine ⟨g.next, describes.mono ⟨?_, ?_⟩⟩
    · rintro name n (built | old)
      · obtain ⟨_, _, declared, -⟩ := sound.built name n built
        cases declared
      · exact old
    · rintro _ _ ⟨-, ⟨_, declared⟩, -⟩
      cases declared

/-- `createType`, `addTypes` and inline declarations fail, or give a node whose own shape carries
every facet of the declaration. -/
theorem declared_facets_carried (reached : Reached g l) :
    (∀ d, (∃ e, l.createType g d = .error e) ∨ ∃ id n g', l.createType g d = .ok (n, g') ∧
      d.Describes l.known id n ∧ d.CarriedBy l.known n.ownShape) ∧
    (∀ ds, (∃ e, l.addTypes g ds = .error e) ∨ ∃ a, l.addTypes g ds = .ok a ∧
      ∀ d ∈ ds, ∃ id n, a.library.type? d.key = some n ∧
        d.Describes a.known id n ∧ d.CarriedBy a.known n.ownShape) ∧
    ∀ (k : Known) (d : Declaration) n, (TypeRef.inline d).Denotes k n → d.CarriedBy k n.ownShape := by
  refine ⟨fun d => ?_, fun ds => ?_, fun k d n denotes => ?_⟩
  · rcases made : l.createType g d with e | ⟨n, g'⟩
    · left
      exact ⟨e, rfl⟩
    · right
      obtain ⟨id, describes⟩ := createType_describes made
      exact ⟨id, n, g', rfl, describes, describes.carriedBy⟩
  · rcases add : l.addTypes g ds with e | a
    · left
      exact ⟨e, rfl⟩
    · right
      have grown := Grown.of_addTypes reached.closed.numbered add
      refine ⟨a, rfl, fun d hd => ?_⟩
      obtain ⟨id, n, found, describes⟩ := grown.added d hd
      exact ⟨id, n, found, describes, describes.carriedBy⟩
  · cases denotes with
    | inline describes => exact describes.carriedBy

def tagged : Declaration :=
  { DeclarationOf.named "tagged" with
    properties := some [("tags", .inline
      { DeclarationOf.blank with
        items := some (.name "string")
        details := { DeclarationDetails.blank with uniqueItems := some true } })]
    details := { DeclarationDetails.blank with minProperties := some 1 } }

theorem declared_facets_carried_of_tagged :
    Reached .initial .initial ∧ ∃ n g', initial.createType .initial tagged = .ok (n, g') ∧
      n.ownShape.object?.bind (·.minProperties) = some 1 ∧
      ∃ f m, n.ownShape.object? = some f ∧ Keyed.get? f.properties "tags" = some ⟨.node m, false⟩ ∧
        m.ownShape.array?.bind (·.uniqueItems) = some true := by
  refine ⟨.initial, ?_⟩
  obtain ⟨created, -, nested⟩ := declared_facets_carried .initial
  have makes : (initial.createType .initial tagged).toOption.isSome = true := by decide +kernel
  rcases created tagged with ⟨e, fails⟩ | ⟨id, n, g', made, -, carried⟩
  · rw [fails] at makes
    cases makes
  · obtain ⟨f, object, properties⟩ := carried.properties _ rfl
    obtain ⟨x, points, found⟩ := properties "tags" _ rfl
    cases points with
    | node denotes =>
      exact ⟨n, g', made, carried.minProperties, f, _, object, found, (nested _ _ _ denotes).uniqueItems⟩

end Library
end Schemata

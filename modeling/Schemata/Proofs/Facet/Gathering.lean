import Schemata.Proofs.Facet.Merging

/-! Facets gathered from several sources. The facets of a type come of a merge with every supertype and
then with its own; here they are told from those facets themselves. -/

namespace Schemata

open Merge

/-! What facets are that are gathered from others, those of the type itself coming last. -/

structure Header.Gathers (h : Header) (base : BaseType) (sources : List Header) (own : Header) : Prop where
  description : h.description = (own :: sources).findSome? (·.description)
  required : h.required =
    if base = .nil then some false else (own :: sources).findSome? (·.required)
  default? : h.default? = if base = .nil then some .null else (own :: sources).findSome? (·.default?)
  typeOf : h.typeOf = (own :: sources).findSome? (·.typeOf)
  keys : h.annotations.keys = ((sources ++ [own]).flatMap (·.annotations.keys)).eraseDups
  annotation : ∀ key, h.annotations.get? key = ((Keyed.ofEntries own.annotations).get? key).or
    (sources.findSome? fun source => source.annotations.get? key)

theorem Header.gathers (base : BaseType) (sources : List Header) (own : Header) :
    Gathers (if base = .nil then (gather Header.merge Header.empty sources (some own)).optionalNull
      else gather Header.merge Header.empty sources (some own)) base sources own := by
  have single {α : Type} (p : Header → Option α)
      (each : ∀ mode t s, p (merge mode t s) = singular mode (p t) (p s)) (absent : p empty = none) :
      p (gather Header.merge Header.empty sources (some own)) = (own :: sources).findSome? p :=
    single_gather p each absent
  have description := single Header.description (fun _ _ _ => rfl) rfl
  have typeOf := single Header.typeOf (fun _ _ _ => rfl) rfl
  have annotations : (gather Header.merge Header.empty sources (some own)).annotations =
      gather entries [] (sources.map Header.annotations) (some own.annotations) :=
    gather_hom _ Header.annotations (fun _ _ _ => rfl) Header.empty sources (some own)
  have keys : (gather Header.merge Header.empty sources (some own)).annotations.keys =
      ((sources ++ [own]).flatMap (·.annotations.keys)).eraseDups := by
    rw [annotations, keys_gather_entries, List.flatMap_append, List.flatMap_append, List.flatMap_map]
    rfl
  have annotation key : (gather Header.merge Header.empty sources (some own)).annotations.get? key =
      ((Keyed.ofEntries own.annotations).get? key).or
        (sources.findSome? fun source => source.annotations.get? key) := by
    rw [annotations, get?_gather_entries, List.findSome?_map]
    rfl
  by_cases nil : base = .nil
  · rw [if_pos nil]
    exact ⟨description, (if_pos nil).symm, (if_pos nil).symm, typeOf, keys, annotation⟩
  · rw [if_neg nil]
    have required := single Header.required (fun _ _ _ => rfl) rfl
    have default? := single Header.default? (fun _ _ _ => rfl) rfl
    exact ⟨description, required.trans (if_neg nil).symm, default?.trans (if_neg nil).symm, typeOf, keys,
      annotation⟩

structure StringFacets.Gathers (f : StringFacets) (sources : List StringFacets)
    (own? : Option StringFacets) : Prop where
  allowed : f.allowed =
    ((sources ++ own?.toList).flatMap (·.allowed)).eraseDupsBy fun x y => y.equal x
  patterns : f.patterns =
    ((sources ++ own?.toList).flatMap (·.patterns)).eraseDupsBy fun x y => y.same x
  minLength : f.minLength = ((sources ++ own?.toList).filterMap (·.minLength)).min?
  maxLength : f.maxLength = ((sources ++ own?.toList).filterMap (·.maxLength)).max?

theorem StringFacets.gathers (sources : List StringFacets) (own? : Option StringFacets) :
    (gather StringFacets.merge ⟨[], [], none, none⟩ sources own?).Gathers sources own? where
  allowed := listed_gather StringFacets.allowed (fun _ _ _ => rfl) rfl
  patterns := listed_gather StringFacets.patterns (fun _ _ _ => rfl) rfl
  minLength := least_gather StringFacets.minLength (fun _ _ _ => rfl) rfl
  maxLength := greatest_gather StringFacets.maxLength (fun _ _ _ => rfl) rfl

structure NumberFacets.Gathers (f : NumberFacets) (sources : List NumberFacets)
    (own? : Option NumberFacets) : Prop where
  allowed : f.allowed =
    ((sources ++ own?.toList).flatMap (·.allowed)).eraseDupsBy fun x y => y.equal x
  format : f.format = (own?.toList ++ sources).findSome? (·.format)
  minimum : Widest (fun t s => t.le s) (fun n => !n.isNaN)
    ((sources ++ own?.toList).filterMap (·.minimum)) f.minimum
  maximum : Widest (fun t s => s.le t) (fun n => !n.isNaN)
    ((sources ++ own?.toList).filterMap (·.maximum)) f.maximum
  multipleOf : f.multipleOf = (own?.toList ++ sources).findSome? (·.multipleOf)

theorem NumberFacets.gathers (sources : List NumberFacets) (own? : Option NumberFacets) :
    (gather NumberFacets.merge ⟨[], none, none, none, none⟩ sources own?).Gathers sources own? where
  allowed := listed_gather NumberFacets.allowed (fun _ _ _ => rfl) rfl
  format := single_gather NumberFacets.format (fun _ _ _ => rfl) rfl
  minimum := widest_gather NumberFacets.minimum ranks_lowerNumber (fun _ _ _ => rfl) rfl
  maximum := widest_gather NumberFacets.maximum ranks_upperNumber (fun _ _ _ => rfl) rfl
  multipleOf := single_gather NumberFacets.multipleOf (fun _ _ _ => rfl) rfl

structure DateFacets.Gathers (f : DateFacets) (sources : List DateFacets) (own? : Option DateFacets) :
    Prop where
  format : f.format = (own?.toList ++ sources).findSome? (·.format)

theorem DateFacets.gathers (sources : List DateFacets) (own? : Option DateFacets) :
    (gather DateFacets.merge ⟨none⟩ sources own?).Gathers sources own? where
  format := single_gather DateFacets.format (fun _ _ _ => rfl) rfl

section

variable {μ ρ : Type}

structure ArrayFacets.Gathers (f : ArrayFacets ρ) (sources : List (ArrayFacets ρ))
    (own? : Option (ArrayFacets ρ)) : Prop where
  items : f.items = (own?.toList ++ sources).findSome? (·.items)
  uniqueItems : f.uniqueItems = (own?.toList ++ sources).findSome? (·.uniqueItems)
  minItems : f.minItems = ((sources ++ own?.toList).filterMap (·.minItems)).min?
  maxItems : f.maxItems = ((sources ++ own?.toList).filterMap (·.maxItems)).max?

theorem ArrayFacets.gathers (sources : List (ArrayFacets ρ)) (own? : Option (ArrayFacets ρ)) :
    (gather ArrayFacets.merge ⟨none, none, none, none⟩ sources own?).Gathers sources own? where
  items := single_gather ArrayFacets.items (fun _ _ _ => rfl) rfl
  uniqueItems := single_gather ArrayFacets.uniqueItems (fun _ _ _ => rfl) rfl
  minItems := least_gather ArrayFacets.minItems (fun _ _ _ => rfl) rfl
  maxItems := greatest_gather ArrayFacets.maxItems (fun _ _ _ => rfl) rfl

/-- Properties in first-seen order, each with the declared type if it is redeclared and else with
that of the first source which has it. -/
structure ObjectFacets.Gathers (f : ObjectFacets ρ) (sources : List (ObjectFacets ρ))
    (own? : Option (ObjectFacets ρ)) : Prop where
  keys : Keyed.keys f.properties =
    ((sources ++ own?.toList).flatMap fun g => Keyed.keys g.properties).eraseDups
  property : ∀ key, Keyed.get? f.properties key =
    (own?.bind fun own => Keyed.get? own.properties key).or
      ((sources.findSome? fun g => Keyed.get? g.properties key).map fun p => ⟨p.type, true⟩)
  inherited : ∀ key p, Keyed.get? f.properties key = some p →
    (p.inherited = true ↔ (own?.bind fun own => Keyed.get? own.properties key) = none)
  additionalProperties :
    f.additionalProperties = (own?.toList ++ sources).findSome? (·.additionalProperties)
  discriminator : f.discriminator = (own?.toList ++ sources).findSome? (·.discriminator)
  discriminatorValue :
    f.discriminatorValue = (own?.toList ++ sources).findSome? (·.discriminatorValue)
  minProperties : f.minProperties = ((sources ++ own?.toList).filterMap (·.minProperties)).min?
  maxProperties : f.maxProperties = ((sources ++ own?.toList).filterMap (·.maxProperties)).max?

structure ObjectFacets.Declared (f : ObjectFacets ρ) : Prop where
  distinct : Keyed.Distinct f.properties
  own : ∀ e ∈ f.properties, e.2.inherited = false

theorem ObjectFacets.properties_gather (sources : List (ObjectFacets ρ))
    (own? : Option (ObjectFacets ρ)) :
    (gather ObjectFacets.merge ⟨[], none, none, none, none, none⟩ sources own?).properties =
      gather entries [] (sources.map fun g => g.properties.map fun (k, p) => (k, ⟨p.type, true⟩))
        (own?.map (·.properties)) := by
  have marked (source : List (String × Property ρ)) :
      (source.map fun (k, p) => (k, p.taken .refine)) = source := List.map_id _
  rw [gather_hom (fun mode t s => entries mode t (s.map fun (k, p) => (k, p.taken mode)))
    ObjectFacets.properties fun _ _ _ => rfl]
  unfold gather
  rw [List.foldl_map, List.foldl_map]
  cases own? with
  | none => rfl
  | some own => exact congrArg (entries .refine _) (marked own.properties)

theorem ObjectFacets.gathers (sources : List (ObjectFacets ρ)) (own? : Option (ObjectFacets ρ))
    (declared : ∀ own ∈ own?, own.Declared) :
    (gather ObjectFacets.merge ⟨[], none, none, none, none, none⟩ sources own?).Gathers sources own? := by
  have property key : Keyed.get?
      (gather ObjectFacets.merge ⟨[], none, none, none, none, none⟩ sources own?).properties key =
        (own?.bind fun own => Keyed.get? own.properties key).or
          ((sources.findSome? fun g => Keyed.get? g.properties key).map fun p => ⟨p.type, true⟩) := by
    have own : ((own?.map (·.properties)).bind fun own => (Keyed.ofEntries own).get? key) =
        own?.bind fun own => Keyed.get? own.properties key := by
      cases own? with
      | none => rfl
      | some own =>
        exact (Keyed.get?_ofEntries _ key).trans (Keyed.get?_reverse (declared own rfl).distinct key)
    rw [properties_gather, get?_gather_entries, own, List.findSome?_map, List.map_findSome?]
    congr 2
    funext g
    exact Keyed.get?_map (fun p : Property ρ => (⟨p.type, true⟩ : Property ρ)) g.properties key
  refine ⟨?_, property, fun key p found => ?_, single_gather additionalProperties (fun _ _ _ => rfl) rfl,
    single_gather discriminator (fun _ _ _ => rfl) rfl,
    single_gather discriminatorValue (fun _ _ _ => rfl) rfl,
    least_gather minProperties (fun _ _ _ => rfl) rfl,
    greatest_gather maxProperties (fun _ _ _ => rfl) rfl⟩
  · have keys (source : List (String × Property ρ)) :
        Keyed.keys (source.map fun (k, p) => (k, (⟨p.type, true⟩ : Property ρ))) = Keyed.keys source := by
      rw [Keyed.keys, List.map_map]
      rfl
    rw [properties_gather, keys_gather_entries, Option.toList_map, List.flatMap_append, List.flatMap_append,
      List.flatMap_map, List.flatMap_map]
    simp only [keys]
  · rw [property] at found
    rcases there : own?.bind fun own => Keyed.get? own.properties key with _ | p'
    · rw [there, Option.none_or] at found
      obtain ⟨_, -, rfl⟩ := Option.map_eq_some_iff.mp found
      exact iff_of_true rfl rfl
    · rw [there] at found
      obtain rfl := Option.some.inj found
      obtain ⟨own, mem, there⟩ := Option.bind_eq_some_iff.mp there
      rw [(declared own mem).own _ (Keyed.mem_of_get? there)]
      exact iff_of_false Bool.false_ne_true (Option.some_ne_none p')

namespace Shape

/-! The facets of a shape, where it is of the kind. -/

def string? : Shape μ ρ → Option StringFacets
  | string f => some f
  | _ => none

def number? : Shape μ ρ → Option NumberFacets
  | number f => some f
  | _ => none

def date? : Shape μ ρ → Option DateFacets
  | date f => some f
  | _ => none

def array? : Shape μ ρ → Option (ArrayFacets ρ)
  | array f => some f
  | _ => none

def object? : Shape μ ρ → Option (ObjectFacets ρ)
  | object f => some f
  | _ => none

/-- The facets of a shape as gathered from the sources of its kind in order and then from its own;
for union members, the first non-empty list. -/
def Gathers (s : Shape μ ρ) (sources : List (Shape μ ρ)) (own : Shape μ ρ) : Prop :=
  match s with
  | any | boolean | nil => True
  | string f => f.Gathers (sources.filterMap string?) own.string?
  | number f => f.Gathers (sources.filterMap number?) own.number?
  | date f => f.Gathers (sources.filterMap date?) own.date?
  | array f => f.Gathers (sources.filterMap array?) own.array?
  | object f => f.Gathers (sources.filterMap object?) own.object?
  | union list =>
    list = (((own :: sources).map members).find? fun members => !members.isEmpty).getD []

theorem gather_eq {F : Type} (form : F → Shape μ ρ) (facets? : Shape μ ρ → Option F)
    (merge : MergeMode → F → F → F)
    (each : ∀ mode t s, (form t).merge mode s = form ((facets? s).elim t (merge mode t))) (empty : F)
    (sources : List (Shape μ ρ)) (own : Shape μ ρ) :
    gather Shape.merge (form empty) sources (some own) =
      form (gather merge empty (sources.filterMap facets?) (facets? own)) := by
  have inherited (start : F) : sources.foldl (Shape.merge .inherit) (form start) =
      form ((sources.filterMap facets?).foldl (merge .inherit) start) := by
    induction sources generalizing start with
    | nil => rfl
    | cons s rest ih =>
      rw [List.foldl_cons, each, ih]
      rcases found : facets? s with _ | f
      · rw [List.filterMap_cons_none found]
        rfl
      · rw [List.filterMap_cons_some found]
        rfl
  unfold gather
  rw [inherited]
  exact each .refine _ own

theorem gathers (b : BaseType) (sources : List (Shape μ ρ)) (own : Shape μ ρ)
    (declared : ∀ f ∈ own.object?, f.Declared) :
    (gather Shape.merge b.emptyShape sources (some own)).Gathers sources own := by
  have fixed (s : Shape μ ρ) (each : ∀ mode t, s.merge mode t = s) :
      gather Shape.merge s sources (some own) = s := by
    unfold gather
    rw [List.foldl_fixed' (each .inherit)]
    exact each .refine own
  cases b with
  | any | boolean | nil =>
    rw [BaseType.emptyShape, fixed _ fun _ t => by cases t <;> rfl]
    trivial
  | string =>
    rw [BaseType.emptyShape, emptyString, gather_eq string string? StringFacets.merge
      fun _ _ s => by cases s <;> rfl]
    exact StringFacets.gathers _ _
  | number | integer =>
    rw [BaseType.emptyShape, emptyNumber, gather_eq number number? NumberFacets.merge
      fun _ _ s => by cases s <;> rfl]
    exact NumberFacets.gathers _ _
  | array =>
    rw [BaseType.emptyShape, emptyArray, gather_eq array array? ArrayFacets.merge
      fun _ _ s => by cases s <;> rfl]
    exact ArrayFacets.gathers _ _
  | object =>
    rw [BaseType.emptyShape, emptyObject, gather_eq object object? ObjectFacets.merge
      fun _ _ s => by cases s <;> rfl]
    exact ObjectFacets.gathers _ _ declared
  | union =>
    rw [BaseType.emptyShape, gather_eq union (fun s => some s.members) Merge.members
      fun _ _ s => by cases s <;> rfl, Gathers, gather_members, List.filterMap_eq_map']
    rfl
  | date | dateOnly | timeOnly | dateTimeOnly | dateTime =>
    rw [BaseType.emptyShape, emptyDate, gather_eq date date? DateFacets.merge
      fun _ _ s => by cases s <;> rfl]
    exact DateFacets.gathers _ _

end Shape

end
end Schemata

import Schemata.Declaration.Basic

/-! The names that a declaration mentions, at any depth of declarations in place. A supertype and
a member of a union are needed at once: such a mention is firm. A name that stands by itself for a
property or an item may wait: such a mention is loose. -/

namespace Schemata

/-- How much a declaration depends on a name that it mentions. -/
inductive Grip where
  | firm
  | loose

def TypeRef.spread : Option TypeRef → List TypeRef
  | none => []
  | some (.many refs) => refs
  | some r => [r]

theorem TypeRef.sizeOf_lt_of_mem_spread {r : TypeRef} {ref? : Option TypeRef}
    (h : r ∈ spread ref?) : sizeOf r < sizeOf ref? := by
  rcases ref? with _ | (a | refs | d)
  · cases h
  · obtain rfl := List.mem_singleton.mp h
    simp only [Option.some.sizeOf_spec]
    omega
  · have h : r ∈ refs := h
    have := List.sizeOf_lt_of_mem h
    simp only [Option.some.sizeOf_spec, TypeRef.many.sizeOf_spec]
    omega
  · obtain rfl := List.mem_singleton.mp h
    simp only [Option.some.sizeOf_spec]
    omega

namespace DeclarationOf

/-- The references that a declaration is made of, with the grip of a name that stands there. -/
def parts (d : DeclarationOf TypeRef) : List (Grip × TypeRef) :=
  (TypeRef.spread d.extends?).map (.firm, ·) ++ (TypeRef.spread d.items).map (.loose, ·) ++
    (d.properties.getD []).map (fun e => (.loose, e.2)) ++ (d.anyOf.getD []).map (.firm, ·)

theorem mem_parts {d : DeclarationOf TypeRef} {grip : Grip} {r : TypeRef} :
    (grip, r) ∈ d.parts ↔
      grip = .firm ∧ r ∈ TypeRef.spread d.extends? ∨ grip = .loose ∧ r ∈ TypeRef.spread d.items ∨
        grip = .loose ∧ (∃ key, (key, r) ∈ d.properties.getD []) ∨
          grip = .firm ∧ r ∈ d.anyOf.getD [] := by
  simp only [parts, List.mem_append, List.mem_map, Prod.mk.injEq]
  constructor
  · rintro (((⟨_, h, rfl, rfl⟩ | ⟨_, h, rfl, rfl⟩) | ⟨e, h, rfl, rfl⟩) | ⟨_, h, rfl, rfl⟩)
    · exact .inl ⟨rfl, h⟩
    · exact .inr (.inl ⟨rfl, h⟩)
    · exact .inr (.inr (.inl ⟨rfl, e.1, h⟩))
    · exact .inr (.inr (.inr ⟨rfl, h⟩))
  · rintro (⟨rfl, h⟩ | ⟨rfl, h⟩ | ⟨rfl, key, h⟩ | ⟨rfl, h⟩)
    · exact .inl (.inl (.inl ⟨r, h, rfl, rfl⟩))
    · exact .inl (.inl (.inr ⟨r, h, rfl, rfl⟩))
    · exact .inl (.inr ⟨_, h, rfl, rfl⟩)
    · exact .inr ⟨r, h, rfl, rfl⟩

theorem supertype_mem_parts {d : DeclarationOf TypeRef} {r : TypeRef}
    (h : r ∈ TypeRef.spread d.extends?) : (Grip.firm, r) ∈ d.parts :=
  mem_parts.mpr (.inl ⟨rfl, h⟩)

theorem item_mem_parts {d : DeclarationOf TypeRef} {r : TypeRef}
    (h : r ∈ TypeRef.spread d.items) : (Grip.loose, r) ∈ d.parts :=
  mem_parts.mpr (.inr (.inl ⟨rfl, h⟩))

theorem property_mem_parts {d : DeclarationOf TypeRef} {key : String} {r : TypeRef}
    (h : (key, r) ∈ d.properties.getD []) : (Grip.loose, r) ∈ d.parts :=
  mem_parts.mpr (.inr (.inr (.inl ⟨rfl, key, h⟩)))

theorem member_mem_parts {d : DeclarationOf TypeRef} {r : TypeRef} (h : r ∈ d.anyOf.getD []) :
    (Grip.firm, r) ∈ d.parts :=
  mem_parts.mpr (.inr (.inr (.inr ⟨rfl, h⟩)))

theorem sizeOf_lt_of_mem_parts {d : DeclarationOf TypeRef} {grip : Grip} {r : TypeRef}
    (h : (grip, r) ∈ d.parts) : sizeOf r < sizeOf d := by
  obtain ⟨_, extends?, items, properties, anyOf, _⟩ := d
  simp only [mk.sizeOf_spec]
  obtain ⟨_, h⟩ | ⟨_, h⟩ | ⟨_, key, h⟩ | ⟨_, h⟩ := mem_parts.mp h
  · have h : r ∈ TypeRef.spread extends? := h
    have := TypeRef.sizeOf_lt_of_mem_spread h
    omega
  · have h : r ∈ TypeRef.spread items := h
    have := TypeRef.sizeOf_lt_of_mem_spread h
    omega
  · rcases properties with _ | list
    · cases h
    · have h : (key, r) ∈ list := h
      have := List.sizeOf_lt_of_mem h
      simp only [Option.some.sizeOf_spec, Prod.mk.sizeOf_spec] at this ⊢
      omega
  · rcases anyOf with _ | list
    · cases h
    · have h : r ∈ list := h
      have := List.sizeOf_lt_of_mem h
      simp only [Option.some.sizeOf_spec]
      omega

end DeclarationOf

namespace TypeRef

/-- Induction over references: a declaration in place may use what holds of all its parts. -/
@[elab_as_elim]
theorem induction {P : TypeRef → Prop} (name : ∀ a, P (.name a))
    (many : ∀ refs, (∀ r ∈ refs, P r) → P (.many refs))
    (inline : ∀ d : Declaration, (∀ grip r, (grip, r) ∈ d.parts → P r) → P (.inline d)) :
    ∀ r, P r
  | .name a => name a
  | .many refs => many refs fun r _ => induction name many inline r
  | .inline d => inline d fun _ r _ => induction name many inline r
termination_by r => sizeOf r
decreasing_by
  · have := List.sizeOf_lt_of_mem ‹r ∈ refs›
    simp only [TypeRef.many.sizeOf_spec]
    omega
  · have := DeclarationOf.sizeOf_lt_of_mem_parts ‹_ ∈ d.parts›
    simp only [TypeRef.inline.sizeOf_spec]
    omega

/-- A reference with a grip mentions a name with another one: what stands inside of a list or of a
declaration has a grip of its own. -/
inductive Mentions : Grip → TypeRef → Grip → String → Prop
  | name {grip : Grip} {a : String} : Mentions grip (.name a) grip a
  | many {grip own : Grip} {refs : List TypeRef} {r : TypeRef} {a : String} (mem : r ∈ refs)
      (h : Mentions .firm r own a) : Mentions grip (.many refs) own a
  | inline {grip part own : Grip} {d : Declaration} {r : TypeRef} {a : String}
      (mem : (part, r) ∈ d.parts) (h : Mentions part r own a) : Mentions grip (.inline d) own a

theorem Mentions.regrip {grip grip' own : Grip} {r : TypeRef} {a : String}
    (h : Mentions grip r own a) : ∃ own', Mentions grip' r own' a := by
  cases h with
  | name => exact ⟨grip', .name⟩
  | many mem h => exact ⟨own, .many mem h⟩
  | inline mem h => exact ⟨own, .inline mem h⟩

end TypeRef

/-- A declaration mentions a name, with a grip, somewhere in its parts. -/
def DeclarationOf.Mentions (d : Declaration) (grip : Grip) (a : String) : Prop :=
  ∃ part r, (part, r) ∈ d.parts ∧ r.Mentions part grip a

theorem TypeRef.mentions_inline_iff {grip own : Grip} {d : Declaration} {a : String} :
    TypeRef.Mentions grip (.inline d) own a ↔ d.Mentions own a := by
  constructor
  · rintro ⟨⟩
    exact ⟨_, _, ‹_›, ‹_›⟩
  · rintro ⟨part, r, mem, h⟩
    exact .inline mem h

end Schemata

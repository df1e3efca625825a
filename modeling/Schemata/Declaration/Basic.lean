import Schemata.Value

/-!
Declarations of types as they are written, before any name in them is looked up.
-/

namespace Schemata

/-- A `typeOf` predicate on values. -/
abbrev Predicate := Value → Bool

structure DeclarationDetails where
  description : Option String
  required : Option Bool
  default? : Option Value
  annotations : Keyed Value
  typeOf : Option Predicate
  allowed : Option (List Value)
  patterns : List String
  minLength : Option Nat
  maxLength : Option Nat
  format : Option String
  minimum : Option Number
  maximum : Option Number
  multipleOf : Option Number
  uniqueItems : Option Bool
  minItems : Option Nat
  maxItems : Option Nat
  additionalProperties : Option Bool
  discriminator : Option String
  discriminatorValue : Option Value
  minProperties : Option Nat
  maxProperties : Option Nat

/-- A declaration in which references to types have the form `ρ`. -/
structure DeclarationOf (ρ : Type) where
  name : Option String
  extends? : Option ρ
  items : Option ρ
  properties : Option (List (String × ρ))
  anyOf : Option (List ρ)
  details : DeclarationDetails

/-- A reference to a type: by name, as a list of supertypes, or an inline declaration. -/
inductive TypeRef where
  | name (name : String)
  | many (refs : List TypeRef)
  | inline (declaration : DeclarationOf TypeRef)

abbrev Declaration := DeclarationOf TypeRef

def anonymous : String := "<anonymous>"

def DeclarationDetails.blank : DeclarationDetails :=
  ⟨none, none, none, [], none, none, [], none, none, none, none, none, none, none, none, none,
    none, none, none, none, none⟩

namespace DeclarationOf

def blank {ρ : Type} : DeclarationOf ρ := ⟨none, none, none, none, none, .blank⟩

def named {ρ : Type} (name : String) : DeclarationOf ρ := { blank with name := some name }

def extending {ρ : Type} (d : DeclarationOf ρ) (ref : ρ) : DeclarationOf ρ :=
  { d with extends? := some ref }

def withPredicate {ρ : Type} (d : DeclarationOf ρ) (p : Predicate) : DeclarationOf ρ :=
  { d with details := { d.details with typeOf := some p } }

def displayName {ρ : Type} (d : DeclarationOf ρ) : String := d.name.getD anonymous

end DeclarationOf
end Schemata

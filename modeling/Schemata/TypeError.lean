import Schemata.Base

/-!
Why a type cannot be declared or built, and the wording of it.
-/

namespace Schemata

inductive FacetFault where
  | notApplicable (base : BaseType)
  | patternSyntax
  | unknownNumberFormat (format : String)
  | unknownDateFormat (format : String)
  | takesNoFormat (base : BaseType)
  | notScalar
deriving DecidableEq

inductive TypeError where
  | duplicateName (name : String)
  | invalidName (name : String)
  | unknownType (name : String)
  | incompatibleExtension (type : String) (family : Family) (supertype : String)
      (supertypeFamily : Family)
  | dependencyCycle (path : List String)
  | invalidFacet (type facet : String) (fault : FacetFault)
  | emptySupertypes (type : String)
  | extendsNothing (type : String)
deriving DecidableEq

def FacetFault.reason? : FacetFault → Option String
  | notApplicable base => some ("not applicable to " ++ base.name)
  | patternSyntax => none
  | unknownNumberFormat format => some ("unknown numeric format '" ++ format ++ "'")
  | unknownDateFormat format => some ("unknown datetime format '" ++ format ++ "'")
  | takesNoFormat base => some (base.name ++ " does not take a format")
  | notScalar => some "must be a scalar"

namespace TypeError

def kind : TypeError → String
  | duplicateName _ => "DuplicateTypeName"
  | invalidName _ => "InvalidName"
  | unknownType _ => "UnknownTypeReference"
  | incompatibleExtension .. => "IncompatibleExtension"
  | dependencyCycle _ => "DependencyCycle"
  | invalidFacet .. => "InvalidFacet"
  | emptySupertypes _ => "InvalidDeclaration"
  | extendsNothing _ => "InvalidDeclaration"

def message : TypeError → String
  | duplicateName name =>
    "Type registration failed: a type with the name '" ++ name ++ "' is already registered."
  | invalidName name =>
    "Type registration failed: the name '" ++ name ++
      "' is invalid (empty or whitespace-only names are not allowed)."
  | unknownType name => "Unknown type '" ++ name ++ "'"
  | incompatibleExtension type family supertype supertypeFamily =>
    "Type '" ++ type ++ "' (" ++ family.name ++ ") cannot extend '" ++ supertype ++ "' (" ++
      supertypeFamily.name ++ ")"
  | dependencyCycle path => "Dependency cycle detected: " ++ String.intercalate " -> " path
  | invalidFacet type facet fault =>
    let subject := "Invalid facet '" ++ facet ++ "' on type '" ++ type ++ "'"
    match fault.reason? with
    | some reason => subject ++ ": " ++ reason
    | none => subject
  | emptySupertypes type =>
    "Invalid type declaration: type '" ++ type ++ "' has an empty supertype list"
  | extendsNothing type => "Invalid type declaration: type '" ++ type ++ "' extends nothing"

end TypeError
end Schemata

import Schemata.Calendar.Mail
import Schemata.Facet.Basic
import Schemata.Validation.DateText
import Schemata.Validation.Options
import Schemata.Validation.Report

/-!
Checks of dates and times. Texts and native date-times are both welcome; a coercion gives the
canonical text or the native date-time.
-/

namespace Schemata.Check

def wrongFormat (l : Location) (format : String) (v : Value) : Report :=
  .reject l (.badFormat v format)

def mailDate (o : ValidationOptions) (l : Location) (v : Value) (text : String) : Report :=
  match Calendar.Mail.read? text.toList with
  | none => wrongFormat l "datetime (RFC 2616)" v
  | some d =>
    .accept (
      if o.coerceNativeTypes then .dateTime d
      else if o.coerceTypes then .string (Calendar.Mail.httpText d)
      else v)

def writtenDate (form : DateForm) (o : ValidationOptions) (l : Location) (v : Value)
    (text : String) : Report :=
  match form.read o.fastDateValidation text.toList with
  | .error .form => wrongFormat l form.label v
  | .error .calendar => wrongFormat l "a calendar date" v
  | .ok f =>
    if o.coerceNativeTypes then
      match f.toNative? with
      | some d => .accept (.dateTime d)
      | none => wrongFormat l form.label v
    else .accept (if o.coerceTypes then .string (form.canonicalText f) else v)

def nativeDate (form : DateForm) (mail : Bool) (o : ValidationOptions) (d : Calendar.DateTime) :
    Value :=
  if o.coerceNativeTypes || !o.coerceTypes then .dateTime d
  else if mail then .string (Calendar.Mail.httpText d)
  else .string (form.canonicalText (.ofNative d))

def date (base : BaseType) (f : DateFacets) (o : ValidationOptions) (l : Location) (v : Value) :
    Report :=
  let form := DateForm.ofBase base
  let mail := base == .dateTime && f.format == some .rfc2616
  match v with
  | .dateTime d => .accept (nativeDate form mail o d)
  | .string s => if mail then mailDate o l v s else writtenDate form o l v s
  | v => .reject l (.invalidType base.name v)

end Schemata.Check

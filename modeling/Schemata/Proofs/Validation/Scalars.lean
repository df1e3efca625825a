import Schemata.Proofs.Validation.Acceptance

/-! What the checks of strings, numbers, booleans and dates accept, and what then comes out. -/

namespace Schemata.Check

variable {l : Location} {v w : Value} {o : ValidationOptions}

structure TextFits (f : StringFacets) (text : String) : Prop where
  allowed : (!f.allowed.isEmpty && !f.allowed.any fun e => e.scalarText? == some text) = false
  length : outside text.length f.minLength f.maxLength = false
  pattern : (!f.patterns.isEmpty && !f.patterns.any fun p => p.isMatch text) = false

theorem string_eq_accept_iff {f : StringFacets} : string f o l v = .accept w ↔
    ∃ text, textOf? o.strictTypes v = some text ∧ TextFits f text ∧
      w = if o.coerceTypes then .string text else v := by
  unfold string
  constructor
  · intro h
    split at h
    · exact absurd h wrongType_ne_accept
    · rename_i text read
      rw [read]
      split at h
      · exact absurd h Report.reject_ne_accept
      · rename_i allowed
        split at h
        · exact absurd h wrongCount_ne_accept
        · rename_i length
          split at h
          · exact absurd h Report.reject_ne_accept
          · rename_i pattern
            rw [Bool.not_eq_true] at allowed length pattern
            exact ⟨text, rfl, ⟨allowed, length, pattern⟩, (Report.accept_inj.mp h).symm⟩
  · rintro ⟨text, read, fits, rfl⟩
    rw [read]
    dsimp only
    rw [fits.allowed, fits.length, fits.pattern]
    rfl

def lowest (f : NumberFacets) : Option Number := f.minimum.or (f.format.bind NumberFormat.minimum)

def highest (f : NumberFacets) : Option Number := f.maximum.or (f.format.bind NumberFormat.maximum)

def isExact (f : NumberFacets) : Bool := f.format.any NumberFormat.isBig

structure NumberFits (f : NumberFacets) (integer : Bool) (x : Number) : Prop where
  whole : ((integer || f.format.any NumberFormat.isInteger) && !x.isInteger) = false
  allowed : (!f.allowed.isEmpty && !isAllowedNumber f.allowed x) = false
  range : ((lowest f).any (compareBy (isExact f) x · == some .lt) ||
    (highest f).any (compareBy (isExact f) x · == some .gt)) = false
  multiple : ∀ m, f.multipleOf = some m → x.isMultipleOf m (isExact f) = true

theorem number_eq_accept_iff {f : NumberFacets} {integer : Bool} :
    number f integer o l v = .accept w ↔
      ∃ x, numberOf? o.strictTypes v = some x ∧ NumberFits f integer x ∧
        w = if o.coerceTypes then .number (coercedNumber (isExact f) x) else v := by
  unfold number
  dsimp only
  constructor
  · intro h
    split at h
    · exact absurd h wrongType_ne_accept
    · rename_i x read
      rw [read]
      split at h
      · exact absurd h wrongType_ne_accept
      · rename_i whole
        split at h
        · exact absurd h Report.reject_ne_accept
        · rename_i allowed
          split at h
          · exact absurd h Report.reject_ne_accept
          · rename_i range
            rw [Bool.not_eq_true] at whole allowed range
            refine ⟨x, rfl, ⟨whole, allowed, range, fun m hm => ?_⟩, ?_⟩
            · rw [hm] at h
              dsimp only at h
              split at h
              · assumption
              · exact absurd h Report.reject_ne_accept
            · split at h
              · split at h
                · exact (Report.accept_inj.mp h).symm
                · exact absurd h Report.reject_ne_accept
              · exact (Report.accept_inj.mp h).symm
  · rintro ⟨x, read, fits, rfl⟩
    have range := fits.range
    rw [lowest, highest, isExact] at range
    rw [read]
    dsimp only
    rw [fits.whole, fits.allowed, range]
    rcases hm : f.multipleOf with _ | m
    · rfl
    · have multiple := fits.multiple m hm
      rw [isExact] at multiple
      dsimp only
      rw [multiple]
      rfl

theorem boolean_eq_accept_iff : boolean o l v = .accept w ↔
    ∃ b, boolOf? o.strictTypes v = some b ∧ w = if o.coerceTypes then .bool b else v := by
  unfold boolean
  rcases boolOf? o.strictTypes v with _ | b
  · exact ⟨fun h => absurd h Report.reject_ne_accept, fun ⟨_, h, _⟩ => nomatch h⟩
  · refine ⟨fun h => ⟨b, rfl, (Report.accept_inj.mp h).symm⟩, ?_⟩
    rintro ⟨_, ⟨⟩, rfl⟩
    rfl

def isMail (base : BaseType) (f : DateFacets) : Bool :=
  base == .dateTime && f.format == some .rfc2616

inductive ReadsDate (base : BaseType) (f : DateFacets) (o : ValidationOptions) : Value → Value → Prop
  | native (d : Calendar.DateTime) :
      ReadsDate base f o (.dateTime d) (nativeDate (.ofBase base) (isMail base f) o d)
  | mail {s : String} {d : Calendar.DateTime} (mail : isMail base f = true)
      (read : Calendar.Mail.read? s.toList = some d) :
      ReadsDate base f o (.string s)
        (if o.coerceNativeTypes then .dateTime d
        else if o.coerceTypes then .string (Calendar.Mail.httpText d)
        else .string s)
  | instant {s : String} {fields : DateFields} {d : Calendar.DateTime} (written : isMail base f = false)
      (read : (DateForm.ofBase base).read o.fastDateValidation s.toList = .ok fields)
      (foreign : o.coerceNativeTypes = true) (known : fields.toNative? = some d) :
      ReadsDate base f o (.string s) (.dateTime d)
  | written {s : String} {fields : DateFields} (written : isMail base f = false)
      (read : (DateForm.ofBase base).read o.fastDateValidation s.toList = .ok fields)
      (foreign : o.coerceNativeTypes = false) :
      ReadsDate base f o (.string s)
        (if o.coerceTypes then .string ((DateForm.ofBase base).canonicalText fields) else .string s)

theorem date_eq_accept_iff {base : BaseType} {f : DateFacets} :
    date base f o l v = .accept w ↔ ReadsDate base f o v w := by
  constructor
  · intro h
    cases v with
    | dateTime d =>
      obtain rfl := Report.accept_inj.mp h
      exact .native d
    | string s =>
      change (if isMail base f then mailDate o l (.string s) s
        else writtenDate (.ofBase base) o l (.string s) s) = _ at h
      split at h
      · rename_i mail
        unfold mailDate at h
        split at h
        · exact absurd h Report.reject_ne_accept
        · obtain rfl := Report.accept_inj.mp h
          exact .mail mail ‹_›
      · rename_i written
        rw [Bool.not_eq_true] at written
        unfold writtenDate at h
        split at h
        · exact absurd h Report.reject_ne_accept
        · exact absurd h Report.reject_ne_accept
        · rename_i fields read
          split at h
          · rename_i foreign
            split at h
            · obtain rfl := Report.accept_inj.mp h
              exact .instant written read foreign ‹_›
            · exact absurd h Report.reject_ne_accept
          · rename_i foreign
            obtain rfl := Report.accept_inj.mp h
            exact .written written read (Bool.eq_false_iff.mpr foreign)
    | _ => exact absurd h Report.reject_ne_accept
  · intro h
    have unfolded (s : String) : date base f o l (.string s) =
        if isMail base f then mailDate o l (.string s) s
        else writtenDate (.ofBase base) o l (.string s) s := rfl
    cases h with
    | native d => rfl
    | mail mail read => rw [unfolded, mail, if_pos rfl, mailDate, read]
    | instant written read foreign known =>
      rw [unfolded, written, if_neg Bool.false_ne_true, writtenDate, read]
      dsimp only
      rw [foreign, if_pos rfl, known]
    | written written read foreign =>
      rw [unfolded, written, if_neg Bool.false_ne_true, writtenDate, read]
      dsimp only
      rw [foreign, if_neg Bool.false_ne_true]

end Schemata.Check

import Schemata.Text.Age
import Schemata.Text.Segmentation

/-!
The names by which a pattern asks for a set of characters: properties, general categories and
scripts by a name alone, and the values of a named family. Capitals, blanks, underscores, hyphens
and a leading `is` make no difference to a name.
-/

namespace Schemata.Pattern

open Text Text.Property

def plainName (name : List Char) : String :=
  let plain (s : List Char) : List Char :=
    (s.filter fun c => c.toNat < 128 && c != ' ' && c != '_' && c != '-').map Char.toLower
  match name with
  | i :: s :: rest =>
    if i.toLower = 'i' ∧ s.toLower = 's' then
      -- `isc` is a name of its own, and not the group of categories `C`
      if plain rest = ['c'] then "isc" else String.ofList (plain rest)
    else String.ofList (plain name)
  | _ => String.ofList (plain name)

def lookup? (table : List (List String × CharSet)) (name : String) : Option CharSet :=
  (table.find? fun (names, _) => names.contains name).map Prod.snd

def properties : List (List String × CharSet) := [
  (["asciihexdigit", "ahex"], asciiHexDigit), (["alphabetic", "alpha"], alphabetic),
  (["bidicontrol", "bidic"], bidiControl), (["bidimirrored", "bidim"], bidiMirrored),
  (["caseignorable", "ci"], caseIgnorable), (["cased"], cased),
  (["changeswhencasefolded", "cwcf"], changesWhenCasefolded),
  (["changeswhencasemapped", "cwcm"], changesWhenCasemapped),
  (["changeswhenlowercased", "cwl"], changesWhenLowercased),
  (["changeswhentitlecased", "cwt"], changesWhenTitlecased),
  (["changeswhenuppercased", "cwu"], changesWhenUppercased), (["dash"], dash),
  (["defaultignorablecodepoint", "di"], defaultIgnorable), (["deprecated", "dep"], deprecated),
  (["diacritic", "dia"], diacritic), (["emoji"], emoji),
  (["emojicomponent", "ecomp"], emojiComponent), (["emojimodifier", "emod"], emojiModifier),
  (["emojimodifierbase", "ebase"], emojiModifierBase),
  (["emojipresentation", "epres"], emojiPresentation),
  (["extendedpictographic", "extpict"], extendedPictographic), (["extender", "ext"], extender),
  (["graphemebase", "grbase"], graphemeBase), (["graphemeextend", "grext"], graphemeExtend),
  (["graphemelink", "grlink"], graphemeLink), (["hexdigit", "hex"], hexDigit), (["hyphen"], hyphen),
  (["idsbinaryoperator", "idsb"], idsBinaryOperator),
  (["idstrinaryoperator", "idst"], idsTrinaryOperator),
  (["idsunaryoperator", "idsu"], idsUnaryOperator),
  (["idcompatmathcontinue"], idCompatMathContinue), (["idcompatmathstart"], idCompatMathStart),
  (["idcontinue", "idc"], idContinue), (["idstart", "ids"], idStart),
  (["ideographic", "ideo"], ideographic), (["joincontrol", "joinc"], joinControl),
  (["logicalorderexception", "loe"], logicalOrderException), (["lowercase", "lower"], lowercase),
  (["math"], math), (["modifiercombiningmark", "mcm"], modifierCombiningMark),
  (["noncharactercodepoint", "nchar"], noncharacterCodePoint),
  (["otheralphabetic", "oalpha"], otherAlphabetic),
  (["otherdefaultignorablecodepoint", "odi"], otherDefaultIgnorableCodePoint),
  (["othergraphemeextend", "ogrext"], otherGraphemeExtend),
  (["otheridcontinue", "oidc"], otherIDContinue), (["otheridstart", "oids"], otherIDStart),
  (["otherlowercase", "olower"], otherLowercase), (["othermath", "omath"], otherMath),
  (["otheruppercase", "oupper"], otherUppercase), (["patternsyntax", "patsyn"], patternSyntax),
  (["patternwhitespace", "patws"], patternWhiteSpace),
  (["prependedconcatenationmark", "pcm"], prependedConcatenationMark),
  (["quotationmark", "qmark"], quotationMark), (["radical"], radical),
  (["regionalindicator", "ri"], regionalIndicator),
  (["sentenceterminal", "sterm"], sentenceTerminal), (["softdotted", "sd"], softDotted),
  (["terminalpunctuation", "term"], terminalPunctuation),
  (["unifiedideograph", "uideo"], unifiedIdeograph), (["uppercase", "upper"], uppercase),
  (["variationselector", "vs"], variationSelector), (["whitespace", "wspace", "space"], whiteSpace),
  (["xidcontinue", "xidc"], xidContinue), (["xidstart", "xids"], xidStart)]

def categoryNames : List (String × String) := [
  ("c", "C"), ("other", "C"), ("cc", "Cc"), ("cntrl", "Cc"), ("control", "Cc"), ("cf", "Cf"),
  ("format", "Cf"), ("cn", "Cn"), ("unassigned", "Cn"), ("co", "Co"), ("privateuse", "Co"),
  ("l", "L"), ("letter", "L"), ("casedletter", "LC"), ("lc", "LC"), ("ll", "Ll"),
  ("lowercaseletter", "Ll"), ("lm", "Lm"), ("modifierletter", "Lm"), ("lo", "Lo"),
  ("otherletter", "Lo"), ("lt", "Lt"), ("titlecaseletter", "Lt"), ("lu", "Lu"),
  ("uppercaseletter", "Lu"), ("combiningmark", "M"), ("m", "M"), ("mark", "M"), ("mc", "Mc"),
  ("spacingmark", "Mc"), ("enclosingmark", "Me"), ("me", "Me"), ("mn", "Mn"),
  ("nonspacingmark", "Mn"), ("n", "N"), ("number", "N"), ("decimalnumber", "Nd"), ("digit", "Nd"),
  ("nd", "Nd"), ("letternumber", "Nl"), ("nl", "Nl"), ("no", "No"), ("othernumber", "No"),
  ("p", "P"), ("punct", "P"), ("punctuation", "P"), ("connectorpunctuation", "Pc"), ("pc", "Pc"),
  ("dashpunctuation", "Pd"), ("pd", "Pd"), ("closepunctuation", "Pe"), ("pe", "Pe"),
  ("finalpunctuation", "Pf"), ("pf", "Pf"), ("initialpunctuation", "Pi"), ("pi", "Pi"),
  ("otherpunctuation", "Po"), ("po", "Po"), ("openpunctuation", "Ps"), ("ps", "Ps"), ("s", "S"),
  ("symbol", "S"), ("currencysymbol", "Sc"), ("sc", "Sc"), ("modifiersymbol", "Sk"), ("sk", "Sk"),
  ("mathsymbol", "Sm"), ("sm", "Sm"), ("othersymbol", "So"), ("so", "So"), ("separator", "Z"),
  ("z", "Z"), ("lineseparator", "Zl"), ("zl", "Zl"), ("paragraphseparator", "Zp"), ("zp", "Zp"),
  ("spaceseparator", "Zs"), ("zs", "Zs")]

def categorySet? (name : String) : Option CharSet :=
  if name = "any" then some .all
  else if name = "assigned" then some (ofCategory "Cn").compl
  else if name = "ascii" then some (.between 0 127)
  else (categoryNames.lookup name).map ofCategory

def scriptSet? (name : String) : Option CharSet := (scriptNames.lookup name).map ofScript

def versionSet? (name : String) : Option CharSet :=
  (versions.find? fun (major, minor, _) =>
    let digits (n : Nat) : String := String.ofList (numeral n)
    name == digits major ++ "." ++ digits minor || name == "v" ++ digits major ++ digits minor).bind
      fun (major, minor, _) => ofVersion? major minor

def namedSet? (name : String) : Option CharSet :=
  ((lookup? properties name).or (categorySet? name)).or (scriptSet? name)

def familySet? (family value : String) : Option CharSet :=
  if family = "generalcategory" || family = "gc" then categorySet? value
  else if family = "script" || family = "sc" then scriptSet? value
  else if family = "scriptextensions" || family = "scx" then
    (scriptNames.lookup value).map usedInScript
  else if family = "age" then versionSet? value
  else if family = "graphemeclusterbreak" || family = "gcb" then lookup? clusterBreaks value
  else if family = "wordbreak" || family = "wb" then lookup? wordBreaks value
  else if family = "sentencebreak" || family = "sb" then lookup? sentenceBreaks value
  else none

def cutAt? (mark : List Char) : List Char → Option (List Char × List Char)
  | [] => none
  | c :: rest =>
    if mark.isPrefixOf (c :: rest) then some ([], (c :: rest).drop mark.length)
    else (cutAt? mark rest).map fun (before, after) => (c :: before, after)

/-- The set that is named in braces. A value is set apart from its family by `!=`, `:` or `=`, all
of one meaning. -/
def describedSet? (text : List Char) : Option CharSet :=
  match ((cutAt? "!=".toList text).or (cutAt? [':'] text)).or (cutAt? ['='] text) with
  | some (family, value) => familySet? (plainName family) (plainName value)
  | none => namedSet? (plainName text)

end Schemata.Pattern

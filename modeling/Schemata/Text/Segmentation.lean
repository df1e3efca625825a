import Schemata.Text.Property
import Schemata.Text.Script

/-!
The classes of characters by which text is divided into clusters, words and sentences. Each table
gives the names of a class, in small letters alone, and its characters.
-/

namespace Schemata.Text

open Property

def tagMarks : CharSet := .between 0xE0020 0xE007F

/-! Clusters. -/

namespace ClusterBreak

def control : CharSet :=
  (ofCategory "Zl" ∪ ofCategory "Zp" ∪ ofCategory "Cc" ∪ ofCategory "Cf" ∪
    (ofCategory "Cn" ∩ defaultIgnorable)) - .ofPieces ["A D 200C-200D"] -
    prependedConcatenationMark - tagMarks

def extend : CharSet := graphemeExtend ∪ emojiModifier

def preceding : CharSet :=
  prependedConcatenationMark ∪
    .ofPieces ["D4E 111C2-111C3 113D1 1193F 11941 11A3A 11A84-11A89 11D46 11F02"]

def spacingMark : CharSet :=
  (ofCategory "Mc" ∪ .ofPieces ["E33 EB3"]) - extend - .ofPieces [
    "102B-102C 1038 1062-1064 1067-106D 1083 1087-108C 108F 109A-109C 1A61 1A63-1A64 AA7B AA7D",
    "11720-11721"]

def openSyllable : CharSet := .ofNumbers ((List.range 399).map fun i => 0xAC00 + 28 * i)

def closedSyllable : CharSet := .between 0xAC00 0xD7A3 - openSyllable

end ClusterBreak

open ClusterBreak in
def clusterBreaks : List (List String × CharSet) := [
  (["control", "cn"], control), (["cr"], .single '\r'), (["extend", "ex"], extend),
  (["l"], .ofPieces ["1100-115F A960-A97C"]), (["lf"], .single '\n'), (["lv"], openSyllable),
  (["lvt"], closedSyllable), (["prepend", "pp"], preceding),
  (["regionalindicator", "ri"], regionalIndicator), (["spacingmark", "sm"], spacingMark),
  (["t"], .ofPieces ["11A8-11FF D7CB-D7FB"]),
  (["v"], .ofPieces ["1160-11A7 D7B0-D7C6 16D63 16D67-16D6A"]), (["zwj"], .single '\u200d')]

/-! Words. -/

namespace WordBreak

def extend : CharSet := graphemeExtend ∪ ofCategory "Mc" ∪ emojiModifier

def katakana : CharSet :=
  ofScript "Kana" ∪ .ofPieces ["3031-3035 309B-309C 30A0 30FC FF70"]

def hebrewLetter : CharSet := ofScript "Hebr" ∩ ofCategory "Lo"

def letterLike : CharSet := .ofPieces [
    "2C2-2C5 2D2-2D7 2DE-2DF 2E5-2EB 2ED 2EF-2FF 55A-55C 55E 58A 5F3 70F A708-A716 A720-A721",
    "A789-A78A AB5B"]

def unspaced : CharSet := .ofPieces [
    "E01-E30 E32-E33 E40-E46 E81-E82 E84 E86-E8A E8C-EA3 EA5 EA7-EB0 EB2-EB3 EBD EC0-EC4 EC6",
    "EDC-EDF 1000-102A 103F 1050-1055 105A-105D 1061 1065-1066 106E-1070 1075-1081 108E",
    "1780-17B3 17D7 17DC 1950-196D 1970-1974 1980-19AB 19B0-19C9 1A20-1A54 1AA7 A9E0-A9E4",
    "A9E6-A9EF A9FA-A9FE AA60-AA76 AA7A AA7E-AAAF"]

def letter : CharSet :=
  (alphabetic ∪ letterLike) - ideographic - katakana - ofScript "Hira" - extend - hebrewLetter -
    unspaced - .ofPieces ["AAB1 AAB5-AAB6 AAB9-AABD AAC0 AAC2 AADB-AADD 11700-1171A 11740-11746"]

def numeric : CharSet :=
  decimalDigits ∪ .ofPieces ["600-605 66B 6DD 890-891 8E2 19DA 110BD 110CD"]

def format : CharSet :=
  ofCategory "Cf" - .between 0x200B 0x200D - ClusterBreak.preceding - tagMarks

end WordBreak

open WordBreak in
def wordBreaks : List (List String × CharSet) := [
  (["aletter", "le"], letter), (["cr"], .single '\r'), (["doublequote", "dq"], .single '"'),
  (["extend"], extend), (["extendnumlet", "ex"], ofCategory "Pc" ∪ .single '\u202f'),
  (["format", "fo"], format), (["hebrewletter", "hl"], hebrewLetter),
  (["katakana", "ka"], katakana), (["lf"], .single '\n'),
  (["midletter", "ml"], .ofPieces ["3A B7 387 55F 5F4 2027 FE13 FE55 FF1A"]),
  (["midnum", "mn"],
    .ofPieces ["2C 3B 37E 589 60C-60D 66C 7F8 2044 FE50 FE54 FF0C FF1B"]),
  (["midnumlet", "mb"], .ofPieces ["2E 2018-2019 2024 FE52 FF07 FF0E"]),
  (["newline", "nl"], .ofPieces ["B-C 85 2028-2029"]), (["numeric", "nu"], numeric),
  (["regionalindicator", "ri"], regionalIndicator), (["singlequote", "sq"], .single '\''),
  (["wsegspace"], .ofPieces ["20 1680 2000-2006 2008-200A 205F 3000"]),
  (["zwj"], .single '\u200d')]

/-! Sentences. -/

namespace SentenceBreak

def separator : CharSet := .ofPieces ["85 2028-2029"]

def fullStop : CharSet := .ofPieces ["2E 2024 FE52 FF0E"]

def extend : CharSet := graphemeExtend ∪ ofCategory "Mc" ∪ .single '\u200d'

def format : CharSet :=
  (ofCategory "Cf" - .between 0x200C 0x200D - ClusterBreak.preceding - tagMarks) ∪
    .single '\u070f'

def small : CharSet := lowercase - graphemeExtend - .ofPieces ["10D0-10FA 10FD-10FF"]

def capital : CharSet := (uppercase ∪ ofCategory "Lt") - .ofPieces ["1C90-1CBA 1CBD-1CBF"]

def otherLetter : CharSet := (alphabetic ∪ .single '\u05f3') - small - capital - extend

def closing : CharSet :=
  ofCategory "Ps" ∪ ofCategory "Pe" ∪ ofCategory "Pi" ∪ ofCategory "Pf" ∪
    .ofPieces ["22 27 275B-2760 2E00-2E01 2E06-2E08 2E0B 1F676-1F678"]

end SentenceBreak

open SentenceBreak in
def sentenceBreaks : List (List String × CharSet) := [
  (["aterm", "at"], fullStop), (["close", "cl"], closing), (["cr"], .single '\r'),
  (["extend", "ex"], extend), (["format", "fo"], format), (["lf"], .single '\n'),
  (["lower", "lo"], small), (["numeric", "nu"], WordBreak.numeric ∪ .between 0x66B 0x66C),
  (["oletter", "le"], otherLetter),
  (["scontinue", "sc"], .ofPieces [
    "2C-2D 3A-3B 37E 55D 60C-60D 7F8 1802 1808 2013-2014 3001 FE10-FE11 FE13-FE14 FE31-FE32",
    "FE50-FE51 FE54-FE55 FE58 FE63 FF0C-FF0D FF1A-FF1B FF64"]),
  (["sep", "se"], separator), (["sp"], whiteSpace - separator - .ofPieces ["A D"]),
  (["sterm", "st"], sentenceTerminal - fullStop), (["upper", "up"], capital)]

end Schemata.Text

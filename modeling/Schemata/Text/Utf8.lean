import Schemata.Text.CharSet

/-!
Characters as bytes: one to four of them, the first telling how many. A set of characters becomes
rows of byte runs, each row standing for all characters whose bytes lie in the runs one by one.
-/

namespace Schemata.Text.Utf8

def encode (n : Nat) : List Nat :=
  if n < 0x80 then [n]
  else if n < 0x800 then [0xC0 + n / 0x40, 0x80 + n % 0x40]
  else if n < 0x10000 then [0xE0 + n / 0x1000, 0x80 + n / 0x40 % 0x40, 0x80 + n % 0x40]
  else [0xF0 + n / 0x40000, 0x80 + n / 0x1000 % 0x40, 0x80 + n / 0x40 % 0x40, 0x80 + n % 0x40]

abbrev ByteRun := Nat × Nat

abbrev Row := List ByteRun

def anyTail (bytes : List Nat) : Row := bytes.map fun _ => (0x80, 0xBF)

def within (byte : Nat) (rows : List Row) : List Row := rows.map ((byte, byte) :: ·)

def block (lo hi : Nat) (bytes : List Nat) : List Row :=
  if lo ≤ hi then [(lo, hi) :: anyTail bytes] else []

def upFrom : List Nat → List Row
  | [] => [[]]
  | b :: rest =>
    if rest.all (· == 0x80) then [(b, 0xBF) :: anyTail rest]
    else within b (upFrom rest) ++ block (b + 1) 0xBF rest

def downTo : List Nat → List Row
  | [] => [[]]
  | b :: rest =>
    if rest.all (· == 0xBF) then [(0x80, b) :: anyTail rest]
    else block 0x80 (b - 1) rest ++ within b (downTo rest)

def rowsBetween : List Nat → List Nat → List Row
  | lo :: los, hi :: his =>
    if lo = hi then within lo (rowsBetween los his)
    else
      let isFirst := los.all (· == 0x80)
      let isLast := his.all (· == 0xBF)
      (if isFirst then [] else within lo (upFrom los)) ++
        block (if isFirst then lo else lo + 1) (if isLast then hi else hi - 1) los ++
        (if isLast then [] else within hi (downTo his))
  | _, _ => [[]]

def lastOfLength : List Nat := [0x7F, 0x7FF, 0xFFFF, 0x10FFFF]

def rowsOfRun (lo hi : Nat) : List Row :=
  (lastOfLength.zip (0 :: lastOfLength.map (· + 1))).flatMap fun (last, first) =>
    let lo := max lo first
    let hi := min hi last
    if lo ≤ hi then rowsBetween (encode lo) (encode hi) else []

end Utf8

def CharSet.rows (s : CharSet) : List Utf8.Row :=
  s.runs.flatMap fun (lo, hi) => Utf8.rowsOfRun lo hi

end Schemata.Text

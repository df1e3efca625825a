import Schemata.Text.Numeral

/-!
Strings in JSON text. Writing escapes quotes, backslashes and control characters and leaves all
else as it is; reading knows every escape of the format and refuses raw control characters and
halves of surrogate pairs.
-/

namespace Schemata.Json.Quoted

def encodeChar (c : Char) : List Char :=
  if c = '"' then ['\\', '"']
  else if c = '\\' then ['\\', '\\']
  else if c = '\n' then ['\\', 'n']
  else if c = '\r' then ['\\', 'r']
  else if c = '\t' then ['\\', 't']
  else if c = '\x08' then ['\\', 'b']
  else if c = '\x0c' then ['\\', 'f']
  else if c.toNat < 0x20 then
    ['\\', 'u', '0', '0', Text.hexDigit (c.toNat / 16), Text.hexDigit (c.toNat % 16)]
  else [c]

def encode (s : List Char) : List Char := '"' :: s.flatMap encodeChar ++ ['"']

def unit? (a b c d : Char) : Option Nat := do
  let a ← Text.hexValue? a
  let b ← Text.hexValue? b
  let c ← Text.hexValue? c
  let d ← Text.hexValue? d
  return ((a * 16 + b) * 16 + c) * 16 + d

def isLead (u : Nat) : Bool := 0xD800 ≤ u && u < 0xDC00

def isTrail (u : Nat) : Bool := 0xDC00 ≤ u && u < 0xE000

def escaped? (c : Char) : Option Char :=
  if c = '"' then some '"'
  else if c = '\\' then some '\\'
  else if c = '/' then some '/'
  else if c = 'b' then some '\x08'
  else if c = 'f' then some '\x0c'
  else if c = 'n' then some '\n'
  else if c = 'r' then some '\r'
  else if c = 't' then some '\t'
  else none

def decode : List Char → Option (List Char × List Char)
  | [] => none
  | '"' :: rest => some ([], rest)
  | '\\' :: 'u' :: a :: b :: c :: d :: rest =>
    match unit? a b c d with
    | none => none
    | some u =>
      if isTrail u then none
      else if isLead u then
        match rest with
        | '\\' :: 'u' :: a :: b :: c :: d :: rest =>
          match unit? a b c d with
          | none => none
          | some v =>
            if isTrail v then
              (decode rest).map fun (s, rest) =>
                (Char.ofNat (0x10000 + (u - 0xD800) * 0x400 + (v - 0xDC00)) :: s, rest)
            else none
        | _ => none
      else (decode rest).map fun (s, rest) => (Char.ofNat u :: s, rest)
  | '\\' :: c :: rest =>
    match escaped? c with
    | none => none
    | some e => (decode rest).map fun (s, rest) => (e :: s, rest)
  | c :: rest =>
    if c.toNat < 0x20 || c = '\\' then none
    else (decode rest).map fun (s, rest) => (c :: s, rest)

end Schemata.Json.Quoted

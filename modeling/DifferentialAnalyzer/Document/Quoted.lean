import DifferentialAnalyzer.Document.Basic
import DifferentialAnalyzer.Text.Radix

/-! Texts between double quotes, with escapes for characters that cannot stand there. -/

namespace DifferentialAnalyzer.Document

/-- The character of an escape that is a single letter. -/
def escaped? : Char → Option Char
  | '"' => some '"'
  | '\\' => some '\\'
  | '/' => some '/'
  | 'b' => some '\x08'
  | 'f' => some '\x0c'
  | 'n' => some '\n'
  | 'r' => some '\x0d'
  | 't' => some '\t'
  | _ => none

/-- The codes up to the closing quote, and what follows it. A character beyond 16 bits may be two
codes. -/
def scanCodes : List Char → Option (List Nat × List Char)
  | '"' :: rest => some ([], rest)
  | '\\' :: 'u' :: a :: b :: c :: d :: rest => do
    let code ← ofRadix 16 [a, b, c, d]
    let (codes, rest) ← scanCodes rest
    some (code :: codes, rest)
  | '\\' :: e :: rest => do
    let c ← escaped? e
    let (codes, rest) ← scanCodes rest
    some (c.toNat :: codes, rest)
  | c :: rest =>
    if c.toNat < 0x20 ∨ c = '\\' then none
    else do
      let (codes, rest) ← scanCodes rest
      some (c.toNat :: codes, rest)
  | [] => none

def isLeadingHalf (code : Nat) : Bool :=
  0xd800 ≤ code && code < 0xdc00

def isTrailingHalf (code : Nat) : Bool :=
  0xdc00 ≤ code && code < 0xe000

/-- Joins the halves of a character; a half alone is no text. -/
def joinHalves : List Nat → Option (List Char)
  | [] => some []
  | [code] => if isLeadingHalf code ∨ isTrailingHalf code then none else some [Char.ofNat code]
  | a :: b :: rest =>
    if isLeadingHalf a then
      if isTrailingHalf b then
        (joinHalves rest).map
          (Char.ofNat (0x10000 + 0x400 * (a - 0xd800) + (b - 0xdc00)) :: ·)
      else none
    else if isTrailingHalf a then none
    else (joinHalves (b :: rest)).map (Char.ofNat a :: ·)

/-- A text behind its opening quote; there may be none for what is written. -/
def scanText (cs : List Char) : Option (Option String × List Char) := do
  let (codes, rest) ← scanCodes cs
  some ((joinHalves codes).map String.ofList, rest)

/-- A character as it stands between quotes. -/
def escape (c : Char) : List Char :=
  match c with
  | '"' => ['\\', '"']
  | '\\' => ['\\', '\\']
  | '\x08' => ['\\', 'b']
  | '\x0c' => ['\\', 'f']
  | '\n' => ['\\', 'n']
  | '\x0d' => ['\\', 'r']
  | '\t' => ['\\', 't']
  | c =>
    if c.toNat < 0x20 then
      ['\\', 'u', '0', '0', hexDigit (c.toNat / 16), hexDigit (c.toNat % 16)]
    else [c]

def quote (s : String) : List Char :=
  '"' :: s.toList.flatMap escape ++ ['"']

end DifferentialAnalyzer.Document

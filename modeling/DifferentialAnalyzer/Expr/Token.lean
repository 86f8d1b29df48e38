import DifferentialAnalyzer.Expr.Error

/-! Tokens of the expression language and the scan that finds them. The longest match at a place is
the token there, and every other character is blank or invalid. -/

namespace DifferentialAnalyzer

inductive TokenKind where
  | plus
  | minus
  | star
  | slash
  | percent
  | caret
  | atLeast
  | atMost
  | equal
  | unequal
  | greater
  | less
  | assign
  | semicolon
  | comma
  | leftBracket
  | rightBracket
  | number
  | sum
  | product
  | name
  deriving DecidableEq, Repr

/-- A token, its text and the byte where it starts. -/
structure Token where
  kind : TokenKind
  text : String
  offset : Nat
  deriving DecidableEq, Repr

namespace Token

def isBlank (c : Char) : Bool :=
  c == ' ' || c == '\t' || c == '\r' || c == '\n' || c == '\x0c'

def startsName (c : Char) : Bool :=
  c.isAlpha || c == '_'

def continuesName (c : Char) : Bool :=
  c.isAlphanum || c == '_'

def digitCount (cs : List Char) : Nat :=
  (cs.takeWhile Char.isDigit).length

/-- Characters of a point and the digits behind it, none if there are no digits. -/
def fractionLength : List Char → Nat
  | '.' :: ds => if digitCount ds = 0 then 0 else digitCount ds + 1
  | _ => 0

/-- Characters of an exponent, none if it has no digits. -/
def exponentLength : List Char → Nat
  | [] => 0
  | c :: cs =>
    if c == 'e' || c == 'E' then
      match cs with
      | [] => 0
      | s :: ds =>
        if s == '+' || s == '-' then
          if digitCount ds = 0 then 0 else digitCount ds + 2
        else if digitCount cs = 0 then 0
        else digitCount cs + 1
    else 0

def numberLength (cs : List Char) : Nat :=
  let whole := digitCount cs
  let fraction := fractionLength (cs.drop whole)
  if whole + fraction = 0 then 0
  else whole + fraction + exponentLength (cs.drop (whole + fraction))

def nameLength : List Char → Nat
  | [] => 0
  | c :: cs => if startsName c then (cs.takeWhile continuesName).length + 1 else 0

/-- Names that have a meaning of their own. -/
def nameKind (text : List Char) : TokenKind :=
  if text = ['s', 'u', 'm'] then .sum
  else if text = ['p', 'r', 'o', 'd', 'u', 'c', 't'] then .product
  else .name

/-- Signs that are an equals sign behind another character. -/
def withEquals : Char → Option TokenKind
  | '>' => some .atLeast
  | '<' => some .atMost
  | '=' => some .equal
  | '!' => some .unequal
  | _ => none

def single : Char → Option TokenKind
  | '+' => some .plus
  | '-' => some .minus
  | '*' => some .star
  | '/' => some .slash
  | '%' => some .percent
  | '^' => some .caret
  | '>' => some .greater
  | '<' => some .less
  | '=' => some .assign
  | ';' => some .semicolon
  | ',' => some .comma
  | '(' => some .leftBracket
  | ')' => some .rightBracket
  | _ => none

def symbol : List Char → Option (TokenKind × Nat)
  | c :: '=' :: _ =>
    match withEquals c with
    | some kind => some (kind, 2)
    | none => (single c).map (·, 1)
  | c :: _ => (single c).map (·, 1)
  | [] => none

/-- The longest token at the front and how many characters it takes. -/
def longest (cs : List Char) : Option (TokenKind × Nat) :=
  if numberLength cs ≠ 0 then some (.number, numberLength cs)
  else if nameLength cs ≠ 0 then some (nameKind (cs.take (nameLength cs)), nameLength cs)
  else symbol cs

/-- The tokens of a text whose first `skip` characters are already used up. -/
def scan : Nat → Nat → List Char → Except ExprError (List Token)
  | _, _, [] => .ok []
  | skip + 1, offset, c :: cs => scan skip (offset + c.utf8Size) cs
  | 0, offset, c :: cs =>
    if isBlank c then scan 0 (offset + c.utf8Size) cs
    else
      match longest (c :: cs) with
      | none => .error (.invalidCharacter (String.singleton c) offset)
      | some (kind, length) =>
        match scan (length - 1) (offset + c.utf8Size) cs with
        | .error e => .error e
        | .ok rest => .ok (⟨kind, String.ofList ((c :: cs).take length), offset⟩ :: rest)

end Token

/-- The tokens of a text in order. -/
def tokenize (src : String) : Except ExprError (List Token) :=
  Token.scan 0 0 src.toList

end DifferentialAnalyzer

import DifferentialAnalyzer.Document.Yaml.Folded
import DifferentialAnalyzer.Document.Yaml.Lines
import DifferentialAnalyzer.Document.Yaml.Token

/-! The tokens of a page. Columns open and close lists and records, and a value turns out to be a
key when a colon follows it, so that tokens for both are put before it afterwards. -/

namespace DifferentialAnalyzer.Yaml

/-- A value that may turn out to be a key, which takes place on one line and in 1024 characters. -/
structure Candidate where
  /-- How many tokens are before it. -/
  before : Nat
  start : Placed
  /-- Nothing but a key can stand in its column. -/
  required : Bool

def candidateLength : Nat := 1024

def Candidate.reaches (c : Candidate) (p : Placed) : Bool :=
  c.start.line == p.line && p.index ≤ c.start.index + candidateLength

/-- How far a page has been taken apart. -/
structure Layout where
  /-- The tokens so far, the last one first. -/
  tokens : List Token
  count : Nat
  /-- The columns of the lists and records around, the innermost one first. -/
  blocks : List Nat
  /-- What may be a key here. -/
  candidate : Option Candidate
  /-- The same for what is around each open bracket, the innermost one first. -/
  outer : List (Option Candidate)
  /-- A key may start here. -/
  mayStart : Bool

namespace Layout

def start : Layout :=
  ⟨[], 0, [], none, [], true⟩

/-- Between brackets columns have no meaning. -/
def flow (s : Layout) : Bool :=
  !s.outer.isEmpty

/-- The first column within the innermost list or record. -/
def least (s : Layout) : Nat :=
  match s.blocks with
  | [] => 0
  | column :: _ => column + 1

def add (s : Layout) (t : Token) : Layout :=
  { s with tokens := t :: s.tokens, count := s.count + 1 }

/-- Puts a token behind the first `before` ones. -/
def insert (s : Layout) (before : Nat) (t : Token) : Layout :=
  let (later, earlier) := s.tokens.splitAt (s.count - before)
  { s with tokens := later ++ t :: earlier, count := s.count + 1 }

/-- Closes the lists and records whose column does not satisfy `keep`. -/
def closeBlocks (s : Layout) (keep : Nat → Bool) : Layout :=
  if s.flow then s
  else
    let closed := s.blocks.takeWhile (!keep ·)
    { s with
      tokens := List.replicate closed.length .blockEnd ++ s.tokens
      count := s.count + closed.length
      blocks := s.blocks.dropWhile (!keep ·) }

/-- Opens a list or record if the column is further in than those around. -/
def openBlock (s : Layout) (column before : Nat) (t : Token) : Layout :=
  if s.flow || column < s.least then s
  else { s.insert before t with blocks := column :: s.blocks }

/-- There is no key here after all. -/
def dropCandidate (s : Layout) : Option Layout :=
  match s.candidate with
  | some c => if c.required then none else some { s with candidate := none }
  | none => some s

/-- A candidate that reaches up to here. -/
def current (p : Placed) : Option Candidate → Option (Option Candidate)
  | none => some none
  | some c =>
    if c.reaches p then some (some c) else if c.required then none else some none

/-- Drops the candidates that are too far away. -/
def dropDistant (s : Layout) (p : Placed) : Option Layout := do
  let candidate ← current p s.candidate
  let outer ← s.outer.mapM (current p)
  some { s with candidate, outer }

/-- What starts here may be a key. -/
def addCandidate (s : Layout) (p : Placed) : Option Layout :=
  if s.mayStart then do
    let required := !s.flow && s.blocks.head? == some p.column
    let s ← s.dropCandidate
    some { s with candidate := some ⟨s.count, p, required⟩ }
  else some s

/-- A list or record between brackets starts here. -/
def openBracket (s : Layout) (p : Placed) (t : Token) : Option Layout := do
  let s ← s.addCandidate p
  some { s.add t with candidate := none, outer := s.candidate :: s.outer, mayStart := true }

def closeBracket (s : Layout) (t : Token) : Option Layout := do
  let s ← s.dropCandidate
  let s := match s.outer with
    | [] => s
    | c :: outer => { s with candidate := c, outer }
  some { s.add t with mayStart := false }

def addComma (s : Layout) : Option Layout := do
  let s ← s.dropCandidate
  some { s.add .comma with mayStart := true }

/-- A boundary or a directive, before which all lists and records end. -/
def addTopLevel (s : Layout) (t : Token) : Option Layout := do
  let s ← (s.closeBlocks fun _ => false).dropCandidate
  some { s.add t with mayStart := false }

def addItem (s : Layout) (p : Placed) : Option Layout :=
  if !s.flow && !s.mayStart then none
  else do
    let s ← (s.openBlock p.column s.count .blockList).dropCandidate
    some { s.add .item with mayStart := true }

/-- A question mark before a key. -/
def addKey (s : Layout) (p : Placed) : Option Layout :=
  if !s.flow && !s.mayStart then none
  else do
    let s ← (s.openBlock p.column s.count .blockRecord).dropCandidate
    some { s.add .key with mayStart := !s.flow }

/-- A colon behind a key. -/
def addValue (s : Layout) (p : Placed) : Option Layout :=
  match s.candidate with
  | some c =>
    let s := (s.insert c.before .key).openBlock c.start.column c.before .blockRecord
    some { s.add .value with candidate := none, mayStart := false }
  | none =>
    if !s.flow && !s.mayStart then none
    else
      let s := s.openBlock p.column s.count .blockRecord
      some { s.add .value with mayStart := !s.flow }

/-- A name or a text that may be a key or be before one. -/
def addProperty (s : Layout) (p : Placed) (t : Token) : Option Layout := do
  let s ← s.addCandidate p
  some { s.add t with mayStart := false }

/-- A text that fills lines, which is never a key. -/
def addLines (s : Layout) (joined : Bool) (cs : List Char) : Option Layout := do
  let s ← s.dropCandidate
  let style : Style := if joined then .folded else .lines
  some { s.add (.scalar style (String.ofList cs)) with mayStart := true }

def addQuoted (s : Layout) (p : Placed) (cs : List Char) : Option Layout :=
  s.addProperty p (.scalar .folded (String.ofList cs))

/-- A key may follow words if a line break does. -/
def addWords (s : Layout) (p : Placed) (cs : List Char) (broken : Bool) : Option Layout := do
  let s ← s.addProperty p (.scalar .words (String.ofList cs))
  some { s with mayStart := broken }

/-- The gap before a token. A tab is part of it only where no key may start. Behind a line break one
may, except between brackets. -/
def skipGap (s : Layout) (comment : Bool) : Page → Layout × Page
  | [] => (s, [])
  | p :: rest =>
    if p.isBreak then skipGap { s with mayStart := s.mayStart || !s.flow } false rest
    else if comment || p.char == '#' then skipGap s true rest
    else if p.char == ' ' || p.char == '\t' && (s.flow || !s.mayStart) then skipGap s false rest
    else (s, p :: rest)

/-- Words cannot start with a character that has another meaning there. -/
def startsWords (flow : Bool) : Page → Bool
  | [] => false
  | p :: rest =>
    if p.char == '-' then !Page.blankAhead rest
    else if p.char == '?' || p.char == ':' then !flow && !Page.blankAhead rest
    else !(p.isBlank || Page.isBracket p
      || ['#', '&', '*', '!', '|', '>', '\'', '"', '%', '@', '\x60'].contains p.char)

/-- Takes the token that starts with `p`. -/
def scanToken (s : Layout) (p : Placed) (rest : Page) : Option (Layout × Page) :=
  let page := p :: rest
  /- A mark that is one only before a blank, except between brackets. -/
  let isMark := s.flow || Page.blankAhead rest
  match p.char with
  | '[' => do some (← s.openBracket p .flowList, rest)
  | '\x7b' => do some (← s.openBracket p .flowRecord, rest)
  | ']' => do some (← s.closeBracket .flowListEnd, rest)
  | '\x7d' => do some (← s.closeBracket .flowRecordEnd, rest)
  | ',' => do some (← s.addComma, rest)
  | '*' => do
    let (name, rest) ← Page.scanName rest
    some (← s.addProperty p (.reference name), rest)
  | '&' => do
    let (name, rest) ← Page.scanName rest
    some (← s.addProperty p (.anchor name), rest)
  | '!' => do
    let (tag, rest) ← Page.scanTag s.flow page
    some (← s.addProperty p tag, rest)
  | '\'' => do
    let (cs, rest) ← Page.scanSingle Gap.empty rest
    some (← s.addQuoted p cs, rest)
  | '"' => do
    let (cs, rest) ← Page.scanDouble 0 Gap.empty rest
    some (← s.addQuoted p cs, rest)
  | c =>
    if c == '-' && Page.blankAhead rest then do some (← s.addItem p, rest)
    else if c == '?' && isMark then do some (← s.addKey p, rest)
    else if c == ':' && isMark then do some (← s.addValue p, rest)
    else if (c == '|' || c == '>') && !s.flow then do
      let joined := c == '>'
      let (cs, rest) ← Page.scanLines joined s.least rest
      some (← s.addLines joined cs, rest)
    else if startsWords s.flow page then do
      let (cs, broken, rest) ← Page.scanWords s.flow s.least Gap.empty page
      some (← s.addWords p cs broken, rest)
    else none

/-- Takes a boundary, a directive or the token that starts with `p`. -/
def scanNext (s : Layout) (p : Placed) (rest : Page) : Option (Layout × Page) :=
  if p.column == 0 && p.char == '%' then do
    let (token, rest) ← Page.scanDirective rest
    some (← s.addTopLevel token, rest)
  else if Page.isTripled '-' (p :: rest) then do
    some (← s.addTopLevel .documentStart, rest.drop 2)
  else if Page.isTripled '.' (p :: rest) then do
    some (← s.addTopLevel .documentEnd, rest.drop 2)
  else scanToken s p rest

/-- All tokens, the last one first. Each call takes one of `fuel`. -/
def scan : Nat → Layout → Page → Option (List Token)
  | 0, _, _ => none
  | fuel + 1, s, page => do
    match skipGap s false page with
    | (s, []) => do
      let s ← (s.closeBlocks fun _ => false).dropCandidate
      some s.tokens
    | (s, p :: rest) => do
      let s ← s.dropDistant p
      let (s, rest) ← scanNext (s.closeBlocks (· ≤ p.column)) p rest
      scan fuel s rest

end Layout

/-- Every token but the last call takes a character at least. -/
def Page.tokens (page : Page) : Option (List Token) :=
  (Layout.scan (page.length + 1) Layout.start page).map List.reverse

end DifferentialAnalyzer.Yaml

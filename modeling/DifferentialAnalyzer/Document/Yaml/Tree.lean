import DifferentialAnalyzer.Document.Basic
import DifferentialAnalyzer.Document.Yaml.Token

/-! The tree that the tokens of a document describe. A reference stands for the value that an anchor
gave its name to. -/

namespace DifferentialAnalyzer.Yaml

/-- The names of anchors and their values, the last one first. While a value is read its own name
stands for nothing. -/
abbrev Anchors :=
  List (String × Document)

/-- The tokens that are left, and the anchors before them. -/
structure Reading where
  tokens : List Token
  anchors : Anchors

/-- The same anchors before other tokens. -/
def Reading.at (r : Reading) (tokens : List Token) : Reading :=
  { r with tokens }

/-- Short names and the starts of tags that they stand for. -/
abbrev Shorthands :=
  List (String × String)

/-- The shorthands that need no directive. -/
def commonShorthands : Shorthands :=
  [("!", "!"), ("!!", "tag:yaml.org,2002:")]

def tagOf (name : String) : Tag :=
  match name with
  | "tag:yaml.org,2002:null" => .null
  | "tag:yaml.org,2002:bool" => .bool
  | "tag:yaml.org,2002:int" => .integer
  | "tag:yaml.org,2002:float" => .real
  | _ => if name.toList.head? == some '!' then .custom else .other

/-- What stands before a value. -/
structure Properties where
  anchor : Option String
  tag : Option String

namespace Properties

def isEmpty (p : Properties) : Bool :=
  p.anchor.isNone && p.tag.isNone

/-- A tag in full. -/
def fullTag (shorthands : Shorthands) (name rest : String) : Option String :=
  if name.isEmpty then some rest else (shorthands.lookup name).map (· ++ rest)

/-- An anchor and a tag, in either order. -/
def read (shorthands : Shorthands) : List Token → Option (Properties × List Token)
  | .anchor a :: .tag name rest :: ts | .tag name rest :: .anchor a :: ts => do
    some (⟨some a, some (← fullTag shorthands name rest)⟩, ts)
  | .anchor a :: ts => some (⟨some a, none⟩, ts)
  | .tag name rest :: ts => do some (⟨none, some (← fullTag shorthands name rest)⟩, ts)
  | ts => some (⟨none, none⟩, ts)

def apply (p : Properties) (d : Document) : Document :=
  match p.tag with
  | some name => .tagged (tagOf name) d
  | none => d

/-- A text. An exclamation mark alone says nothing about it. -/
def scalar (p : Properties) (style : Style) (s : String) : Document :=
  let d := match style with
    | .words => .plain s
    | .lines => .lines s
    | .folded => .text s
  if p.tag == some "!" then d else p.apply d

/-- The anchors before the value; its name is there already. -/
def openAnchor (p : Properties) (anchors : Anchors) : Anchors :=
  match p.anchor with
  | some name => (name, .unreadable) :: anchors
  | none => anchors

/-- The anchors behind the value, of which `before` are before it. -/
def closeAnchor (p : Properties) (d : Document) (before : Nat) (anchors : Anchors) : Anchors :=
  match p.anchor with
  | some name => anchors.set (anchors.length - before - 1) (name, d)
  | none => anchors

end Properties

/-- What holds in all of a document: its shorthands and the values of anchors, if they are known
before it is read. -/
structure Scope where
  shorthands : Shorthands
  anchors : Anchors

/-- The value of an anchor. -/
def Scope.value (scope : Scope) (before : Anchors) (name : String) : Option Document :=
  (scope.anchors.lookup name).orElse fun _ => before.lookup name

/-- A reference to a value. -/
def refer (d : Document) : Document :=
  .reference (d.steps + 1) d

/-- The value of a place where none is written. -/
def absent : Document :=
  .plain ""

mutual

/-- A value. One that is laid out by columns is allowed if `block` holds, and below a key the items
of a list may stand in the column of the key. Each call takes one of `fuel`. -/
def readValue (scope : Scope) :
    Nat → (block underKey : Bool) → Reading → Option (Document × Reading)
  | 0, _, _, _ => none
  | fuel + 1, block, underKey, r =>
    match r.tokens with
    | .reference name :: ts => do some (refer (← scope.value r.anchors name), r.at ts)
    | tokens => do
      let before := r.anchors.length
      let (p, ts) ← Properties.read scope.shorthands tokens
      let r : Reading := ⟨ts, p.openAnchor r.anchors⟩
      let (d, r) ← match ts, block with
        | .scalar style s :: ts, _ => some (p.scalar style s, r.at ts)
        | .flowList :: ts, _ => do
          let (items, r) ← readFlowItems scope fuel (r.at ts)
          some (p.apply (.list items), r)
        | .flowRecord :: ts, _ => do
          let (entries, r) ← readFlowEntries scope fuel (r.at ts)
          some (p.apply (.record entries), r)
        | .blockList :: ts, true => do
          let (items, r) ← readItems scope fuel (r.at ts)
          some (p.apply (.list items), r)
        | .blockRecord :: ts, true => do
          let (entries, r) ← readEntries scope fuel (r.at ts)
          some (p.apply (.record entries), r)
        | ts, _ =>
          if underKey && ts.head? == some .item then do
            let (items, r) ← readItemsUnderKey scope fuel r
            some (p.apply (.list items), r)
          else if p.isEmpty then none
          else some (p.apply absent, r)
      some (d, { r with anchors := p.closeAnchor d before r.anchors })

/-- The items of a list that is laid out by columns. -/
def readItems (scope : Scope) : Nat → Reading → Option (List Document × Reading)
  | 0, _ => none
  | fuel + 1, r =>
    match r.tokens with
    | .blockEnd :: ts => some ([], r.at ts)
    | .item :: ts => do
      let (d, r) ← match ts with
        | .item :: _ | .blockEnd :: _ => some (absent, r.at ts)
        | _ => readValue scope fuel true false (r.at ts)
      let (items, r) ← readItems scope fuel r
      some (d :: items, r)
    | _ => none

/-- Items that stand in the column of the key before them. -/
def readItemsUnderKey (scope : Scope) :
    Nat → Reading → Option (List Document × Reading)
  | 0, _ => none
  | fuel + 1, r =>
    match r.tokens with
    | .item :: ts => do
      let (d, r) ← match ts with
        | .item :: _ | .key :: _ | .value :: _ | .blockEnd :: _ => some (absent, r.at ts)
        | _ => readValue scope fuel true false (r.at ts)
      let (items, r) ← readItemsUnderKey scope fuel r
      some (d :: items, r)
    | _ => some ([], r)

/-- A key or a value of a record that is laid out by columns, behind its mark. -/
def readPart (scope : Scope) : Nat → Reading → Option (Document × Reading)
  | 0, _ => none
  | fuel + 1, r =>
    match r.tokens with
    | .key :: _ | .value :: _ | .blockEnd :: _ => some (absent, r)
    | _ => readValue scope fuel true true r

/-- The entries of a record that is laid out by columns. -/
def readEntries (scope : Scope) : Nat → Reading → Option (Document.Entries × Reading)
  | 0, _ => none
  | fuel + 1, r =>
    match r.tokens with
    | .blockEnd :: ts => some ([], r.at ts)
    | .key :: ts => do
      let (key, r) ← readPart scope fuel (r.at ts)
      let (d, r) ← match r.tokens with
        | .value :: ts => readPart scope fuel (r.at ts)
        | _ => some (absent, r)
      let (entries, r) ← readEntries scope fuel r
      some ((key, d) :: entries, r)
    | _ => none

/-- The items of a list up to its closing bracket. -/
def readFlowItems (scope : Scope) : Nat → Reading → Option (List Document × Reading)
  | 0, _ => none
  | fuel + 1, r =>
    match r.tokens with
    | .flowListEnd :: ts => some ([], r.at ts)
    | _ => do
      let (d, r) ← match r.tokens with
        | .key :: ts => readFlowPair scope fuel (r.at ts)
        | _ => readValue scope fuel false false r
      match r.tokens with
      | .flowListEnd :: ts => some ([d], r.at ts)
      | .comma :: ts => do
        let (items, r) ← readFlowItems scope fuel (r.at ts)
        some (d :: items, r)
      | _ => none

/-- A record of one entry that is an item of a list. What follows a missing key is passed over. -/
def readFlowPair (scope : Scope) : Nat → Reading → Option (Document × Reading)
  | 0, _ => none
  | fuel + 1, r => do
    let (key, r) ← match r.tokens with
      | .value :: ts | .comma :: ts | .flowListEnd :: ts => some (absent, r.at ts)
      | _ => readValue scope fuel false false r
    let (d, r) ← readFlowValue scope fuel r
    some (.record [(key, d)], r)

/-- The value of a key between brackets, if there is one. -/
def readFlowValue (scope : Scope) : Nat → Reading → Option (Document × Reading)
  | 0, _ => none
  | fuel + 1, r =>
    match r.tokens with
    | .value :: ts =>
      match ts with
      | .comma :: _ | .flowListEnd :: _ | .flowRecordEnd :: _ => some (absent, r.at ts)
      | _ => readValue scope fuel false false (r.at ts)
    | _ => some (absent, r)

/-- The entries of a record up to its closing bracket. A value without a mark is a key. -/
def readFlowEntries (scope : Scope) :
    Nat → Reading → Option (Document.Entries × Reading)
  | 0, _ => none
  | fuel + 1, r =>
    match r.tokens with
    | .flowRecordEnd :: ts => some ([], r.at ts)
    | _ => do
      let ((key, d), r) ← match r.tokens with
        | .key :: ts => do
          let (key, r) ← match ts with
            | .value :: _ | .comma :: _ | .flowRecordEnd :: _ => some (absent, r.at ts)
            | _ => readValue scope fuel false false (r.at ts)
          let (d, r) ← readFlowValue scope fuel r
          some ((key, d), r)
        | _ => do
          let (key, r) ← readValue scope fuel false false r
          some ((key, absent), r)
      match r.tokens with
      | .flowRecordEnd :: ts => some ([(key, d)], r.at ts)
      | .comma :: ts => do
        let (entries, r) ← readFlowEntries scope fuel (r.at ts)
        some ((key, d) :: entries, r)
      | _ => none

end

/-- The directives before a document, and whether one of them is a version. Each stands there once,
and the version is 1.1 or 1.2. -/
def readDirectives (hasVersion : Bool) (shorthands : Shorthands) :
    List Token → Option (Shorthands × List Token)
  | .version major minor :: ts =>
    if hasVersion || major != 1 || (minor != 1 && minor != 2) then none
    else readDirectives true shorthands ts
  | .shorthand name stem :: ts =>
    if (shorthands.lookup name).isSome then none
    else readDirectives hasVersion ((name, stem) :: shorthands) ts
  | ts => some (shorthands, ts)

/-- No value comes here before the end of the document. -/
def isOver : List Token → Bool
  | [] | .version .. :: _ | .shorthand .. :: _ | .documentStart :: _ | .documentEnd :: _ => true
  | _ => false

/-- Names of anchors with their numbers. -/
abbrev Numbers :=
  List (String × Nat)

/-- A name takes the number of names before it. One that is given again is no new name, so that
the next one takes the same number. -/
def Numbers.add (numbers : Numbers) (name : String) : Numbers :=
  (name, numbers.length) :: numbers.filter fun named => named.1 != name

/-- The tokens with numbers in the place of names. -/
def numbered (numbers : Numbers) : List Token → Option (List Token)
  | .anchor name :: ts => do
    some (.anchor (toString numbers.length) :: (← numbered (numbers.add name) ts))
  | .reference name :: ts => do
    some (.reference (toString (← numbers.lookup name)) :: (← numbered numbers ts))
  | t :: ts => do some (t :: (← numbered numbers ts))
  | [] => some []

/-- The value of a document that has one. It is read twice, because of two anchors with one number
the last one counts, also for references between them. -/
def readContent (shorthands : Shorthands) (tokens : List Token) :
    Option (Document × List Token) := do
  let tokens ← numbered [] tokens
  let read (anchors : Anchors) :=
    readValue ⟨shorthands, anchors⟩ (4 * tokens.length + 4) true false ⟨tokens, []⟩
  let (_, r) ← read []
  let (d, r) ← read r.anchors
  some (d, r.tokens)

/-- A document with directives before its start, if any. It may be empty. -/
def readExplicit (tokens : List Token) : Option (Document × List Token) := do
  match ← readDirectives false [] tokens with
  | (shorthands, .documentStart :: ts) =>
    if isOver ts then some (absent, ts) else readContent (shorthands ++ commonShorthands) ts
  | _ => none

/-- The tree of tokens that make one document. -/
def ofTokens (tokens : List Token) : Option Document := do
  let (d, rest) ←
    if tokens.isEmpty then some (absent, [])
    else if isOver tokens then readExplicit tokens
    else readContent commonShorthands tokens
  if rest.all (· == .documentEnd) then some d else none

end DifferentialAnalyzer.Yaml

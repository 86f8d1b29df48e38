import DifferentialAnalyzer.Document.Yaml.Page

/-! Texts that fill lines of their own, behind a bar as they stand and behind an angle with their
lines joined. -/

namespace DifferentialAnalyzer.Yaml.Page

/-- What is kept of the line breaks at the end: one, none or all. -/
inductive Chomp where
  | clip
  | strip
  | keep

def scanChomp : Page → Option (Chomp × Page)
  | ⟨'+', _, _, _⟩ :: rest => some (.keep, rest)
  | ⟨'-', _, _, _⟩ :: rest => some (.strip, rest)
  | _ => none

/-- A digit that tells how far the text is indented. It is not zero. -/
def scanIndent : Page → Option (Option Nat × Page)
  | [] => some (none, [])
  | p :: rest =>
    if p.char == '0' then none
    else if p.char.isDigit then some (some (p.char.toNat - '0'.toNat), rest)
    else some (none, p :: rest)

/-- The two marks of a text, in either order. -/
def scanHeader (page : Page) : Option (Chomp × Option Nat × Page) :=
  match scanChomp page with
  | some (chomp, rest) => do
    let (indent, rest) ← scanIndent rest
    some (chomp, indent, rest)
  | none => do
    let (indent, rest) ← scanIndent page
    let (chomp, rest) := (indent.bind fun _ => scanChomp rest).getD (.clip, rest)
    some (chomp, indent, rest)

/-- The line breaks before the first line that is more than spaces, and the column behind the widest
spaces. A tab among the spaces is an error. -/
def scanFirst (widest : Nat) : Page → Option (List Char × Nat × Page)
  | [] => some ([], widest, [])
  | p :: rest =>
    if p.char == ' ' then scanFirst (max widest (p.column + 1)) rest
    else if p.char == '\t' then none
    else if p.isBreak then do
      let (breaks, widest, page) ← scanFirst widest rest
      some (p.char :: breaks, widest, page)
    else some ([], widest, p :: rest)

/-- Where the scan of a text is. Lines that start with a blank keep their ends. -/
inductive Place where
  | within (indented : Bool)
  /-- Behind a line, with its end and the empty lines since then. -/
  | behind (ending empty : List Char) (indented : Bool)

/-- What stands between two lines. -/
def joint (joined : Bool) (ending empty : List Char) : List Char :=
  if joined && ending == ['\n'] then
    if empty.isEmpty then [' '] else empty
  else ending ++ empty

def Chomp.text (chomp : Chomp) (ending empty : List Char) : List Char :=
  match chomp with
  | .clip => ending
  | .strip => []
  | .keep => ending ++ empty

/-- The lines of a text from column `width` on, and what follows them. -/
def scanBody (joined : Bool) (chomp : Chomp) (width : Nat) (place : Place) (page : Page) :
    Option (List Char × Page) :=
  match page, place with
  | [], .within _ => some ([], [])
  | [], .behind ending empty _ => some (chomp.text ending empty, [])
  | p :: rest, .within indented =>
    if p.isBreak then scanBody joined chomp width (.behind [p.char] [] indented) rest
    else do
      let (cs, page) ← scanBody joined chomp width (.within indented) rest
      some (p.char :: cs, page)
  | p :: rest, .behind ending empty indented =>
    if p.column < width && p.char == ' ' then
      scanBody joined chomp width (.behind ending empty indented) rest
    else if p.column < width && p.char == '\t' then none
    else if p.isBreak then
      scanBody joined chomp width (.behind ending (empty ++ [p.char]) indented) rest
    else if p.column < width then some (chomp.text ending empty, p :: rest)
    else do
      let (cs, page) ← scanBody joined chomp width (.within p.isBlank) rest
      some (joint (joined && !indented && !p.isBlank) ending empty ++ p.char :: cs, page)

/-- A text that fills the lines behind its mark, indented at least to column `least` and
column 1. -/
def scanLines (joined : Bool) (least : Nat) (page : Page) : Option (List Char × Page) := do
  let (chomp, indent, rest) ← scanHeader page
  let rest ← nextLine rest
  match indent with
  | some n => scanBody joined chomp (least - 1 + n) (.behind [] [] false) rest
  | none =>
    let (breaks, widest, rest) ← scanFirst 0 rest
    scanBody joined chomp (max 1 (max least widest)) (.behind [] breaks false) rest

end DifferentialAnalyzer.Yaml.Page

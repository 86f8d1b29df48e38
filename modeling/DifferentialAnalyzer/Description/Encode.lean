import DifferentialAnalyzer.Description.Basic
import DifferentialAnalyzer.Document.Basic

/-! The tree of a description. Fields stand in a fixed order; those that may be absent are left out
when they are, and all others are always written. -/

namespace DifferentialAnalyzer

open Document

namespace Document

def ofInt (n : Int) : Document :=
  .number (.integer n)

def ofFloat (x : Float) : Document :=
  .number (.real x)

def ofPair (x y : Document) : Document :=
  .list [x, y]

/-- A field that is always there. -/
def entry (name : String) (d : Document) : Entries :=
  [(.text name, d)]

/-- A field that is there if it has a value. -/
def entryIf (name : String) (write : α → Document) : Option α → Entries
  | some a => entry name (write a)
  | none => []

end Document

def Cell.toDocument (c : Cell) : Document :=
  ofPair (ofInt c.x) (ofInt c.y)

def ShaftSpan.toDocument (s : ShaftSpan) : Document :=
  .record (entry "id" (ofInt s.key) ++ entry "start" s.first.toDocument
    ++ entry "end" s.last.toDocument)

def Factor.toDocument : Factor → Document
  | .number x => ofFloat x
  | .formula source => .text source

/-- The fields of a kind. -/
def Part.toEntries : Part → Entries
  | .integrator input integrand output reversed initial =>
    entry "variableOfIntegrationShaft" (ofInt input) ++ entry "integrandShaft" (ofInt integrand)
      ++ entry "outputShaft" (ofInt output) ++ entry "reversed" (.bool reversed)
      ++ entry "initialPosition" (ofFloat initial)
  | .differential a sum b =>
    entryIf "diffShaft1" ofInt a ++ entryIf "sumShaft" ofInt sum ++ entryIf "diffShaft2" ofInt b
  | .multiplier input output factor =>
    entry "inputShaft" (ofInt input) ++ entry "outputShaft" (ofInt output)
      ++ entry "factor" factor.toDocument
  | .functionTable input output formula xMin xMax yMin yMax =>
    entry "inputShaft" (ofInt input) ++ entry "outputShaft" (ofInt output)
      ++ entry "fn" (.text formula) ++ entryIf "x_min" ofFloat xMin ++ entryIf "x_max" ofFloat xMax
      ++ entryIf "y_min" ofFloat yMin ++ entryIf "y_max" ofFloat yMax
  | .motor output reversed rotation =>
    entry "outputShaft" (ofInt output) ++ entry "reversed" (.bool reversed)
      ++ entryIf "rotation" ofFloat rotation
  | .outputTable input output1 output2 initial1 initial2 =>
    entry "inputShaft" (ofInt input) ++ entryIf "outputShaft1" ofInt output1
      ++ entryIf "outputShaft2" ofInt output2 ++ entry "initialY1" (ofFloat initial1)
      ++ entry "initialY2" (ofFloat initial2)
  | .crossConnect horizontal vertical reversed =>
    entry "horizontal" (ofInt horizontal) ++ entry "vertical" (ofInt vertical)
      ++ entry "reversed" (.bool reversed)
  | .gearPair shaft1 shaft2 inputRatio outputRatio =>
    entry "shaft1" (ofInt shaft1) ++ entry "shaft2" (ofInt shaft2)
      ++ entry "inputRatio" (ofFloat inputRatio) ++ entry "outputRatio" (ofFloat outputRatio)
  | .gear horizontal vertical =>
    entry "horizontal" (ofInt horizontal) ++ entry "vertical" (ofInt vertical)
  | .dial input => entry "inputShaft" (ofInt input)
  | .label note => entryIf "text" Document.text note

def Component.toDocument (c : Component) : Document :=
  .record (entryIf "compID" ofInt c.id
    ++ entryIf "position" (fun (x, y) => ofPair (ofFloat x) (ofFloat y)) c.position
    ++ entry "type" (.text c.part.name) ++ c.part.toEntries)

def Settings.toEntries (s : Settings) : Entries :=
  entryIf "custom_variables" Document.text s.customVariables

/-- Settings without any content are left out. -/
def Description.toDocument (d : Description) : Document :=
  .record (entry "shafts" (.list (d.shafts.map ShaftSpan.toDocument))
    ++ entry "components" (.list (d.components.map Component.toDocument))
    ++ if d.settings.isEmpty then [] else entry "settings" (.record d.settings.toEntries))

end DifferentialAnalyzer

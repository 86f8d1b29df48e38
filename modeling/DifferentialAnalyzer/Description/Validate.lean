import DifferentialAnalyzer.Decimal.Text
import DifferentialAnalyzer.Description.Basic
import DifferentialAnalyzer.Description.Error
import DifferentialAnalyzer.Text.Blank

/-! The checks that a description has to pass before anything is built from it. The first fault in
the order of the description counts. -/

namespace DifferentialAnalyzer

def Cell.text (c : Cell) : String :=
  s!"[{c.x}, {c.y}]"

/-- The word that messages use. -/
def Orientation.name : Orientation → String
  | .horizontal => "Horizontal"
  | .vertical => "Vertical"
  | .point => "Point"

namespace ShaftSpan

/-- A shaft is straight and does not end before its start. -/
def orientation (s : ShaftSpan) : Except ValidationError Orientation :=
  match s.extent? with
  | none =>
    .error (.invalidValue s!"shaft {s.key} span" s!"{s.first.text} to {s.last.text}"
      "span is too large")
  | some (width, height) =>
    if width < 1 ∨ height < 1 then
      .error (.invalidValue s!"shaft {s.key} end" s.last.text
        s!"ends before its start {s.first.text}")
    else
      match Orientation.ofExtent? width height with
      | none =>
        .error (.invalidValue s!"shaft {s.key} span" s!"{width}x{height}"
          "shafts must be straight")
      | some o => .ok o

end ShaftSpan

/-- The orientations of shafts by their ids. -/
abbrev Orientations :=
  List (ShaftKey × Orientation)

namespace Orientations

/-- Adds the shafts to those already known. -/
def extend (known : Orientations) : List ShaftSpan → Except ValidationError Orientations
  | [] => .ok known
  | s :: rest => do
    let o ← s.orientation
    if (known.lookup s.key).isSome then
      .error (.duplicateId (toString s.key) "shafts")
    else extend (known ++ [(s.key, o)]) rest

def ofShafts (shafts : List ShaftSpan) : Except ValidationError Orientations :=
  extend [] shafts

end Orientations

namespace Component

/-- Every shaft that is named must be described. -/
def checkRefs (label : String) (known : Orientations) :
    List (String × ShaftKey) → Except ValidationError Unit
  | [] => .ok ()
  | (field, key) :: rest =>
    if (known.lookup key).isSome then checkRefs label known rest
    else .error (.missingReference (toString key) s!"{label} {field}")

def requireFinite (label field : String) (x : Float) : Except ValidationError Unit :=
  if x.isFinite then .ok ()
  else .error (.invalidValue s!"{label} {field}" (displayFloat x) "must be finite")

def requireRatio (label field : String) (x : Float) : Except ValidationError Unit := do
  requireFinite label field x
  if x == 0.0 then
    .error (.invalidValue s!"{label} {field}" (displayFloat x) "gear ratios must be nonzero")
  else .ok ()

/-- The shaft lies as the field wants it. -/
def requireOrientation (label : String) (known : Orientations) (field : String) (key : ShaftKey)
    (wanted : Orientation) : Except ValidationError Unit :=
  match known.lookup key with
  | some o =>
    if o.fits wanted then .ok ()
    else .error (.invalidValue s!"{label} {field}" (toString key)
      s!"shaft is {o.name}, expected {wanted.name}")
  | none => .ok ()

/-- The checks of a kind. -/
def checkPart (label : String) (known : Orientations) : Part → Except ValidationError Unit
  | .integrator _ _ _ _ initial => requireFinite label "initialPosition" initial
  | .differential a sum b =>
    let count := [a, sum, b].countP Option.isSome
    if count < 2 then
      .error (.invalidValue s!"{label} shafts" (toString count)
        "a differential needs at least two connected shafts")
    else .ok ()
  | .multiplier _ _ (.number factor) => requireFinite label "factor" factor
  | .multiplier _ _ (.formula _) => .ok ()
  | .functionTable _ _ formula .. =>
    if isBlankText formula then
      .error (.invalidValue s!"{label} fn" "" "function expression is empty")
    else .ok ()
  | .motor _ _ (some rotation) => requireFinite label "rotation" rotation
  | .motor _ _ none => .ok ()
  | .outputTable _ output1 output2 initial1 initial2 =>
    if output1.isNone ∧ output2.isNone then
      .error (.missingReference "outputShaft1" s!"{label} needs at least one output shaft")
    else do
      requireFinite label "initialY1" initial1
      requireFinite label "initialY2" initial2
  | .crossConnect horizontal vertical _ | .gear horizontal vertical => do
    requireOrientation label known "horizontal" horizontal .horizontal
    requireOrientation label known "vertical" vertical .vertical
  | .gearPair _ _ inputRatio outputRatio => do
    requireRatio label "inputRatio" inputRatio
    requireRatio label "outputRatio" outputRatio
  | .dial _ | .label _ => .ok ()

def check (known : Orientations) (c : Component) : Except ValidationError Unit := do
  checkRefs c.label known c.part.shaftRefs
  checkPart c.label known c.part

/-- Checks components in order; `ids` are those of earlier ones. -/
def checkAll (known : Orientations) (ids : List Int) :
    List Component → Except ValidationError Unit
  | [] => .ok ()
  | c :: rest =>
    match c.id with
    | none => do
      c.check known
      checkAll known ids rest
    | some id =>
      if ids.contains id then .error (.duplicateId (toString id) "components")
      else do
        c.check known
        checkAll known (id :: ids) rest

end Component

namespace Description

def motorCount (d : Description) : Nat :=
  d.components.countP fun c => c.part.isMotor

def orientations (d : Description) : Except ValidationError Orientations :=
  Orientations.ofShafts d.shafts

def validate (d : Description) : Except ValidationError Unit := do
  Component.checkAll (← d.orientations) [] d.components
  if d.motorCount = 1 then .ok ()
  else .error (.invalidValue "motor count" (toString d.motorCount)
    "a machine needs exactly one motor")

end Description

end DifferentialAnalyzer

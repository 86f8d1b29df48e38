import DifferentialAnalyzer.Word

/-! Doubles as exact numbers. The rank of a finite magnitude is its bit pattern without the sign,
and its value is a whole number of units of 2⁻¹⁰⁷⁴. `roundUnits` takes any ratio of units back to
the nearest rank, a tie going to the even one. -/

namespace DifferentialAnalyzer.Binary64

/-- Units in the number one. -/
def unitsPerOne : Nat := Nat.pow 2 1074

/-- Patterns from one power of two to the next. -/
def binade : Nat := Nat.pow 2 52

/-- The first rank past the finite ones. -/
def infinityRank : Nat := 2047 * binade

def significand (rank : Nat) : Nat :=
  if rank < binade then rank else binade + rank % binade

/-- The value of a rank in units. -/
def units (rank : Nat) : Nat :=
  significand rank * Nat.pow 2 (rank / binade - 1)

/-- The whole number nearest to `num / den`, a tie going to the even one. -/
def roundEven (num den : Nat) : Nat :=
  let low := num / den
  match compare (2 * (num % den)) den with
  | .lt => low
  | .gt => low + 1
  | .eq => low + low % 2

/-- The rank nearest to `num / den` units; past the largest finite one it is `infinityRank`. -/
def roundUnits (num den : Nat) : Nat :=
  let shift := (num / den).log2 - 52
  min (shift * binade + roundEven num (den * Nat.pow 2 shift)) infinityRank

/-- The rank nearest to the number `num / den`. -/
def nearest (num den : Nat) : Nat :=
  roundUnits (num * unitsPerOne) den

/-- The double with this rank, negative if asked. -/
def toFloat (negative : Bool) (rank : Nat) : Float :=
  Float.ofBits ((if negative then Word.half else 0) + rank).toUInt64

def isNegative (x : Float) : Bool :=
  Word.half ≤ x.toBits.toNat

/-- Above `infinityRank` for not-a-number. -/
def rank (x : Float) : Nat :=
  x.toBits.toNat % Word.half

end DifferentialAnalyzer.Binary64

/-! The numbers that words of 64 bits hold. -/

namespace DifferentialAnalyzer.Word

/-- How many numbers a word holds. -/
def count : Nat := 18446744073709551616

/-- How many of them are negative if there is a sign. -/
def half : Nat := 9223372036854775808

/-- A word with a sign holds the number. -/
def holdsSigned (n : Int) : Bool :=
  -(half : Int) ≤ n && n < half

/-- A word holds the number, be it with a sign or without. -/
def holds (n : Int) : Bool :=
  -(half : Int) ≤ n && n < count

/-- Two words together hold the number, be it with a sign or without. -/
def pairHolds (n : Int) : Bool :=
  -(half * count : Nat) ≤ n && n < (count * count : Nat)

end DifferentialAnalyzer.Word

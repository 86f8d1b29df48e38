/-! The blank characters of Unicode, and texts without anything else. -/

namespace DifferentialAnalyzer

/-- The property White_Space. -/
def isBlankChar (c : Char) : Bool :=
  let n := c.toNat
  (9 ≤ n && n ≤ 13) || n == 0x20 || n == 0x85 || n == 0xa0 || n == 0x1680
    || (0x2000 ≤ n && n ≤ 0x200a) || n == 0x2028 || n == 0x2029 || n == 0x202f
    || n == 0x205f || n == 0x3000

def isBlankText (text : String) : Bool :=
  text.toList.all isBlankChar

/-- The text without blank characters at either end. -/
def trimBlanks (text : String) : String :=
  let front := text.toList.dropWhile isBlankChar
  String.ofList (front.reverse.dropWhile isBlankChar).reverse

end DifferentialAnalyzer

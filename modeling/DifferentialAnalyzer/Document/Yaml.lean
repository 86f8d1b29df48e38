import DifferentialAnalyzer.Document.Json
import DifferentialAnalyzer.Document.Yaml.Layout
import DifferentialAnalyzer.Document.Yaml.Tree

/-! Reading and writing trees as YAML text. -/

namespace DifferentialAnalyzer.Document

/-- The tree of a whole text. -/
def ofYaml (text : String) : Option Document := do
  let page ← Yaml.Page.ofText text
  Yaml.ofTokens (← page.tokens)

/-- Numbers that are not finite have names. -/
def yamlFloat (x : Float) : String :=
  if x.isNaN then ".nan"
  else if x.isInf then (if Binary64.isNegative x then "-.inf" else ".inf")
  else dataFloat x

/-- A character that stands for itself between quotes, if it can be seen at all. -/
def isYamlPlain (c : Char) : Bool :=
  Yaml.Page.isAllowed c && (0x20 ≤ c.toNat) && c.toNat != 0x85 && !Yaml.isSeparator c
    && !Yaml.isByteOrder c

/-- A character as it stands between quotes. -/
def yamlEscape (c : Char) : List Char :=
  if isYamlPlain c then escape c
  else
    let n := c.toNat
    ['\\', 'u', hexDigit (n / 4096 % 16), hexDigit (n / 256 % 16), hexDigit (n / 16 % 16),
      hexDigit (n % 16)]

def yamlQuote (s : String) : List Char :=
  '"' :: s.toList.flatMap yamlEscape ++ ['"']

/-- All lists and records between brackets. -/
def toYaml (d : Document) : String :=
  String.ofList (layout ⟨yamlFloat, yamlQuote⟩ 0 d)

end DifferentialAnalyzer.Document

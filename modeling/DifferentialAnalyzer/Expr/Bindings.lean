/-! Values by name, and sets of names in ascending order. -/

namespace DifferentialAnalyzer

/-- Of two entries with one name the first counts. -/
abbrev Bindings :=
  List (String × Float)

namespace Bindings

def get? (b : Bindings) (name : String) : Option Float :=
  b.lookup name

/-- The name stands for this value alone. -/
def insert (b : Bindings) (name : String) (value : Float) : Bindings :=
  (name, value) :: b.filter fun entry => entry.1 != name

/-- Later entries win over earlier ones. -/
def ofList (entries : List (String × Float)) : Bindings :=
  entries.foldl (fun b entry => b.insert entry.1 entry.2) []

/-- Puts an entry before the first one with a larger name. -/
def place (entry : String × Float) : Bindings → Bindings
  | [] => [entry]
  | e :: es => if entry.1 < e.1 then entry :: e :: es else e :: place entry es

/-- The entries by ascending name. -/
def sorted (b : Bindings) : Bindings :=
  b.foldl (fun s entry => place entry s) []

end Bindings

/-- Names in ascending order, each once. -/
abbrev Names :=
  List String

namespace Names

def insert (name : String) : Names → Names
  | [] => [name]
  | n :: ns =>
    if name = n then n :: ns
    else if name < n then name :: n :: ns
    else n :: insert name ns

def union (a b : Names) : Names :=
  b.foldl (fun s name => insert name s) a

def erase (a : Names) (name : String) : Names :=
  a.filter (· != name)

end Names

end DifferentialAnalyzer

import ManifestSync.Tree.Read

namespace ManifestSync.Yaml

def isNullWord (s : String) : Bool := ["null", "Null", "NULL", "~"].contains s

def truth? (s : String) : Option Bool :=
  if ["true", "True", "TRUE"].contains s then some true
  else if ["false", "False", "FALSE"].contains s then some false
  else none

def digitsIn? (base : Nat) (cs : List Char) : Option Nat :=
  if cs.isEmpty then none
  else cs.foldlM (fun n c => ((Tree.hexValue? c).filter (· < base)).map (base * n + ·)) 0

/-- Digits after a leading zero make no number. -/
def isPadded : List Char → Bool
  | '0' :: c :: r => (c :: r).all Char.isDigit
  | _ => false

def magnitude? (cs : List Char) : Option Nat :=
  let announced := match cs with
    | '0' :: 'x' :: r => digitsIn? 16 r
    | '0' :: 'o' :: r => digitsIn? 8 r
    | '0' :: 'b' :: r => digitsIn? 2 r
    | _ => none
  announced.or (if isPadded cs then none else digitsIn? 10 cs)

def splitSign : List Char → Bool × List Char
  | '-' :: r => (true, r)
  | '+' :: r => (false, r)
  | cs => (false, cs)

/-- A number in the range that a tree can hold; `none` for one that is out of the range and yet has
no more than 128 bits. -/
def inRange? (negative : Bool) (n : Nat) : Option Number :=
  if negative then
    match n with
    | 0 => some (.whole 0)
    | m + 1 => if m < Number.belowLimit then some (.below m) else none
  else if n < Number.wholeLimit then some (.whole n)
  else none

/-- Whether a number of that sign has more than 128 bits. -/
def isHuge (negative : Bool) (n : Nat) : Bool := if negative then 1 <<< 127 < n else 1 <<< 128 ≤ n

def integer? (cs : List Char) : Option (Bool × Nat) :=
  let (negative, r) := splitSign cs
  ((magnitude? r).filter fun n => !isHuge negative n).map fun n => (negative, n)

def decimal? (cs : List Char) : Option (Nat × Int) := do
  let (whole, r) := cs.span Char.isDigit
  let (fraction, r) := match r with
    | '.' :: s => s.span Char.isDigit
    | s => ([], s)
  if whole.isEmpty && fraction.isEmpty then none
  else do
    let ((power, _), r) ← Tree.power? r
    if r.isEmpty then some (Tree.digitValue (whole ++ fraction), power - fraction.length) else none

def isInfinityWord (cs : List Char) : Bool := [".inf", ".Inf", ".INF"].contains (String.ofList cs)

def isNanWord (cs : List Char) : Bool := [".nan", ".NaN", ".NAN"].contains (String.ofList cs)

/-- The tree of a number with a point. What is not finite becomes null. -/
def binary? (cs : List Char) : Option Tree :=
  let (negative, r) := splitSign cs
  if isInfinityWord r || isNanWord cs then some .null
  else do
    let (digits, power) ← decimal? r
    (Binary64.ofDecimal? negative digits power).map fun x => .number (.binary x)

/-- What a plain scalar means. A whole number out of range is no value at all. -/
def plainValue? (s : String) : Option Tree :=
  let cs := s.toList
  if s = "" || isNullWord s then some .null
  else
    match truth? s with
    | some b => some (.bool b)
    | none =>
      match integer? cs with
      | some (negative, n) => (inRange? negative n).map .number
      | none =>
        if isPadded (splitSign cs).2 then some (.text s) else some ((binary? cs).getD (.text s))

end ManifestSync.Yaml

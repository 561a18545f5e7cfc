import ManifestSync.Decimal.Binary64

namespace ManifestSync.Decimal

structure Numeral where
  digits : Nat
  power : Int
  deriving DecidableEq, Repr

/-- The positive reals that round to one value, in fourths of a unit of its last place: `low` and
`high` bound them and `closed` tells whether the bounds belong to them. -/
structure Interval where
  low : Nat
  value : Nat
  high : Nat
  exponent : Int
  closed : Bool

/-- A mantissa that begins a binade has a neighbour below at half the distance. -/
def intervalOf (x : Binary64) : Interval :=
  let narrow := x.mantissa = 1 <<< 52 ∧ Binary64.leastExponent < x.exponent
  ⟨4 * x.mantissa - (if narrow then 1 else 2), 4 * x.mantissa, 4 * x.mantissa + 2,
    x.exponent - 2, x.mantissa % 2 = 0⟩

def scalePair (m : Nat) (e : Int) (n : Nat) (p : Int) : Nat × Nat :=
  ((m * Nat.pow 10 (-p).toNat) <<< e.toNat, (n * Nat.pow 10 p.toNat) <<< (-e).toNat)

namespace Interval

def holds (i : Interval) (d : Numeral) : Bool :=
  let (l, dl) := scalePair i.low i.exponent d.digits d.power
  let (h, dh) := scalePair i.high i.exponent d.digits d.power
  if i.closed then l ≤ dl && dh ≤ h else l < dl && dh < h

def below (i : Interval) (power : Int) : Numeral :=
  let (v, one) := scalePair i.value i.exponent 1 power
  ⟨v / one, power⟩

/-- Of two decimals on one grid around the value the nearer one, the even one when it is in the
middle. -/
def nearer (i : Interval) (a b : Numeral) : Numeral :=
  let (v, s) := scalePair (2 * i.value) i.exponent (a.digits + b.digits) a.power
  if v < s then a else if s < v then b else if a.digits % 2 = 0 then a else b

def onGrid? (i : Interval) (power : Int) : Option Numeral :=
  let a := i.below power
  let b : Numeral := ⟨a.digits + 1, power⟩
  match a.digits != 0 && i.holds a, i.holds b with
  | true, true => some (i.nearer a b)
  | true, false => some a
  | false, true => some b
  | false, false => none

def firstHit (i : Interval) (power : Int) : Nat → Numeral
  | 0 => i.below power
  | n + 1 => (i.onGrid? power).getD (i.firstHit (power - 1) n)

end Interval

def magnitude (i : Interval) : Int :=
  let (v, one) := scalePair i.value i.exponent 1 0
  if one ≤ v then ((Nat.toDigits 10 (v / one)).length : Int)
  else 1 - ((Nat.toDigits 10 (one / v)).length : Int)

def stripZeros : Nat → Numeral → Numeral
  | 0, d => d
  | n + 1, d =>
    if d.digits % 10 = 0 ∧ d.digits ≠ 0 then stripZeros n ⟨d.digits / 10, d.power + 1⟩ else d

/-- The fewest digits that read back as the magnitude of `x`, and of those the nearest. -/
def shortest (x : Binary64) : Numeral :=
  if x.mantissa = 0 then ⟨0, 0⟩ else
  let i := intervalOf x
  stripZeros 20 (i.firstHit (magnitude i) 20)

/-- How a decimal is written: positionally while its first digit's power is from `least` up to
below `limit`, else with an exponent after `mark` and `plus` before one that is positive. -/
structure Layout where
  least : Int
  limit : Int
  mark : Char
  plus : Bool

/-- A positional number always has a fraction, a scientific one only where it needs it. -/
def Layout.write (l : Layout) (negative : Bool) (d : Numeral) : String :=
  let ds := Nat.toDigits 10 d.digits
  let point : Int := ds.length + d.power
  let sign := if negative then ['-'] else []
  let body :=
    if l.least ≤ point - 1 ∧ point - 1 < l.limit then
      if point ≤ 0 then ['0', '.'] ++ List.replicate (-point).toNat '0' ++ ds
      else if point < ds.length then ds.take point.toNat ++ ['.'] ++ ds.drop point.toNat
      else ds ++ List.replicate (point - ds.length).toNat '0' ++ ['.', '0']
    else
      let e := point - 1
      let fraction := if ds.length ≤ 1 then [] else '.' :: ds.drop 1
      let esign := if e < 0 then ['-'] else if l.plus then ['+'] else []
      ds.take 1 ++ fraction ++ [l.mark] ++ esign ++ Nat.toDigits 10 e.natAbs
  String.ofList (sign ++ body)

end ManifestSync.Decimal

namespace ManifestSync

/-- The value `± mantissa · 2 ^ exponent`. Rounding yields one form for each value: exponents from
`-1074` to `971`, and a mantissa of 53 bits unless the exponent is the least one. -/
structure Binary64 where
  negative : Bool
  mantissa : Nat
  exponent : Int
  deriving DecidableEq, Repr

namespace Binary64

def leastExponent : Int := -1074

def greatestExponent : Int := 971

def zero (negative : Bool) : Binary64 := ⟨negative, 0, leastExponent⟩

def same (x y : Binary64) : Bool := (x.mantissa == 0 && y.mantissa == 0) || x == y

def roundDiv (num den : Nat) : Nat :=
  let q := num / den
  let r := 2 * (num % den)
  if r < den then q
  else if den < r then q + 1
  else if q % 2 = 0 then q else q + 1

/-- `num / (den · 2 ^ e)` as a fraction. -/
def scaled (num den : Nat) (e : Int) : Nat × Nat :=
  if 0 ≤ e then (num, den <<< e.toNat) else (num <<< (-e).toNat, den)

/-- The exponent at which the ratio's integer part has 53 bits, or the least one. -/
def exponentFor (num den : Nat) : Int :=
  let e := (num.log2 : Int) - den.log2 - 53
  let (n, d) := scaled num den e
  max leastExponent (if 1 <<< 53 ≤ n / d then e + 1 else e)

/-- The value nearest to the ratio, a tie going to the even mantissa; none beyond the greatest
finite value. -/
def ofRatio? (negative : Bool) (num den : Nat) : Option Binary64 :=
  if num = 0 then some (zero negative) else
  let e := exponentFor num den
  let (n, d) := scaled num den e
  let m := roundDiv n d
  let (m, e) := if m = 1 <<< 53 then (1 <<< 52, e + 1) else (m, e)
  if greatestExponent < e then none else some ⟨negative, m, e⟩

def ofScaledRatio? (negative : Bool) (num den : Nat) (exponent : Int) : Option Binary64 :=
  let (n, d) := scaled num den (-exponent)
  ofRatio? negative n d

def mul? (x y : Binary64) : Option Binary64 :=
  ofScaledRatio? (x.negative != y.negative) (x.mantissa * y.mantissa) 1 (x.exponent + y.exponent)

def div? (x y : Binary64) : Option Binary64 :=
  if y.mantissa = 0 then none
  else ofScaledRatio? (x.negative != y.negative) x.mantissa y.mantissa (x.exponent - y.exponent)

/-- The value nearest to `digits · 10 ^ power`. Powers that are out of every value's reach are not
computed. -/
def ofDecimal? (negative : Bool) (digits : Nat) (power : Int) : Option Binary64 :=
  if digits = 0 then some (zero negative) else
  let size := ((Nat.toDigits 10 digits).length : Int) + power
  if 310 < size then none
  else if size < -330 then some (zero negative)
  else if 0 ≤ power then ofRatio? negative (digits * Nat.pow 10 power.toNat) 1
  else ofRatio? negative digits (Nat.pow 10 (-power).toNat)

end Binary64

end ManifestSync

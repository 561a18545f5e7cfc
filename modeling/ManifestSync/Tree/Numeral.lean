import ManifestSync.Tree.Basic

namespace ManifestSync

/-- What is kept of a numeral's digits. It stands for `digits · 10 ^ power`. -/
structure Significand where
  digits : Nat
  power : Int
  deriving DecidableEq, Repr

namespace Significand

def takeDigits (n : Nat) : List Char → Nat × List Char
  | [] => (n, [])
  | c :: r =>
    let next := 10 * n + (c.toNat - '0'.toNat)
    if next < Number.wholeLimit then takeDigits next r else (n, c :: r)

def ofInteger (cs : List Char) : Significand :=
  let (n, left) := takeDigits 0 cs
  ⟨n, left.length⟩

/-- The digits after the point put behind those before it. Those that are left are dropped. -/
def withFraction (s : Significand) (cs : List Char) : Significand :=
  let (n, left) := takeDigits s.digits cs
  ⟨n, s.power - (cs.length - left.length : Nat)⟩

def greatestPower : Nat := 308

def powerOfTen? (k : Nat) : Option Binary64 := Binary64.ofRatio? false (Nat.pow 10 k) 1

def divide? (x : Binary64) (k : Nat) : Option Binary64 :=
  if k ≤ greatestPower then (powerOfTen? k).bind x.div?
  else if x.mantissa = 0 then some x
  else do
    let y ← (powerOfTen? greatestPower).bind x.div?
    divide? y (k - greatestPower)
termination_by k
decreasing_by simp only [greatestPower] at *; omega

def multiply? (x : Binary64) (k : Nat) : Option Binary64 :=
  if k ≤ greatestPower then (powerOfTen? k).bind x.mul?
  else if x.mantissa = 0 then some x
  else none

/-- The binary number that a numeral's digits and their power make, if it is in range. Each step
rounds, so that it may lie next to the nearest one. -/
def value? (negative : Bool) (s : Significand) : Option Binary64 := do
  let x ← Binary64.ofRatio? negative s.digits 1
  if 0 ≤ s.power then multiply? x s.power.toNat else divide? x (-s.power).toNat

end Significand

namespace Tree

def digitValue (cs : List Char) : Nat := cs.foldl (fun n c => 10 * n + (c.toNat - '0'.toNat)) 0

def digits? (cs : List Char) : Option (List Char × List Char) :=
  match cs.span Char.isDigit with
  | ([], _) => none
  | found => some found

def integer? : List Char → Option (List Char × List Char)
  | '0' :: r => some (['0'], r)
  | cs => digits? cs

def fraction? : List Char → Option (List Char × List Char)
  | '.' :: r => digits? r
  | cs => some ([], cs)

def power? : List Char → Option ((Int × Bool) × List Char)
  | c :: r =>
    if c = 'e' || c = 'E' then
      match r with
      | '+' :: s => (digits? s).map fun (ds, t) => ((digitValue ds, true), t)
      | '-' :: s => (digits? s).map fun (ds, t) => ((-(digitValue ds : Int), true), t)
      | s => (digits? s).map fun (ds, t) => ((digitValue ds, true), t)
    else some ((0, false), c :: r)
  | [] => some ((0, false), [])

/-- A whole number in the range of its class, and a binary one outside the ranges and for a negative
zero. -/
def integral? (negative : Bool) (s : Significand) : Option Number :=
  if s.power = 0 && !negative then some (.whole s.digits)
  else if s.power = 0 && 0 < s.digits && s.digits ≤ Number.belowLimit then
    some (.below (s.digits - 1))
  else (s.value? negative).map .binary

/-- A numeral after its sign, and the rest. It has no number if that is out of range. -/
def number? (negative : Bool) (cs : List Char) : Option (Option Number × List Char) := do
  let (whole, r) ← integer? cs
  let (fraction, s) ← fraction? r
  let ((power, marked), t) ← power? s
  let significand := (Significand.ofInteger whole).withFraction fraction
  if fraction.isEmpty && !marked then some (integral? negative significand, t)
  else
    let scaled : Significand := { significand with power := significand.power + power }
    some ((scaled.value? negative).map .binary, t)

end Tree

end ManifestSync

import ManifestSync.Text.Blank

namespace ManifestSync

/-- A date and time of day. A leap second has the number sixty. -/
structure Instant where
  year : Int
  month : Nat
  day : Nat
  hour : Nat
  minute : Nat
  second : Nat
  deriving DecidableEq, Repr

namespace Instant

def isLeap (year : Int) : Bool := year % 4 == 0 && (year % 100 != 0 || year % 400 == 0)

def daysIn (year : Int) (month : Nat) : Nat :=
  if month = 2 then if isLeap year then 29 else 28
  else if month = 4 ∨ month = 6 ∨ month = 9 ∨ month = 11 then 30 else 31

def yearRange : Int × Int := (-262143, 262142)

def isValid (t : Instant) : Bool :=
  yearRange.1 ≤ t.year && t.year ≤ yearRange.2 && 1 ≤ t.month && t.month ≤ 12 && 1 ≤ t.day
    && t.day ≤ daysIn t.year t.month && t.hour ≤ 23 && t.minute ≤ 59 && t.second ≤ 60

def nextDay (t : Instant) : Instant :=
  if t.day < daysIn t.year t.month then { t with day := t.day + 1 }
  else if t.month < 12 then { t with month := t.month + 1, day := 1 }
  else { t with year := t.year + 1, month := 1, day := 1 }

def previousDay (t : Instant) : Instant :=
  if 1 < t.day then { t with day := t.day - 1 }
  else if 1 < t.month then { t with month := t.month - 1, day := daysIn t.year (t.month - 1) }
  else { t with year := t.year - 1, month := 12, day := 31 }

/-- The instant in universal time, the local one being ahead by so many minutes, less than a day. -/
def toUniversal (ahead : Int) (t : Instant) : Instant :=
  let minutes : Int := t.hour * 60 + t.minute - ahead
  let ofDay := (minutes % 1440).toNat
  let shifted := { t with hour := ofDay / 60, minute := ofDay % 60 }
  if minutes < 0 then shifted.previousDay
  else if 1440 ≤ minutes then shifted.nextDay
  else shifted

def skipBlank (cs : List Char) : List Char := cs.dropWhile Text.isBlank

def number? (width : Nat) (cs : List Char) : Option (Nat × List Char) :=
  let digits := (cs.take width).takeWhile Char.isDigit
  if digits.isEmpty then none
  else some (digits.foldl (fun n c => 10 * n + (c.toNat - '0'.toNat)) 0, cs.drop digits.length)

def pair? (cs : List Char) : Option (Nat × List Char) := number? 2 (skipBlank cs)

/-- A year has at most four digits, or any number of them behind a sign. -/
def year? (cs : List Char) : Option (Int × List Char) :=
  match skipBlank cs with
  | '-' :: r => (number? r.length r).map fun (n, s) => (-(n : Int), s)
  | '+' :: r => (number? r.length r).map fun (n, s) => ((n : Int), s)
  | r => (number? 4 r).map fun (n, s) => ((n : Int), s)

def mark? (mark : Char) (cs : List Char) : Option (List Char) :=
  match skipBlank cs with
  | c :: r => if c = mark then some r else none
  | [] => none

/-- A fraction of a second has no bearing on the result. -/
def skipFraction? : List Char → Option (List Char)
  | '.' :: r => if (r.takeWhile Char.isDigit).isEmpty then none else some (r.dropWhile Char.isDigit)
  | cs => some cs

def twoDigits? (most : Char) : List Char → Option (Nat × List Char)
  | a :: b :: r =>
    if '0' ≤ a ∧ a ≤ most ∧ b.isDigit then
      some (10 * (a.toNat - '0'.toNat) + (b.toNat - '0'.toNat), r)
    else none
  | _ => none

def offset? (cs : List Char) : Option (Int × List Char) :=
  match cs with
  | 'Z' :: r => some (0, r)
  | 'z' :: r => some (0, r)
  | sign :: r =>
    if (cs.take 3).map Char.toLower = ['u', 't', 'c'] then some (0, cs.drop 3)
    else if sign = '+' ∨ sign = '-' ∨ sign = '\u2212' then do
      let (hours, s) ← twoDigits? '9' r
      let (minutes, t) ← twoDigits? '5' (s.dropWhile fun c => c = ':' || Text.isBlank c)
      if hours ≤ 23 then
        let ahead : Int := hours * 60 + minutes
        some (if sign = '+' then ahead else -ahead, t)
      else none
    else none
  | [] => none

def ofText? (text : String) : Option Instant := do
  let (year, r) ← year? text.toList
  let (month, r) ← pair? (← mark? '-' r)
  let (day, r) ← pair? (← mark? '-' r)
  let r ← match r with
    | c :: r => if c = 'T' || c = 't' || c = ' ' then some r else none
    | [] => none
  let (hour, r) ← pair? r
  let (minute, r) ← pair? (← mark? ':' r)
  let (second, r) ← pair? (← mark? ':' r)
  let (ahead, r) ← offset? (skipBlank (← skipFraction? r))
  let told : Instant := ⟨year, month, day, hour, minute, second⟩
  let universal := told.toUniversal ahead
  if (skipBlank r).isEmpty && told.isValid && universal.isValid then some universal else none

def padded (width n : Nat) : String :=
  let digits := Nat.toDigits 10 n
  String.ofList (List.replicate (width - digits.length) '0' ++ digits)

/-- The text of an instant in universal time. Years of other than four digits have a sign. -/
def text (t : Instant) : String :=
  let year :=
    if t.year < 0 then "-" ++ padded 4 t.year.natAbs
    else if t.year ≤ 9999 then padded 4 t.year.natAbs
    else "+" ++ padded 4 t.year.natAbs
  let two := padded 2
  year ++ "-" ++ two t.month ++ "-" ++ two t.day ++ "T" ++ two t.hour ++ ":" ++ two t.minute ++ ":"
    ++ two t.second ++ "Z"

end Instant

end ManifestSync

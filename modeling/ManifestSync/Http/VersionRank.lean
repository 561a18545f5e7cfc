namespace ManifestSync.Http

inductive Stability where
  | other
  | alpha
  | beta
  | stable
  deriving DecidableEq, Repr

def Stability.rank : Stability → Nat
  | .other => 0
  | .alpha => 1
  | .beta => 2
  | .stable => 3

/-- A version by its parts. Stable ones come first, then beta, alpha and other names, and of two
numbers the greater one comes first. -/
structure VersionRank where
  stability : Stability
  major : Nat
  minor : Nat
  name : String
  deriving DecidableEq, Repr

namespace VersionRank

def number? (cs : List Char) : Option Nat :=
  if cs.isEmpty || !cs.all Char.isDigit then none
  else
    let n := cs.foldl (fun n c => 10 * n + (c.toNat - '0'.toNat)) 0
    if n < 0x100000000 then some n else none

/-- The minor number, counted from one, or zero if there is none. -/
def minor? : List Char → Option Nat
  | [] => some 0
  | '+' :: r => (number? r).map (· + 1)
  | cs => (number? cs).map (· + 1)

def conventional? (name : String) : Option VersionRank :=
  match name.toList with
  | 'v' :: r => do
    let major ← number? (r.takeWhile Char.isDigit)
    match r.dropWhile Char.isDigit with
    | [] => some ⟨.stable, major, 0, name⟩
    | 'a' :: 'l' :: 'p' :: 'h' :: 'a' :: s =>
      (minor? s).map fun minor => ⟨.alpha, major, minor, name⟩
    | 'b' :: 'e' :: 't' :: 'a' :: s =>
      (minor? s).map fun minor => ⟨.beta, major, minor, name⟩
    | _ => none
  | _ => none

def ofName (name : String) : VersionRank := (conventional? name).getD ⟨.other, 0, 0, name⟩

def precedes (a b : VersionRank) : Bool :=
  if a.stability ≠ b.stability then b.stability.rank < a.stability.rank
  else if a.stability = .other then a.name ≤ b.name
  else if a.major ≠ b.major then b.major < a.major
  else b.minor ≤ a.minor

end VersionRank

end ManifestSync.Http

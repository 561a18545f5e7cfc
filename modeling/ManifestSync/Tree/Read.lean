import ManifestSync.Tree.Draft
import ManifestSync.Tree.Numeral

namespace ManifestSync

namespace Tree

def isSpace (c : Char) : Bool := c = ' ' || c = '\n' || c = '\t' || c = '\r'

def skipSpace (cs : List Char) : List Char := cs.dropWhile isSpace

def hexValue? (c : Char) : Option Nat :=
  if '0' ≤ c ∧ c ≤ '9' then some (c.toNat - '0'.toNat)
  else if 'a' ≤ c ∧ c ≤ 'f' then some (c.toNat - 'a'.toNat + 10)
  else if 'A' ≤ c ∧ c ≤ 'F' then some (c.toNat - 'A'.toNat + 10)
  else none

def hexNumber? (cs : List Char) : Option Nat :=
  cs.foldlM (fun n c => (hexValue? c).map (16 * n + ·)) 0

def escaped? (c : Char) : Option Char :=
  if c = '"' || c = '\\' || c = '/' then some c
  else if c = 'b' then some '\x08'
  else if c = 'f' then some '\x0c'
  else if c = 'n' then some '\n'
  else if c = 'r' then some '\r'
  else if c = 't' then some '\t'
  else none

def isHighSurrogate (n : Nat) : Bool := 0xD800 ≤ n && n ≤ 0xDBFF

def isLowSurrogate (n : Nat) : Bool := 0xDC00 ≤ n && n ≤ 0xDFFF

/-- A unit of text: a character, or what was escaped by its number and may be half a character. -/
abbrev TextUnit := Char ⊕ Nat

/-- The units of a text up to the quote that ends it. Controls have to be escaped. -/
def textUnits? : List Char → Option (List TextUnit × List Char)
  | [] => none
  | '"' :: r => some ([], r)
  | '\\' :: 'u' :: a :: b :: c :: d :: r => do
    let n ← hexNumber? [a, b, c, d]
    (textUnits? r).map fun (us, t) => (.inr n :: us, t)
  | '\\' :: e :: r => do
    let c ← escaped? e
    (textUnits? r).map fun (us, t) => (.inl c :: us, t)
  | c :: r =>
    if c.toNat < 0x20 || c = '\\' then none
    else (textUnits? r).map fun (us, t) => (.inl c :: us, t)

/-- The characters that units make. Two halves make one character, and a half alone makes none. -/
def joinUnits? : List TextUnit → Option (List Char)
  | [] => some []
  | .inl c :: r => (joinUnits? r).map (c :: ·)
  | .inr n :: .inr m :: r =>
    if isHighSurrogate n && isLowSurrogate m then
      (joinUnits? r).map (Char.ofNat (0x10000 + (n - 0xD800) * 0x400 + (m - 0xDC00)) :: ·)
    else if isHighSurrogate n || isLowSurrogate n then none
    else (joinUnits? (.inr m :: r)).map (Char.ofNat n :: ·)
  | .inr n :: r =>
    if isHighSurrogate n || isLowSurrogate n then none
    else (joinUnits? r).map (Char.ofNat n :: ·)

def quotedText? (cs : List Char) : Option (Option String × List Char) :=
  (textUnits? cs).map fun (us, r) => ((joinUnits? us).map String.ofList, r)

end Tree

namespace Draft

/-- So many collections may be open at once, and one further in is broken. -/
def depthLimit : Nat := 127

def ofText : Option String → Draft
  | some s => .text s
  | none => .broken

def ofNumber : Option Number → Draft
  | some n => .number n
  | none => .broken

def within (room : Nat) (d : Draft) : Draft := if room = 0 then .broken else d

mutual

/-- A value with room for so many collections around each other. -/
def value? : (fuel room : Nat) → List Char → Option (Draft × List Char)
  | 0, _, _ => none
  | fuel + 1, room, cs =>
    match cs with
    | 'n' :: 'u' :: 'l' :: 'l' :: r => some (.null, r)
    | 't' :: 'r' :: 'u' :: 'e' :: r => some (.bool true, r)
    | 'f' :: 'a' :: 'l' :: 's' :: 'e' :: r => some (.bool false, r)
    | '"' :: r => (Tree.quotedText? r).map fun (s?, t) => (ofText s?, t)
    | '-' :: r => (Tree.number? true r).map fun (n?, t) => (ofNumber n?, t)
    | '[' :: r =>
      match Tree.skipSpace r with
      | ']' :: s => some (within room (.list []), s)
      | s => (items? fuel (room - 1) s).map fun (ds, t) => (within room (.list ds), t)
    | '\x7b' :: r =>
      match Tree.skipSpace r with
      | '\x7d' :: s => some (within room (.object []), s)
      | s => (membersFrom? fuel (room - 1) s).map fun (ms, t) => (within room (.object ms), t)
    | cs => (Tree.number? false cs).map fun (n?, t) => (ofNumber n?, t)

def items? : (fuel room : Nat) → List Char → Option (List Draft × List Char)
  | 0, _, _ => none
  | fuel + 1, room, cs =>
    (value? fuel room cs).bind fun (v, r) =>
      match Tree.skipSpace r with
      | ']' :: s => some ([v], s)
      | ',' :: s => (items? fuel room (Tree.skipSpace s)).map fun (vs, t) => (v :: vs, t)
      | _ => none

def membersFrom? :
    (fuel room : Nat) → List Char → Option (List (Option String × Draft) × List Char)
  | 0, _, _ => none
  | fuel + 1, room, cs =>
    match cs with
    | '"' :: r =>
      (Tree.quotedText? r).bind fun (key?, s) =>
        match Tree.skipSpace s with
        | ':' :: t =>
          (value? fuel room (Tree.skipSpace t)).bind fun (v, u) =>
            match Tree.skipSpace u with
            | '\x7d' :: w => some ([(key?, v)], w)
            | ',' :: w =>
              (membersFrom? fuel room (Tree.skipSpace w)).map fun (ms, x) => ((key?, v) :: ms, x)
            | _ => none
        | _ => none
    | _ => none

end

def read? (text : String) : Option Draft :=
  let cs := text.toList
  (value? (cs.length + 1) depthLimit (Tree.skipSpace cs)).bind fun (d, r) =>
    if (Tree.skipSpace r).isEmpty then some d else none

end Draft

def Tree.read? (text : String) : Option Tree := (Draft.read? text).bind Draft.tree?

end ManifestSync

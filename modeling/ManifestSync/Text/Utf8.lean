namespace ManifestSync.Text.Utf8

/-- What a stretch of bytes is: a character, the longest beginning of a character that the next
byte does not continue, or the beginning of a character at the end of the bytes. -/
inductive Part where
  | char (c : Char)
  | invalid (length : Nat)
  | truncated (length : Nat)
  deriving DecidableEq, Repr

/-- A character begun: the bytes seen and still owed, the bounds of the next byte and the value so
far. -/
structure Pending where
  seen : Nat
  owed : Nat
  low : Nat
  high : Nat
  value : Nat
  deriving DecidableEq, Repr

def first (b : Nat) : Part ⊕ Pending :=
  if b ≤ 0x7F then .inl (.char (Char.ofNat b))
  else if 0xC2 ≤ b ∧ b ≤ 0xDF then .inr ⟨1, 1, 0x80, 0xBF, b - 0xC0⟩
  else if b = 0xE0 then .inr ⟨1, 2, 0xA0, 0xBF, 0⟩
  else if b = 0xED then .inr ⟨1, 2, 0x80, 0x9F, 0xD⟩
  else if 0xE1 ≤ b ∧ b ≤ 0xEF then .inr ⟨1, 2, 0x80, 0xBF, b - 0xE0⟩
  else if b = 0xF0 then .inr ⟨1, 3, 0x90, 0xBF, 0⟩
  else if 0xF1 ≤ b ∧ b ≤ 0xF3 then .inr ⟨1, 3, 0x80, 0xBF, b - 0xF0⟩
  else if b = 0xF4 then .inr ⟨1, 3, 0x80, 0x8F, 4⟩
  else .inl (.invalid 1)

def partsFrom : Option Pending → List UInt8 → List Part
  | none, [] => []
  | some p, [] => [.truncated p.seen]
  | none, b :: r =>
    match first b.toNat with
    | .inl part => part :: partsFrom none r
    | .inr p => partsFrom (some p) r
  | some p, b :: r =>
    if p.low ≤ b.toNat ∧ b.toNat ≤ p.high then
      let value := p.value * 64 + (b.toNat - 0x80)
      if p.owed ≤ 1 then .char (Char.ofNat value) :: partsFrom none r
      else partsFrom (some ⟨p.seen + 1, p.owed - 1, 0x80, 0xBF, value⟩) r
    else
      .invalid p.seen :: match first b.toNat with
        | .inl part => part :: partsFrom none r
        | .inr p => partsFrom (some p) r

def parts (bytes : List UInt8) : List Part := partsFrom none bytes

structure Fault where
  index : Nat
  length : Option Nat
  deriving DecidableEq, Repr

def Fault.message (f : Fault) : String :=
  match f.length with
  | some n => s!"invalid utf-8 sequence of {n} bytes from index {f.index}"
  | none => s!"incomplete utf-8 byte sequence from index {f.index}"

def readParts : List Part → Nat → Except Fault (List Char)
  | [], _ => .ok []
  | .char c :: r, i => (readParts r (i + c.utf8Size)).map (c :: ·)
  | .invalid n :: _, i => .error ⟨i, some n⟩
  | .truncated _ :: _, i => .error ⟨i, none⟩

def decode (bytes : List UInt8) : Except Fault String :=
  (readParts (parts bytes) 0).map String.ofList

def decodeLossy (bytes : List UInt8) : String :=
  String.ofList ((parts bytes).map fun
    | .char c => c
    | _ => '\ufffd')

def encode (s : String) : List UInt8 := s.toUTF8.toList

end ManifestSync.Text.Utf8

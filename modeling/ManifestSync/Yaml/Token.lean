import ManifestSync.Yaml.Scalar

namespace ManifestSync.Yaml

abbrev TagText := List UInt8

inductive Token where
  | version (major minor : Nat)
  | tagHandle (handle : List Char) (expansion : TagText)
  | documentStart
  | documentEnd
  | blockSequence
  | blockMapping
  | blockEnd
  | flowSequence
  | flowSequenceEnd
  | flowMapping
  | flowMappingEnd
  | blockEntry
  | flowEntry
  | key
  | value
  | alias (name : List Char)
  | anchor (name : List Char)
  | tag (handle : List Char) (suffix : TagText)
  | scalar (text : String) (plain : Bool)
  deriving DecidableEq, Repr

def anchorEnds : List Char := ['?', ':', ',', ']', '\x7d', '%', '@', '\x60']

def anchorName? (s : Source) : Option (List Char × Source) :=
  let (name, r) := spanChars isWordChar s
  if !name.isEmpty && (isGap (front r) || anchorEnds.contains (front r)) then some (name, r)
  else none

def tagMarks : List Char :=
  [';', '/', '?', ':', '@', '&', '=', '+', '$', '.', '!', '~', '*', '\'', '(', ')']

def isTagChar (verbatim : Bool) (c : Char) : Bool :=
  isWordChar c || tagMarks.contains c || (verbatim && [',', '[', ']'].contains c)

def octetsAfter? (octet : Nat) : Option Nat :=
  if octet < 0x80 then some 0
  else if octet / 0x20 = 6 then some 1
  else if octet / 0x10 = 14 then some 2
  else if octet / 0x8 = 30 then some 3
  else none

/-- The octets of a tag, and the rest. Octets may be written in hexadecimal, and those of one
character stand together, `owed` of them being still to come. -/
def tagText? (verbatim : Bool) : (owed : Nat) → Source → Option (TagText × Source)
  | owed, p :: a :: b :: r =>
    if p.char = '%' then do
      let octet ← Tree.hexNumber? [a.char, b.char]
      let owed ← match owed with
        | 0 => octetsAfter? octet
        | n + 1 => if octet / 0x40 = 2 then some n else none
      let (octets, rest) ← tagText? verbatim owed r
      some (octet.toUInt8 :: octets, rest)
    else if owed ≠ 0 then none
    else if isTagChar verbatim p.char then
      (tagText? verbatim 0 (a :: b :: r)).map fun (octets, rest) =>
        (p.char.toNat.toUInt8 :: octets, rest)
    else some ([], p :: a :: b :: r)
  | owed, p :: r =>
    if owed ≠ 0 || p.char = '%' then none
    else if isTagChar verbatim p.char then
      (tagText? verbatim 0 r).map fun (octets, rest) => (p.char.toNat.toUInt8 :: octets, rest)
    else some ([], p :: r)
  | owed, [] => if owed = 0 then some ([], []) else none

/-- The octets before a zero: what a tag means ends there. -/
def TagText.meant (text : TagText) : TagText := text.takeWhile (· ≠ 0)

def fullTagText? (verbatim : Bool) (s : Source) : Option (TagText × Source) :=
  (tagText? verbatim 0 s).bind fun (text, r) =>
    if text.isEmpty then none else some (TagText.meant text, r)

def bang : UInt8 := 0x21

def octetsOf (cs : List Char) : TagText := cs.map fun c => c.toNat.toUInt8

/-- A tag, from its mark on: whole in angle brackets, or a handle and what follows it. A mark that
nothing meant follows has no handle. -/
def tagParts? (s : Source) : Option ((List Char × TagText) × Source) :=
  if ahead 1 s = '<' then do
    let (text, r) ← fullTagText? true (s.drop 2)
    if front r = '>' then some (([], text), r.drop 1) else none
  else
    let (word, r) := spanChars isWordChar (s.drop 1)
    if front r = '!' then
      (fullTagText? false (r.drop 1)).map fun (text, r) => (('!' :: (word ++ ['!']), text), r)
    else
      (tagText? false 0 r).map fun (text, r) =>
        let suffix := TagText.meant (octetsOf word ++ text)
        (if suffix.isEmpty then ([], [bang]) else (['!'], suffix), r)

/-- A tag and what must follow it: a blank, or a comma in flows. -/
def tag? (inFlow : Bool) (s : Source) : Option (Token × Source) :=
  (tagParts? s).bind fun ((handle, suffix), r) =>
    if isGap (front r) || (inFlow && front r = ',') then some (.tag handle suffix, r) else none

def versionNumber? (s : Source) : Option (Nat × Source) :=
  let (digits, r) := spanChars Char.isDigit s
  if digits.isEmpty || 9 < digits.length then none else some (Tree.digitValue digits, r)

def versionDirective? (s : Source) : Option (Token × Source) := do
  let (major, r) ← versionNumber? (skipBlanks s)
  if front r = '.' then do
    let (minor, r) ← versionNumber? (r.drop 1)
    some (.version major minor, r)
  else none

def handleDirective? (s : Source) : Option (Token × Source) := do
  let s : Source := skipBlanks s
  if front s ≠ '!' then none
  else
    let (word, r) := spanChars isWordChar (s.drop 1)
    let (handle, r) ←
      if front r = '!' then some ('!' :: (word ++ ['!']), r.drop 1)
      else if word.isEmpty then some (['!'], r)
      else none
    if !isBlank (front r) then none
    else
      let (expansion, r) ← fullTagText? true (skipBlanks r)
      if isGap (front r) then some (.tagHandle handle expansion, r) else none

def directive? (s : Source) : Option (Token × Source) := do
  let (name, r) := spanChars isWordChar s
  if !isGap (front r) then none
  else
    let (token, r) ←
      if name = ['Y', 'A', 'M', 'L'] then versionDirective? r
      else if name = ['T', 'A', 'G'] then handleDirective? r
      else none
    (finishLine? r).map fun r => (token, r)

end ManifestSync.Yaml

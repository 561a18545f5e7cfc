namespace ManifestSync.Yaml

/-- A character and where it is: the number of octets, of lines and of columns before it. -/
structure Placed where
  char : Char
  offset : Nat
  line : Nat
  column : Nat
  deriving Repr

abbrev Source := List Placed

/-- Stands behind the last character. No document holds it. -/
def endMark : Char := '\x00'

def isAllowed (c : Char) : Bool :=
  let n := c.toNat
  n = 0x9 || n = 0xA || n = 0xD || (0x20 ≤ n && n ≤ 0x7E) || n = 0x85 || (0xA0 ≤ n && n ≤ 0xD7FF)
    || (0xE000 ≤ n && n ≤ 0xFFFD) || 0x10000 ≤ n

/-- Whether the character ends a line and counts as a plain line feed. -/
def isFeed (c : Char) : Bool := c = '\n' || c = '\r' || c = '\u0085'

/-- Whether the character ends a line and is kept as it is. -/
def isSeparator (c : Char) : Bool := c = '\u2028' || c = '\u2029'

def place (offset line column : Nat) : List Char → Source
  | [] => [⟨endMark, offset, line, column⟩]
  | '\r' :: '\n' :: r => ⟨'\n', offset, line, column⟩ :: place (offset + 2) (line + 1) 0 r
  | c :: r =>
    let next := offset + c.utf8Size
    if isFeed c then ⟨'\n', offset, line, column⟩ :: place next (line + 1) 0 r
    else if isSeparator c then ⟨c, offset, line, column⟩ :: place next (line + 1) 0 r
    else ⟨c, offset, line, column⟩ :: place next line (column + 1) r

def Source.ofText? (text : String) : Option Source :=
  let cs := text.toList
  if cs.all isAllowed then some (place 0 0 0 cs) else none

def front : Source → Char
  | [] => endMark
  | p :: _ => p.char

def ahead (n : Nat) (s : Source) : Char := front (s.drop n)

def columnAt : Source → Nat
  | [] => 0
  | p :: _ => p.column

def isBreak (c : Char) : Bool := c = '\n' || isSeparator c

def isBlank (c : Char) : Bool := c = ' ' || c = '\t'

def isBreakOrEnd (c : Char) : Bool := isBreak c || c = endMark

def isGap (c : Char) : Bool := isBlank c || isBreakOrEnd c

/-- A byte order mark, which may begin a line and is passed over there. It takes up a column. -/
def isByteOrderMark (p : Placed) : Bool := p.column = 0 && p.char = '\ufeff'

def isWordChar (c : Char) : Bool := c.isAlphanum || c = '_' || c = '-'

def spanChars (property : Char → Bool) (s : Source) : List Char × Source :=
  let (taken, rest) := s.span fun p => property p.char
  (taken.map (·.char), rest)

def skipBlanks (s : Source) : Source := s.dropWhile fun p => isBlank p.char

def finishLine? (s : Source) : Option Source :=
  let s : Source := skipBlanks s
  let s : Source := if front s = '#' then s.dropWhile fun p => !isBreakOrEnd p.char else s
  if isBreak (front s) then some (s.drop 1)
  else if front s = endMark then some s
  else none

def startsWithThree (c : Char) (s : Source) : Bool :=
  columnAt s = 0 && front s = c && ahead 1 s = c && ahead 2 s = c && isGap (ahead 3 s)

def atDocumentMark (s : Source) : Bool := startsWithThree '-' s || startsWithThree '.' s

end ManifestSync.Yaml

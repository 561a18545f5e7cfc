import ManifestSync.Tree.Read
import ManifestSync.Yaml.Source

namespace ManifestSync.Yaml

/-- The blanks and breaks between two words. After the first break blanks do not count. -/
structure Pause where
  blanks : List Char
  broken : Bool
  first : List Char
  more : List Char

namespace Pause

def start : Pause := ⟨[], false, [], []⟩

def escaped : Pause := ⟨[], true, [], []⟩

def addBlank (c : Char) (g : Pause) : Pause :=
  if g.broken then g else { g with blanks := g.blanks ++ [c] }

def addBreak (c : Char) (g : Pause) : Pause :=
  if g.broken then { g with more := g.more ++ [c] } else ⟨[], true, [c], []⟩

/-- What the words are joined by. One plain break becomes a space, and of several the first is left
out. -/
def text (g : Pause) : List Char :=
  if !g.broken then g.blanks
  else if g.first = ['\n'] then if g.more.isEmpty then [' '] else g.more
  else g.first ++ g.more

end Pause

structure PlainText where
  text : List Char
  broken : Bool
  rest : Source

/-- A plain scalar. In flows it may not hold the indicators of flows; outside, its lines must be
indented by at least `indent` columns. -/
def plainText? (inFlow : Bool) (indent : Int) : Option Pause → Source → Option PlainText
  | pause, [] => some ⟨[], pause.any (·.broken), []⟩
  | pause, p :: r =>
    let s : Source := p :: r
    let c := p.char
    let ended : PlainText := ⟨[], pause.any (·.broken), s⟩
    if isBlank c || isBreak c then
      let g := pause.getD .start
      if isBreak c then plainText? inFlow indent (some (g.addBreak c)) r
      else if g.broken && p.column < indent && c = '\t' then none
      else plainText? inFlow indent (some (g.addBlank c)) r
    else if pause.isSome && ((!inFlow && p.column < indent) || atDocumentMark s || c = '#') then
      some ended
    else if inFlow && c = ':' && [',', '?', '[', ']', '\x7b', '\x7d'].contains (front r) then none
    else if c = endMark || (c = ':' && isGap (front r))
        || (inFlow && [',', '[', ']', '\x7b', '\x7d'].contains c) then some ended
    else
      (plainText? inFlow indent none r).map fun later =>
        { later with text := ((pause.map Pause.text).getD []) ++ c :: later.text }

def escapes : List (Char × Char) :=
  [('0', '\x00'), ('a', '\x07'), ('b', '\x08'), ('t', '\t'), ('\t', '\t'), ('n', '\n'),
   ('v', '\x0b'), ('f', '\x0c'), ('r', '\r'), ('e', '\x1b'), (' ', ' '), ('"', '"'), ('/', '/'),
   ('\\', '\\'), ('N', '\u0085'), ('_', '\u00a0'), ('L', '\u2028'), ('P', '\u2029')]

def codeLength? (c : Char) : Option Nat :=
  if c = 'x' then some 2 else if c = 'u' then some 4 else if c = 'U' then some 8 else none

def escape? (s : Source) : Option (Char × Nat) :=
  let letter := front s
  match codeLength? letter with
  | some length => do
    let digits := (s.drop 1).take length
    let n ← Tree.hexNumber? (digits.map (·.char))
    if digits.length = length && (n < 0xD800 || 0xDFFF < n) && n ≤ 0x10FFFF then
      some (Char.ofNat n, 1 + length)
    else none
  | none => (escapes.lookup letter).map fun c => (c, 1)

inductive QuotedPart where
  | ending
  | joint (width : Nat)
  | char (c : Char) (width : Nat)

def quotedPart? (single : Bool) (c : Char) (r : Source) : Option QuotedPart :=
  if c = endMark then none
  else if single then
    if c = '\'' then some (if front r = '\'' then .char '\'' 2 else .ending) else some (.char c 1)
  else if c = '"' then some .ending
  else if c = '\\' then
    if isBreak (front r) then some (.joint 2)
    else (escape? r).map fun (e, width) => .char e (1 + width)
  else some (.char c 1)

def quotedText? (single : Bool) : Option Pause → Source → Option (List Char × Source)
  | _, [] => none
  | pause, p :: r =>
    if isBlank p.char then quotedText? single (some ((pause.getD .start).addBlank p.char)) r
    else if isBreak p.char then quotedText? single (some ((pause.getD .start).addBreak p.char)) r
    else if pause.isSome && atDocumentMark (p :: r) then none
    else
      let before := (pause.map Pause.text).getD []
      match quotedPart? single p.char r with
      | none => none
      | some .ending => some (before, r)
      | some (.joint width) =>
        (quotedText? single (some .escaped) (r.drop (width - 1))).map fun (text, rest) =>
          (before ++ text, rest)
      | some (.char c width) =>
        (quotedText? single none (r.drop (width - 1))).map fun (text, rest) =>
          (before ++ c :: text, rest)
termination_by _ s => s.length
decreasing_by all_goals simp +arith

/-- The indentation and the empty lines before a line of a block: the widest indentation seen, the
breaks, and the rest. Without a given indentation, zero, any number of spaces belongs to it. -/
def blockBreaks? (indent : Nat) : Nat → Source → Option (Nat × List Char × Source)
  | widest, [] => some (widest, [], [])
  | widest, p :: r =>
    let isIndenting := indent = 0 || p.column < indent
    if isIndenting && p.char = ' ' then blockBreaks? indent widest r
    else
      let widest := max widest p.column
      if isIndenting && p.char = '\t' then none
      else if isBreak p.char then
        (blockBreaks? indent widest r).map fun (w, breaks, rest) => (w, p.char :: breaks, rest)
      else some (widest, [], p :: r)

theorem length_le_of_blockBreaks? {indent : Nat} {s : Source} {widest : Nat}
    {found : Nat × List Char × Source} (h : blockBreaks? indent widest s = some found) :
    found.2.2.length ≤ s.length := by
  induction s generalizing widest found with
  | nil => cases h; simp
  | cons p r ih =>
    rw [blockBreaks?] at h
    simp only at h
    split at h
    · exact Nat.le_succ_of_le (ih h)
    · split at h
      · cases h
      · split at h
        · obtain ⟨later, h', rfl⟩ := Option.map_eq_some_iff.mp h
          have shorter := ih h'
          exact Nat.le_succ_of_le shorter
        · cases h; simp

structure BlockState where
  lastBreak : List Char
  wasBlank : Bool
  breaks : List Char

/-- What stands between the lines read and one more. In a block that is not literal a break between
two lines that begin with no blank becomes a space, or is left out if empty lines follow. -/
def BlockState.joint (literal isBlankLine : Bool) (b : BlockState) : List Char :=
  if !literal && b.lastBreak = ['\n'] && !b.wasBlank && !isBlankLine then
    if b.breaks.isEmpty then [' '] else b.breaks
  else b.lastBreak ++ b.breaks

def restOfLine : Source → List Char × List Char × Source
  | [] => ([], [], [])
  | p :: r =>
    if isBreak p.char then ([], [p.char], r)
    else if p.char = endMark then ([], [], p :: r)
    else
      let (line, lastBreak, rest) := restOfLine r
      (p.char :: line, lastBreak, rest)

theorem length_restOfLine (s : Source) : (restOfLine s).2.2.length ≤ s.length := by
  fun_induction restOfLine s with
  | case1 => simp
  | case2 => simp
  | case3 => simp
  | case4 _ _ _ _ line lastBreak rest found ih =>
    simp only [found] at ih
    exact Nat.le_succ_of_le ih

theorem length_restOfLine_cons {p : Placed} {r : Source} (h : p.char ≠ endMark) :
    (restOfLine (p :: r)).2.2.length < (p :: r).length := by
  rw [restOfLine]
  split
  · simp
  · exact Nat.lt_succ_of_le (length_restOfLine r)

def blockLines? (literal : Bool) (indent : Nat) :
    BlockState → Source → Option (List Char × BlockState × Source)
  | b, [] => some ([], b, [])
  | b, p :: r =>
    if _hp : p.column = indent ∧ p.char ≠ endMark then
      let isBlankLine := isBlank p.char
      let line := restOfLine (p :: r)
      match _found : blockBreaks? indent 0 line.2.2 with
      | none => none
      | some (_, breaks, rest) =>
        (blockLines? literal indent ⟨line.2.1, isBlankLine, breaks⟩ rest).map
          fun (text, final) => (b.joint literal isBlankLine ++ line.1 ++ text, final)
    else some ([], b, p :: r)
termination_by _ s => s.length
decreasing_by
  exact Nat.lt_of_le_of_lt (length_le_of_blockBreaks? _found) (length_restOfLine_cons _hp.2)

inductive Chomping where
  | strip
  | clip
  | keep
  deriving DecidableEq, Repr

def chomping? (c : Char) : Option Chomping :=
  if c = '+' then some .keep else if c = '-' then some .strip else none

def indentation? (s : Source) : Option (Nat × Source) :=
  if (front s).isDigit then
    if front s = '0' then none else some ((front s).toNat - '0'.toNat, s.drop 1)
  else some (0, s)

def blockHeader? (s : Source) : Option (Chomping × Nat × Source) :=
  match chomping? (front s) with
  | some chomping => (indentation? (s.drop 1)).map fun (n, r) => (chomping, n, r)
  | none => do
    let (n, r) ← indentation? s
    match chomping? (front r) with
    | some chomping => some (chomping, n, r.drop 1)
    | none => some (.clip, n, r)

/-- A block of lines, after its indicator. The indentation around it is given, below zero for
none. -/
def blockText? (literal : Bool) (outer : Int) (s : Source) : Option (List Char × Source) := do
  let (chomping, told, r) ← blockHeader? s
  let r ← finishLine? r
  let fixed := if told = 0 then 0 else (max outer 0).toNat + told
  let (widest, breaks, r) ← blockBreaks? fixed 0 r
  let indent := if fixed = 0 then max (max widest (outer + 1).toNat) 1 else fixed
  let (text, b, r) ← blockLines? literal indent ⟨[], false, breaks⟩ r
  let tail := match chomping with
    | .strip => []
    | .clip => b.lastBreak
    | .keep => b.lastBreak ++ b.breaks
  some (text ++ tail, r)

end ManifestSync.Yaml

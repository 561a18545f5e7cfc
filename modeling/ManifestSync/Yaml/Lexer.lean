import ManifestSync.Yaml.Token

namespace ManifestSync.Yaml

/-- A place where a key may have begun. It must be followed by a colon on the same line, and not too
far away. The tokens that announce it are put in front of it once the colon is found. -/
structure PossibleKey where
  /-- Whether nothing but a key can stand there. -/
  required : Bool
  position : Nat
  offset : Nat
  line : Nat
  column : Nat

structure Lexer where
  rest : Source
  /-- The tokens so far, the last one first, and their number. -/
  tokens : List Token
  count : Nat
  /-- The column of the innermost block, below zero for none, and those of the blocks around it. -/
  indent : Int
  outer : List Int
  keyAllowed : Bool
  key? : Option PossibleKey
  flows : List (Option PossibleKey)

namespace Lexer

def start (s : Source) : Lexer := ⟨s, [], 0, -1, [], true, none, []⟩

def inFlow (l : Lexer) : Bool := !l.flows.isEmpty

def emit (t : Token) (l : Lexer) : Lexer := { l with tokens := t :: l.tokens, count := l.count + 1 }

def insert (position : Nat) (t : Token) (l : Lexer) : Lexer :=
  let later := l.count - position
  { l with tokens := l.tokens.take later ++ t :: l.tokens.drop later, count := l.count + 1 }

def skip (n : Nat) (l : Lexer) : Lexer := { l with rest := l.rest.drop n }

/-- The octets that a key may take up before its colon. -/
def keyReach : Nat := 1024

def PossibleKey.from? (line offset : Nat) (k : Option PossibleKey) :
    Option (Option PossibleKey) :=
  match k with
  | some k =>
    if k.line < line || k.offset + keyReach < offset then if k.required then none else some none
    else some (some k)
  | none => some none

def dropStale? (l : Lexer) : Option Lexer := do
  match l.rest with
  | [] => some l
  | p :: _ =>
    let key? ← PossibleKey.from? p.line p.offset l.key?
    let flows ← l.flows.mapM (PossibleKey.from? p.line p.offset)
    some { l with key?, flows }

def dropKey? (l : Lexer) : Option Lexer :=
  if l.key?.any (·.required) then none else some { l with key? := none }

def saveKey? (l : Lexer) : Option Lexer :=
  if !l.keyAllowed then some l
  else
    match l.rest with
    | [] => some l
    | p :: _ =>
      let required := !l.inFlow && l.indent = p.column
      l.dropKey?.map fun l =>
        { l with key? := some ⟨required, l.count, p.offset, p.line, p.column⟩ }

def endsBefore (column : Int) : Int → List Int → Nat × Int × List Int
  | indent, [] => (0, indent, [])
  | indent, o :: os =>
    if column < indent then
      let (n, i, rest) := endsBefore column o os
      (n + 1, i, rest)
    else (0, indent, o :: os)

def unroll (column : Int) (l : Lexer) : Lexer :=
  if l.inFlow then l
  else
    let (n, indent, outer) := endsBefore column l.indent l.outer
    { l with
      tokens := List.replicate n .blockEnd ++ l.tokens
      count := l.count + n
      indent, outer }

def roll (column position : Nat) (t : Token) (l : Lexer) : Lexer :=
  if !l.inFlow && l.indent < column then
    { l.insert position t with indent := column, outer := l.indent :: l.outer }
  else l

def skipIgnored (inFlow : Bool) : (allowed comment : Bool) → Source → Bool × Source
  | allowed, _, [] => (allowed, [])
  | allowed, comment, p :: r =>
    if isBreak p.char then skipIgnored inFlow (allowed || !inFlow) false r
    else if p.char = endMark then (allowed, p :: r)
    else if comment then skipIgnored inFlow allowed true r
    else if p.char = ' ' || (p.char = '\t' && (inFlow || !allowed)) then
      skipIgnored inFlow allowed false r
    else if p.char = '#' then skipIgnored inFlow allowed true r
    else if isByteOrderMark p then skipIgnored inFlow allowed false r
    else (allowed, p :: r)

def settle? (l : Lexer) : Option Lexer :=
  let (keyAllowed, rest) := skipIgnored l.inFlow l.keyAllowed false l.rest
  ({ l with keyAllowed, rest }.dropStale?).map fun (l : Lexer) => l.unroll (columnAt l.rest)

/-- A directive or a mark between documents ends all blocks. -/
def betweenDocuments? (l : Lexer) : Option Lexer :=
  ((l.unroll (-1)).dropKey?).map fun l => { l with keyAllowed := false }

def documentMark? (t : Token) (l : Lexer) : Option Lexer :=
  l.betweenDocuments?.map fun l => (l.emit t).skip 3

def directive? (l : Lexer) : Option Lexer := do
  let l ← l.betweenDocuments?
  let (t, rest) ← Yaml.directive? (l.rest.drop 1)
  some { l.emit t with rest }

def flowStart? (t : Token) (l : Lexer) : Option Lexer :=
  l.saveKey?.map fun l =>
    { (l.emit t).skip 1 with keyAllowed := true, key? := none, flows := l.key? :: l.flows }

def flowEnd? (t : Token) (l : Lexer) : Option Lexer :=
  l.dropKey?.map fun l =>
    let l := { (l.emit t).skip 1 with keyAllowed := false }
    match l.flows with
    | k :: ks => { l with key? := k, flows := ks }
    | [] => l

def flowEntry? (l : Lexer) : Option Lexer :=
  l.dropKey?.map fun l => { (l.emit .flowEntry).skip 1 with keyAllowed := true }

def blockEntry? (l : Lexer) : Option Lexer :=
  if !l.inFlow && !l.keyAllowed then none
  else
    (l.roll (columnAt l.rest) l.count .blockSequence).dropKey?.map fun l =>
      { (l.emit .blockEntry).skip 1 with keyAllowed := true }

def explicitKey? (l : Lexer) : Option Lexer :=
  if !l.inFlow && !l.keyAllowed then none
  else
    (l.roll (columnAt l.rest) l.count .blockMapping).dropKey?.map fun l =>
      { (l.emit .key).skip 1 with keyAllowed := !l.inFlow }

def colon? (l : Lexer) : Option Lexer :=
  match l.key? with
  | some k =>
    let l := (l.insert k.position .key).roll k.column k.position .blockMapping
    some { (l.emit .value).skip 1 with key? := none, keyAllowed := false }
  | none =>
    if !l.inFlow && !l.keyAllowed then none
    else
      let l := l.roll (columnAt l.rest) l.count .blockMapping
      some { (l.emit .value).skip 1 with keyAllowed := !l.inFlow }

def keyPart? (read : Lexer → Option (Token × Source)) (l : Lexer) : Option Lexer := do
  let l ← l.saveKey?
  let (t, rest) ← read l
  some { l.emit t with rest, keyAllowed := false }

def anchored? (token : List Char → Token) : Lexer → Option Lexer :=
  keyPart? fun l => (anchorName? (l.rest.drop 1)).map fun (name, r) => (token name, r)

def quoted? (single : Bool) : Lexer → Option Lexer :=
  keyPart? fun l =>
    (quotedText? single none (l.rest.drop 1)).map fun (text, r) =>
      (.scalar (String.ofList text) false, r)

/-- After a plain scalar that ends in breaks a key may begin. -/
def plain? (l : Lexer) : Option Lexer := do
  let l ← l.saveKey?
  let found ← plainText? l.inFlow (l.indent + 1) none l.rest
  some { l.emit (.scalar (String.ofList found.text) true) with
    rest := found.rest, keyAllowed := found.broken }

def block? (literal : Bool) (l : Lexer) : Option Lexer := do
  let l ← l.dropKey?
  let (text, rest) ← blockText? literal l.indent (l.rest.drop 1)
  some { l.emit (.scalar (String.ofList text) false) with rest, keyAllowed := true }

/-- The characters that begin something else, so that no plain scalar begins with them, some
exceptions apart. -/
def indicators : List Char :=
  ['-', '?', ':', ',', '[', ']', '\x7b', '\x7d', '#', '&', '*', '!', '|', '>', '\'', '"', '%', '@',
   '\x60']

def beginsPlain (l : Lexer) : Bool :=
  let c := front l.rest
  let next := ahead 1 l.rest
  !(isGap c || indicators.contains c) || (c = '-' && !isBlank next)
    || (!l.inFlow && (c = '?' || c = ':') && !isGap next)

def fetch? (l : Lexer) : Option Lexer :=
  let s := l.rest
  let c := front s
  let stands := l.inFlow || isGap (ahead 1 s)
  if columnAt s = 0 && c = '%' then l.directive?
  else if startsWithThree '-' s then l.documentMark? .documentStart
  else if startsWithThree '.' s then l.documentMark? .documentEnd
  else if c = '[' then l.flowStart? .flowSequence
  else if c = '\x7b' then l.flowStart? .flowMapping
  else if c = ']' then l.flowEnd? .flowSequenceEnd
  else if c = '\x7d' then l.flowEnd? .flowMappingEnd
  else if c = ',' then l.flowEntry?
  else if c = '-' && isGap (ahead 1 s) then l.blockEntry?
  else if c = '?' && stands then l.explicitKey?
  else if c = ':' && stands then l.colon?
  else if c = '*' then l.anchored? .alias
  else if c = '&' then l.anchored? .anchor
  else if c = '!' then l.keyPart? fun l => tag? l.inFlow l.rest
  else if c = '|' && !l.inFlow then l.block? true
  else if c = '>' && !l.inFlow then l.block? false
  else if c = '\'' then l.quoted? true
  else if c = '"' then l.quoted? false
  else if l.beginsPlain then l.plain?
  else none

/-- All tokens up to the end. Each but the closing ones takes a character at least. -/
def run : Nat → Lexer → Option (List Token)
  | 0, _ => none
  | fuel + 1, l => do
    let l ← l.settle?
    if front l.rest = endMark then l.betweenDocuments?.map (·.tokens.reverse)
    else run fuel (← l.fetch?)

end Lexer

def Source.tokens? (s : Source) : Option (List Token) := (Lexer.start s).run (s.length + 1)

end ManifestSync.Yaml

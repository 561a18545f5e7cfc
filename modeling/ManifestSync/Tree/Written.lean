import ManifestSync.Tree.Basic
import ManifestSync.Decimal.Shortest

namespace ManifestSync.Tree

/-- Binary numbers are positional from `0.00001` up to below `10 ^ 16`. -/
def binaryLayout : Decimal.Layout := ⟨-5, 16, 'e', true⟩

def writeNumber : Number → List Char
  | .whole n => Nat.toDigits 10 n
  | .below n => '-' :: Nat.toDigits 10 (n + 1)
  | .binary x => (binaryLayout.write x.negative (Decimal.shortest x)).toList

/-- A quote, a backslash and the controls below the space are escaped, nothing else. -/
def escape (c : Char) : List Char :=
  if c = '"' then ['\\', '"']
  else if c = '\\' then ['\\', '\\']
  else if c = '\n' then ['\\', 'n']
  else if c = '\r' then ['\\', 'r']
  else if c = '\t' then ['\\', 't']
  else if c = '\x08' then ['\\', 'b']
  else if c = '\x0c' then ['\\', 'f']
  else if c.toNat < 0x20 then
    ['\\', 'u', '0', '0', Nat.digitChar (c.toNat / 16), Nat.digitChar (c.toNat % 16)]
  else [c]

def writeText (s : String) : List Char := '"' :: (s.toList.flatMap escape ++ ['"'])

mutual

def write : Tree → List Char
  | .null => ['n', 'u', 'l', 'l']
  | .bool true => ['t', 'r', 'u', 'e']
  | .bool false => ['f', 'a', 'l', 's', 'e']
  | .number n => writeNumber n
  | .text s => writeText s
  | .list [] => ['[', ']']
  | .list (t :: r) => '[' :: (write t ++ writeItems r)
  | .object [] => ['\x7b', '\x7d']
  | .object ((k, t) :: r) => '\x7b' :: (writeText k ++ ':' :: (write t ++ writeMembers r))

def writeItems : List Tree → List Char
  | [] => [']']
  | t :: r => ',' :: (write t ++ writeItems r)

def writeMembers : Members → List Char
  | [] => ['\x7d']
  | (k, t) :: r => ',' :: (writeText k ++ ':' :: (write t ++ writeMembers r))

end

def written (t : Tree) : String := String.ofList t.write

end ManifestSync.Tree

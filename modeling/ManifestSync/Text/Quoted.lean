import ManifestSync.Text.Unprintable

namespace ManifestSync.Text

def hexDigits (n : Nat) : List Char := Nat.toDigits 16 n

/-- A quote, a backslash and four controls have escapes of their own; whatever else cannot be
shown is written by its code point. -/
def escapeQuoted (c : Char) : List Char :=
  if c = '\t' then ['\\', 't']
  else if c = '\r' then ['\\', 'r']
  else if c = '\n' then ['\\', 'n']
  else if c = '\x00' then ['\\', '0']
  else if c = '"' then ['\\', '"']
  else if c = '\\' then ['\\', '\\']
  else if isUnprintable c then ['\\', 'u', '\x7b'] ++ hexDigits c.toNat ++ ['\x7d']
  else [c]

def quoted (s : String) : String :=
  String.ofList ('"' :: (s.toList.flatMap escapeQuoted ++ ['"']))

end ManifestSync.Text

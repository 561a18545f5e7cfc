import ManifestSync.Activity
import ManifestSync.Http.Failure
import ManifestSync.Text.Utf8

namespace ManifestSync.Http

structure Outgoing where
  method : String
  uri : String
  contentType? : Option String
  body? : Option String
  deriving DecidableEq, Repr

def Outgoing.path (o : Outgoing) : String := String.ofList (o.uri.toList.takeWhile (· ≠ '?'))

structure Reply where
  status : Nat
  body : List UInt8
  deriving DecidableEq, Repr

/-- Sends a request; the other outcome is the reason why it could not be sent. -/
abbrev Transport (σ : Type) := Outgoing → σ → Activity σ (Except String Reply)

def inBounds (low high : Nat) (c : Char) : Bool := low ≤ c.toNat && c.toNat ≤ high

def isPathChar (c : Char) : Bool :=
  c = '!' || inBounds 0x24 0x3B c || c = '=' || inBounds 0x40 0x5F c || inBounds 0x61 0x7E c
    || c = '"' || 0x80 ≤ c.toNat

def isQueryChar (c : Char) : Bool :=
  c = '!' || inBounds 0x24 0x3B c || c = '=' || inBounds 0x3F 0x7E c || 0x80 ≤ c.toNat

def uriLimit : Nat := 65534

/-- The location that is written, up to its fragment. -/
def readUri (written : String) : Except UriFault String :=
  let cs := written.toList.takeWhile (· ≠ '#')
  let path := cs.takeWhile (· ≠ '?')
  let query := (cs.dropWhile (· ≠ '?')).drop 1
  if uriLimit < written.utf8ByteSize then .error .tooLong
  else if path.all isPathChar && query.all isQueryChar then .ok (String.ofList cs)
  else .error .invalidCharacter

end ManifestSync.Http

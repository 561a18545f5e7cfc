import ManifestSync.Text.Quoted
import ManifestSync.Text.Utf8

namespace ManifestSync.Http

inductive UriFault where
  | invalidCharacter
  | tooLong
  deriving DecidableEq, Repr

def UriFault.message : UriFault → String
  | .invalidCharacter => "invalid uri character"
  | .tooLong => "uri too long"

inductive ClientFailure where
  | invalidUri (fault : UriFault)
  | emptyName
  | transport (message : String)
  | notText (fault : Text.Utf8.Fault)
  | unreadable (reason : String)
  deriving DecidableEq, Repr

def ClientFailure.message : ClientFailure → String
  | .invalidUri fault => "Failed to build request: failed to build request: " ++ fault.message
  | .emptyName =>
    "Failed to build request: failed to validate request: A non-empty name is required"
  | .transport message => "ServiceError: " ++ message
  | .notText fault => "UTF-8 Error: " ++ fault.message
  | .unreadable reason => "Error deserializing response: " ++ reason

structure ErrorStatus where
  status : String
  message : String
  reason : String
  code : Nat
  deriving DecidableEq, Repr

def ErrorStatus.display (e : ErrorStatus) : String :=
  let fields := s!"status: {Text.quoted e.status}, message: {Text.quoted e.message}, "
    ++ s!"reason: {Text.quoted e.reason}, code: {e.code}"
  "ApiError: " ++ e.message ++ ": " ++ e.reason ++ " (ErrorResponse \x7b " ++ fields ++ " \x7d)"

inductive RequestError where
  | refused (status : ErrorStatus)
  | failed (failure : ClientFailure)
  deriving DecidableEq, Repr

def RequestError.message : RequestError → String
  | .refused status => status.display
  | .failed failure => failure.message

end ManifestSync.Http

import Mathlib.Data.List.Basic

/-!
# Errors of the signature managers
-/

namespace Signare

inductive ManagerErrorKind
  | notImplemented
  | libFailed
  | invalidSlot
  | pinIncorrect
  | alreadyInitialized
  | keyGenerationFailed
  | internal
  | notFound
  | invalidArgument
  deriving DecidableEq

def ManagerErrorKind.text : ManagerErrorKind → String
  | .notImplemented => "not implemented"
  | .libFailed => "unable to initialize library"
  | .invalidSlot => "invalid slot"
  | .pinIncorrect => "the pin is incorrect"
  | .alreadyInitialized => "library is already initialized"
  | .keyGenerationFailed => "key generation failed"
  | .internal => "internal error"
  | .notFound => "not found"
  | .invalidArgument => "invalid argument"

/-- `signaturemanager.Error`. -/
structure ManagerError where
  kind : ManagerErrorKind
  description : String
  deriving DecidableEq

def ManagerError.text (err : ManagerError) : String :=
  if err.description = "" then err.kind.text else err.kind.text ++ ": " ++ err.description

end Signare

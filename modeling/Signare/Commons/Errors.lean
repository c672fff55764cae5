import Signare.Commons.Rlp
import Signare.Lib.Hex

/-!
# Errors

The errors of the packages under `app/pkg`, with their type, message and human readable message.
-/

namespace Signare

open ByteCodec

inductive ErrorType
  | invalidArgument
  | preconditionFailed
  | unauthenticated
  | permissionDenied
  | notFound
  | alreadyExists
  | notImplemented
  | badGateway
  | unavailable
  | timeout
  | tooManyReq
  | internal
  deriving DecidableEq, Repr

/-- The two ways `strconv.ParseUint` fails. -/
inductive NumError
  | badSyntax
  | range
  deriving DecidableEq, Repr

/-- `text` is what `errors.New` and `fmt.Errorf` make, `wrapText` what `fmt.Errorf` with `%w`
makes, `typed` and `wrapTyped` are the `PublicError` and `PrivateError` of the `errors` package. -/
inductive SignareError
  | text (message : String)
  | hex (err : HexError)
  | num (err : NumError)
  | rlp (err : RlpError)
  | wrapText (message : String) (err : SignareError)
  | typed (errType : ErrorType) (message : String) (humanReadable : Option String)
  | wrapTyped (errType : ErrorType) (message : String) (humanReadable : Option String)
      (err : SignareError)
  deriving DecidableEq, Repr

def defaultInternalErrorMessage : String := "internal error"

/-- `InvalidArgument().WithMessage(message)`. -/
def invalidArgument (message : String) : SignareError := .typed .invalidArgument message none

/-- `InvalidArgument().WithMessage(msg).SetHumanReadableMessage(msg)`. -/
def invalidArgumentBoth (msg : String) : SignareError :=
  .typed .invalidArgument msg (some msg)

/-- `InvalidArgument().SetHumanReadableMessage(message)`. -/
def invalidArgumentReadable (message : String) : SignareError :=
  .typed .invalidArgument "" (some message)

/-- `InvalidArgumentFromErr(err).SetHumanReadableMessage(message)`. -/
def invalidArgumentFromErr (err : SignareError) (message : String) : SignareError :=
  .wrapTyped .invalidArgument "" (some message) err

/-- `Internal().WithMessage(message)`. -/
def internal (message : String) : SignareError :=
  .typed .internal message (some defaultInternalErrorMessage)

/-- `InternalFromErr(err).WithMessage(message)`. -/
def internalFromErr (err : SignareError) (message : String) : SignareError :=
  .wrapTyped .internal message (some defaultInternalErrorMessage) err

/-- `BadGateway().WithMessage(message).SetHumanReadableMessage(humanReadable)`. -/
def badGateway (message humanReadable : String) : SignareError :=
  .typed .badGateway message (some humanReadable)

/-- `NotFound().WithMessage(message)`. -/
def notFound (message : String) : SignareError := .typed .notFound message none

/-- `NotFound().WithMessage(msg).SetHumanReadableMessage(msg)`. -/
def notFoundReadable (msg : String) : SignareError := .typed .notFound msg (some msg)

/-- `NotFoundFromErr(err).WithMessage(message)`. -/
def notFoundFromErr (err : SignareError) (message : String) : SignareError :=
  .wrapTyped .notFound message none err

/-- `NotFoundFromErr(err).SetHumanReadableMessage(message)`. -/
def notFoundReadableFromErr (err : SignareError) (message : String) : SignareError :=
  .wrapTyped .notFound "" (some message) err

/-- `AlreadyExistsFromErr(err)`. -/
def alreadyExistsFromErr (err : SignareError) : SignareError :=
  .wrapTyped .alreadyExists "" none err

/-- `AlreadyExistsFromErr(err).SetHumanReadableMessage(message)`. -/
def alreadyExistsReadableFromErr (err : SignareError) (message : String) : SignareError :=
  .wrapTyped .alreadyExists "" (some message) err

/-- `PreconditionFailed().WithMessage(msg).SetHumanReadableMessage(msg)`. -/
def preconditionFailed (msg : String) : SignareError :=
  .typed .preconditionFailed msg (some msg)

/-- `PreconditionFailedFromErr(err).WithMessage(msg).SetHumanReadableMessage(msg)`. -/
def preconditionFailedFromErr (err : SignareError) (msg : String) : SignareError :=
  .wrapTyped .preconditionFailed msg (some msg) err

/-- The type of the error itself: the errors it wraps are not looked at. -/
def SignareError.errType : SignareError → Option ErrorType
  | .typed errType _ _ => some errType
  | .wrapTyped errType _ _ _ => some errType
  | _ => none

def isInvalidArgument (err : SignareError) : Bool := err.errType == some .invalidArgument
def isNotFound (err : SignareError) : Bool := err.errType == some .notFound
def isAlreadyExists (err : SignareError) : Bool := err.errType == some .alreadyExists
def isPreconditionFailed (err : SignareError) : Bool := err.errType == some .preconditionFailed
def isBadGateway (err : SignareError) : Bool := err.errType == some .badGateway

/-- `if err != nil { return Internal().WithMessage(message) }`. -/
def orInternal {α : Type} (message : String) : Except SignareError α → Except SignareError α
  | .error _ => .error (internal message)
  | .ok a => .ok a

/-- `if err != nil { return InternalFromErr(err).WithMessage(message) }`. -/
def orInternalFromErr {α : Type} (message : String) : Except SignareError α → Except SignareError α
  | .error err => .error (internalFromErr err message)
  | .ok a => .ok a

@[simp] theorem orInternal_ok {α : Type} (message : String) (a : α) :
    orInternal message (.ok a) = .ok a := rfl

theorem orInternalFromErr_eq_ok {α : Type} {message : String} {x : Except SignareError α} {a : α} :
    orInternalFromErr message x = .ok a ↔ x = .ok a := by
  cases x <;> simp [orInternalFromErr]

end Signare

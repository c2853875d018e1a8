/-!
# Python exceptions

The exception classes the modelled code raises, catches or lets through, with
the part of the class hierarchy its `except` clauses depend on.

`except Exception` catches everything but the classes directly below
`BaseException`: `asyncio.CancelledError`, `GeneratorExit` and the fatal ones.
-/

namespace TenantRag

/-- An exception class. -/
inductive ExcClass where
  /-- `TypeError`. -/
  | typeError
  /-- `ValueError`. -/
  | valueError
  /-- `KeyError`. -/
  | keyError
  /-- `RuntimeError`. -/
  | runtimeError
  /-- `StopIteration`. -/
  | stopIteration
  /-- `WeaviateResponseError`, a `RuntimeError`. -/
  | weaviateResponseError
  /-- `UserIsolationError`, a `WeaviateResponseError`. -/
  | userIsolationError
  /-- `IncompleteDeletionError`, a `RuntimeError`. -/
  | incompleteDeletionError
  /-- `ActiveChatStreamError`, a `RuntimeError`. -/
  | activeChatStreamError
  /-- `SessionDeletionInProgressError`, a `RuntimeError`. -/
  | sessionDeletionInProgressError
  /-- FastAPI's `HTTPException` with its status code. -/
  | httpException (status : Nat)
  /-- `httpx.HTTPError`, an `Exception`. -/
  | httpError
  /-- Any other subclass of `Exception`. -/
  | otherException
  /-- `asyncio.CancelledError`. -/
  | cancelledError
  /-- `GeneratorExit`. -/
  | generatorExit
  /-- `KeyboardInterrupt`, `SystemExit` and the like. -/
  | fatal
  deriving DecidableEq

/-- `issubclass(c, Exception)`: whether `except Exception` catches it. -/
def ExcClass.isException : ExcClass → Bool
  | .cancelledError | .generatorExit | .fatal => false
  | _ => true

/-- `issubclass(c, RuntimeError)`. -/
def ExcClass.isRuntimeError : ExcClass → Bool
  | .runtimeError | .weaviateResponseError | .userIsolationError | .incompleteDeletionError
  | .activeChatStreamError | .sessionDeletionInProgressError => true
  | _ => false

/-- An exception: its class and its message. -/
structure PyError where
  /-- The class. -/
  kind : ExcClass
  /-- `str(exc)`. -/
  message : String
  deriving DecidableEq

/-- `TypeError(message)`. -/
def typeError (message : String) : PyError := ⟨.typeError, message⟩

/-- `ValueError(message)`. -/
def valueError (message : String) : PyError := ⟨.valueError, message⟩

/-- `KeyError(...)`. -/
def keyError (message : String) : PyError := ⟨.keyError, message⟩

/-- `RuntimeError(message)`. -/
def runtimeError (message : String) : PyError := ⟨.runtimeError, message⟩

end TenantRag

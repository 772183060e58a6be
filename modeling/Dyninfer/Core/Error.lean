/-
The errors every fallible operation returns (`dyninfer-error`): one kind for
each subsystem, with the fields its constructor carries. What an I/O error
wraps (`std::io::Error`) is not modelled.
-/
namespace Dyninfer

structure UnsupportedEncodingError where
  message : String
  key : Option String := none
  codec : Option String := none
  codecVersion : Option Nat := none
  expected : Option String := none
  actual : Option String := none
  deriving DecidableEq, Repr

structure ArchitectureMismatchError where
  message : String
  architectureId : Option String := none
  detail : Option String := none
  deriving DecidableEq, Repr

structure BindingError where
  message : String
  slot : Option String := none
  checkpointKey : Option String := none
  expected : Option String := none
  actual : Option String := none
  deriving DecidableEq, Repr

structure CheckpointValidationError where
  message : String
  key : Option String := none
  detail : Option String := none
  deriving DecidableEq, Repr

/-- `CompilationError`, without its diagnostics. -/
structure CompilationError where
  message : String
  pass : Option String := none
  deriving DecidableEq, Repr

structure IreeRuntimeError where
  message : String
  statusCode : Option Int := none
  deriving DecidableEq, Repr

structure CacheError where
  message : String
  digest : Option String := none
  path : Option String := none
  deriving DecidableEq, Repr

inductive DynInferError where
  | io (message : String) (path : Option String)
  | unsupportedContainer (message : String) (path : Option String)
  | invalidCheckpoint (e : CheckpointValidationError)
  | unsupportedEncoding (e : UnsupportedEncodingError)
  | architectureMismatch (e : ArchitectureMismatchError)
  | binding (e : BindingError)
  | compilation (e : CompilationError)
  | ireeRuntime (e : IreeRuntimeError)
  | cache (e : CacheError)
  | config (message : String)
  | internal (message : String)
  deriving DecidableEq, Repr

/-- The text of an error. -/
def DynInferError.text : DynInferError → String
  | .io message _ => "I/O error: " ++ message
  | .unsupportedContainer message _ => "unsupported container: " ++ message
  | .invalidCheckpoint e => "invalid checkpoint: " ++ e.message
  | .unsupportedEncoding e => "unsupported encoding: " ++ e.message
  | .architectureMismatch e => "architecture mismatch: " ++ e.message
  | .binding e => "binding error: " ++ e.message
  | .compilation e => "compilation error: " ++ e.message
  | .ireeRuntime e => "IREE runtime error: " ++ e.message
  | .cache e => "cache error: " ++ e.message
  | .config message => "configuration error: " ++ message
  | .internal message => "internal error: " ++ message

/-- The error the runtime crate builds from a message alone. -/
def DynInferError.runtime (message : String) : DynInferError :=
  .ireeRuntime { message }

end Dyninfer

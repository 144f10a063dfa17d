import DshProxy.ByteOrder

/-! The parts of `std::io` and `std::task` that the poll functions are written
in: an error with its kind and text, and a result that may not be there yet. -/
namespace DshProxy

inductive ErrorKind
  | invalidData
  | brokenPipe
  | timedOut
  | writeZero
  | other
  deriving DecidableEq, Repr

structure IoError where
  kind : ErrorKind
  message : String
  deriving DecidableEq, Repr

/-- `std::task::Poll`. -/
inductive Poll (α : Type)
  | ready (value : α)
  | pending
  deriving DecidableEq, Repr

abbrev Result (α : Type) := Except IoError α

end DshProxy

/-! # Exit codes

How a run of a driver ended, and the code that its process exits with. A usage
error has the same code everywhere; the other two codes belong to the runtime. -/

namespace PointDriver

/-- How a run ended. -/
inductive Status where
  | success
  | usageError
  | runtimeError
  deriving DecidableEq, Repr

/-- The exit codes that a runtime chooses. -/
structure ExitCodes where
  success : UInt8
  runtimeError : UInt8
  deriving DecidableEq, Repr

namespace ExitCodes

/-- The codes of a runtime that chooses none. -/
def standard : ExitCodes := ⟨0, 2⟩

end ExitCodes

namespace Status

/-- The code of every usage error. -/
def usageErrorCode : UInt8 := 1

/-- The code that a process exits with. -/
def code (codes : ExitCodes) : Status → UInt8
  | success => codes.success
  | usageError => usageErrorCode
  | runtimeError => codes.runtimeError

end Status

end PointDriver

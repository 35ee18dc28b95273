import PointDriver.Lifecycle.Status

/-! # Sessions

A runtime is started before a driver's work and shut down after it, and it is
told about errors. A session owns a runtime from its opening to its closing:
the shutdown hook is called when the session closes, and at no other time. -/

namespace PointDriver

/-- A call that a runtime receives. -/
inductive Hook where
  | startup
  | error (message : String)
  | shutdown
  deriving DecidableEq, Repr

/-- A chain of errors, each the cause of the one before it. -/
abbrev ErrorChain := List String

/-- A chain of errors on one line. -/
def joinChain (chain : ErrorChain) : String := ": ".intercalate chain

/-- A runtime: whether it can start, and its exit codes. -/
structure Runtime where
  /-- The errors that starting ends in, if it fails. -/
  startupFailure : Option ErrorChain
  codes : ExitCodes
  deriving DecidableEq, Repr

/-- The hook calls made so far, and whether a session is open. -/
structure Session where
  isOpen : Bool
  hooks : List Hook
  deriving DecidableEq, Repr

namespace Session

/-- Before any session. -/
def start : Session := ⟨false, []⟩

/-- Closes the open session, if there is one. -/
def close (s : Session) : Session :=
  if s.isOpen then ⟨false, s.hooks ++ [.shutdown]⟩ else s

/-- Opens a session; an open one is closed. -/
def reopen (s : Session) : Session := { s.close with isOpen := true }

/-- Calls a hook of the runtime. -/
def call (s : Session) (hook : Hook) : Session := { s with hooks := s.hooks ++ [hook] }

/-- An operation on sessions. -/
inductive Step where
  | create
  | drop
  | startUp
  | report (message : String)
  | codes
  deriving DecidableEq, Repr

/-- What an operation answers. -/
inductive Answer where
  | done
  | started
  | startupFailed (message : String)
  | codes (codes : ExitCodes)
  /-- There is no open session to act on. -/
  | noSession
  deriving DecidableEq, Repr

/-- Performs an operation. -/
def perform (runtime : Runtime) (s : Session) : Step → Answer × Session
  | .create => (.done, s.reopen)
  | .drop => (.done, s.close)
  | .startUp =>
      if s.isOpen then
        (match runtime.startupFailure with
          | none => .started
          | some chain => .startupFailed (joinChain chain), s.call .startup)
      else (.noSession, s)
  | .report message => if s.isOpen then (.done, s.call (.error message)) else (.noSession, s)
  | .codes => if s.isOpen then (.codes runtime.codes, s) else (.noSession, s)

/-- The answers to operations, each with the state after it, and the state at
the end, when an open session has been closed. -/
def transcript (runtime : Runtime) (s : Session) : List Step → List (Answer × Session) × Session
  | [] => ([], s.close)
  | step :: rest =>
      let (answer, s) := s.perform runtime step
      let (answers, last) := transcript runtime s rest
      ((answer, s) :: answers, last)

end Session

end PointDriver

import PointDriver.Lifecycle.Session
import PointDriver.Output.Report

/-! # Guarded execution

The work of a driver runs between the startup and the shutdown of its runtime.
Whatever the work does, and whether or not it begins, the shutdown is the last
hook call and is made once. -/

namespace PointDriver

/-- How work ends. -/
inductive Ending where
  | finished (status : Status)
  | failed (chain : ErrorChain)
  /-- The work is cut off without a result. -/
  | panicked
  deriving DecidableEq, Repr

/-- Work that writes to a sink. -/
abbrev Body := Sink → Ending × Sink

/-- What an execution leaves behind. -/
structure Execution where
  /-- The exit code, unless the work was cut off. -/
  code : Option UInt8
  hooks : List Hook
  sink : Sink
  deriving DecidableEq, Repr

/-- Flushes the sink at the end; a refusal changes nothing. -/
def Sink.flushed (s : Sink) : Sink := (Sink.flush s).2

/-- Runs work between startup and shutdown. -/
def execute (runtime : Runtime) (sink : Sink) (body : Body) : Execution :=
  let session := Session.start.reopen.call .startup
  let (ending, sink) : Ending × Sink :=
    match runtime.startupFailure with
    | some chain => (.failed chain, sink)
    | none => body sink
  match ending with
  | .panicked => ⟨none, session.close.hooks, sink⟩
  | .failed chain =>
      let session := session.call (.error (joinChain chain))
      ⟨some (Status.runtimeError.code runtime.codes), session.close.hooks, sink.flushed⟩
  | .finished status => ⟨some (status.code runtime.codes), session.close.hooks, sink.flushed⟩

namespace Script

/-- A step of scripted work. -/
inductive Step where
  | write (text : String)
  | line (text : String)
  | outputDir (dir : String)
  | flush
  | finish (status : Status)
  | fail (chain : ErrorChain)
  | panic
  deriving DecidableEq, Repr

/-- What a step writes, if it is one that writes. -/
def writing? : Step → Option (Writing Unit)
  | .write text => some (Sink.write text)
  | .line text => some (Sink.write (text ++ "\n"))
  | .outputDir dir => some (Report.outputDir dir)
  | .flush => some Sink.flush
  | _ => none

/-- How a step ends the work when it does not go on. -/
def ending : Step → Ending
  | .finish status => .finished status
  | .fail chain => .failed chain
  | _ => .panicked

/-- Runs steps in order and counts those that were begun. Work that reaches the
end of its steps has succeeded. -/
def run : List Step → Sink → Nat → (Ending × Sink) × Nat
  | [], sink, begun => ((.finished .success, sink), begun)
  | step :: rest, sink, begun =>
      match writing? step with
      | none => ((ending step, sink), begun + 1)
      | some writing =>
          match writing sink with
          | (.ok (), sink) => run rest sink (begun + 1)
          | (.error fault, sink) => ((.failed [fault.message], sink), begun + 1)

/-- The steps as work. -/
def body (steps : List Step) : Body := fun sink => (run steps sink 0).1

/-- How many steps an execution begins. -/
def begun (runtime : Runtime) (sink : Sink) (steps : List Step) : Nat :=
  match runtime.startupFailure with
  | some _ => 0
  | none => (run steps sink 0).2

end Script

end PointDriver

import PointDriver.Text.Utf8

/-! # Output sinks

A sink stores what is written until it is full. A text that does not fit is
stored as far as it fits, and the write fails. -/

namespace PointDriver

/-- Where output goes. -/
structure Sink where
  stored : Bytes
  /-- How many bytes there is room for in all, if there is a bound. -/
  limit : Option Nat
  /-- Whether flushing fails. -/
  failFlush : Bool
  deriving DecidableEq, Repr

/-- Why a sink refuses. -/
inductive SinkFault where
  | full
  | flush
  deriving DecidableEq, Repr

namespace SinkFault

/-- The fault in words. -/
def message : SinkFault → String
  | full => "disk full"
  | flush => "flush failed"

end SinkFault

/-- An activity that writes to a sink and stops at the first refusal. -/
abbrev Writing := ExceptT SinkFault (StateM Sink)

namespace Sink

/-- An empty sink without a bound. -/
def unlimited : Sink := ⟨[], none, false⟩

/-- How many more bytes fit, if there is a bound. -/
def room (s : Sink) : Option Nat := s.limit.map (· - s.stored.length)

/-- Stores bytes as far as they fit. -/
def store (s : Sink) (bytes : Bytes) : Sink :=
  { s with stored := s.stored ++ match s.room with
      | none => bytes
      | some n => bytes.take n }

/-- Whether all the bytes fit. -/
def fits (s : Sink) (bytes : Bytes) : Bool :=
  match s.room with
  | none => true
  | some n => bytes.length ≤ n

/-- Writes a text. -/
def write (text : String) : Writing Unit := fun s =>
  let bytes := Utf8.encode text
  (if s.fits bytes then .ok () else .error .full, s.store bytes)

/-- Hands on what is stored; nothing in the sink changes. -/
def flush : Writing Unit := fun s =>
  (if s.failFlush then .error .flush else .ok (), s)

/-- Writing texts one after the other stores what writing them at once stores. -/
theorem store_store (s : Sink) (a b : Bytes) : (s.store a).store b = s.store (a ++ b) := by
  cases h : s.limit with
  | none => simp [store, room, h]
  | some n =>
    simp only [store, room, h, Option.map_some, List.append_assoc, List.length_append,
      List.length_take, List.take_append]
    congr 2
    by_cases fits : a.length ≤ n - s.stored.length
    · rw [Nat.min_eq_right fits, Nat.sub_sub]
    · have rest : n - (s.stored.length + min (n - s.stored.length) a.length) = 0 := by omega
      have none : n - s.stored.length - a.length = 0 := by omega
      rw [rest, none]

end Sink

end PointDriver

import Mathlib.Data.List.Induction
import PointDriver.Lifecycle.Session

/-!
# Sessions are released once

Operations on sessions come in any order. What the hooks record of them falls
into blocks, one for each session that was created: the calls made on the
session, and its shutdown at the end. Whether a startup succeeds has no part in
this, so each operation may meet a runtime of its own.
-/

namespace PointDriver.Session

namespace Step

/-- The hook that an operation calls on an open session. -/
def call? : Step → Option Hook
  | .startUp => some .startup
  | .report message => some (.error message)
  | .create | .drop | .codes => none

/-- Whether an operation ends the life of an open session. -/
def releases : Step → Bool
  | .create | .drop => true
  | .startUp | .report _ | .codes => false

theorem call?_ne_shutdown (step : Step) : step.call? ≠ some .shutdown := by
  cases step <;> simp [call?]

end Step

/-- The calls made on an open session by what is done until its life ends. -/
def calls (steps : List Step) : List Hook :=
  (steps.takeWhile fun step => !step.releases).filterMap Step.call?

/-- For each session that is created, in order, the calls made on it. -/
def lives : List Step → List (List Hook)
  | [] => []
  | .create :: rest => calls rest :: lives rest
  | _ :: rest => lives rest

/-- A life as the hooks record it. -/
def block (life : List Hook) : List Hook := life ++ [.shutdown]

/-- The state that operations lead to, each with the runtime that it meets. -/
def after (s : Session) (performed : List (Runtime × Step)) : Session :=
  performed.foldl (fun s p => (s.perform p.1 p.2).2) s

/-- What is still recorded of an open session: further calls, and its shutdown. -/
def remainder (s : Session) (steps : List Step) : List Hook :=
  if s.isOpen then block (calls steps) else []

section Steps
variable {s : Session} {runtime : Runtime} {step : Step} {steps : List Step}

theorem calls_cons_of_releases (h : step.releases = true) : calls (step :: steps) = [] := by
  simp [calls, h]

theorem calls_cons (h : step.releases = false) :
    calls (step :: steps) = step.call?.toList ++ calls steps := by
  cases hcall : step.call? <;> simp [calls, h, hcall]

theorem lives_cons (h : step.releases = false) : lives (step :: steps) = lives steps := by
  cases step with
  | create => cases h
  | drop => cases h
  | startUp => rfl
  | report message => rfl
  | codes => rfl

/-- Closing records the shutdown of an open session. -/
theorem close_eq (s : Session) : s.close = ⟨false, s.hooks ++ s.remainder []⟩ := by
  obtain ⟨isOpen, hooks⟩ := s
  cases isOpen <;> simp [close, remainder, block, calls]

/-- An operation that ends no life leaves the session open or not, and calls its hook only on an
open one. -/
theorem perform_of_not_releases (h : step.releases = false) :
    (s.perform runtime step).2 =
      ⟨s.isOpen, s.hooks ++ if s.isOpen then step.call?.toList else []⟩ := by
  obtain ⟨isOpen, hooks⟩ := s
  cases step with
  | create => cases h
  | drop => cases h
  | startUp => cases isOpen <;> simp [perform, call, Step.call?]
  | report message => cases isOpen <;> simp [perform, call, Step.call?]
  | codes => cases isOpen <;> simp [perform, Step.call?]

/-- Only a new session makes a difference where none is open. -/
theorem perform_of_not_isOpen (h : s.isOpen = false) (hstep : step ≠ .create) :
    (s.perform runtime step).2 = s ∧
      (step ≠ .drop → (s.perform runtime step).1 = .noSession) := by
  cases step with
  | create => exact absurd rfl hstep
  | drop => simp [perform, close, h]
  | startUp => simp [perform, h]
  | report message => simp [perform, h]
  | codes => simp [perform, h]

/-- An operation moves what it records from the remainder, or from the lives to come, to the
hooks. -/
theorem perform_step (s : Session) (runtime : Runtime) (step : Step) (steps : List Step) :
    let next := (s.perform runtime step).2
    next.hooks ++ next.remainder steps ++ (lives steps).flatMap block =
      s.hooks ++ s.remainder (step :: steps) ++ (lives (step :: steps)).flatMap block := by
  intro next
  cases hr : step.releases with
  | false =>
      have hnext : next = _ := perform_of_not_releases hr
      rw [hnext, lives_cons hr]
      obtain ⟨isOpen, hooks⟩ := s
      cases isOpen with
      | false => simp [remainder]
      | true => simp [remainder, block, calls_cons hr]
  | true =>
      have hclosed : s.remainder (step :: steps) = s.remainder [] := by
        rw [remainder, remainder, calls_cons_of_releases hr]
        rfl
      rw [hclosed]
      cases step with
      | create =>
          have hnext : next = { s.close with isOpen := true } := rfl
          rw [hnext, close_eq]
          simp [remainder, lives]
      | drop =>
          have hnext : next = s.close := rfl
          rw [hnext, close_eq]
          simp [remainder, lives]
      | startUp => cases hr
      | report message => cases hr
      | codes => cases hr

end Steps

/-- Operations record the rest of the open session and then the lives that they begin. -/
theorem close_after (s : Session) (performed : List (Runtime × Step)) :
    let steps := performed.map (·.2)
    (s.after performed).close =
      ⟨false, s.hooks ++ s.remainder steps ++ (lives steps).flatMap block⟩ := by
  induction performed generalizing s with
  | nil => simp [after, close_eq, lives]
  | cons p performed ih =>
      have hnext := ih (s.perform p.1 p.2).2
      have hstep := perform_step s p.1 p.2 (performed.map (·.2))
      simp only [List.map_cons] at hnext hstep ⊢
      rw [← hstep, ← hnext]
      rfl

/-- A session is open after operations if the last that began or ended a life began one. -/
theorem isOpen_after (performed : List (Runtime × Step)) :
    (start.after performed).isOpen =
      (((performed.map (·.2)).filter Step.releases).getLast? == some .create) := by
  induction performed using List.reverseRecOn with
  | nil => rfl
  | append_singleton performed p ih =>
      have hlast : start.after (performed ++ [p]) =
          ((start.after performed).perform p.1 p.2).2 := by
        simp [after]
      rw [hlast, List.map_append, List.map_singleton, List.filter_append]
      cases hr : p.2.releases with
      | false => simp [perform_of_not_releases hr, ih, hr]
      | true =>
          rw [List.filter_cons_of_pos hr, List.filter_nil, List.getLast?_concat]
          obtain ⟨runtime, step⟩ := p
          cases step with
          | create => rfl
          | drop => simp [perform, close_eq]
          | startUp => cases hr
          | report message => cases hr
          | codes => cases hr

/-- A transcript ends with the state that its operations lead to, closed. -/
theorem transcript_snd (runtime : Runtime) (s : Session) (steps : List Step) :
    (transcript runtime s steps).2 = (s.after (steps.map (runtime, ·))).close := by
  induction steps generalizing s with
  | nil => rfl
  | cons step steps ih => exact ih (s.perform runtime step).2

theorem length_lives (steps : List Step) : (lives steps).length = steps.count .create := by
  induction steps with
  | nil => rfl
  | cons step steps ih => cases step <;> simp [lives, ih]

theorem shutdown_not_mem_calls (steps : List Step) : .shutdown ∉ calls steps := by
  intro h
  obtain ⟨step, -, hcall⟩ := List.mem_filterMap.mp h
  exact step.call?_ne_shutdown hcall

theorem shutdown_not_mem_lives {steps : List Step} : ∀ life ∈ lives steps, .shutdown ∉ life := by
  induction steps with
  | nil => simp [lives]
  | cons step steps ih =>
      cases step with
      | create => exact List.forall_mem_cons.mpr ⟨shutdown_not_mem_calls steps, ih⟩
      | drop => exact ih
      | startUp => exact ih
      | report message => exact ih
      | codes => exact ih

theorem count_shutdown_blocks {lives : List (List Hook)} (h : ∀ life ∈ lives, .shutdown ∉ life) :
    (lives.flatMap block).count .shutdown = lives.length := by
  induction lives with
  | nil => rfl
  | cons life lives ih =>
      obtain ⟨hlife, hlives⟩ := List.forall_mem_cons.mp h
      rw [List.flatMap_cons, List.count_append, ih hlives, block, List.count_append,
        List.count_eq_zero_of_not_mem hlife, List.length_cons]
      simp [Nat.add_comm]

/-- Every session is released exactly once. Whatever is performed, and whatever the runtimes do,
the hooks record a block for each session in the order of creation: the calls made on it and then
its shutdown. While no session is open, nothing is recorded. -/
theorem released_once (performed : List (Runtime × Step)) :
    let steps := performed.map (·.2)
    let s := start.after performed
    let recorded := (lives steps).flatMap block
    (∀ runtime, (transcript runtime start steps).2 = ⟨false, recorded⟩) ∧
      s.close = ⟨false, recorded⟩ ∧
      (lives steps).length = steps.count .create ∧
      (∀ life ∈ lives steps, .shutdown ∉ life) ∧
      recorded.count .shutdown = steps.count .create ∧
      s.isOpen = ((steps.filter Step.releases).getLast? == some .create) ∧
      (s.isOpen = false → ∀ runtime step, step ≠ .create →
        (s.perform runtime step).2 = s ∧
          (step ≠ .drop → (s.perform runtime step).1 = .noSession)) := by
  intro steps s recorded
  have hclosed : ∀ performed : List (Runtime × Step), (start.after performed).close =
      ⟨false, (lives (performed.map (·.2))).flatMap block⟩ := fun performed =>
    close_after start performed
  refine ⟨?_, hclosed performed, length_lives steps, shutdown_not_mem_lives, ?_,
    isOpen_after performed, ?_⟩
  · intro runtime
    rw [transcript_snd, hclosed, List.map_map]
    exact congrArg (fun steps => Session.mk false ((lives steps).flatMap block)) (List.map_id steps)
  · rw [count_shutdown_blocks shutdown_not_mem_lives, length_lives]
  · intro hs runtime step hstep
    exact perform_of_not_isOpen hs hstep

/-- A session whose startup fails twice, another that replaces it, and calls without a session. -/
theorem released_once_after_failures :
    let starts : Runtime := ⟨none, .standard⟩
    let fails : Runtime := ⟨some ["unavailable"], .standard⟩
    let performed := [(starts, .startUp), (fails, .create), (fails, .startUp), (fails, .startUp),
      (starts, .create), (starts, .startUp), (starts, .report "oops"), (starts, .drop)]
    (start.after performed).isOpen = false ∧
      (start.after performed).hooks =
        [.startup, .startup, .shutdown, .startup, .error "oops", .shutdown] ∧
      ((start.after performed).perform starts (.report "late")).2 = start.after performed := by
  intro starts fails performed
  obtain ⟨-, hclosed, -, -, -, hopen, hidle⟩ := released_once performed
  have hdropped : (start.after performed).isOpen = false := hopen.trans (by decide)
  have hrest : (start.after performed).close = start.after performed :=
    (hidle hdropped starts .drop (by decide)).1
  refine ⟨hdropped, ?_, (hidle hdropped starts (.report "late") (by decide)).1⟩
  rw [← hrest]
  exact congrArg Session.hooks hclosed

end PointDriver.Session

import Mathlib.Data.List.Basic
import Mathlib.Logic.Function.Basic

/-!
# Machines made of one machine for each key

A store keeps a state for each key, and every event reads and writes the state of
one key, or of none.  Whatever events of other keys come in between, the events of
one key are answered as by a machine that has this key alone.

Nothing in this file depends on the program being run.
-/

/-- What an event does to the state of its key, and the answer to an event without
one. -/
structure KeyedMachine (κ σ ε ρ : Type*) where
  key : ε → Option κ
  act : ε → σ → σ × ρ
  free : ε → ρ

namespace KeyedMachine

variable {κ σ ε ρ : Type*} [DecidableEq κ]

def step (machine : KeyedMachine κ σ ε ρ) (state : κ → σ) (event : ε) : (κ → σ) × ρ :=
  match machine.key event with
  | none => (state, machine.free event)
  | some key =>
      let done := machine.act event (state key)
      (Function.update state key done.1, done.2)

/-- The events of a run with their answers. -/
def answers (machine : KeyedMachine κ σ ε ρ) : (κ → σ) → List ε → List (ε × ρ)
  | _, [] => []
  | state, event :: events =>
      let done := machine.step state event
      (event, done.2) :: machine.answers done.1 events

/-- The states after a run. -/
def finalState (machine : KeyedMachine κ σ ε ρ) (state : κ → σ) (events : List ε) : κ → σ :=
  events.foldl (fun state event => (machine.step state event).1) state

/-- The events of one key with the answers of a machine that has no other key. -/
def answersAlone (machine : KeyedMachine κ σ ε ρ) : σ → List ε → List (ε × ρ)
  | _, [] => []
  | state, event :: events =>
      let done := machine.act event state
      (event, done.2) :: machine.answersAlone done.1 events

/-- The events of a key. -/
def eventsOf (machine : KeyedMachine κ σ ε ρ) (key : κ) (events : List ε) : List ε :=
  events.filter fun event => machine.key event = some key

variable (machine : KeyedMachine κ σ ε ρ)

theorem eventsOf_cons (key : κ) (event : ε) (events : List ε) :
    machine.eventsOf key (event :: events) =
      if machine.key event = some key then event :: machine.eventsOf key events
      else machine.eventsOf key events := by
  simp [eventsOf, List.filter_cons]

theorem answers_eventsOf (state : κ → σ) (key : κ) (events : List ε) :
    (machine.answers state events).filter (fun answered => machine.key answered.1 = some key) =
      machine.answersAlone (state key) (machine.eventsOf key events) := by
  induction events generalizing state with
  | nil => rfl
  | cons event events ih =>
      rw [answers, List.filter_cons, ih, eventsOf_cons]
      cases keyed : machine.key event with
      | none => simp [step, keyed]
      | some own =>
          by_cases same : own = key
          · subst same
            simp [step, keyed, answersAlone]
          · have other : key ≠ own := fun equal => same equal.symm
            simp [step, keyed, same, other]

@[simp]
theorem map_fst_answers (state : κ → σ) (events : List ε) :
    (machine.answers state events).map Prod.fst = events := by
  induction events generalizing state with
  | nil => rfl
  | cons event events ih => rw [answers, List.map_cons, ih]

theorem answers_append (state : κ → σ) (events : List ε) (event : ε) :
    machine.answers state (events ++ [event]) =
      machine.answers state events ++
        [(event, (machine.step (machine.finalState state events) event).2)] := by
  induction events generalizing state with
  | nil => rfl
  | cons first events ih => simp [answers, finalState, ih]

theorem finalState_append (state : κ → σ) (first second : List ε) :
    machine.finalState state (first ++ second) =
      machine.finalState (machine.finalState state first) second :=
  List.foldl_append

/-- A part of the answers of a run is the answers of a part of the run. -/
theorem answers_split {state : κ → σ} {events : List ε} {left right : List (ε × ρ)}
    (answered : machine.answers state events = left ++ right) :
    ∃ first second, events = first ++ second ∧ machine.answers state first = left ∧
      machine.answers (machine.finalState state first) second = right := by
  induction left generalizing state events with
  | nil => exact ⟨[], events, rfl, rfl, answered⟩
  | cons entry left ih =>
      cases events with
      | nil => cases answered
      | cons event events =>
          obtain ⟨same, others⟩ := List.cons.inj answered
          obtain ⟨first, second, split, leftEq, rightEq⟩ := ih others
          refine ⟨event :: first, second, by rw [split, List.cons_append], ?_, rightEq⟩
          rw [answers, leftEq, same]

theorem answers_cons {state : κ → σ} {events : List ε} {entry : ε × ρ}
    {others : List (ε × ρ)} (answered : machine.answers state events = entry :: others) :
    ∃ later, events = entry.1 :: later ∧ (machine.step state entry.1).2 = entry.2 ∧
      machine.answers (machine.step state entry.1).1 later = others := by
  cases events with
  | nil => cases answered
  | cons event events =>
      obtain ⟨same, rest⟩ := List.cons.inj answered
      subst same
      exact ⟨events, rfl, rfl, rest⟩

theorem answers_free (state : κ → σ) (events : List ε) :
    ∀ answered ∈ machine.answers state events, machine.key answered.1 = none →
      answered.2 = machine.free answered.1 := by
  induction events generalizing state with
  | nil => simp [answers]
  | cons event events ih =>
      intro answered member keyless
      rcases List.mem_cons.mp member with rfl | later
      · simp only at keyless
        simp [step, keyless]
      · exact ih _ answered later keyless

end KeyedMachine

import TerritoryBackend.Coroutines

/-!
# Coroutines that come to an end

Instructions finish when they leave nothing to be executed after finitely many
blocks, none of these raises and no operation is bound to fail, whatever the other
coroutines do to the shared state in between.  On a running machine a coroutine that
begins with such instructions comes to the instructions after them.

Nothing in this file depends on the program being run.
-/

namespace EventLoop

variable {σ ι α ε : Type*} {machine : Machine σ ι α ε}

/-- The coroutine a choice is about. -/
def Choice.task : Choice α ε → Option Nat
  | .resume task _ | .fail task => some task
  | .event _ => none

/-- The operation has no outcome but to fail. -/
def Machine.OnlyFails (machine : Machine σ ι α ε) (instruction : ι) (state : σ) : Prop :=
  machine.fallible instruction state = true ∧
    ∀ answer, machine.block instruction answer state = none

/-- Executed in allowed states, each block in any of them, the instructions
come to their end without an exception. -/
inductive Machine.Finishes (machine : Machine σ ι α ε) (allowed : σ → Prop) :
    List ι → Prop where
  | nil : machine.Finishes allowed []
  | cons {instruction : ι} {rest : List ι}
      (certain : ∀ state, allowed state → ¬ machine.OnlyFails instruction state)
      (returns : ∀ answer state block, allowed state →
        machine.block instruction answer state = some block → block.raises = false)
      (continues : ∀ answer state block, allowed state →
        machine.block instruction answer state = some block →
        machine.Finishes allowed (block.next ++ rest)) :
      machine.Finishes allowed (instruction :: rest)

/-- The steps taken while a coroutine waits. -/
def meanwhile (allowed : σ → Prop) (task : Nat) (choice : Choice α ε) (config : Config σ ι) :
    Prop :=
  choice.task ≠ some task ∧ allowed config.state

/-- Whatever happens in allowed states, and as long as no operation it awaits
fails that could have succeeded, the coroutine comes to the given instructions
without an exception. -/
inductive Machine.Returns (machine : Machine σ ι α ε) (allowed : σ → Prop) (task : Nat)
    (rest : List ι) : Config σ ι → Prop where
  | returned {config : Config σ ι} (present : config.tasks[task]? = some rest) :
      machine.Returns allowed task rest config
  | executing {config : Config σ ι} {instruction : ι} {ahead : List ι}
      (present : config.tasks[task]? = some (instruction :: ahead ++ rest))
      (continues : ∀ later answer after, machine.Reaches config (meanwhile allowed task) later →
        allowed later.state → machine.step (.resume task answer) later = some after →
        machine.Returns allowed task rest after)
      (fails : ∀ later after, machine.Reaches config (meanwhile allowed task) later →
        allowed later.state → machine.OnlyFails instruction later.state →
        machine.step (.fail task) later = some after → machine.Returns allowed task rest after) :
      machine.Returns allowed task rest config

variable {allowed : σ → Prop} {task : Nat} {rest : List ι} {config later : Config σ ι}

namespace Machine.Finishes

theorem append {first second : List ι} (finishes : machine.Finishes allowed first)
    (others : machine.Finishes allowed second) :
    machine.Finishes allowed (first ++ second) := by
  induction finishes with
  | nil => exact others
  | cons certain returns _ ih =>
      refine .cons certain returns ?_
      intro answer state block permitted effect
      have joined := ih answer state block permitted effect
      rwa [List.append_assoc] at joined

theorem single {instruction : ι}
    (certain : ∀ state, allowed state → ¬ machine.OnlyFails instruction state)
    (returns : ∀ answer state block, allowed state →
      machine.block instruction answer state = some block →
      block.raises = false ∧ machine.Finishes allowed block.next) :
    machine.Finishes allowed [instruction] := by
  refine .cons certain (fun answer state block permitted effect =>
    (returns answer state block permitted effect).1) ?_
  intro answer state block permitted effect
  rw [List.append_nil]
  exact (returns answer state block permitted effect).2

theorem of_forall {instructions : List ι}
    (each : ∀ instruction ∈ instructions, machine.Finishes allowed [instruction]) :
    machine.Finishes allowed instructions := by
  induction instructions with
  | nil => exact .nil
  | cons instruction instructions ih =>
      have first := each instruction List.mem_cons_self
      exact first.append (ih fun other member => each other (List.mem_cons_of_mem _ member))

end Machine.Finishes

theorem Machine.Reaches.trans {start : Config σ ι} {guard : Choice α ε → Config σ ι → Prop}
    (reached : machine.Reaches start unguarded config)
    (onward : machine.Reaches config guard later) : machine.Reaches start unguarded later := by
  induction onward with
  | start => exact reached
  | step _ _ step ih => exact .step ih trivial step

/-- A waiting coroutine stays as it is. -/
theorem getElem?_of_meanwhile {current : List ι} (present : config.tasks[task]? = some current)
    (reached : machine.Reaches config (meanwhile allowed task) later) :
    later.tasks[task]? = some current := by
  induction reached with
  | start => exact present
  | @step choice before after reached permitted step ih =>
      obtain ⟨bound, -⟩ := List.getElem?_eq_some_iff.mp ih
      cases Machine.step_cases step with
      | @resumed other answer instruction rest block running current effect =>
          have different : other ≠ task := fun same => permitted.1 (congrArg some same)
          rw [List.getElem?_append_left (by simpa using bound),
            List.getElem?_set_ne different, ih]
      | @failed other instruction rest running current fallible =>
          have different : other ≠ task := fun same => permitted.1 (congrArg some same)
          rw [List.getElem?_set_ne different, ih]
      | happened effect => rw [List.getElem?_append_left bound, ih]

/-- A coroutine that goes on executes the block of its first instruction. -/
theorem Machine.resumed_task {answer : α} {instruction : ι} {ahead : List ι} {after : Config σ ι}
    (current : config.tasks[task]? = some (instruction :: ahead))
    (step : machine.step (.resume task answer) config = some after) :
    ∃ block, machine.block instruction answer config.state = some block ∧
      after.tasks[task]? = some (machine.continuation instruction ahead block) := by
  obtain ⟨bound, -⟩ := List.getElem?_eq_some_iff.mp current
  cases Machine.step_cases step with
  | @resumed _ _ first others block running present effect =>
      cases current.symm.trans present
      refine ⟨block, effect, ?_⟩
      rw [List.getElem?_append_left (by simpa using bound), List.getElem?_set_self bound]

/-- A coroutine that may run takes the step its block allows, and may run on. -/
theorem Machine.exists_resumed {answer : α} {instruction : ι} {ahead : List ι}
    {block : Block σ ι} (current : config.tasks[task]? = some (instruction :: ahead))
    (free : config.mayRun task = true)
    (effect : machine.block instruction answer config.state = some block) :
    ∃ after, machine.step (.resume task answer) config = some after ∧ after.state = block.state ∧
      after.tasks[task]? = some (machine.continuation instruction ahead block) ∧
      after.mayRun task = true := by
  have step : machine.step (.resume task answer) config =
      some
        { state := block.state
          tasks := config.tasks.set task (machine.continuation instruction ahead block) ++
            block.spawned
          running :=
            if machine.kind instruction = .remote then none
            else machine.holder task (machine.continuation instruction ahead block) } := by
    simp [Machine.step, current, free, effect]
  obtain ⟨bound, -⟩ := List.getElem?_eq_some_iff.mp current
  refine ⟨_, step, rfl, ?_, ?_⟩
  · rw [List.getElem?_append_left (by simpa using bound), List.getElem?_set_self bound]
  · unfold Config.mayRun Machine.holder
    dsimp only
    split
    · rfl
    split
    · rfl
    split <;> simp

/-- On a running machine instructions finish if they do so in all the states that
are allowed and that runs reach. -/
theorem Machine.Finishes.returns {start : Config σ ι} {sound : σ → Prop} {instructions : List ι}
    (finishes : machine.Finishes sound instructions)
    (reached : machine.Reaches start unguarded config)
    (implied : ∀ later : Config σ ι, machine.Reaches start unguarded later →
      allowed later.state → sound later.state)
    (present : config.tasks[task]? = some (instructions ++ rest)) :
    machine.Returns allowed task rest config := by
  induction finishes generalizing config with
  | nil => exact .returned present
  | @cons instruction ahead certain returns continues ih =>
      refine .executing present ?_ fun later _ waits permitted bound _ =>
        absurd bound (certain later.state (implied later (reached.trans waits) permitted))
      intro later answer after waits permitted step
      have reachedLater := reached.trans waits
      have isSound := implied later reachedLater permitted
      obtain ⟨block, effect, remaining⟩ :=
        Machine.resumed_task (getElem?_of_meanwhile present waits) step
      apply ih answer later.state block isSound effect (.step reachedLater trivial step)
      rw [remaining, Machine.continuation, returns answer later.state block isSound effect]
      simp

namespace Machine.Returns

theorem tasks (returns : machine.Returns allowed task rest config) :
    ∃ ahead, config.tasks[task]? = some (ahead ++ rest) := by
  cases returns with
  | returned present => exact ⟨[], present⟩
  | executing present _ _ => exact ⟨_, present⟩

variable {instruction : ι} {answer : α} {block : Block σ ι}

/-- One block of a coroutine that is going to return. -/
theorem resume (returns : machine.Returns allowed task rest config) (ahead : List ι)
    (permitted : allowed config.state)
    (current : config.tasks[task]? = some (instruction :: ahead ++ rest))
    (free : config.mayRun task = true)
    (effect : machine.block instruction answer config.state = some block) :
    ∃ after, machine.Returns allowed task rest after ∧ after.state = block.state ∧
      after.tasks[task]? = some (machine.continuation instruction (ahead ++ rest) block) ∧
      after.mayRun task = true := by
  cases returns with
  | returned present =>
      have lengths := congrArg List.length (Option.some.inj (present.symm.trans current))
      simp at lengths
      omega
  | executing present continues _ =>
      obtain ⟨after, step, state, remaining, holds⟩ := Machine.exists_resumed current free effect
      exact ⟨after, continues config answer after .start permitted step, state, remaining, holds⟩

theorem advance (returns : machine.Returns allowed task rest config) (ahead : List ι)
    (permitted : allowed config.state)
    (current : config.tasks[task]? = some (instruction :: ahead ++ rest))
    (free : config.mayRun task = true)
    (effect : machine.block instruction answer config.state = some block)
    (goesOn : block.raises = false) :
    ∃ after, machine.Returns allowed task rest after ∧ after.state = block.state ∧
      after.tasks[task]? = some (block.next ++ ahead ++ rest) ∧ after.mayRun task = true := by
  obtain ⟨after, returnsAfter, state, remaining, holds⟩ :=
    returns.resume ahead permitted current free effect
  refine ⟨after, returnsAfter, state, ?_, holds⟩
  simp [remaining, Machine.continuation, goesOn]

/-- A coroutine that is going to return raises only what it catches itself. -/
theorem unwind (returns : machine.Returns allowed task rest config) (ahead : List ι)
    (permitted : allowed config.state)
    (current : config.tasks[task]? = some (instruction :: ahead ++ rest))
    (free : config.mayRun task = true)
    (effect : machine.block instruction answer config.state = some block)
    (raises : block.raises = true) :
    ∃ others, machine.unwind (instruction :: ahead ++ rest) = others ++ rest := by
  obtain ⟨after, returnsAfter, -, remaining, -⟩ :=
    returns.resume ahead permitted current free effect
  obtain ⟨others, same⟩ := returnsAfter.tasks
  rw [remaining, Machine.continuation, if_pos raises, Option.some.injEq] at same
  exact ⟨others, same⟩

/-- Nor does it await what is bound to fail, unless it catches that. -/
theorem unwind_of_onlyFails (returns : machine.Returns allowed task rest config)
    (ahead : List ι) (permitted : allowed config.state)
    (current : config.tasks[task]? = some (instruction :: ahead ++ rest))
    (free : config.mayRun task = true)
    (bound : machine.OnlyFails instruction config.state) :
    ∃ others, machine.unwind (instruction :: ahead ++ rest) = others ++ rest := by
  cases returns with
  | returned present =>
      have lengths := congrArg List.length (Option.some.inj (present.symm.trans current))
      simp at lengths
      omega
  | @executing _ first others present _ fails =>
      have same := Option.some.inj (present.symm.trans current)
      rw [List.cons_append, List.cons_append, List.cons.injEq] at same
      obtain ⟨rfl, -⟩ := same
      obtain ⟨inRange, -⟩ := List.getElem?_eq_some_iff.mp current
      have step : machine.step (.fail task) config = some
          { state := config.state
            tasks := config.tasks.set task (machine.unwind (first :: ahead ++ rest))
            running := machine.holder task (machine.unwind (first :: ahead ++ rest)) } := by
        rw [List.cons_append] at current
        simp [Machine.step, current, free, bound.1]
      obtain ⟨others, remains⟩ := (fails config _ .start permitted bound step).tasks
      rw [List.getElem?_set_self inRange, Option.some.injEq] at remains
      exact ⟨others, remains⟩

end Machine.Returns

end EventLoop

import Mathlib.Data.List.Basic
import Mathlib.Algebra.Order.BigOperators.Group.List
import Mathlib.Tactic.Linarith

/-!
# Cooperative event loops

A coroutine is represented by the list of instructions it still has to
execute.  Executing the head instruction is one block: it may put further
instructions in front of the rest of the coroutine, start new coroutines or
raise an exception.  The kind of an instruction says whether control may pass
to another coroutine before it and after it.  The environment answers what an
instruction awaits, and it may act on the shared state between two blocks.

Nothing in this file depends on the program being run.  The two rules used
by clients are the invariant rule for runs and the conservation law for the
total weight of the pending instructions.
-/

namespace EventLoop

structure Block (σ ι : Type*) where
  state : σ
  next : List ι := []
  spawned : List (List ι) := []
  raises : Bool := false

/-- Where control may pass to another coroutine. -/
inductive Kind where
  /-- code that runs right after what precedes it -/
  | local
  /-- the end of an await, followed at once by what comes next -/
  | resumption
  /-- a command another process executes some time before its answer arrives -/
  | remote
  deriving DecidableEq

/-- A program over shared states `σ`, instructions `ι`, answers `α` of the
environment and environment events `ε`.  A block is `none` when the answer is
not one the instruction can receive in the current state. -/
structure Machine (σ ι α ε : Type*) where
  block : ι → α → σ → Option (Block σ ι)
  kind : ι → Kind
  fallible : ι → σ → Bool
  unwind : List ι → List ι
  event : ε → σ → Option (σ × List (List ι))

/-- The shared state, the coroutines, and the coroutine holding control if one
does. -/
structure Config (σ ι : Type*) where
  state : σ
  tasks : List (List ι)
  running : Option Nat := none

/-- What happens next: a coroutine is resumed with an answer, the operation it
awaits fails, or the environment acts. -/
inductive Choice (α ε : Type*) where
  | resume (task : Nat) (answer : α)
  | fail (task : Nat)
  | event (event : ε)
  deriving DecidableEq

variable {σ ι α ε : Type*}

/-- The instruction a choice executes, if it resumes a coroutine. -/
def Config.executed (config : Config σ ι) : Choice α ε → Option ι
  | .resume task _ => (config.tasks[task]?).bind List.head?
  | _ => none

namespace Config

def pending (config : Config σ ι) : List ι := config.tasks.flatten

def mayRun (config : Config σ ι) (task : Nat) : Bool :=
  config.running.all fun holder => holder == task

end Config

/-- What is left of a coroutine after a block of its head instruction. -/
def Machine.continuation (machine : Machine σ ι α ε) (instruction : ι) (rest : List ι)
    (block : Block σ ι) : List ι :=
  if block.raises then machine.unwind (instruction :: rest) else block.next ++ rest

/-- Who holds control when a coroutine has these instructions left. -/
def Machine.holder (machine : Machine σ ι α ε) (task : Nat) (remaining : List ι) : Option Nat :=
  match remaining with
  | [] => none
  | next :: _ => if machine.kind next = .local then some task else none

/-- One step of the event loop, `none` when the choice is not possible. -/
def Machine.step (machine : Machine σ ι α ε) :
    Choice α ε → Config σ ι → Option (Config σ ι)
  | .resume task answer, config =>
      match config.tasks[task]? with
      | some (instruction :: rest) =>
          if config.mayRun task then
            (machine.block instruction answer config.state).map fun block =>
              let remaining := machine.continuation instruction rest block
              { state := block.state
                tasks := config.tasks.set task remaining ++ block.spawned
                running :=
                  if machine.kind instruction = .remote then none
                  else machine.holder task remaining }
          else none
      | _ => none
  | .fail task, config =>
      match config.tasks[task]? with
      | some (instruction :: rest) =>
          if config.mayRun task && machine.fallible instruction config.state then
            let remaining := machine.unwind (instruction :: rest)
            some
              { state := config.state
                tasks := config.tasks.set task remaining
                running := machine.holder task remaining }
          else none
      | _ => none
  | .event event, config =>
      (machine.event event config.state).map fun result =>
        { state := result.1
          tasks := config.tasks ++ result.2
          running := config.running }

/-- Execute a schedule, `none` when one of its choices is not possible. -/
def Machine.run (machine : Machine σ ι α ε) :
    List (Choice α ε) → Config σ ι → Option (Config σ ι)
  | [], config => some config
  | choice :: choices, config => (machine.step choice config).bind (machine.run choices)

inductive Machine.Step (machine : Machine σ ι α ε) (before : Config σ ι) :
    Choice α ε → Config σ ι → Prop where
  | resumed {task : Nat} {answer : α} {instruction : ι} {rest : List ι}
      {block : Block σ ι} {running : Option Nat}
      (current : before.tasks[task]? = some (instruction :: rest))
      (effect : machine.block instruction answer before.state = some block) :
      machine.Step before (.resume task answer)
        ⟨block.state, before.tasks.set task
          (machine.continuation instruction rest block) ++ block.spawned, running⟩
  | failed {task : Nat} {instruction : ι} {rest : List ι} {running : Option Nat}
      (current : before.tasks[task]? = some (instruction :: rest))
      (fallible : machine.fallible instruction before.state = true) :
      machine.Step before (.fail task)
        ⟨before.state, before.tasks.set task (machine.unwind (instruction :: rest)), running⟩
  | happened {event : ε} {state : σ} {spawned : List (List ι)}
      (effect : machine.event event before.state = some (state, spawned)) :
      machine.Step before (.event event)
        ⟨state, before.tasks ++ spawned, before.running⟩

theorem Machine.step_cases {machine : Machine σ ι α ε} {choice : Choice α ε}
    {before after : Config σ ι} (step : machine.step choice before = some after) :
    machine.Step before choice after := by
  cases choice with
  | resume task answer =>
      simp only [Machine.step] at step
      split at step
      · rename_i instruction rest current
        split at step
        · obtain ⟨block, effect, rfl⟩ := Option.map_eq_some_iff.mp step
          exact .resumed current effect
        · cases step
      · cases step
  | fail task =>
      simp only [Machine.step] at step
      split at step
      · rename_i instruction rest current
        split at step
        · rename_i allowed
          cases step
          exact .failed current (Bool.and_eq_true_iff.mp allowed).2
        · cases step
      · cases step
  | event event =>
      simp only [Machine.step] at step
      obtain ⟨⟨state, spawned⟩, effect, rfl⟩ := Option.map_eq_some_iff.mp step
      exact .happened effect

/-- What one machine does, another one does as well. -/
structure Machine.Follows (machine other : Machine σ ι α ε) : Prop where
  block : ∀ {instruction answer state block},
    machine.block instruction answer state = some block →
      other.block instruction answer state = some block
  fallible : ∀ {instruction state}, machine.fallible instruction state = true →
    other.fallible instruction state = true
  kind : machine.kind = other.kind
  unwind : machine.unwind = other.unwind
  event : machine.event = other.event

theorem Machine.Follows.step {machine other : Machine σ ι α ε} (follows : machine.Follows other)
    {choice : Choice α ε} {before after : Config σ ι}
    (step : machine.step choice before = some after) : other.step choice before = some after := by
  have holds : machine.holder = other.holder := by
    unfold Machine.holder
    rw [follows.kind]
  have continues : machine.continuation = other.continuation := by
    unfold Machine.continuation
    rw [follows.unwind]
  cases choice with
  | resume task answer =>
      simp only [Machine.step] at step ⊢
      split at step
      · split at step
        · rename_i free
          obtain ⟨block, effect, rfl⟩ := Option.map_eq_some_iff.mp step
          simp only [free, if_true, follows.block effect, Option.map_some,
            ← continues, ← holds, ← follows.kind]
        · cases step
      · cases step
  | fail task =>
      simp only [Machine.step] at step ⊢
      split at step
      · split at step
        · rename_i allowed
          cases step
          obtain ⟨free, fallible⟩ := Bool.and_eq_true_iff.mp allowed
          simp [free, follows.fallible fallible, ← holds, ← follows.unwind]
        · cases step
      · cases step
  | event event =>
      simp only [Machine.step] at step ⊢
      rwa [← follows.event]

theorem Machine.Follows.run {machine other : Machine σ ι α ε} (follows : machine.Follows other)
    {choices : List (Choice α ε)} {config last : Config σ ι}
    (executed : machine.run choices config = some last) :
    other.run choices config = some last := by
  induction choices generalizing config with
  | nil => exact executed
  | cons choice choices ih =>
      obtain ⟨next, step, rest⟩ := Option.bind_eq_some_iff.mp executed
      exact Option.bind_eq_some_iff.mpr ⟨next, follows.step step, ih rest⟩

theorem Config.executed_of_current {config : Config σ ι} {task : Nat} {answer : α}
    {instruction : ι} {rest : List ι}
    (current : config.tasks[task]? = some (instruction :: rest)) :
    config.executed (.resume task answer : Choice α ε) = some instruction := by
  simp [Config.executed, current]

theorem Config.eq_of_executed {config : Config σ ι} {task : Nat} {answer : α}
    {instruction other : ι} {rest : List ι}
    (current : config.tasks[task]? = some (instruction :: rest))
    (executed : config.executed (.resume task answer : Choice α ε) = some other) :
    instruction = other :=
  Option.some.inj ((Config.executed_of_current current).symm.trans executed)

theorem Config.mem_pending_of_executed {config : Config σ ι} {choice : Choice α ε}
    {instruction : ι} (executed : config.executed choice = some instruction) :
    instruction ∈ config.pending := by
  cases choice with
  | resume task answer =>
      obtain ⟨current, present, head⟩ := Option.bind_eq_some_iff.mp executed
      exact List.mem_flatten.mpr
        ⟨current, List.mem_of_getElem? present, List.mem_of_head? head⟩
  | fail task => cases executed
  | event event => cases executed

theorem Config.mem_tasks_of_executed {config : Config σ ι} {choice : Choice α ε}
    {instruction : ι} (executed : config.executed choice = some instruction) :
    ∃ rest, instruction :: rest ∈ config.tasks := by
  cases choice with
  | resume task answer =>
      obtain ⟨current, present, head⟩ := Option.bind_eq_some_iff.mp executed
      obtain ⟨rest, rfl⟩ := List.head?_eq_some_iff.mp head
      exact ⟨rest, List.mem_of_getElem? present⟩
  | fail task => cases executed
  | event event => cases executed

theorem Machine.block_of_executed {machine : Machine σ ι α ε} {choice : Choice α ε}
    {before after : Config σ ι} (step : machine.step choice before = some after)
    {instruction : ι} (executed : before.executed choice = some instruction) :
    ∃ answer block, machine.block instruction answer before.state = some block ∧
      after.state = block.state := by
  cases Machine.step_cases step with
  | @resumed task answer head rest block running current effect =>
      cases Config.eq_of_executed current executed
      exact ⟨answer, block, effect, rfl⟩
  | failed current fallible => cases executed
  | happened effect => cases executed

theorem Machine.tasks_of_executed {machine : Machine σ ι α ε} {choice : Choice α ε}
    {before after : Config σ ι} (step : machine.step choice before = some after)
    {instruction : ι} (executed : before.executed choice = some instruction) :
    ∃ answer rest block, machine.block instruction answer before.state = some block ∧
      after.state = block.state ∧
      machine.continuation instruction rest block ∈ after.tasks ∧
      ∀ task ∈ block.spawned, task ∈ after.tasks := by
  cases Machine.step_cases step with
  | @resumed task answer head rest block running current effect =>
      cases Config.eq_of_executed current executed
      obtain ⟨bound, -⟩ := List.getElem?_eq_some_iff.mp current
      exact ⟨answer, rest, block, effect, rfl,
        List.mem_append_left _ (List.mem_set bound _),
        fun task member => List.mem_append_right _ member⟩
  | failed current fallible => cases executed
  | happened effect => cases executed

/-- The configurations a run has passed through, most recent first, when every
step was taken under the given guard. -/
inductive Machine.History (machine : Machine σ ι α ε) (start : Config σ ι)
    (guard : Choice α ε → Config σ ι → Prop) : List (Config σ ι) → Prop where
  | start : machine.History start guard [start]
  | step {choice : Choice α ε} {before after : Config σ ι} {earlier : List (Config σ ι)} :
      machine.History start guard (before :: earlier) →
      guard choice before →
      machine.step choice before = some after →
      machine.History start guard (after :: before :: earlier)

/-- The configurations reached by runs whose every step meets the guard. -/
inductive Machine.Reaches (machine : Machine σ ι α ε) (start : Config σ ι)
    (guard : Choice α ε → Config σ ι → Prop) : Config σ ι → Prop where
  | start : machine.Reaches start guard start
  | step {choice : Choice α ε} {before after : Config σ ι} :
      machine.Reaches start guard before →
      guard choice before →
      machine.step choice before = some after →
      machine.Reaches start guard after

def unguarded : Choice α ε → Config σ ι → Prop := fun _ _ => True

namespace Machine

variable {machine : Machine σ ι α ε} {start : Config σ ι}
  {guard : Choice α ε → Config σ ι → Prop}

/-- The invariant rule: what holds at the start and is preserved by every
guarded step holds in every configuration reached. -/
theorem Reaches.invariant {invariant : Config σ ι → Prop} (initial : invariant start)
    (preserved : ∀ choice before after, guard choice before → invariant before →
      machine.step choice before = some after → invariant after)
    {config : Config σ ι} (reached : machine.Reaches start guard config) :
    invariant config := by
  induction reached with
  | start => exact initial
  | step _ allowed stepTo ih => exact preserved _ _ _ allowed ih stepTo

theorem Reaches.weaken {weaker : Choice α ε → Config σ ι → Prop}
    (implied : ∀ choice config, guard choice config → weaker choice config)
    {config : Config σ ι} (reached : machine.Reaches start guard config) :
    machine.Reaches start weaker config := by
  induction reached with
  | start => exact .start
  | step _ allowed stepTo ih => exact .step ih (implied _ _ allowed) stepTo

/-- The invariant rule for properties of the whole history. -/
theorem History.invariant {invariant : List (Config σ ι) → Prop}
    (initial : invariant [start])
    (preserved : ∀ choice before after earlier, guard choice before →
      machine.History start guard (before :: earlier) → invariant (before :: earlier) →
      machine.step choice before = some after → invariant (after :: before :: earlier))
    {history : List (Config σ ι)} (past : machine.History start guard history) :
    invariant history := by
  induction past with
  | start => exact initial
  | step past allowed stepTo ih => exact preserved _ _ _ _ allowed past ih stepTo

theorem History.reaches {config : Config σ ι} {earlier : List (Config σ ι)}
    (past : machine.History start guard (config :: earlier)) :
    machine.Reaches start guard config := by
  generalize same : config :: earlier = history at past
  induction past generalizing config earlier with
  | start =>
      cases same
      exact .start
  | step past allowed stepTo ih =>
      cases same
      exact .step (ih rfl) allowed stepTo

theorem History.weaken {weaker : Choice α ε → Config σ ι → Prop}
    (implied : ∀ choice config, guard choice config → weaker choice config)
    {history : List (Config σ ι)} (past : machine.History start guard history) :
    machine.History start weaker history := by
  induction past with
  | start => exact .start
  | step _ allowed stepTo ih => exact .step ih (implied _ _ allowed) stepTo

theorem Reaches.exists_history {config : Config σ ι}
    (reached : machine.Reaches start guard config) :
    ∃ earlier, machine.History start guard (config :: earlier) := by
  induction reached with
  | start => exact ⟨[], .start⟩
  | step _ allowed stepTo ih =>
      obtain ⟨earlier, past⟩ := ih
      exact ⟨_, .step past allowed stepTo⟩

def trace (machine : Machine σ ι α ε) :
    List (Choice α ε) → Config σ ι → List (Config σ ι) → Option (List (Config σ ι))
  | [], config, earlier => some (config :: earlier)
  | choice :: choices, config, earlier =>
      (machine.step choice config).bind fun next =>
        machine.trace choices next (config :: earlier)

theorem history_of_trace {choices : List (Choice α ε)} {config : Config σ ι}
    {earlier history : List (Config σ ι)}
    (past : machine.History start unguarded (config :: earlier))
    (executed : machine.trace choices config earlier = some history) :
    machine.History start unguarded history := by
  induction choices generalizing config earlier with
  | nil => cases executed; exact past
  | cons choice choices ih =>
      obtain ⟨next, first, others⟩ := Option.bind_eq_some_iff.mp executed
      exact ih (.step past trivial first) others

theorem reaches_of_run_guarded {choices : List (Choice α ε)} {before after : Config σ ι}
    (reached : machine.Reaches start guard before)
    (allowed : ∀ choice ∈ choices, ∀ config, guard choice config)
    (executed : machine.run choices before = some after) :
    machine.Reaches start guard after := by
  induction choices generalizing before with
  | nil => cases executed; exact reached
  | cons choice choices ih =>
      obtain ⟨middle, first, others⟩ := Option.bind_eq_some_iff.mp executed
      exact ih (.step reached (allowed choice List.mem_cons_self before) first)
        (fun choice member => allowed choice (List.mem_cons_of_mem _ member)) others

theorem reaches_of_run {choices : List (Choice α ε)} {before after : Config σ ι}
    (reached : machine.Reaches start unguarded before)
    (executed : machine.run choices before = some after) :
    machine.Reaches start unguarded after :=
  reaches_of_run_guarded reached (fun _ _ _ => trivial) executed

/-- Execute a schedule as long as a test accepts the choices. -/
def runChecked (machine : Machine σ ι α ε) (check : Choice α ε → Config σ ι → Bool) :
    List (Choice α ε) → Config σ ι → Option (Config σ ι)
  | [], config => some config
  | choice :: choices, config =>
      if check choice config then
        (machine.step choice config).bind (machine.runChecked check choices)
      else none

theorem reaches_of_runChecked {check : Choice α ε → Config σ ι → Bool}
    (sound : ∀ choice config, check choice config = true → guard choice config)
    {choices : List (Choice α ε)} {before after : Config σ ι}
    (reached : machine.Reaches start guard before)
    (executed : machine.runChecked check choices before = some after) :
    machine.Reaches start guard after := by
  induction choices generalizing before with
  | nil => cases executed; exact reached
  | cons choice choices ih =>
      rw [runChecked] at executed
      split at executed
      · rename_i accepted
        obtain ⟨middle, first, others⟩ := Option.bind_eq_some_iff.mp executed
        exact ih (.step reached (sound choice before accepted) first) others
      · cases executed

end Machine

def weigh (weight : ι → Nat) (tasks : List (List ι)) : Nat :=
  (tasks.flatten.map weight).sum

@[simp]
theorem weigh_nil (weight : ι → Nat) : weigh weight [] = 0 := rfl

@[simp]
theorem weigh_cons (weight : ι → Nat) (task : List ι) (tasks : List (List ι)) :
    weigh weight (task :: tasks) = (task.map weight).sum + weigh weight tasks := by
  simp [weigh]

@[simp]
theorem weigh_append (weight : ι → Nat) (first second : List (List ι)) :
    weigh weight (first ++ second) = weigh weight first + weigh weight second := by
  simp [weigh]

theorem weigh_set (weight : ι → Nat) {tasks : List (List ι)} {task : Nat}
    {current : List ι} (present : tasks[task]? = some current) (remaining : List ι) :
    weigh weight (tasks.set task remaining) + (current.map weight).sum =
      weigh weight tasks + (remaining.map weight).sum := by
  induction tasks generalizing task with
  | nil => simp at present
  | cons first others ih =>
      cases task with
      | zero =>
          cases present
          simp only [List.set_cons_zero, weigh_cons]
          omega
      | succ task =>
          have tail := ih (by simpa using present)
          simp only [List.set_cons_succ, weigh_cons]
          omega

theorem weigh_eq_zero_iff (weight : ι → Nat) (tasks : List (List ι)) :
    weigh weight tasks = 0 ↔ ∀ instruction ∈ tasks.flatten, weight instruction = 0 := by
  simp only [weigh, List.sum_eq_zero_iff, List.forall_mem_map]

theorem weight_le_weigh (weight : ι → Nat) {tasks : List (List ι)} {instruction : ι}
    (pending : instruction ∈ tasks.flatten) :
    weight instruction ≤ weigh weight tasks :=
  List.single_le_sum (by simp) _ (List.mem_map_of_mem pending)

theorem sum_map_eq_zero {weight : ι → Nat} {instructions : List ι}
    (weightless : ∀ instruction ∈ instructions, weight instruction = 0) :
    (instructions.map weight).sum = 0 :=
  List.sum_eq_zero_iff.mpr (List.forall_mem_map.mpr weightless)

theorem weigh_eq_zero {weight : ι → Nat} {tasks : List (List ι)}
    (weightless : ∀ instruction ∈ tasks.flatten, weight instruction = 0) :
    weigh weight tasks = 0 :=
  sum_map_eq_zero weightless

/-- The weight a block puts in place of its instruction, an exception putting
nothing in place of anything. -/
def Block.carried (weight : ι → Nat) (instruction : ι) (block : Block σ ι) : Nat :=
  (if block.raises then weight instruction else (block.next.map weight).sum) +
    weigh weight block.spawned

theorem Block.carried_le {weight : ι → Nat} {instruction : ι} {block : Block σ ι}
    (weightless : ∀ next, next ∈ block.next ∨ next ∈ block.spawned.flatten → weight next = 0) :
    block.carried weight instruction ≤ weight instruction := by
  have next : (block.next.map weight).sum = 0 :=
    sum_map_eq_zero fun instruction member => weightless instruction (.inl member)
  have spawned : weigh weight block.spawned = 0 :=
    weigh_eq_zero fun instruction member => weightless instruction (.inr member)
  unfold Block.carried
  rw [next, spawned]
  split <;> omega

theorem Block.carried_eq_zero {weight : ι → Nat} {instruction : ι} {block : Block σ ι}
    (weightless : ∀ next, next ∈ block.next ∨ next ∈ block.spawned.flatten → weight next = 0)
    (returns : block.raises = false) : block.carried weight instruction = 0 := by
  unfold Block.carried
  rw [sum_map_eq_zero fun instruction member => weightless instruction (.inl member),
    weigh_eq_zero fun instruction member => weightless instruction (.inr member), returns]
  rfl

variable {machine : Machine σ ι α ε}

def Machine.UnwindsWithin (machine : Machine σ ι α ε) (weight : ι → Nat) : Prop :=
  ∀ task, ((machine.unwind task).map weight).sum ≤ (task.map weight).sum

theorem weight_continuation_le {weight : ι → Nat} (unwinds : machine.UnwindsWithin weight)
    (instruction : ι) (rest : List ι) (block : Block σ ι) :
    ((machine.continuation instruction rest block).map weight).sum ≤
      (if block.raises then weight instruction else (block.next.map weight).sum) +
        (rest.map weight).sum := by
  unfold Machine.continuation
  split
  · simpa using unwinds (instruction :: rest)
  · simp

/-- How a step changes the total weight, whatever is weighed. -/
inductive Machine.Weighed (machine : Machine σ ι α ε) (before after : Config σ ι) :
    Choice α ε → Prop where
  | executed {choice : Choice α ε} {instruction : ι} {answer : α} {block : Block σ ι}
      (executed : before.executed choice = some instruction)
      (effect : machine.block instruction answer before.state = some block)
      (state : after.state = block.state)
      (weighed : ∀ {weight : ι → Nat}, machine.UnwindsWithin weight →
        weigh weight after.tasks + weight instruction ≤
          weigh weight before.tasks + block.carried weight instruction) :
      machine.Weighed before after choice
  | failed (task : Nat) (state : after.state = before.state)
      (weighed : ∀ {weight : ι → Nat}, machine.UnwindsWithin weight →
        weigh weight after.tasks ≤ weigh weight before.tasks) :
      machine.Weighed before after (.fail task)
  | happened {event : ε} {spawned : List (List ι)}
      (effect : machine.event event before.state = some (after.state, spawned))
      (weighed : ∀ weight : ι → Nat,
        weigh weight after.tasks = weigh weight before.tasks + weigh weight spawned) :
      machine.Weighed before after (.event event)

theorem Machine.weighed_step {choice : Choice α ε} {before after : Config σ ι}
    (step : machine.step choice before = some after) :
    machine.Weighed before after choice := by
  cases Machine.step_cases step with
  | @resumed task answer instruction rest block running current effect =>
      refine .executed (Config.executed_of_current current) effect rfl ?_
      intro weight unwinds
      have exchanged := weigh_set weight current (machine.continuation instruction rest block)
      have carried := weight_continuation_le unwinds instruction rest block
      simp only [List.map_cons, List.sum_cons, weigh_append, Block.carried] at *
      omega
  | @failed task instruction rest running current fallible =>
      refine .failed task rfl ?_
      intro weight unwinds
      have exchanged := weigh_set weight current (machine.unwind (instruction :: rest))
      have lost := unwinds (instruction :: rest)
      dsimp only
      omega
  | happened effect => exact .happened effect fun weight => weigh_append weight _ _

theorem mem_flatten_set {tasks : List (List ι)} {task : Nat} {remaining : List ι}
    {instruction : ι} (member : instruction ∈ (tasks.set task remaining).flatten) :
    instruction ∈ remaining ∨ instruction ∈ tasks.flatten := by
  obtain ⟨list, listMem, member⟩ := List.mem_flatten.mp member
  rcases List.mem_or_eq_of_mem_set listMem with old | new
  · exact .inr (List.mem_flatten.mpr ⟨list, old, member⟩)
  · exact .inl (new ▸ member)

theorem mem_flatten_of_getElem? {tasks : List (List ι)} {task : Nat} {current : List ι}
    (present : tasks[task]? = some current) {instruction : ι}
    (member : instruction ∈ current) : instruction ∈ tasks.flatten :=
  List.mem_flatten.mpr ⟨current, List.mem_of_getElem? present, member⟩

/-- A pending instruction was pending before, or it was left by the block the step
executed, by an exception or by an event. -/
theorem Machine.left_of_step {choice : Choice α ε} {before after : Config σ ι}
    (step : machine.step choice before = some after) {next : ι}
    (member : next ∈ after.pending) :
    next ∈ before.pending ∨
      (∃ instruction answer block, before.executed choice = some instruction ∧
        machine.block instruction answer before.state = some block ∧
        after.state = block.state ∧ (next ∈ block.next ∨ next ∈ block.spawned.flatten)) ∨
      (∃ task ∈ before.tasks, next ∈ machine.unwind task) ∨
      ∃ event state spawned, choice = .event event ∧
        machine.event event before.state = some (state, spawned) ∧
        next ∈ spawned.flatten := by
  cases Machine.step_cases step with
  | @resumed task answer instruction rest block running current effect =>
      have executed : before.executed (.resume task answer : Choice α ε) = some instruction :=
        Config.executed_of_current current
      simp only [Config.pending, List.flatten_append, List.mem_append] at member
      rcases member with member | spawned
      · rcases mem_flatten_set member with continued | old
        · unfold Machine.continuation at continued
          split at continued
          · exact .inr (.inr (.inl ⟨_, List.mem_of_getElem? current, continued⟩))
          · rcases List.mem_append.mp continued with yielded | later
            · exact .inr (.inl ⟨_, _, _, executed, effect, rfl, .inl yielded⟩)
            · exact .inl (mem_flatten_of_getElem? current (List.mem_cons_of_mem _ later))
        · exact .inl old
      · exact .inr (.inl ⟨_, _, _, executed, effect, rfl, .inr spawned⟩)
  | failed current fallible =>
      rcases mem_flatten_set member with continued | old
      · exact .inr (.inr (.inl ⟨_, List.mem_of_getElem? current, continued⟩))
      · exact .inl old
  | happened effect =>
      simp only [Config.pending, List.flatten_append, List.mem_append] at member
      rcases member with old | started
      · exact .inl old
      · exact .inr (.inr (.inr ⟨_, _, _, rfl, effect, started⟩))

/-- Where a pending instruction comes from. -/
inductive Machine.Source (machine : Machine σ ι α ε) (before : Config σ ι) (next : ι) :
    Choice α ε → Prop where
  | pending (choice : Choice α ε) (member : next ∈ before.pending) :
      machine.Source before next choice
  | yielded {choice : Choice α ε} {instruction : ι} {answer : α} {block : Block σ ι}
      (executed : before.executed choice = some instruction)
      (effect : machine.block instruction answer before.state = some block)
      (member : next ∈ block.next ∨ next ∈ block.spawned.flatten) :
      machine.Source before next choice
  | unwound (choice : Choice α ε) {task : List ι} (present : task ∈ before.tasks)
      (member : next ∈ machine.unwind task) : machine.Source before next choice
  | started {event : ε} {state : σ} {spawned : List (List ι)}
      (effect : machine.event event before.state = some (state, spawned))
      (member : next ∈ spawned.flatten) : machine.Source before next (.event event)

theorem Machine.source_of_step {choice : Choice α ε} {before after : Config σ ι}
    (step : machine.step choice before = some after) {next : ι}
    (member : next ∈ after.pending) : machine.Source before next choice := by
  rcases Machine.left_of_step step member with
    old | ⟨_, _, _, executed, effect, -, left⟩ | ⟨task, present, unwound⟩ |
      ⟨event, _, _, rfl, effect, started⟩
  · exact .pending _ old
  · exact .yielded executed effect left
  · exact .unwound _ present unwound
  · exact .started effect started

end EventLoop

import TerritoryBackend.EventLoop

/-!
# The course of coroutines

Rules about where in their coroutines the pending instructions stand: what is
bound to be executed, what is executed as soon as it is put in place, and what
is executed before something else.  A run may be logged, each step adding what
is observed of it.

Nothing in this file depends on the program being run.
-/

namespace EventLoop

variable {σ ι α ε ω : Type*} {machine : Machine σ ι α ε}

/-- The plan is what a coroutine goes on with once it has executed instructions
that keep it on its course. -/
def Planned (steady : ι → Prop) (position : Nat) (plan : List ι) (tasks : List (List ι)) : Prop :=
  ∃ earlier, tasks[position]? = some (earlier ++ plan) ∧ ∀ passed ∈ earlier, steady passed

theorem Planned.of_getElem? {steady : ι → Prop} {position : Nat} {plan : List ι}
    {tasks : List (List ι)} (present : tasks[position]? = some plan) :
    Planned steady position plan tasks :=
  ⟨[], present, by simp⟩

theorem Planned.mem_pending {steady : ι → Prop} {position : Nat} {plan : List ι}
    {config : Config σ ι} (planned : Planned steady position plan config.tasks) {instruction : ι}
    (member : instruction ∈ plan) : instruction ∈ config.pending := by
  obtain ⟨earlier, present, -⟩ := planned
  exact mem_flatten_of_getElem? present (List.mem_append_right _ member)

/-- Instructions that return and lead to such instructions only. -/
def Machine.KeepsCourse (machine : Machine σ ι α ε) (steady : ι → Prop) : Prop :=
  ∀ instruction answer state block, steady instruction →
    machine.block instruction answer state = some block →
    block.raises = false ∧ ∀ next ∈ block.next, steady next

/-- Instructions that do so in one state. -/
def Machine.KeepsCourseAt (machine : Machine σ ι α ε) (steady : ι → Prop) (state : σ) : Prop :=
  ∀ instruction answer block, steady instruction →
    machine.block instruction answer state = some block →
    block.raises = false ∧ ∀ next ∈ block.next, steady next

theorem Machine.KeepsCourse.at {steady : ι → Prop} (keeps : machine.KeepsCourse steady)
    (state : σ) : machine.KeepsCourseAt steady state :=
  fun instruction answer block => keeps instruction answer state block

/-- A step leaves the plan of a coroutine as it is, executes its first
instruction or makes the coroutine fail. -/
inductive Machine.Course (machine : Machine σ ι α ε) (steady : ι → Prop) (position : Nat)
    (instruction : ι) (rest : List ι) (before after : Config σ ι) : Choice α ε → Prop where
  | ahead (choice : Choice α ε)
      (planned : Planned steady position (instruction :: rest) after.tasks)
      (passed : ∀ executed, before.executed choice = some executed →
        steady executed ∨ ∃ other others, other ≠ position ∧
          before.tasks[other]? = some (executed :: others)) :
      machine.Course steady position instruction rest before after choice
  | reached {answer : α} {block : Block σ ι}
      (executed : before.tasks[position]? = some (instruction :: rest))
      (effect : machine.block instruction answer before.state = some block)
      (state : after.state = block.state)
      (remaining : after.tasks[position]? = some (machine.continuation instruction rest block))
      (others : ∀ other list, other ≠ position → after.tasks[other]? = some list →
        before.tasks[other]? = some list ∨ list ∈ block.spawned)
      (spawned : ∀ task ∈ block.spawned, task ∈ after.tasks) :
      machine.Course steady position instruction rest before after (.resume position answer)
  | failed {head : ι} {earlier tail : List ι}
      (current : before.tasks[position]? = some (head :: tail))
      (planned : head :: tail = earlier ++ instruction :: rest)
      (passed : ∀ passed ∈ earlier, steady passed)
      (fallible : machine.fallible head before.state = true)
      (state : after.state = before.state)
      (remaining : after.tasks[position]? = some (machine.unwind (head :: tail)))
      (others : ∀ other list, other ≠ position → after.tasks[other]? = some list →
        before.tasks[other]? = some list) :
      machine.Course steady position instruction rest before after (.fail position)

/-- The first instruction of a coroutine is one that keeps it on its course, or
the first of its plan. -/
theorem head_cases {steady : ι → Prop} {head instruction : ι} {earlier rest tail : List ι}
    (planned : head :: tail = earlier ++ instruction :: rest)
    (passed : ∀ passed ∈ earlier, steady passed) : steady head ∨ head = instruction := by
  cases earlier with
  | nil => exact .inr (List.cons.inj planned).1
  | cons first others =>
      exact .inl ((List.cons.inj planned).1 ▸ passed first List.mem_cons_self)

theorem getElem?_set_append {tasks spawned : List (List ι)} {position other : Nat}
    {remaining list : List ι} (different : other ≠ position)
    (found : (tasks.set position remaining ++ spawned)[other]? = some list) :
    tasks[other]? = some list ∨ list ∈ spawned := by
  rw [List.getElem?_append] at found
  split at found
  · rw [List.getElem?_set_ne (Ne.symm different)] at found
    exact .inl found
  · exact .inr (List.mem_of_getElem? found)

theorem mem_flatten_cases {tasks former spawned : List (List ι)} {position : Nat}
    {remaining : List ι} (here : tasks[position]? = some remaining)
    (others : ∀ other list, other ≠ position → tasks[other]? = some list →
      former[other]? = some list ∨ list ∈ spawned) {next : ι} (member : next ∈ tasks.flatten) :
    next ∈ remaining ∨ next ∈ former.flatten ∨ next ∈ spawned.flatten := by
  obtain ⟨list, listMem, member⟩ := List.mem_flatten.mp member
  obtain ⟨index, present⟩ := List.getElem?_of_mem listMem
  by_cases same : index = position
  · subst same
    cases here.symm.trans present
    exact .inl member
  · rcases others index list same present with old | new
    · exact .inr (.inl (mem_flatten_of_getElem? old member))
    · exact .inr (.inr (List.mem_flatten.mpr ⟨list, new, member⟩))

theorem Planned.step {steady : ι → Prop} {position : Nat} {instruction : ι} {rest : List ι}
    {choice : Choice α ε} {before after : Config σ ι}
    (keeps : machine.KeepsCourseAt steady before.state)
    (planned : Planned steady position (instruction :: rest) before.tasks)
    (step : machine.step choice before = some after) :
    machine.Course steady position instruction rest before after choice := by
  obtain ⟨earlier, present, passed⟩ := planned
  obtain ⟨bound, -⟩ := List.getElem?_eq_some_iff.mp present
  cases Machine.step_cases step with
  | @resumed task answer head tail block running current effect =>
      have executed : before.executed (.resume task answer : Choice α ε) = some head :=
        Config.executed_of_current current
      by_cases same : task = position
      · subst same
        rw [present] at current
        have remaining : (before.tasks.set task (machine.continuation head tail block) ++
            block.spawned)[task]? = some (machine.continuation head tail block) := by
          rw [List.getElem?_append_left (by simpa using bound), List.getElem?_set_self bound]
        cases earlier with
        | nil =>
            cases current
            exact .reached present effect rfl remaining
              (fun other list different found => getElem?_set_append different found)
              fun list member => List.mem_append_right _ member
        | cons first others =>
            cases current
            obtain ⟨returns, leads⟩ := keeps _ _ _ (passed _ List.mem_cons_self) effect
            refine .ahead _ ⟨block.next ++ others, ?_, ?_⟩ ?_
            · simpa [Machine.continuation, returns] using remaining
            · intro next member
              rcases List.mem_append.mp member with new | old
              · exact leads next new
              · exact passed next (List.mem_cons_of_mem _ old)
            · intro other found
              cases executed.symm.trans found
              exact .inl (passed _ List.mem_cons_self)
      · refine .ahead _ ⟨earlier, ?_, passed⟩ ?_
        · rw [List.getElem?_append_left (by simpa using bound),
            List.getElem?_set_ne same, present]
        · intro other found
          cases executed.symm.trans found
          exact .inr ⟨task, tail, same, current⟩
  | @failed task head tail running current fallible =>
      by_cases same : task = position
      · subst same
        refine .failed current (Option.some.inj (current.symm.trans present)) passed fallible rfl
          (List.getElem?_set_self bound) fun other list different found => ?_
        rwa [List.getElem?_set_ne (Ne.symm different)] at found
      · exact .ahead _ ⟨earlier, by rw [List.getElem?_set_ne same, present], passed⟩
          fun other found => by cases found
  | happened effect =>
      exact .ahead _ ⟨earlier, by rw [List.getElem?_append_left bound, present], passed⟩
        fun other found => by cases found

/-- Some coroutine executes a targeted instruction as soon as it has executed
instructions that keep it on its course. -/
def Due (steady target : ι → Prop) (tasks : List (List ι)) : Prop :=
  ∃ position instruction rest, Planned steady position (instruction :: rest) tasks ∧
    target instruction

theorem Due.of_mem {steady target : ι → Prop} {tasks : List (List ι)} {instruction : ι}
    {earlier rest : List ι} (member : earlier ++ instruction :: rest ∈ tasks)
    (passed : ∀ passed ∈ earlier, steady passed) (targeted : target instruction) :
    Due steady target tasks := by
  obtain ⟨position, present⟩ := List.getElem?_of_mem member
  exact ⟨position, instruction, rest, ⟨earlier, present, passed⟩, targeted⟩

theorem Due.of_head {steady target : ι → Prop} {tasks : List (List ι)} {instruction : ι}
    {rest : List ι} (member : instruction :: rest ∈ tasks) (targeted : target instruction) :
    Due steady target tasks := by
  have present : [] ++ instruction :: rest ∈ tasks := member
  exact .of_mem present (fun _ inEmpty => absurd inEmpty List.not_mem_nil) targeted

theorem Due.mono {steady target wider : ι → Prop} {tasks : List (List ι)}
    (implied : ∀ instruction, target instruction → wider instruction)
    (due : Due steady target tasks) : Due steady wider tasks := by
  obtain ⟨position, instruction, rest, planned, targeted⟩ := due
  exact ⟨position, instruction, rest, planned, implied instruction targeted⟩

/-- What is due stays due until it is executed or the coroutine fails. -/
theorem Due.step_cases {steady target : ι → Prop} {choice : Choice α ε}
    {before after : Config σ ι} (keeps : machine.KeepsCourseAt steady before.state)
    (due : Due steady target before.tasks) (step : machine.step choice before = some after) :
    Due steady target after.tasks ∨
      (∃ instruction, before.executed choice = some instruction ∧ target instruction) ∨
      ∃ position head tail, choice = .fail position ∧
        before.tasks[position]? = some (head :: tail) ∧
        machine.fallible head before.state = true ∧
        (steady head ∨ target head) ∧ ∃ instruction ∈ head :: tail, target instruction := by
  obtain ⟨position, instruction, rest, planned, targeted⟩ := due
  cases planned.step keeps step with
  | ahead choice planned passed => exact .inl ⟨position, instruction, rest, planned, targeted⟩
  | reached executed effect state remaining others spawned =>
      exact .inr (.inl ⟨instruction, Config.executed_of_current executed, targeted⟩)
  | @failed head earlier tail current planned passed fallible state remaining others =>
      refine .inr (.inr ⟨position, head, tail, rfl, current, fallible, ?_,
        instruction, by simp [planned], targeted⟩)
      rcases head_cases planned passed with isSteady | rfl
      · exact .inl isSteady
      · exact .inr targeted

/-- What is due in a coroutine that cannot fail before stays due until it is
executed. -/
theorem Due.step {steady target : ι → Prop} {choice : Choice α ε}
    {before after : Config σ ι} (keeps : machine.KeepsCourse steady)
    (reliable : ∀ instruction state, steady instruction ∨ target instruction →
      machine.fallible instruction state = false)
    (due : Due steady target before.tasks) (step : machine.step choice before = some after) :
    Due steady target after.tasks ∨
      ∃ instruction, before.executed choice = some instruction ∧ target instruction := by
  rcases due.step_cases (keeps.at before.state) step with
    stays | executed | ⟨position, head, tail, -, -, fallible, sound, -⟩
  · exact .inl stays
  · exact .inr executed
  · rw [reliable head before.state sound] at fallible
    cases fallible

/-- A coroutine is as before, has executed a block or an exception handler, or
has been started. -/
inductive Machine.TaskSource (machine : Machine σ ι α ε) (before after : Config σ ι)
    (task : List ι) : Choice α ε → Prop where
  | kept (choice : Choice α ε) (member : task ∈ before.tasks) :
      machine.TaskSource before after task choice
  | continued {position : Nat} {answer : α} {instruction : ι} {rest : List ι}
      {block : Block σ ι} (current : before.tasks[position]? = some (instruction :: rest))
      (effect : machine.block instruction answer before.state = some block)
      (state : after.state = block.state)
      (remaining : task = machine.continuation instruction rest block) :
      machine.TaskSource before after task (.resume position answer)
  | spawned {choice : Choice α ε} {answer : α} {instruction : ι} {block : Block σ ι}
      (executed : before.executed choice = some instruction)
      (effect : machine.block instruction answer before.state = some block)
      (member : task ∈ block.spawned) : machine.TaskSource before after task choice
  | unwound (choice : Choice α ε) {current : List ι} (member : current ∈ before.tasks)
      (remaining : task = machine.unwind current) : machine.TaskSource before after task choice
  | started {event : ε} {state : σ} {spawned : List (List ι)}
      (effect : machine.event event before.state = some (state, spawned))
      (member : task ∈ spawned) : machine.TaskSource before after task (.event event)

theorem Machine.taskSource_of_step {choice : Choice α ε} {before after : Config σ ι}
    (step : machine.step choice before = some after) {task : List ι}
    (member : task ∈ after.tasks) : machine.TaskSource before after task choice := by
  cases Machine.step_cases step with
  | @resumed position answer instruction rest block running current effect =>
      have executed : before.executed (.resume position answer : Choice α ε) =
          some instruction :=
        Config.executed_of_current current
      rcases List.mem_append.mp member with placed | new
      · rcases List.mem_or_eq_of_mem_set placed with old | remaining
        · exact .kept _ old
        · exact .continued current effect rfl remaining
      · exact .spawned executed effect new
  | failed current fallible =>
      rcases List.mem_or_eq_of_mem_set member with old | remaining
      · exact .kept _ old
      · exact .unwound _ (List.mem_of_getElem? current) remaining
  | happened effect =>
      rcases List.mem_append.mp member with old | new
      · exact .kept _ old
      · exact .started effect new

/-- The other coroutines execute allowed instructions only. -/
def Apart (position : Nat) (allowed : ι → Prop) (tasks : List (List ι)) : Prop :=
  ∀ (other : Nat) (list : List ι), tasks[other]? = some list → other ≠ position →
    ∀ instruction ∈ list, allowed instruction

theorem Apart.step {position : Nat} {allowed : ι → Prop} {choice : Choice α ε}
    {before after : Config σ ι} (apart : Apart position allowed before.tasks)
    (step : machine.step choice before = some after)
    (yields : ∀ instruction answer block, before.executed choice = some instruction →
      machine.block instruction answer before.state = some block →
      (allowed instruction → ∀ next ∈ block.next, allowed next) ∧
        ∀ next ∈ block.spawned.flatten, allowed next)
    (unwinds : ∀ task, (∀ instruction ∈ task, allowed instruction) →
      ∀ next ∈ machine.unwind task, allowed next)
    (starts : ∀ event state spawned, choice = .event event →
      machine.event event before.state = some (state, spawned) →
      ∀ next ∈ spawned.flatten, allowed next) : Apart position allowed after.tasks := by
  intro other list found elsewhere
  have fresh {spawned : List (List ι)} (member : list ∈ spawned)
      (started : ∀ next ∈ spawned.flatten, allowed next) : ∀ next ∈ list, allowed next :=
    fun next inList => started next (List.mem_flatten.mpr ⟨list, member, inList⟩)
  cases Machine.step_cases step with
  | @resumed task answer head tail block running current effect =>
      obtain ⟨leads, spawned⟩ :=
        yields head answer block (Config.executed_of_current current) effect
      by_cases same : other = task
      · subst same
        obtain ⟨bound, -⟩ := List.getElem?_eq_some_iff.mp current
        rw [List.getElem?_append_left (by simpa using bound), List.getElem?_set_self bound,
          Option.some.injEq] at found
        have here := apart other _ current elsewhere
        subst found
        unfold Machine.continuation
        split
        · exact unwinds _ here
        · intro next member
          rcases List.mem_append.mp member with new | old
          · exact leads (here head List.mem_cons_self) next new
          · exact here next (List.mem_cons_of_mem _ old)
      · rcases getElem?_set_append same found with old | new
        · exact apart other list old elsewhere
        · exact fresh new spawned
  | @failed task head tail running current fallible =>
      by_cases same : other = task
      · subst same
        obtain ⟨bound, -⟩ := List.getElem?_eq_some_iff.mp current
        rw [List.getElem?_set_self bound, Option.some.injEq] at found
        subst found
        exact unwinds _ (apart other _ current elsewhere)
      · rw [List.getElem?_set_ne (Ne.symm same)] at found
        exact apart other list found elsewhere
  | @happened event state spawned effect =>
      rw [List.getElem?_append] at found
      split at found
      · exact apart other list found elsewhere
      · exact fresh (List.mem_of_getElem? found) (starts event state spawned rfl effect)

/-- Instructions that run right after the block that puts them in front of a
coroutine, as long as only the instructions that may occur do. -/
structure Machine.Prompts (machine : Machine σ ι α ε) (may prompt : ι → Prop) : Prop where
  isLocal : ∀ instruction, prompt instruction → machine.kind instruction = .local
  first : ∀ instruction answer state block, may instruction →
    machine.block instruction answer state = some block → ∀ next ∈ block.next.tail, ¬ prompt next
  leads : ∀ instruction answer state block next, may instruction →
    machine.block instruction answer state = some block → next ∈ block.next → prompt next →
    machine.kind instruction ≠ .remote
  spawned : ∀ instruction answer state block, may instruction →
    machine.block instruction answer state = some block →
    ∀ next ∈ block.spawned.flatten, ¬ prompt next
  unwound : ∀ task, (∀ instruction ∈ task, may instruction) →
    ∀ next ∈ machine.unwind task, ¬ prompt next
  started : ∀ event state result, machine.event event state = some result →
    ∀ next ∈ result.2.flatten, ¬ prompt next

theorem Machine.Prompts.continuation {may prompt : ι → Prop}
    (prompts : machine.Prompts may prompt) {instruction : ι} {rest : List ι}
    (allowed : ∀ present ∈ instruction :: rest, may present)
    (waiting : ∀ next ∈ rest, ¬ prompt next) {answer : α} {state : σ} {block : Block σ ι}
    (effect : machine.block instruction answer state = some block) :
    (∀ next ∈ (machine.continuation instruction rest block).tail, ¬ prompt next) ∧
      ∀ next, (machine.continuation instruction rest block).head? = some next → prompt next →
        machine.kind instruction ≠ .remote ∧
          ∃ others, machine.continuation instruction rest block = next :: others := by
  have unwound := prompts.unwound (instruction :: rest) allowed
  have possible := allowed instruction List.mem_cons_self
  unfold Machine.continuation
  split
  · constructor
    · intro next member
      exact unwound next (List.mem_of_mem_tail member)
    · intro next head isPrompt
      exact absurd isPrompt (unwound next (List.mem_of_head? head))
  cases leads : block.next with
  | nil =>
      constructor
      · intro next member
        exact waiting next (List.mem_of_mem_tail member)
      · intro next head isPrompt
        exact absurd isPrompt (waiting next (List.mem_of_head? head))
  | cons lead others =>
      constructor
      · intro next member
        rcases List.mem_append.mp member with new | old
        · exact prompts.first _ _ _ _ possible effect next (by simpa [leads] using new)
        · exact waiting next old
      · intro next head isPrompt
        cases head
        exact ⟨prompts.leads _ _ _ _ _ possible effect (by simp [leads]) isPrompt, _, rfl⟩

/-- A prompt instruction is the head of the coroutine holding control. -/
def Held (prompt : ι → Prop) (config : Config σ ι) : Prop :=
  ∀ task current, config.tasks[task]? = some current →
    (∀ next ∈ current.tail, ¬ prompt next) ∧
      ∀ next, current.head? = some next → prompt next → config.running = some task

theorem Config.running_of_mayRun {config : Config σ ι} {task holder : Nat}
    (may : config.mayRun task = true) (running : config.running = some holder) :
    holder = task := by
  simpa [Config.mayRun, running] using may

/-- What is not in the coroutine that runs keeps its place. -/
theorem Held.elsewhere {prompt : ι → Prop} {before : Config σ ι} (held : Held prompt before)
    {resumed : Nat} (may : before.mayRun resumed = true) {task : Nat} {current : List ι}
    (other : task ≠ resumed) (present : before.tasks[task]? = some current) :
    ∀ next ∈ current, ¬ prompt next := by
  obtain ⟨later, first⟩ := held task current present
  cases current with
  | nil => simp
  | cons head tail =>
      intro next member isPrompt
      rcases List.mem_cons.mp member with rfl | inTail
      · exact other (Config.running_of_mayRun may (first next rfl isPrompt))
      · exact later next inTail isPrompt

/-- While another instruction is executed, no prompt one is pending. -/
theorem Held.none_pending {prompt : ι → Prop} {choice : Choice α ε} {before after : Config σ ι}
    (held : Held prompt before) (step : machine.step choice before = some after)
    {instruction : ι} (executed : before.executed choice = some instruction)
    (other : ¬ prompt instruction) : ∀ next ∈ before.pending, ¬ prompt next := by
  cases choice with
  | fail task => cases executed
  | event event => cases executed
  | resume task answer =>
      simp only [Machine.step] at step
      split at step
      · rename_i head rest current
        split at step
        · rename_i free
          cases Config.eq_of_executed current executed
          intro next member
          obtain ⟨list, listMem, member⟩ := List.mem_flatten.mp member
          obtain ⟨index, present⟩ := List.getElem?_of_mem listMem
          by_cases same : index = task
          · subst same
            cases current.symm.trans present
            rcases List.mem_cons.mp member with rfl | inTail
            · exact other
            · exact (held index _ present).1 next inTail
          · exact held.elsewhere free same present next member
        · cases step
      · cases step

theorem Held.replaced {prompt : ι → Prop} {before : Config σ ι} (held : Held prompt before)
    {resumed : Nat} (may : before.mayRun resumed = true) {remaining : List ι}
    {spawned : List (List ι)} {state : σ} {running : Option Nat}
    (later : ∀ next ∈ remaining.tail, ¬ prompt next)
    (first : ∀ next, remaining.head? = some next → prompt next → running = some resumed)
    (fresh : ∀ next ∈ spawned.flatten, ¬ prompt next) :
    Held prompt ⟨state, before.tasks.set resumed remaining ++ spawned, running⟩ := by
  intro task current present
  have quiet (silent : ∀ next ∈ current, ¬ prompt next) :
      (∀ next ∈ current.tail, ¬ prompt next) ∧
        ∀ next, current.head? = some next → prompt next → running = some task :=
    ⟨fun next member => silent next (List.mem_of_mem_tail member),
      fun next head isPrompt => absurd isPrompt (silent next (List.mem_of_head? head))⟩
  rw [List.getElem?_append] at present
  split at present
  · rename_i bound
    by_cases same : task = resumed
    · subst same
      rw [List.getElem?_set_self (by simpa using bound), Option.some.injEq] at present
      subst present
      exact ⟨later, first⟩
    · rw [List.getElem?_set_ne (Ne.symm same)] at present
      exact quiet (held.elsewhere may same present)
  · exact quiet fun next member => fresh next (mem_flatten_of_getElem? present member)

theorem Held.step {may prompt : ι → Prop} {choice : Choice α ε} {before after : Config σ ι}
    (prompts : machine.Prompts may prompt)
    (allowed : ∀ instruction ∈ before.pending, may instruction) (held : Held prompt before)
    (step : machine.step choice before = some after) : Held prompt after := by
  cases choice with
  | resume task answer =>
      simp only [Machine.step] at step
      split at step
      · rename_i instruction rest current
        split at step
        · rename_i free
          obtain ⟨block, effect, rfl⟩ := Option.map_eq_some_iff.mp step
          have waiting : ∀ next ∈ rest, ¬ prompt next := (held task _ current).1
          have here : ∀ present ∈ instruction :: rest, may present := fun present member =>
            allowed present (mem_flatten_of_getElem? current member)
          refine held.replaced free ?_ ?_
            (prompts.spawned _ _ _ _ (here _ List.mem_cons_self) effect)
          · intro next member
            exact (prompts.continuation here waiting effect).1 next member
          · intro next head isPrompt
            obtain ⟨notRemote, rest, remaining⟩ :=
              (prompts.continuation here waiting effect).2 next head isPrompt
            simp [notRemote, remaining, Machine.holder, prompts.isLocal next isPrompt]
        · cases step
      · cases step
  | fail task =>
      simp only [Machine.step] at step
      split at step
      · rename_i instruction rest current
        split at step
        · rename_i permitted
          cases step
          have unwound := prompts.unwound (instruction :: rest) fun present member =>
            allowed present (mem_flatten_of_getElem? current member)
          rw [← List.append_nil (List.set ..)]
          refine held.replaced (Bool.and_eq_true_iff.mp permitted).1
            (fun next member => unwound next (List.mem_of_mem_tail member))
            (fun next head isPrompt => absurd isPrompt (unwound next (List.mem_of_head? head)))
            (by simp)
        · cases step
      · cases step
  | event event =>
      simp only [Machine.step] at step
      obtain ⟨⟨state, spawned⟩, effect, rfl⟩ := Option.map_eq_some_iff.mp step
      intro task current present
      simp only [List.getElem?_append] at present
      split at present
      · exact held task current present
      · have silent next (member : next ∈ current) : ¬ prompt next :=
          prompts.started _ _ _ effect next (mem_flatten_of_getElem? present member)
        constructor
        · intro next member
          exact silent next (List.mem_of_mem_tail member)
        · intro next head isPrompt
          exact absurd isPrompt (silent next (List.mem_of_head? head))

/-- Instructions of a kind stand only where they are executed next. -/
def InFront (kind : ι → Prop) (tasks : List (List ι)) : Prop :=
  ∀ task ∈ tasks, ∀ instruction ∈ task.tail, ¬ kind instruction

theorem InFront.eq_cons {kind : ι → Prop} {tasks : List (List ι)} (front : InFront kind tasks)
    {instruction : ι} (pending : instruction ∈ tasks.flatten) (isKind : kind instruction) :
    ∃ (task : Nat) (rest : List ι), tasks[task]? = some (instruction :: rest) := by
  obtain ⟨list, listMem, member⟩ := List.mem_flatten.mp pending
  obtain ⟨task, present⟩ := List.getElem?_of_mem listMem
  cases list with
  | nil => cases member
  | cons head rest =>
      rcases List.mem_cons.mp member with rfl | later
      · exact ⟨task, rest, present⟩
      · exact absurd isKind (front _ listMem instruction later)

/-- Blocks that put such instructions in front only, and nothing else making any,
keep them there. -/
theorem InFront.step {kind : ι → Prop} {choice : Choice α ε} {before after : Config σ ι}
    (front : InFront kind before.tasks)
    (blocks : ∀ instruction answer block,
      machine.block instruction answer before.state = some block →
      (∀ next ∈ block.next.tail, ¬ kind next) ∧ ∀ next ∈ block.spawned.flatten, ¬ kind next)
    (unwinds : ∀ task, ∀ next ∈ machine.unwind task, ¬ kind next)
    (events : ∀ event state spawned, machine.event event before.state = some (state, spawned) →
      ∀ next ∈ spawned.flatten, ¬ kind next)
    (step : machine.step choice before = some after) : InFront kind after.tasks := by
  have unwound (task : List ι) : ∀ next ∈ (machine.unwind task).tail, ¬ kind next :=
    fun next inTail => unwinds task next (List.mem_of_mem_tail inTail)
  have started {spawned : List (List ι)} (none : ∀ next ∈ spawned.flatten, ¬ kind next)
      {task : List ι} (member : task ∈ spawned) : ∀ next ∈ task.tail, ¬ kind next :=
    fun next inTail => none next (List.mem_flatten.mpr ⟨task, member, List.mem_of_mem_tail inTail⟩)
  intro task member
  cases Machine.step_cases step with
  | @resumed position answer instruction rest block running current effect =>
      obtain ⟨nexts, spawns⟩ := blocks instruction answer block effect
      have later := front _ (List.mem_of_getElem? current)
      rcases List.mem_append.mp member with changed | spawned
      · rcases List.mem_or_eq_of_mem_set changed with old | rfl
        · exact front task old
        · unfold Machine.continuation
          split
          · exact unwound _
          · intro next inTail
            cases nextEq : block.next with
            | nil =>
                rw [nextEq] at inTail
                exact later next (List.mem_of_mem_tail inTail)
            | cons first others =>
                rw [nextEq] at inTail nexts
                exact (List.mem_append.mp inTail).elim (nexts next) (later next)
      · exact started spawns spawned
  | failed current fallible =>
      rcases List.mem_or_eq_of_mem_set member with old | rfl
      · exact front task old
      · exact unwound _
  | happened effect =>
      rcases List.mem_append.mp member with old | spawned
      · exact front task old
      · exact started (events _ _ _ effect) spawned

/-- Once a remote command has taken effect, a command that stands in front of
another coroutine may take effect next. -/
theorem Machine.step_other {before after : Config σ ι} {choice : Choice α ε}
    {instruction other : ι} {task : Nat} {rest : List ι} {answer : α} {block : Block σ ι}
    (step : machine.step choice before = some after)
    (executed : before.executed choice = some instruction)
    (remote : machine.kind instruction = .remote)
    (front : before.tasks[task]? = some (other :: rest)) (different : other ≠ instruction)
    (effect : machine.block other answer after.state = some block) :
    ∃ last, machine.step (.resume task answer) after = some last ∧ last.state = block.state := by
  cases choice with
  | fail position => cases executed
  | event event => cases executed
  | resume position given =>
      obtain ⟨current, present, head⟩ := Option.bind_eq_some_iff.mp executed
      obtain ⟨tail, rfl⟩ := List.head?_eq_some_iff.mp head
      have elsewhere : position ≠ task := by
        rintro rfl
        cases present.symm.trans front
        exact different rfl
      simp only [Machine.step, present] at step
      split at step
      · obtain ⟨done, -, rfl⟩ := Option.map_eq_some_iff.mp step
        have stays : (before.tasks.set position (machine.continuation instruction tail done) ++
            done.spawned)[task]? = some (other :: rest) := by
          rw [List.getElem?_append_left, List.getElem?_set_ne elsewhere, front]
          simpa using (List.getElem?_eq_some_iff.mp front).1
        simp [Machine.step, stays, Config.mayRun, effect]
      · cases step

/-- No late instruction stands before an early one. -/
def EarlyFirst (early late : ι → Prop) (task : List ι) : Prop :=
  ∃ first second, task = first ++ second ∧ (∀ instruction ∈ first, ¬ late instruction) ∧
    ∀ instruction ∈ second, ¬ early instruction

/-- Early and late instructions stand in one coroutine only, the early ones
first. -/
def Parted (early late : ι → Prop) (tasks : List (List ι)) : Prop :=
  ∃ position, ∀ (task : Nat) (current : List ι), tasks[task]? = some current →
    EarlyFirst early late current ∧
      (task ≠ position → ∀ instruction ∈ current, ¬ early instruction ∧ ¬ late instruction)

section Parted

variable {early late : ι → Prop} {choice : Choice α ε} {before after : Config σ ι}

theorem EarlyFirst.of_plain {task : List ι}
    (plain : ∀ instruction ∈ task, ¬ early instruction ∧ ¬ late instruction) :
    EarlyFirst early late task :=
  ⟨task, [], by simp, fun instruction member => (plain instruction member).2, by simp⟩

theorem EarlyFirst.replace {instruction : ι} {next rest : List ι}
    (ordered : EarlyFirst early late (instruction :: rest))
    (leads : ∀ lead ∈ next, (early lead → early instruction) ∧ (late lead → late instruction)) :
    EarlyFirst early late (next ++ rest) := by
  obtain ⟨first, second, split, notLate, notEarly⟩ := ordered
  cases first with
  | nil =>
      subst split
      refine ⟨[], _, rfl, by simp, ?_⟩
      intro lead member
      rcases List.mem_append.mp member with new | old
      · intro isEarly
        exact notEarly instruction List.mem_cons_self ((leads lead new).1 isEarly)
      · exact notEarly lead (List.mem_cons_of_mem _ old)
  | cons head others =>
      cases split
      refine ⟨next ++ others, second, by simp, ?_, notEarly⟩
      intro lead member
      rcases List.mem_append.mp member with new | old
      · intro isLate
        exact notLate instruction List.mem_cons_self ((leads lead new).2 isLate)
      · exact notLate lead (List.mem_cons_of_mem _ old)

/-- When a late instruction is about to be executed, no early one is left. -/
theorem Parted.none_early {tasks : List (List ι)} (parted : Parted early late tasks) {task : Nat}
    {instruction : ι} {rest : List ι} (current : tasks[task]? = some (instruction :: rest))
    (isLate : late instruction) : ∀ other ∈ tasks.flatten, ¬ early other := by
  obtain ⟨position, parted⟩ := parted
  intro other member
  obtain ⟨list, listMem, member⟩ := List.mem_flatten.mp member
  obtain ⟨index, present⟩ := List.getElem?_of_mem listMem
  obtain ⟨⟨first, second, split, notLate, notEarly⟩, plain⟩ := parted task _ current
  have here : task = position := by
    by_contra elsewhere
    exact (plain elsewhere instruction List.mem_cons_self).2 isLate
  by_cases same : index = task
  · subst same
    cases current.symm.trans present
    cases first with
    | nil =>
        rw [split] at member
        exact notEarly other member
    | cons head tail =>
        cases split
        exact absurd isLate (notLate _ List.mem_cons_self)
  · exact ((parted index list present).2 (here ▸ same) other member).1

theorem Parted.set {tasks spawned : List (List ι)} (parted : Parted early late tasks)
    {task : Nat} {current : List ι} (present : tasks[task]? = some current) {remaining : List ι}
    (ordered : EarlyFirst early late current → EarlyFirst early late remaining)
    (plain : (∀ instruction ∈ current, ¬ early instruction ∧ ¬ late instruction) →
      ∀ instruction ∈ remaining, ¬ early instruction ∧ ¬ late instruction)
    (fresh : ∀ next ∈ spawned.flatten, ¬ early next ∧ ¬ late next) :
    Parted early late (tasks.set task remaining ++ spawned) := by
  obtain ⟨position, parted⟩ := parted
  refine ⟨position, ?_⟩
  intro index list found
  rw [List.getElem?_append] at found
  split at found
  · rename_i bound
    by_cases same : index = task
    · subst same
      rw [List.getElem?_set_self (by simpa using bound), Option.some.injEq] at found
      subst found
      constructor
      · exact ordered (parted index current present).1
      · intro elsewhere
        exact plain ((parted index current present).2 elsewhere)
    · rw [List.getElem?_set_ne (Ne.symm same)] at found
      exact parted index list found
  · have silent next (member : next ∈ list) : ¬ early next ∧ ¬ late next :=
      fresh next (mem_flatten_of_getElem? found member)
    exact ⟨.of_plain silent, fun _ => silent⟩

/-- Coroutines stay parted as long as early instructions come from early ones
and late instructions from late ones. -/
theorem Parted.step (parted : Parted early late before.tasks)
    (step : machine.step choice before = some after)
    (yields : ∀ instruction answer block, before.executed choice = some instruction →
      machine.block instruction answer before.state = some block →
      (∀ next ∈ block.next, (early next → early instruction) ∧ (late next → late instruction)) ∧
        ∀ next ∈ block.spawned.flatten, ¬ early next ∧ ¬ late next)
    (unwinds : ∀ task ∈ before.tasks, ∀ next ∈ machine.unwind task, ¬ early next ∧ ¬ late next)
    (starts : ∀ event state spawned, choice = .event event →
      machine.event event before.state = some (state, spawned) →
      ∀ next ∈ spawned.flatten, ¬ early next ∧ ¬ late next) :
    Parted early late after.tasks := by
  cases Machine.step_cases step with
  | @resumed task answer instruction rest block running current effect =>
      have executed : before.executed (.resume task answer : Choice α ε) = some instruction :=
        Config.executed_of_current current
      obtain ⟨leads, spawned⟩ := yields instruction answer block executed effect
      have unwound := unwinds _ (List.mem_of_getElem? current)
      refine parted.set current ?_ ?_ spawned
      · intro ordered
        unfold Machine.continuation
        split
        · exact .of_plain unwound
        · exact ordered.replace leads
      · intro plain
        unfold Machine.continuation
        split
        · exact unwound
        · intro next member
          rcases List.mem_append.mp member with new | old
          · constructor
            · intro isEarly
              exact (plain _ List.mem_cons_self).1 ((leads next new).1 isEarly)
            · intro isLate
              exact (plain _ List.mem_cons_self).2 ((leads next new).2 isLate)
          · exact plain next (List.mem_cons_of_mem _ old)
  | failed current fallible =>
      have unwound := unwinds _ (List.mem_of_getElem? current)
      rw [← List.append_nil (List.set ..)]
      exact parted.set current (fun _ => .of_plain unwound) (fun _ => unwound) (by simp)
  | @happened event state spawned effect =>
      have fresh := starts event state spawned rfl effect
      obtain ⟨position, parted⟩ := parted
      refine ⟨position, ?_⟩
      intro index list found
      rw [List.getElem?_append] at found
      split at found
      · exact parted index list found
      · have silent next (member : next ∈ list) : ¬ early next ∧ ¬ late next :=
          fresh next (mem_flatten_of_getElem? found member)
        exact ⟨.of_plain silent, fun _ => silent⟩

/-- A block that puts early instructions before late ones where there were none
of either. -/
theorem Parted.of_block {instruction : ι} (first second : List ι)
    (step : machine.step choice before = some after)
    (executed : before.executed choice = some instruction)
    (quiet : ∀ pending ∈ before.pending, ¬ early pending ∧ ¬ late pending)
    (returns : ∀ answer block, machine.block instruction answer before.state = some block →
      block.raises = false ∧ block.next = first ++ second ∧ block.spawned = [])
    (notLate : ∀ lead ∈ first, ¬ late lead) (notEarly : ∀ lead ∈ second, ¬ early lead) :
    Parted early late after.tasks := by
  cases Machine.step_cases step with
  | @resumed task answer head rest block running current effect =>
      cases Config.eq_of_executed current executed
      obtain ⟨noException, leads, noTasks⟩ := returns answer block effect
      have waiting instruction (member : instruction ∈ rest) :=
        quiet instruction (mem_flatten_of_getElem? current (List.mem_cons_of_mem _ member))
      refine ⟨task, ?_⟩
      intro index list found
      simp only [noTasks, List.append_nil] at found
      by_cases same : index = task
      · subst same
        rw [List.getElem?_set_self (List.getElem?_eq_some_iff.mp current).1,
          Option.some.injEq] at found
        refine ⟨⟨first, second ++ rest, ?_, notLate, ?_⟩, fun elsewhere => absurd rfl elsewhere⟩
        · simp [← found, Machine.continuation, noException, leads]
        · intro lead member
          rcases List.mem_append.mp member with new | old
          · exact notEarly lead new
          · exact (waiting lead old).1
      · rw [List.getElem?_set_ne (Ne.symm same)] at found
        have plain instruction (member : instruction ∈ list) :=
          quiet instruction (mem_flatten_of_getElem? found member)
        exact ⟨.of_plain plain, fun _ => plain⟩
  | failed current fallible => cases executed
  | happened effect => cases executed

end Parted

/-- Runs with what is observed of their steps, in order. -/
inductive Machine.Logged (machine : Machine σ ι α ε) (start : Config σ ι)
    (guard : Choice α ε → Config σ ι → Prop) (observe : Choice α ε → Config σ ι → List ω) :
    List ω → Config σ ι → Prop where
  | start : machine.Logged start guard observe [] start
  | step {choice : Choice α ε} {before after : Config σ ι} {log : List ω} :
      machine.Logged start guard observe log before →
      guard choice before →
      machine.step choice before = some after →
      machine.Logged start guard observe (log ++ observe choice before) after

namespace Machine

variable {start : Config σ ι} {guard : Choice α ε → Config σ ι → Prop}
  {observe : Choice α ε → Config σ ι → List ω}

theorem Logged.reaches {log : List ω} {config : Config σ ι}
    (logged : machine.Logged start guard observe log config) :
    machine.Reaches start guard config := by
  induction logged with
  | start => exact .start
  | step _ allowed step ih => exact .step ih allowed step

/-- Execute a schedule and log it. -/
def record (machine : Machine σ ι α ε) (observe : Choice α ε → Config σ ι → List ω) :
    List (Choice α ε) → Config σ ι → List ω → Option (List ω × Config σ ι)
  | [], config, log => some (log, config)
  | choice :: choices, config, log =>
      (machine.step choice config).bind fun next =>
        machine.record observe choices next (log ++ observe choice config)

theorem logged_of_record {choices : List (Choice α ε)} {config : Config σ ι} {log : List ω}
    {result : List ω × Config σ ι} (logged : machine.Logged start guard observe log config)
    (allowed : ∀ choice ∈ choices, ∀ config, guard choice config)
    (executed : machine.record observe choices config log = some result) :
    machine.Logged start guard observe result.1 result.2 := by
  induction choices generalizing config log with
  | nil =>
      cases executed
      exact logged
  | cons choice choices ih =>
      obtain ⟨next, first, others⟩ := Option.bind_eq_some_iff.mp executed
      exact ih (.step logged (allowed choice List.mem_cons_self config) first)
        (fun choice member => allowed choice (List.mem_cons_of_mem _ member)) others

end Machine

end EventLoop

import TerritoryBackend.SingleCompletion
import TerritoryBackend.StatusMachine

/-!
# A finished game is settled

The status of a game turns `finished` before its end is announced, and only
after the announcements is the result handed to a persist task and the game
taken out of the table.  A command that fails in between ends the handler, so
both happen exactly in the runs in which no command fails there.
-/

namespace TerritoryBackend

open EventLoop

/-- The room whose game an instruction declares over, hands to a persist task
or takes out of the table. -/
def Instr.closing : Instr → Option RoomId
  | .handleGameOver room | .createPersistTask room _ | .cleanupGame room => some room
  | _ => none

/-- No command fails in a coroutine that has yet to close a game. -/
def ClosesReliably (choice : ServerChoice) (config : ServerConfig) : Prop :=
  ∀ task current, choice = .fail task → config.tasks[task]? = some current →
    ∀ instruction ∈ current, instruction.closing = none

/-- Whoever was to close a finished game has returned or raised. -/
def Closed (config : ServerConfig) (room : RoomId) : Prop :=
  ∀ instruction ∈ config.pending, instruction.closing ≠ some room

/-- Once it is closed, a finished game has been handed to one persist task and
is not in the table. -/
def FinishedGamesSettled (settings : Settings) (start : ServerConfig)
    (guard : ServerChoice → ServerConfig → Prop) : Prop :=
  ∀ config, (server settings).Reaches start guard config →
    ∀ room, Finished config.state room → Closed config room →
      config.state.journal.persistTasks.count room = 1 ∧ room ∉ config.state.engine.live

variable {settings : Settings} {choice : ServerChoice} {before after : ServerConfig}
  {room : RoomId} {game : ActiveGame}

/-- The blocks that announce a move or the end of a game and store it. -/
def Instr.announces : Instr → Bool
  | .sendStateUpdate .. | .sendGameOver .. | .createPersistTask .. | .saveSnapshot ..
  | .setSnapshot .. | .publish .. | .forceClose .. | .sendPersonal _ _ .publish
  | .awaitSend _ _ _ .publish => true
  | _ => false

/-- Announcements do not raise as long as it is somebody's turn in every game. -/
theorem announces_keepsCourseAt {world : World}
    (turns : ∀ room game, world.engine.games room = some game → game.HasTurn) :
    (server settings).KeepsCourseAt (fun instruction => instruction.announces = true) world := by
  intro instruction answer block announces effect
  have effect : instruction.block settings answer world = some block := effect
  unfold Instr.announces at announces
  split at announces
  · rename_i updated recipient action data _
    rcases World.sendStateUpdate_cases turns effect with rfl | ⟨message, -, rfl⟩
    · simp
    · simp [Instr.announces]
  · rename_i settling recipient settled _
    cases effect
    rcases World.sendGameOver_cases turns settling recipient settled with
      nothing | ⟨message, -, sends⟩
    · simp [nothing]
    · simp [sends, Instr.announces]
  · cases effect
    simp [World.createPersistTask]
  · rcases World.saveSnapshot_eq_some turns effect with rfl | ⟨_, _, -, -, rfl⟩
    · simp
    · simp [Instr.announces]
  · cases effect
    simp [World.setSnapshot]
  · cases World.publish_eq_some effect
    simp
  · cases effect
    simp [World.forceClose]
  · cases effect
    unfold World.sendPersonal
    split <;> simp [AfterSend.next, Instr.announces]
  · simp only [Instr.block, World.awaitSend] at effect
    split at effect <;> cases effect <;> simp [AfterSend.next, Instr.announces]
  · cases announces

def HandsOver (room : RoomId) (instruction : Instr) : Prop :=
  instruction = .handleGameOver room ∨ ∃ settled, instruction = .createPersistTask room settled

def Removes (room : RoomId) (instruction : Instr) : Prop :=
  instruction = .handleGameOver room ∨ instruction = .cleanupGame room

/-- A coroutine comes to such an instruction after announcements only. -/
def AfterNews (target : Instr → Prop) (config : ServerConfig) : Prop :=
  Due (fun instruction : Instr => instruction.announces = true) target config.tasks

/-- Finished games are handed over and taken out of the table, or will be. -/
structure ClosesFinished (config : ServerConfig) : Prop where
  handed : ∀ room, Finished config.state room →
    AfterNews (HandsOver room) config ∨ room ∈ config.state.journal.persistTasks
  removed : ∀ room, Finished config.state room →
    AfterNews (Removes room) config ∨ room ∉ config.state.engine.live

/-- A game that has just finished is going to be declared over. -/
theorem finished_cases (step : (server settings).step choice before = some after)
    (finished : Finished after.state room) :
    Finished before.state room ∨ AfterNews (· = .handleGameOver room) after := by
  obtain ⟨game, stored, status⟩ := finished
  rcases gameChange_of_step step room with ⟨games, -⟩ | ⟨instruction, executed, change⟩
  · exact .inl ⟨game, games ▸ stored, status⟩
  obtain ⟨answer, rest, block, effect, -, continues, -⟩ := Machine.tasks_of_executed step executed
  cases change with
  | unchanged _ games | popped _ games => exact .inl ⟨game, games ▸ stored, status⟩
  | created pair games =>
      cases games.symm.trans stored
      cases status
  | paused caller found inProgress games =>
      cases games.symm.trans stored
      cases status
  | @acted player action data known result _ found passed games =>
      cases games.symm.trans stored
      rw [(ActiveGame.processAction_frame passed).2.2.2.2.2] at status
      have ended : result.2 = true := by
        by_contra running
        simp [running] at status
      cases effect
      have ends : (result.1.playerIds.map fun recipient =>
          Instr.sendStateUpdate room recipient action data) ++ .handleGameOver room :: rest ∈
            after.tasks := by
        simpa [Machine.continuation, World.processAction, GameEngine.processAction, found, passed,
          World.withGame, ended] using continues
      right
      exact Due.of_mem ends (List.forall_mem_map.mpr fun recipient _ => rfl) rfl
  | @forfeited player deadline known _ due found absent games =>
      have effect : before.state.disconnectTimerWakes room player deadline = some block := effect
      rcases World.disconnectTimerWakes_cases effect with ⟨nobody, -⟩ | ⟨_, -, -, rfl⟩
      · simp [GameEngine.disconnectTimer, found, ActiveGame.disconnectTimer, absent] at nobody
      · exact .inr (Due.of_head continues rfl)
  | @resumed player known _ found games =>
      cases games.symm.trans stored
      left
      refine ⟨known, (GameEngine.find_eq_some.mp found).2, ?_⟩
      unfold ActiveGame.handlePlayerReconnect at status
      dsimp only at status
      split at status
      · cases status
      · exact status

/-- Declaring a finished game over comes before handing it over and removing it. -/
theorem afterNews_of_declared (step : (server settings).step choice before = some after)
    (executed : before.executed choice = some (.handleGameOver room))
    (finished : Finished before.state room) :
    AfterNews (HandsOver room) after ∧ AfterNews (Removes room) after := by
  obtain ⟨game, stored, -⟩ := finished
  obtain ⟨answer, rest, block, effect, -, continues, -⟩ := Machine.tasks_of_executed step executed
  cases effect
  obtain ⟨announcements, leads⟩ : ∃ announcements,
      announcements = game.playerIds.map fun player => Instr.sendGameOver room player game :=
    ⟨_, rfl⟩
  have news : ∀ next ∈ announcements, next.announces = true := by
    rw [leads]
    exact List.forall_mem_map.mpr fun player _ => rfl
  have hands : announcements ++ .createPersistTask room game ::
      ([.saveSnapshot room, .cleanupGame room] ++ rest) ∈ after.tasks := by
    simpa [Machine.continuation, World.handleGameOver, World.withGame, stored, leads]
      using continues
  have removes : (announcements ++ [.createPersistTask room game, .saveSnapshot room]) ++
      .cleanupGame room :: rest ∈ after.tasks := by
    simpa using hands
  refine ⟨Due.of_mem hands news (.inr ⟨game, rfl⟩), Due.of_mem removes ?_ (.inr rfl)⟩
  intro next member
  rcases List.mem_append.mp member with announced | stores
  · exact news next announced
  · simp only [List.mem_cons, List.not_mem_nil, or_false] at stores
    rcases stores with rfl | rfl <;> rfl

theorem cleanupGame_gone {world : World} (finished : Finished world room) :
    room ∉ (world.cleanupGame room).state.engine.live := by
  obtain ⟨game, stored, -⟩ := finished
  unfold World.cleanupGame
  split
  · rename_i absent
    intro live
    have found := GameEngine.find_eq_some.mpr ⟨live, stored⟩
    cases found.symm.trans absent
  · simp

theorem persistTasks_kept (step : (server settings).step choice before = some after)
    (handed : room ∈ before.state.journal.persistTasks) :
    room ∈ after.state.journal.persistTasks := by
  have change := worldStep_of_step step
  generalize after.state = world at change
  cases change with
  | wrote _ writes =>
      cases writes with
      | persistTask => exact List.mem_append_left _ handed
      | _ => exact handed
  | failed => exact handed
  | happened effect =>
      rw [(ServerEvent.frame effect).2.2.1]
      exact handed

/-- A finished game is not put into the table again. -/
theorem gone_kept (registered : Registered before)
    (step : (server settings).step choice before = some after)
    (finished : Finished before.state room) (gone : room ∉ before.state.engine.live) :
    room ∉ after.state.engine.live := by
  obtain ⟨game, stored, -⟩ := finished
  exact (registered.removed_step step gone (by rw [stored]; rfl)).1

theorem ClosesFinished.step (closes : ClosesFinished before) (registered : Registered before)
    (turns : ∀ room game, before.state.engine.games room = some game → game.HasTurn)
    (reliable : ClosesReliably choice before)
    (step : (server settings).step choice before = some after) : ClosesFinished after where
  handed room finished := by
    rcases finished_cases step finished with earlier | declared
    · rcases closes.handed room earlier with due | handed
      · rcases due.step_cases (announces_keepsCourseAt turns) step with
          stays | ⟨instruction, executed, hands⟩ |
            ⟨position, head, tail, fails, current, -, -, instruction, member, hands⟩
        · exact .inl stays
        · rcases hands with rfl | ⟨settled, rfl⟩
          · exact .inl (afterNews_of_declared step executed earlier).1
          · obtain ⟨answer, block, effect, state⟩ := Machine.block_of_executed step executed
            cases effect
            rw [state]
            exact .inr (List.mem_append_right _ (List.mem_singleton_self room))
        · have idle := reliable position _ fails current instruction member
          rcases hands with rfl | ⟨settled, rfl⟩ <;> cases idle
      · exact .inr (persistTasks_kept step handed)
    · exact .inl (declared.mono fun _ same => .inl same)
  removed room finished := by
    rcases finished_cases step finished with earlier | declared
    · rcases closes.removed room earlier with due | gone
      · rcases due.step_cases (announces_keepsCourseAt turns) step with
          stays | ⟨instruction, executed, removes⟩ |
            ⟨position, head, tail, fails, current, -, -, instruction, member, removes⟩
        · exact .inl stays
        · rcases removes with rfl | rfl
          · exact .inl (afterNews_of_declared step executed earlier).2
          · obtain ⟨answer, block, effect, state⟩ := Machine.block_of_executed step executed
            cases effect
            rw [state]
            exact .inr (cleanupGame_gone earlier)
        · have idle := reliable position _ fails current instruction member
          rcases removes with rfl | rfl <;> cases idle
      · exact .inr (gone_kept registered step earlier gone)
    · exact .inl (declared.mono fun _ same => .inl same)

theorem closesFinished_of_reaches {redis : Redis} {roomIds : List RoomId} {config : ServerConfig}
    (reached : (server settings).Reaches (booted redis roomIds) ClosesReliably config) :
    ClosesFinished config := by
  induction reached with
  | start =>
      have none room : ¬ Finished (booted redis roomIds).state room := by
        rintro ⟨game, stored, -⟩
        cases stored
      constructor
      · intro room finished
        exact absurd finished (none room)
      · intro room finished
        exact absurd finished (none room)
  | step reached reliable step ih =>
      exact ih.step (registered_of_reaches reached) (fun room game => hasTurn_of_reaches reached)
        reliable step

/-- When everybody who was to close a game has, nothing is due any more. -/
theorem Closed.not_afterNews {config : ServerConfig} (closed : Closed config room)
    {target : Instr → Prop} (closing : ∀ instruction, target instruction →
      instruction.closing = some room) : ¬ AfterNews target config := by
  rintro ⟨position, instruction, rest, planned, targeted⟩
  exact closed instruction (planned.mem_pending List.mem_cons_self) (closing instruction targeted)

/-- Main result: when no command fails before a game is closed, and no timer
wakes to end a finished game again, every finished game is settled. -/
theorem finishedGamesSettled_of_closesReliably (settings : Settings) (redis : Redis)
    (roomIds : List RoomId) :
    FinishedGamesSettled settings (booted redis roomIds) fun choice config =>
      ClosesReliably choice config ∧ NoForfeitAfterEnd choice config := by
  intro config reached room finished closed
  have closes := closesFinished_of_reaches
    (reached.weaken fun choice config allowed => allowed.1)
  have once := (persistTaskLedger room).count_le_one
    (reached.weaken fun choice config allowed => allowed.2)
  constructor
  · have handed : room ∈ config.state.journal.persistTasks := by
      rcases closes.handed room finished with due | handed
      · refine absurd due (closed.not_afterNews ?_)
        intro instruction hands
        rcases hands with rfl | ⟨settled, rfl⟩ <;> rfl
      · exact handed
    exact le_antisymm once (List.count_pos_iff.mpr handed)
  · rcases closes.removed room finished with due | gone
    · refine absurd due (closed.not_afterNews ?_)
      intro instruction removes
      rcases removes with rfl | rfl <;> rfl
    · exact gone

/-- Ada's connection is lost and her timer wakes, but the result cannot be
published to her. -/
def lostPublish : List ServerChoice :=
  openConnection "ada" "conn-1" 2 7 ++ formMatch "room-1" 19 ++
    .resume 2 .closed :: proceed 2 7 ++ proceed 3 1 ++
    .event (.advance 30) :: proceed 3 4 ++ [.fail 3]

/-- The finished game is handed to nobody and stays in the table. -/
theorem lostPublish_not_settled :
    ¬ FinishedGamesSettled { instanceId := "inst-1" } (booted waitingRookies []) unguarded := by
  intro settled
  have lost : ((server { instanceId := "inst-1" }).run lostPublish
      (booted waitingRookies [])).any (fun config =>
        (config.state.engine.games "room-1").any (fun game => decide (game.status = .finished)) &&
        config.pending.all (fun instruction => decide (instruction.closing ≠ some "room-1")) &&
        decide (config.state.journal.persistTasks.count "room-1" = 0)) = true := by
    decide +kernel
  obtain ⟨config, executed, holds⟩ := Option.any_eq_true _ _ |>.mp lost
  simp only [Bool.and_eq_true, decide_eq_true_eq, List.all_eq_true] at holds
  obtain ⟨⟨finished, closed⟩, unhanded⟩ := holds
  obtain ⟨game, stored, status⟩ := Option.any_eq_true _ _ |>.mp finished
  have handed := (settled config (Machine.reaches_of_run .start executed) "room-1"
    ⟨game, stored, of_decide_eq_true status⟩ closed).1
  rw [unhanded] at handed
  cases handed

end TerritoryBackend

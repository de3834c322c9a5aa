import TerritoryBackend.SinglePlace
import TerritoryBackend.StatusMachine

/-!
# A disconnect while a match is created

`mark_disconnected` reads the session that `create_game` fills in.  A read that
comes before the match has reached the session finds no game to tell about the
disconnect, and `create_game` then overwrites the state.  A disconnect that reads
the session after the match has been created is recorded.
-/

namespace TerritoryBackend

open EventLoop

/-- The final clean-up of a connection runs next to the matching loop. -/
def race (world : World) (player : PlayerId) (connection : ConnectionId) : ServerConfig where
  state := world
  tasks := [[.matchingLoop], [.handleDisconnect player connection]]

/-- Commands succeed.  Meanwhile time passes, and keys expire. -/
def OnlyExpiries (choice : ServerChoice) : Prop :=
  (∀ task, choice ≠ .fail task) ∧
    ∀ event, choice = .event event →
      (∃ player, event = .sessionExpires player) ∨ (∃ player, event = .playerRoomExpires player) ∨
        (∃ room, event = .roomStateExpires room) ∨ ∃ seconds, event = .advance seconds

/-- Every active game of the player knows of the disconnect and is about to be
forfeited, and the session is disconnected or has expired. -/
structure DisconnectRecorded (config : ServerConfig) (player : PlayerId) : Prop where
  games : ∀ room game, config.state.engine.find room = some game →
    game.status.isActive = true → player ∈ game.playerIds →
    player ∈ game.disconnectedPlayers ∧ TimerOutstanding config room player
  session : ∀ hash, config.state.redis.sessions player = some hash →
    hash.fields .state = some (.str PlayerConnectionState.disconnected.value)

/-- A match of the player to be created, or the state of the player's session
to be updated. -/
def Instr.involves (player : PlayerId) : Instr → Bool
  | .createMatch pair | .createGame _ pair => decide (player ∈ pair.playerIds)
  | .updateSessionState updated _ _ => decide (updated = player)
  | _ => false

/-- When `mark_disconnected` reads the session, the creation of the player's
match has passed its update, and the session names the player's game, which is
in progress. -/
def ReadsMatch (player : PlayerId) (connection : ConnectionId) (choice : ServerChoice)
    (config : ServerConfig) : Prop :=
  config.executed choice = some (.markDisconnectedRead player connection) →
    (∀ instruction ∈ config.pending, instruction.involves player = false) ∧
      ∃ session, SessionManager.getSession (config.state.redis.sessions player) = .ok session ∧
        ∀ room game, config.state.engine.find room = some game →
          game.status.isActive = true → player ∈ game.playerIds →
          game.status = .inProgress ∧ session.bind RedisSession.roomId = some room

/-- Wherever the server has come to, a disconnect that races with the matching
loop is recorded once both have finished. -/
def DisconnectsRecorded (settings : Settings)
    (guard : PlayerId → ConnectionId → ServerChoice → ServerConfig → Prop) : Prop :=
  ∀ redis roomIds origin player connection config,
    (server settings).Reaches (booted redis roomIds) unguarded origin →
    (server settings).Reaches (race origin.state player connection)
      (fun choice config => OnlyExpiries choice ∧ guard player connection choice config) config →
    LoopIdle config → config.tasks[1]? = some [] → DisconnectRecorded config player

variable {settings : Settings} {choice : ServerChoice} {before after : ServerConfig}
  {player : PlayerId} {connection : ConnectionId} {room : RoomId} {game : ActiveGame}

/-- The blocks of the matching loop and of the forfeit timers, with what they
lead to. -/
def Instr.background : Instr → Bool
  | .matchingLoop | .createMatch .. | .storeRoom .. | .offerMatch .. | .sendPersonal ..
  | .awaitSend .. | .forceClose .. | .publish .. | .createGame .. | .setPlayerRoom ..
  | .updateSessionState .. | .joinRoom .. | .sendGameStarted .. | .saveSnapshot ..
  | .setSnapshot .. | .sleep .. | .wake .. | .createDisconnectTimer .. | .disconnectTimer ..
  | .disconnectTimerWakes .. | .handleGameOver .. | .sendGameOver .. | .createPersistTask ..
  | .persistResult .. | .cleanupGame .. | .deleteRoomKeys .. => true
  | _ => false

/-- A background block leads to background blocks, and it involves a player only
if it did before or pops the player from the queue. -/
structure StaysBehind (world : World) (player : PlayerId) (instruction : Instr)
    (block : Block World Instr) : Prop where
  behind : ∀ next, next ∈ block.next ∨ next ∈ block.spawned.flatten → next.background = true
  involves : ∀ next, next ∈ block.next ∨ next ∈ block.spawned.flatten →
    next.involves player = true →
      instruction.involves player = true ∨
        instruction = .matchingLoop ∧ world.isQueued player = true
  session : instruction.involves player = false →
    block.state.redis.sessions player = world.redis.sessions player

theorem behind_of_leaves {instruction next : Instr} {answer : Answer} {world : World}
    (behind : instruction.background = true)
    (leaves : instruction.Leaves settings world answer next) : next.background = true := by
  cases leaves with
  | unsendable goesOn | handingOn _ goesOn =>
      rcases Instr.mem_afterSend_next goesOn with rfl | ⟨told, text, -, rfl | ⟨later, rfl⟩⟩ <;> rfl
  | connect | accepted | restoring | creating | claiming | unclaimed | reconnecting | claimed
  | created | acknowledged | checking | received | touching | routing | seeking | cancelling
  | acting | enqueueing | playing | dequeueing | marking | marked | leaving | ranking | sizing
  | updating | snapshotting | repeating => cases behind
  | _ => rfl

theorem involves_of_leaves {instruction next : Instr} {answer : Answer} {world : World}
    (behind : instruction.background = true)
    (leaves : instruction.Leaves settings world answer next)
    (involved : next.involves player = true) :
    instruction.involves player = true ∨
      instruction = .matchingLoop ∧ world.isQueued player = true := by
  cases leaves with
  | @matched queue pair popped =>
      have unqueued := isQueued_pop player popped
      simp only [Instr.involves, decide_eq_true_eq] at involved
      rw [if_pos involved] at unqueued
      right
      refine ⟨rfl, ?_⟩
      cases queued : world.isQueued player with
      | true => rfl
      | false => simp [queued] at unqueued
  | registering => exact .inl involved
  | stating plays =>
      simp only [Instr.involves, decide_eq_true_eq] at involved ⊢
      exact .inl (involved ▸ plays)
  | unsendable goesOn | handingOn _ goesOn =>
      rcases Instr.mem_afterSend_next goesOn with rfl | ⟨told, text, -, rfl | ⟨later, rfl⟩⟩ <;>
        cases involved
  | cancelled | waiting => cases behind
  | _ => cases involved

theorem staysBehind (player : PlayerId) {instruction : Instr} {answer : Answer} {world : World}
    {block : Block World Instr} (behind : instruction.background = true)
    (effect : instruction.block settings answer world = some block) :
    StaysBehind world player instruction block where
  behind next member := behind_of_leaves behind (Instr.block_leaves effect member)
  involves next member := involves_of_leaves behind (Instr.block_leaves effect member)
  session idle := by
    apply Instr.sessions_block effect
    cases instruction with
    | attemptReconnectWrite | createSession | updateActivity | markDisconnectedWrite => cases behind
    | updateSessionState => exact idle
    | _ => rfl

theorem unwind_behind {instructions : List Instr}
    (behind : ∀ instruction ∈ instructions, instruction.background = true) :
    ∀ next ∈ Instr.unwind settings instructions, next.background = true := by
  intro next member
  rcases Instr.unwind_cases member with
    ⟨owner, opened, present, rfl⟩ | ⟨loop, seconds, present, rfl | rfl, rfl | rfl⟩
  · cases behind _ present
  · rfl
  · rfl
  · rfl
  · cases behind _ present

theorem unwind_involves {instructions : List Instr} :
    ∀ next ∈ Instr.unwind settings instructions, next.involves player = false := by
  intro next member
  rcases Instr.unwind_cases member with
    ⟨_, _, -, rfl⟩ | ⟨loop, seconds, -, rfl | rfl, rfl | rfl⟩ <;> rfl

theorem OnlyExpiries.frame (player : PlayerId) {event : ServerEvent} {world after : World}
    {spawned : List (List Instr)} (only : OnlyExpiries (.event event))
    (effect : event.effect world = some (after, spawned)) :
    spawned = [] ∧ (after.redis.sessions player = world.redis.sessions player ∨
      after.redis.sessions player = none) := by
  obtain ⟨expired, rfl⟩ | ⟨expired, rfl⟩ | ⟨expired, rfl⟩ | ⟨seconds, rfl⟩ := only.2 event rfl
  · cases effect
    refine ⟨rfl, ?_⟩
    by_cases same : player = expired
    · subst same
      simp only [World.updateRedis, Redis.updateSession, Function.update_self]
      cases world.redis.sessions player with
      | none => exact .inl rfl
      | some hash =>
          cases expires : hash.ttl.isNone <;> simp [RedisHash.lapse, Option.filter, expires]
    · exact .inl (by simp [World.updateRedis, Redis.updateSession, same])
  · cases effect
    exact ⟨rfl, .inl rfl⟩
  · cases effect
    exact ⟨rfl, .inl rfl⟩
  · cases ServerEvent.happens effect
    exact ⟨rfl, .inl rfl⟩

/-- The step is not one of the clean-up. -/
structure OthersStep (choice : ServerChoice) (before : ServerConfig) : Prop where
  only : OnlyExpiries choice
  behind : ∀ instruction, before.executed choice = some instruction →
    instruction.background = true

/-- No match of the player is being created, and none can be. -/
structure Unmatched (config : ServerConfig) (player : PlayerId) : Prop where
  notQueued : config.state.isQueued player = false
  uninvolved : ∀ instruction ∈ config.pending, instruction.involves player = false

section OthersStep

variable (others : OthersStep choice before)
  (step : (server settings).step choice before = some after)

include others step

theorem OthersStep.apart (apart : Apart 1 (fun instruction => instruction.background = true)
    before.tasks) : Apart 1 (fun instruction => instruction.background = true) after.tasks := by
  refine apart.step step ?_ (fun task behind => unwind_behind behind) ?_
  · intro instruction answer block executed effect
    have stays (next : Instr) (member : next ∈ block.next ∨ next ∈ block.spawned.flatten) :
        next.background = true :=
      behind_of_leaves (others.behind instruction executed) (Instr.block_leaves effect member)
    constructor
    · intro _ next member
      exact stays next (.inl member)
    · intro next member
      exact stays next (.inr member)
  · intro event state spawned isEvent effect
    subst isEvent
    simp [(others.only.frame "" effect).1]

theorem OthersStep.behind_pending
    (pending : ∀ instruction ∈ before.pending, instruction.background = true) :
    ∀ instruction ∈ after.pending, instruction.background = true := by
  intro next member
  cases Machine.source_of_step step member with
  | pending _ member => exact pending next member
  | yielded executed effect member =>
      exact behind_of_leaves (others.behind _ executed) (Instr.block_leaves effect member)
  | unwound _ present member =>
      exact unwind_behind (fun instruction inTask =>
        pending instruction (List.mem_flatten.mpr ⟨_, present, inTask⟩)) next member
  | started effect member =>
      rw [(others.only.frame "" effect).1] at member
      cases member

theorem OthersStep.notQueued (notQueued : before.state.isQueued player = false) :
    after.state.isQueued player = false := by
  have change := worldStep_of_step step
  generalize after.state = world at change
  cases change with
  | wrote executed writes =>
      have behind := others.behind _ executed
      have fewer : (world.isQueued player).toNat ≤ (before.state.isQueued player).toNat :=
        isQueued_le writes fun eloRating enqueues => by
          subst enqueues
          cases behind
      rw [notQueued] at fewer
      exact Bool.toNat_eq_zero.mp (Nat.le_zero.mp fewer)
  | failed task => exact notQueued
  | happened effect =>
      unfold World.isQueued
      rw [(ServerEvent.frame effect).2.2.2.2]
      exact notQueued

theorem OthersStep.unmatched (unmatched : Unmatched before player) : Unmatched after player where
  notQueued := others.notQueued step unmatched.notQueued
  uninvolved next member := by
    cases Machine.source_of_step step member with
    | pending _ member => exact unmatched.uninvolved next member
    | yielded executed effect member =>
        by_contra involved
        rw [Bool.not_eq_false] at involved
        have earlier := unmatched.uninvolved _ (Config.mem_pending_of_executed executed)
        rcases (staysBehind player (others.behind _ executed) effect).involves next member
          involved with
          known | ⟨-, queued⟩
        · simp [earlier] at known
        · simp [unmatched.notQueued] at queued
    | unwound _ present member => exact unwind_involves next member
    | started effect member =>
        rw [(others.only.frame player effect).1] at member
        cases member

theorem OthersStep.session (unmatched : Unmatched before player) :
    after.state.redis.sessions player = before.state.redis.sessions player ∨
      after.state.redis.sessions player = none := by
  cases Machine.step_cases step with
  | @resumed task answer instruction rest block running current effect =>
      have executed : before.executed (.resume task answer : ServerChoice) = some instruction :=
        Config.executed_of_current current
      exact .inl ((staysBehind player (others.behind _ executed) effect).session
        (unmatched.uninvolved _ (Config.mem_pending_of_executed executed)))
  | failed current fallible => exact .inl rfl
  | happened effect => exact (others.only.frame player effect).2

/-- Nobody else touches an active game of the player. -/
theorem OthersStep.keepsGame (unmatched : Unmatched before player)
    (found : after.state.engine.find room = some game) (active : game.status.isActive = true)
    (plays : player ∈ game.playerIds) : before.state.engine.find room = some game := by
  obtain ⟨present, stored⟩ := GameEngine.find_eq_some.mp found
  rcases gameChange_of_step step room with ⟨games, live⟩ | ⟨instruction, executed, change⟩
  · exact (GameEngine.find_congr games live).symm.trans found
  have behind := others.behind _ executed
  cases change with
  | unchanged _ games live => exact (GameEngine.find_congr games live).symm.trans found
  | created pair games live =>
      have uninvolved := unmatched.uninvolved _ (Config.mem_pending_of_executed executed)
      cases games.symm.trans stored
      simp only [Instr.involves, decide_eq_false_iff_not] at uninvolved
      exact absurd plays uninvolved
  | forfeited due found absent games live =>
      cases games.symm.trans stored
      cases active
  | popped found games gone => exact absurd present gone
  | acted | paused | resumed => cases behind

end OthersStep

/-- The clean-up, the second coroutine, goes on with this after its messages. -/
abbrev CleanUpPlans (config : ServerConfig) (plan : List Instr) : Prop :=
  Planned (fun instruction : Instr => instruction.sends = true) 1 plan config.tasks

abbrev OthersBehind (config : ServerConfig) : Prop :=
  Apart 1 (fun instruction : Instr => instruction.background = true) config.tasks

/-- The player's active games are in progress, and the session names them. -/
def PlaysOnly (config : ServerConfig) (player : PlayerId) (named : Option RoomId) : Prop :=
  ∀ room game, config.state.engine.find room = some game → game.status.isActive = true →
    player ∈ game.playerIds → game.status = .inProgress ∧ named = some room

/-- The session is disconnected, or it has expired. -/
def SessionLeft (config : ServerConfig) (player : PlayerId) : Prop :=
  ∀ hash, config.state.redis.sessions player = some hash →
    hash.fields .state = some (.str PlayerConnectionState.disconnected.value)

inductive CleanUpStage (config : ServerConfig) (player : PlayerId) (connection : ConnectionId) :
    Prop where
  | disconnecting (ahead : CleanUpPlans config [.handleDisconnect player connection])
  | dequeueing (ahead : CleanUpPlans config
      [.dequeuePlayer player (some connection), .markDisconnectedRead player connection])
  | reading (ahead : CleanUpPlans config [.markDisconnectedRead player connection])
      (notQueued : config.state.isQueued player = false)
  | writing (named : Option RoomId)
      (ahead : CleanUpPlans config [.markDisconnectedWrite player connection named])
      (unmatched : Unmatched config player) (plays : PlaysOnly config player named)
  | leaving (room : RoomId)
      (ahead : CleanUpPlans config [.handlePlayerDisconnect room player (some connection)])
      (unmatched : Unmatched config player) (plays : PlaysOnly config player (some room))
      (session : SessionLeft config player)
  | left (behind : ∀ instruction ∈ config.pending, instruction.background = true)
      (unmatched : Unmatched config player) (recorded : DisconnectRecorded config player)

theorem sends_behind {instruction : Instr} (isSend : instruction.sends = true) :
    instruction.background = true := by
  unfold Instr.sends at isSend
  split at isSend
  · rfl
  · rfl
  · rfl
  · cases isSend

theorem sends_involves {instruction : Instr} (isSend : instruction.sends = true) :
    instruction.involves player = false := by
  unfold Instr.sends at isSend
  split at isSend
  · rfl
  · rfl
  · rfl
  · cases isSend

theorem PlaysOnly.step {named : Option RoomId} (plays : PlaysOnly before player named)
    (others : OthersStep choice before) (unmatched : Unmatched before player)
    (step : (server settings).step choice before = some after) :
    PlaysOnly after player named :=
  fun room game found active playing =>
    plays room game (others.keepsGame step unmatched found active playing) active playing

theorem SessionLeft.step (left : SessionLeft before player) (others : OthersStep choice before)
    (unmatched : Unmatched before player)
    (step : (server settings).step choice before = some after) : SessionLeft after player := by
  intro hash stored
  rcases others.session step unmatched with same | expired
  · exact left hash (same ▸ stored)
  · rw [expired] at stored
    cases stored

theorem DisconnectRecorded.step (recorded : DisconnectRecorded before player)
    (others : OthersStep choice before) (unmatched : Unmatched before player)
    (step : (server settings).step choice before = some after) :
    DisconnectRecorded after player where
  games room game found active plays := by
    have foundBefore := others.keepsGame step unmatched found active plays
    obtain ⟨absent, outstanding⟩ := recorded.games room game foundBefore active plays
    refine ⟨absent, ?_⟩
    rcases outstanding.step step with stays | ⟨deadline, executed⟩
    · exact stays
    -- the timer has ended the game
    obtain ⟨_, block, effect, state⟩ := Machine.block_of_executed step executed
    have effect : before.state.disconnectTimerWakes room player deadline = some block := effect
    rcases World.disconnectTimerWakes_cases effect with ⟨nobody, -⟩ | ⟨other, -, -, rfl⟩
    · simp [GameEngine.disconnectTimer, foundBefore, ActiveGame.disconnectTimer, absent] at nobody
    · have stored := (GameEngine.find_eq_some.mp found).2
      simp only [state, World.goOn_state, GameEngine.write_games, if_true,
        Option.some.injEq] at stored
      rw [← stored] at active
      cases active
  session := SessionLeft.step recorded.session others unmatched step

/-- The clean-up has executed a block that starts no coroutine. -/
structure CleanUpStep (settings : Settings) (choice : ServerChoice) (before after : ServerConfig)
    (instruction : Instr) (rest : List Instr) (block : Block World Instr) : Prop where
  executed : before.executed choice = some instruction
  effect : ∃ answer, instruction.block settings answer before.state = some block
  state : after.state = block.state
  remaining : after.tasks[1]? = some ((server settings).continuation instruction rest block)
  pending : block.spawned = [] → ∀ next ∈ after.pending,
    next ∈ (server settings).continuation instruction rest block ∨ next ∈ before.pending
  others : block.spawned = [] → OthersBehind after

/-- Another coroutine takes a step, or the clean-up sends a message or executes
the first instruction of its plan. -/
theorem cleanUp_course {instruction : Instr} {rest : List Instr} (apart : OthersBehind before)
    (only : OnlyExpiries choice) (ahead : CleanUpPlans before (instruction :: rest))
    (step : (server settings).step choice before = some after) :
    CleanUpPlans after (instruction :: rest) ∧ OthersStep choice before ∨
      ∃ block, CleanUpStep settings choice before after instruction rest block := by
  cases ahead.step (sends_keepsCourse.at _) step with
  | ahead _ planned passed =>
      left
      refine ⟨planned, only, ?_⟩
      intro executed found
      rcases passed executed found with isSend | ⟨other, others, elsewhere, present⟩
      · exact sends_behind isSend
      · exact apart other _ present elsewhere executed List.mem_cons_self
  | @reached answer block executed effect state remaining others spawned =>
      right
      refine ⟨block, Config.executed_of_current executed, ⟨answer, effect⟩, state, remaining, ?_,
        ?_⟩
      · intro noTasks next member
        rcases mem_flatten_cases remaining others member with here | old | new
        · exact .inl here
        · exact .inr old
        · simp [noTasks] at new
      · intro noTasks other list found elsewhere
        rcases others other list elsewhere found with old | new
        · exact apart other list old elsewhere
        · simp [noTasks] at new
  | failed => exact absurd rfl (only.1 1)

theorem behind_of_others {config : ServerConfig} {remaining : List Instr}
    (others : OthersBehind config) (here : config.tasks[1]? = some remaining)
    (behind : ∀ instruction ∈ remaining, instruction.background = true) :
    ∀ instruction ∈ config.pending, instruction.background = true := by
  intro instruction member
  obtain ⟨list, listMem, member⟩ := List.mem_flatten.mp member
  obtain ⟨index, present⟩ := List.getElem?_of_mem listMem
  by_cases same : index = 1
  · subst same
    cases here.symm.trans present
    exact behind instruction member
  · exact others index list present same instruction member

theorem CleanUpStep.disconnecting {block : Block World Instr}
    (cleanUp : CleanUpStep settings choice before after (.handleDisconnect player connection) []
      block) : CleanUpStage after player connection ∧ OthersBehind after := by
  obtain ⟨answer, effect⟩ := cleanUp.effect
  have remaining := cleanUp.remaining
  have others := cleanUp.others
  cases effect
  exact ⟨.dequeueing (.of_getElem? remaining), others rfl⟩

theorem CleanUpStep.dequeueing {block : Block World Instr}
    (cleanUp : CleanUpStep settings choice before after (.dequeuePlayer player (some connection))
      [.markDisconnectedRead player connection] block) :
    CleanUpStage after player connection ∧ OthersBehind after := by
  obtain ⟨answer, effect⟩ := cleanUp.effect
  have remaining := cleanUp.remaining
  have others := cleanUp.others
  have state := cleanUp.state
  cases effect
  refine ⟨.reading ⟨_, remaining, ?_⟩ ?_, others rfl⟩
  · intro passed member
    simp only [World.dequeuePlayer, World.goOn_next] at member
    split at member <;> simp at member
    rw [member]
    rfl
  · rw [state]
    simp [World.isQueued, World.dequeuePlayer, World.updateMatchmaking, World.updateRedis,
      MatchmakingQueue.dequeuePlayer]

theorem CleanUpStep.reading {block : Block World Instr}
    (reads : ReadsMatch player connection choice before)
    (notQueued : before.state.isQueued player = false)
    (cleanUp : CleanUpStep settings choice before after (.markDisconnectedRead player connection)
      [] block) : CleanUpStage after player connection ∧ OthersBehind after := by
  obtain ⟨uninvolved, session, read, plays⟩ := reads cleanUp.executed
  obtain ⟨answer, effect⟩ := cleanUp.effect
  have remaining := cleanUp.remaining
  have others := cleanUp.others
  have pending := cleanUp.pending
  have state := cleanUp.state
  cases effect
  cases session with
  | none =>
      have finished : before.state.markDisconnectedRead player connection =
          before.state.goOn [] := by
        simp [World.markDisconnectedRead, read]
      rw [finished] at remaining others pending state
      have unmatched : Unmatched after player :=
        ⟨state ▸ notQueued, fun next member =>
          uninvolved next ((pending rfl next member).resolve_left (by simp [Machine.continuation]))⟩
      refine ⟨.left (behind_of_others (others rfl) remaining (by simp [Machine.continuation]))
        unmatched ⟨?_, ?_⟩, others rfl⟩
      · intro room game found active plays'
        rw [state] at found
        cases (plays room game found active plays').2
      · intro hash stored
        rw [state] at stored
        have stored : before.state.redis.sessions player = some hash := stored
        rw [stored] at read
        cases decoded : RedisSession.fromDict hash.fields <;>
          simp [SessionManager.getSession, decoded, Except.map] at read
  | some session =>
      have goesOn : before.state.markDisconnectedRead player connection =
          before.state.goOn [.markDisconnectedWrite player connection session.roomId] := by
        simp [World.markDisconnectedRead, read]
      rw [goesOn] at remaining others pending state
      refine ⟨.writing session.roomId (.of_getElem? remaining) ⟨state ▸ notQueued, ?_⟩ ?_,
        others rfl⟩
      · intro next member
        rcases pending rfl next member with new | old
        · have written : next = .markDisconnectedWrite player connection session.roomId := by
            simpa [Machine.continuation] using new
          rw [written]
          rfl
        · exact uninvolved next old
      · intro room game found active playing
        rw [state] at found
        exact plays room game found active playing

theorem CleanUpStep.writing {block : Block World Instr} {named : Option RoomId}
    (unmatched : Unmatched before player) (plays : PlaysOnly before player named)
    (cleanUp : CleanUpStep settings choice before after
      (.markDisconnectedWrite player connection named) [] block) :
    CleanUpStage after player connection ∧ OthersBehind after := by
  obtain ⟨answer, effect⟩ := cleanUp.effect
  have remaining := cleanUp.remaining
  have others := cleanUp.others
  have pending := cleanUp.pending
  have state := cleanUp.state
  cases effect
  have session : SessionLeft after player := by
    intro hash stored
    simp only [state, World.markDisconnectedWrite, World.goOn_state, World.updateRedis,
      Redis.updateSession, Function.update_self] at stored
    cases key : before.state.redis.sessions player <;> rw [key] at stored <;> cases stored <;> rfl
  have games : PlaysOnly after player named := by
    intro room game found active playing
    rw [state] at found
    exact plays room game found active playing
  cases named with
  | none =>
      refine ⟨.left (behind_of_others (others rfl) remaining
        (by simp [Machine.continuation, World.markDisconnectedWrite]))
        ⟨state ▸ unmatched.notQueued, fun next member => unmatched.uninvolved next
        ((pending rfl next member).resolve_left
        (by simp [Machine.continuation, World.markDisconnectedWrite]))⟩ ⟨?_, session⟩, others rfl⟩
      intro room game found active playing
      cases (games room game found active playing).2
  | some room =>
      refine ⟨.leaving room (.of_getElem? remaining) ⟨state ▸ unmatched.notQueued, ?_⟩ games
        session, others rfl⟩
      intro next member
      rcases pending rfl next member with new | old
      · have told : next = .handlePlayerDisconnect room player (some connection) := by
          simpa [Machine.continuation, World.markDisconnectedWrite] using new
        rw [told]
        rfl
      · exact unmatched.uninvolved next old

theorem CleanUpStep.leaving {block : Block World Instr}
    (unmatched : Unmatched before player) (plays : PlaysOnly before player (some room))
    (session : SessionLeft before player)
    (step : (server settings).step choice before = some after)
    (cleanUp : CleanUpStep settings choice before after
      (.handlePlayerDisconnect room player (some connection)) [] block) :
    CleanUpStage after player connection ∧ OthersBehind after := by
  obtain ⟨answer, effect⟩ := cleanUp.effect
  have remaining := cleanUp.remaining
  have others := cleanUp.others
  have pending := cleanUp.pending
  have state := cleanUp.state
  cases effect
  rcases before.state.handlePlayerDisconnect_cases settings room player (some connection) with
    ⟨ignored, finished⟩ | ⟨game, messages, found, inProgress, send, paused⟩
  · rw [finished] at remaining others pending state
    refine ⟨.left (behind_of_others (others rfl) remaining (by simp [Machine.continuation]))
      ⟨state ▸ unmatched.notQueued, fun next member => unmatched.uninvolved next
      ((pending rfl next member).resolve_left (by simp [Machine.continuation]))⟩
      ⟨?_, state ▸ session⟩, others rfl⟩
    intro other game found active playing
    rw [state] at found
    obtain ⟨inProgress, named⟩ := plays other game found active playing
    cases named
    exact absurd inProgress (ignored game found)
  · have outstanding := timer_created step cleanUp.executed found inProgress
    rw [paused] at remaining others pending state
    have goesOn next (member : next ∈ (server settings).continuation
        (.handlePlayerDisconnect room player (some connection)) []
        (({ before.state with
          engine := before.state.engine.write room
            { game with
              disconnectedPlayers := insert player game.disconnectedPlayers
              status := .paused } }).goOn
          (messages ++ [Instr.createDisconnectTimer room player (some connection)]))) :
        next.background = true ∧ next.involves player = false := by
      simp only [Machine.continuation, World.goOn_raises, World.goOn_next, Bool.false_eq_true,
        if_false, List.append_nil, List.mem_append, List.mem_singleton] at member
      rcases member with message | rfl
      · exact ⟨sends_behind (send next message), sends_involves (send next message)⟩
      · exact ⟨rfl, rfl⟩
    refine ⟨.left (behind_of_others (others rfl) remaining fun next member =>
      (goesOn next member).1) ⟨state ▸ unmatched.notQueued, fun next member =>
      (pending rfl next member).elim (fun new => (goesOn next new).2) (unmatched.uninvolved next)⟩
      ⟨?_, state ▸ session⟩, others rfl⟩
    intro other present foundAfter active playing
    rw [state, World.goOn_state, GameEngine.find_write (GameEngine.find_eq_some.mp found).1]
      at foundAfter
    split at foundAfter
    · rename_i same
      subst same
      cases foundAfter
      exact ⟨Finset.mem_insert_self _ _, outstanding⟩
    · rename_i different
      cases (plays other present foundAfter active playing).2
      exact absurd rfl different

theorem CleanUpStage.step (stage : CleanUpStage before player connection)
    (apart : OthersBehind before) (only : OnlyExpiries choice)
    (reads : ReadsMatch player connection choice before)
    (step : (server settings).step choice before = some after) :
    CleanUpStage after player connection ∧ OthersBehind after := by
  cases stage with
  | disconnecting ahead =>
      rcases cleanUp_course apart only ahead step with ⟨ahead, others⟩ | ⟨block, cleanUp⟩
      · exact ⟨.disconnecting ahead, others.apart step apart⟩
      · exact cleanUp.disconnecting
  | dequeueing ahead =>
      rcases cleanUp_course apart only ahead step with ⟨ahead, others⟩ | ⟨block, cleanUp⟩
      · exact ⟨.dequeueing ahead, others.apart step apart⟩
      · exact cleanUp.dequeueing
  | reading ahead notQueued =>
      rcases cleanUp_course apart only ahead step with ⟨ahead, others⟩ | ⟨block, cleanUp⟩
      · exact ⟨.reading ahead (others.notQueued step notQueued), others.apart step apart⟩
      · exact cleanUp.reading reads notQueued
  | writing named ahead unmatched plays =>
      rcases cleanUp_course apart only ahead step with ⟨ahead, others⟩ | ⟨block, cleanUp⟩
      · exact ⟨.writing named ahead (others.unmatched step unmatched)
          (plays.step others unmatched step), others.apart step apart⟩
      · exact cleanUp.writing unmatched plays
  | leaving room ahead unmatched plays session =>
      rcases cleanUp_course apart only ahead step with ⟨ahead, others⟩ | ⟨block, cleanUp⟩
      · exact ⟨.leaving room ahead (others.unmatched step unmatched)
          (plays.step others unmatched step) (session.step others unmatched step),
          others.apart step apart⟩
      · exact cleanUp.leaving unmatched plays session step
  | left behind unmatched recorded =>
      have others : OthersStep choice before :=
        ⟨only, fun instruction executed => behind _ (Config.mem_pending_of_executed executed)⟩
      exact ⟨.left (others.behind_pending step behind) (others.unmatched step unmatched)
        (recorded.step others unmatched step), others.apart step apart⟩

/-- Main result: a disconnect whose read of the session comes after the match is
recorded, whatever else the matching loop is at. -/
theorem disconnectsRecorded_of_readsMatch (settings : Settings) :
    DisconnectsRecorded settings ReadsMatch := by
  intro redis roomIds origin player connection config _ reached idle done
  have stage : CleanUpStage config player connection ∧ OthersBehind config := by
    clear idle done
    induction reached with
    | start =>
        refine ⟨.disconnecting (.of_getElem? rfl), ?_⟩
        intro other list found elsewhere
        match other with
        | 0 =>
            cases found
            simp [Instr.background]
        | 1 => exact absurd rfl elsewhere
        | other + 2 => cases found
    | step reached allowed step ih => exact ih.1.step ih.2 allowed.1 allowed.2 step
  have unfinished {instruction : Instr} {rest : List Instr}
      (ahead : CleanUpPlans config (instruction :: rest)) : False := by
    obtain ⟨earlier, present, -⟩ := ahead
    rw [done] at present
    simp at present
  cases stage.1 with
  | left behind unmatched recorded => exact recorded
  | disconnecting ahead | dequeueing ahead | reading ahead | writing _ ahead | leaving _ ahead =>
      exact (unfinished ahead).elim

/-- They are matched, Ada's clean-up runs, and then their game is created. -/
def leaveWhileMatched : List ServerChoice :=
  proceed 0 1 ++ proceed 1 4 ++ [.resume 0 (.drawn "room-1")] ++ proceed 0 1 ++
    [.resume 0 (.coin true)] ++ proceed 0 20

/-- What is wrong afterwards, as far as it can be computed. -/
def playsUnnoticed (config : ServerConfig) : Bool :=
  (match config.tasks with
    | [[.sleep _, .matchingLoop], []] => true
    | _ => false) &&
    (config.state.engine.find "room-1").any fun game =>
      game.status.isActive && decide ("ada" ∈ game.playerIds) &&
        decide ("ada" ∉ game.disconnectedPlayers)

theorem onlyExpiries_resume (task : Nat) (answer : Answer) :
    OnlyExpiries (.resume task answer) :=
  ⟨by simp, by simp⟩

theorem leaveWhileMatched_resumes : ∀ choice ∈ leaveWhileMatched, OnlyExpiries choice := by
  intro choice member
  simp only [leaveWhileMatched, proceed, List.mem_append, List.mem_replicate,
    List.mem_singleton] at member
  rcases member with ((((⟨-, rfl⟩ | ⟨-, rfl⟩) | rfl) | ⟨-, rfl⟩) | rfl) | ⟨-, rfl⟩ <;>
    exact onlyExpiries_resume _ _

/-- Ada has left, but nobody is told, and she plays on. -/
theorem leaveWhileMatched_not_recorded :
    ¬ DisconnectsRecorded { instanceId := "inst-1" } fun _ _ => unguarded := by
  intro always
  have unnoticed : ((server { instanceId := "inst-1" }).run waitTogether
      (booted {} [])).any (fun origin =>
        ((server { instanceId := "inst-1" }).run leaveWhileMatched
          (race origin.state "ada" "conn-1")).any playsUnnoticed) = true := by
    decide +kernel
  obtain ⟨origin, waiting, raced⟩ := Option.any_eq_true _ _ |>.mp unnoticed
  obtain ⟨config, executed, holds⟩ := Option.any_eq_true _ _ |>.mp raced
  obtain ⟨finished, plays⟩ := Bool.and_eq_true_iff.mp holds
  obtain ⟨game, found, playing⟩ := Option.any_eq_true _ _ |>.mp plays
  simp only [Bool.and_eq_true, decide_eq_true_eq] at playing
  obtain ⟨⟨active, member⟩, present⟩ := playing
  split at finished
  · rename_i seconds tasks
    have recorded := always {} [] origin "ada" "conn-1" config
      (Machine.reaches_of_run .start waiting)
      (Machine.reaches_of_run_guarded .start
        (fun choice member _ => ⟨leaveWhileMatched_resumes choice member, trivial⟩) executed)
      (.inr ⟨.sleep seconds, by rw [tasks]; rfl, .inl ⟨seconds, rfl⟩⟩) (by rw [tasks]; rfl)
    exact present (recorded.games "room-1" game found active member).1
  · cases finished

end TerritoryBackend

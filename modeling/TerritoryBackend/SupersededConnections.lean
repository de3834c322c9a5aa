import TerritoryBackend.ConnectionLifecycle
import TerritoryBackend.SinglePlace

/-!
# Superseded connections

The final clean-up of a connection works on what belongs to its player, without
looking whether a newer connection of the player has been registered.  It
leaves the player alone in runs where it finds nothing to work on after that,
and where no connection is registered over a clean-up that has read the session.
-/

namespace TerritoryBackend

open EventLoop

/-- Another connection of the player has been registered. -/
def World.superseded (world : World) (player : PlayerId) (connection : ConnectionId) : Bool :=
  (world.connections.playerConnections.lookup player).any fun newer =>
    decide (newer ≠ connection)

/-- What a superseded connection has to leave alone: the player's queue entry
and timestamp, session, and the standing of the games. -/
structure Untouched (player : PlayerId) (before after : World) : Prop where
  entry : after.redis.matchmaking.queue.lookup player =
    before.redis.matchmaking.queue.lookup player
  timestamp : after.redis.matchmaking.timestamps.lookup player =
    before.redis.matchmaking.timestamps.lookup player
  session : after.redis.sessions player = before.redis.sessions player
  games : ∀ room,
    (after.engine.games room).map (fun game => (game.status, game.disconnectedPlayers)) =
      (before.engine.games room).map fun game => (game.status, game.disconnectedPlayers)

namespace Instr

/-- The player and the connection of a final clean-up that has left the
registries. -/
def cleaning : Instr → Option (PlayerId × ConnectionId)
  | .dequeuePlayer player (some connection) | .markDisconnectedRead player connection
  | .markDisconnectedWrite player connection _
  | .handlePlayerDisconnect _ player (some connection)
  | .createDisconnectTimer _ player (some connection) => some (player, connection)
  | _ => none

/-- The instruction belongs to the final clean-up of a connection; the
messages sent there are not told from others. -/
def isCleanUpOf (player : PlayerId) (connection : ConnectionId) (instruction : Instr) : Bool :=
  match instruction with
  | .handleDisconnect cleaned closed => decide (cleaned = player ∧ closed = connection)
  | .sendPersonal .. | .awaitSend .. | .forceClose .. => true
  | _ => decide (instruction.cleaning = some (player, connection))

/-- The instruction ends a clean-up that has read the session. -/
def isCommitted (player : PlayerId) : Instr → Bool
  | .markDisconnectedWrite marked _ _ => decide (marked = player)
  | .createDisconnectTimer _ lost (some _) => decide (lost = player)
  | _ => false

def startsTimer (player : PlayerId) : Instr → Bool
  | .createDisconnectTimer _ lost _ => decide (lost = player)
  | _ => false

end Instr

/-- A final clean-up leaves a player with a newer connection alone, and starts
no timer for them. -/
def SupersededHarmless (settings : Settings) (start : ServerConfig)
    (guard : ServerChoice → ServerConfig → Prop) : Prop :=
  ∀ before choice after instruction player connection,
    (server settings).Reaches start guard before →
    guard choice before →
    (server settings).step choice before = some after →
    before.executed choice = some instruction →
    instruction.isCleanUpOf player connection = true →
    before.state.superseded player connection = true →
    Untouched player before.state after.state ∧ instruction.startsTimer player = false

/-- No connection is registered over a clean-up of the same player that has
read the session, and what a superseded clean-up does finds nothing: no queue
entry, no session, no game in progress. -/
structure CleanUpsTimely (choice : ServerChoice) (config : ServerConfig) : Prop where
  registering : ∀ task player connection, choice = .resume task .done →
    config.executed choice = some (.acceptConnection player connection) →
    ∀ instruction ∈ config.pending, instruction.isCommitted player = false
  dequeueing : ∀ player connection,
    config.executed choice = some (.dequeuePlayer player (some connection)) →
    config.state.superseded player connection = true →
    config.state.redis.matchmaking.queue.lookup player = none ∧
      config.state.redis.matchmaking.timestamps.lookup player = none
  marking : ∀ player connection,
    config.executed choice = some (.markDisconnectedRead player connection) →
    config.state.superseded player connection = true →
    ∀ session, SessionManager.getSession (config.state.redis.sessions player) ≠
      .ok (some session)
  leaving : ∀ room player connection,
    config.executed choice = some (.handlePlayerDisconnect room player (some connection)) →
    config.state.superseded player connection = true →
    ∀ game, config.state.engine.find room = some game → game.status ≠ .inProgress

variable {settings : Settings} {choice : ServerChoice} {before after : ServerConfig}

theorem World.superseded_of_indexed {world : World} {player : PlayerId}
    {connection newer : ConnectionId}
    (indexed : world.connections.playerConnections.lookup player = some newer)
    (different : newer ≠ connection) : world.superseded player connection = true := by
  simp [superseded, indexed, different]

namespace Instr

theorem cleaning_quiet {instruction : Instr} (isQuiet : instruction.quiet = true) :
    instruction.cleaning = none := by
  cases instruction with
  | markDisconnectedRead | markDisconnectedWrite | handlePlayerDisconnect
  | createDisconnectTimer => cases isQuiet
  | dequeuePlayer player caller =>
      cases caller with
      | none => rfl
      | some connection => cases isQuiet
  | _ => rfl

theorem cleaning_of_yields {instruction next : Instr} (yields : instruction.Yields next)
    {player : PlayerId} {connection : ConnectionId}
    (cleans : next.cleaning = some (player, connection)) :
    instruction = .handleDisconnect player connection ∨
      instruction.cleaning = some (player, connection) := by
  cases yields with
  | quiet _ isQuiet => simp [cleaning_quiet isQuiet] at cleans
  | dequeueing | marking =>
      cases cleans
      exact .inl rfl
  | marked | leaving => exact .inr cleans
  | @timing room lost caller =>
      cases caller with
      | none => cases cleans
      | some closed => exact .inr cleans
  | _ => cases cleans

theorem handles_of_cleaning {instruction : Instr} {player : PlayerId}
    {connection : ConnectionId} (cleans : instruction.cleaning = some (player, connection)) :
    instruction.handles connection = 1 := by
  unfold cleaning at cleans
  split at cleans <;> cases cleans <;> simp [handles]

theorem isCommitted_quiet {instruction : Instr} (isQuiet : instruction.quiet = true)
    (player : PlayerId) : instruction.isCommitted player = false := by
  cases instruction with
  | markDisconnectedWrite | createDisconnectTimer => cases isQuiet
  | _ => rfl

theorem committed_of_yields {instruction next : Instr} (yields : instruction.Yields next)
    {player : PlayerId} (committed : next.isCommitted player = true) :
    ∃ connection, instruction = .markDisconnectedRead player connection ∨
      ∃ room, instruction = .handlePlayerDisconnect room player (some connection) := by
  cases yields with
  | quiet _ isQuiet => simp [isCommitted_quiet isQuiet] at committed
  | @marked marked connection room =>
      cases of_decide_eq_true committed
      exact ⟨connection, .inl rfl⟩
  | @timing room lost caller =>
      cases caller with
      | none => cases committed
      | some connection =>
          cases of_decide_eq_true committed
          exact ⟨connection, .inr ⟨room, rfl⟩⟩
  | _ => cases committed

end Instr

/-- The clean-ups going on: their connections are indexed no more, and the
players of those that have read the session are not connected. -/
structure Retired (config : ServerConfig) : Prop where
  gone : ∀ instruction ∈ config.pending, ∀ player connection,
    instruction.cleaning = some (player, connection) →
    config.state.connections.playerConnections.lookup player ≠ some connection
  alone : ∀ instruction ∈ config.pending, ∀ player,
    instruction.isCommitted player = true →
    config.state.connections.playerConnections.lookup player = none

theorem gone_step (connected : Connected before) (retired : Retired before)
    (step : (server settings).step choice before = some after) {instruction : Instr}
    (pending : instruction ∈ after.pending) {player : PlayerId} {connection : ConnectionId}
    (cleans : instruction.cleaning = some (player, connection)) :
    after.state.connections.playerConnections.lookup player ≠ some connection := by
  have stillGone {earlier : Instr} (pending : earlier ∈ before.pending)
      (cleans : earlier.cleaning = some (player, connection)) :
      after.state.connections.playerConnections.lookup player ≠ some connection := by
    intro stored
    rcases indexed_before step stored with old | ⟨task, -, accepting⟩
    · exact retired.gone earlier pending player connection cleans old
    · have unhandled := (connected.accepting (Config.mem_pending_of_executed accepting)).1
        earlier pending
      rw [Instr.handles_of_cleaning cleans] at unhandled
      cases unhandled
  cases origin_of_step step pending with
  | pending _ old => exact stillGone old cleans
  | quiet _ isQuiet => simp [Instr.cleaning_quiet isQuiet] at cleans
  | yielded executed effect member yields =>
      rcases Instr.cleaning_of_yields yields cleans with rfl | cleaning
      · obtain ⟨_, block, effect, state⟩ := Machine.block_of_executed step executed
        cases effect
        rw [state]
        exact connected.indexed.not_indexed_disconnect player connection
      · exact stillGone (Config.mem_pending_of_executed executed) cleaning
  | _ => cases cleans

theorem alone_step (allowed : CleanUpsTimely choice before) (retired : Retired before)
    (step : (server settings).step choice before = some after) {instruction : Instr}
    (pending : instruction ∈ after.pending) {player : PlayerId}
    (committed : instruction.isCommitted player = true) :
    after.state.connections.playerConnections.lookup player = none := by
  rw [Option.eq_none_iff_forall_ne_some]
  intro newer stored
  cases origin_of_step step pending with
  | pending _ old =>
      rcases indexed_before step stored with indexed | ⟨task, rfl, accepting⟩
      · rw [retired.alone instruction old player committed] at indexed
        cases indexed
      · have uncommitted := allowed.registering task player newer rfl accepting instruction old
        rw [committed] at uncommitted
        cases uncommitted
  | quiet _ isQuiet => simp [Instr.isCommitted_quiet isQuiet] at committed
  | @yielded _ answer cause _ block executed effect member yields =>
      obtain ⟨connection, commits⟩ := Instr.committed_of_yields yields committed
      have cleaning : cause.cleaning = some (player, connection) := by
        rcases commits with rfl | ⟨room, rfl⟩ <;> rfl
      have indexed : before.state.connections.playerConnections.lookup player =
          some newer := by
        rcases indexed_before step stored with indexed | ⟨task, -, accepting⟩
        · exact indexed
        · cases executed.symm.trans accepting
          cases cleaning
      have different : newer ≠ connection := by
        rintro rfl
        exact retired.gone cause (Config.mem_pending_of_executed executed) player newer
          cleaning indexed
      have superseded := World.superseded_of_indexed indexed different
      rcases commits with rfl | ⟨room, rfl⟩
      · cases effect
        unfold World.markDisconnectedRead at member
        split at member
        · simp at member
        · exact allowed.marking player connection executed superseded _ ‹_›
        · simp at member
      · cases effect
        unfold World.handlePlayerDisconnect at member
        split at member
        · simp at member
        · obtain ⟨game, found, inProgress, -⟩ :=
            GameEngine.handlePlayerDisconnect_eq_some ‹_›
          exact allowed.leaving room player connection executed superseded game found inProgress
  | _ => cases committed

theorem retired_of_reaches {redis : Redis} {roomIds : List RoomId} {config : ServerConfig}
    (reached : (server settings).Reaches (booted redis roomIds) CleanUpsTimely config) :
    Retired config := by
  induction reached with
  | start =>
      constructor
      · intro instruction pending player connection cleans
        rcases List.mem_pair.mp pending with rfl | rfl <;> cases cleans
      · intro instruction pending player committed
        rcases List.mem_pair.mp pending with rfl | rfl <;> cases committed
  | step reached allowed stepTo ih =>
      constructor
      · intro _ pending _ _ cleans
        exact gone_step (connected_of_reaches reached) ih stepTo pending cleans
      · intro _ pending _ committed
        exact alone_step allowed ih stepTo pending committed

theorem Untouched.refl (player : PlayerId) (world : World) : Untouched player world world :=
  ⟨rfl, rfl, rfl, fun _ => rfl⟩

section Blocks

variable {player : PlayerId} {connection : ConnectionId} {instruction : Instr}
  {answer : Answer} {world : World} {block : Block World Instr}

theorem untouched_sending (player : PlayerId) (sends : instruction matches
      .sendPersonal .. | .awaitSend .. | .forceClose ..)
    (effect : instruction.block settings answer world = some block) :
    Untouched player world block.state := by
  cases instruction with
  | sendPersonal recipient message after =>
      cases effect
      unfold World.sendPersonal
      split <;> exact .refl player world
  | awaitSend recipient sent message after =>
      simp only [Instr.block, World.awaitSend] at effect
      split at effect <;> cases effect
      · exact ⟨rfl, rfl, rfl, fun _ => rfl⟩
      · exact .refl player world
      · exact ⟨rfl, rfl, rfl, fun _ => rfl⟩
  | forceClose closed =>
      cases effect
      exact ⟨rfl, rfl, rfl, fun _ => rfl⟩
  | _ => cases sends

theorem untouched_dequeue
    (unqueued : world.redis.matchmaking.queue.lookup player = none)
    (untimed : world.redis.matchmaking.timestamps.lookup player = none) :
    Untouched player world (world.dequeuePlayer player).state where
  entry := by
    simp [World.dequeuePlayer, World.updateMatchmaking, World.updateRedis,
      MatchmakingQueue.dequeuePlayer, unqueued]
  timestamp := by
    simp [World.dequeuePlayer, World.updateMatchmaking, World.updateRedis,
      MatchmakingQueue.dequeuePlayer, untimed]
  session := rfl
  games := fun _ => rfl

end Blocks

/-- Main result: superseded clean-ups are harmless as long as they find
nothing and nobody connects over one that has read the session. -/
theorem supersededHarmless_of_cleanUpsTimely (settings : Settings) (redis : Redis)
    (roomIds : List RoomId) :
    SupersededHarmless settings (booted redis roomIds) CleanUpsTimely := by
  intro before choice after instruction player connection reached allowed step executed cleans
    superseded
  have retired := retired_of_reaches reached
  have pending := Config.mem_pending_of_executed executed
  obtain ⟨answer, block, effect, state⟩ := Machine.block_of_executed step executed
  have effect : instruction.block settings answer before.state = some block := effect
  have uncommitted : instruction.isCommitted player = false := by
    by_contra committed
    have alone := retired.alone instruction pending player (Bool.not_eq_false _ ▸ committed)
    simp [World.superseded, alone] at superseded
  rw [state]
  unfold Instr.isCleanUpOf at cleans
  split at cleans
  · cases effect
    exact ⟨⟨rfl, rfl, rfl, fun _ => rfl⟩, rfl⟩
  · exact ⟨untouched_sending player rfl effect, rfl⟩
  · exact ⟨untouched_sending player rfl effect, rfl⟩
  · exact ⟨untouched_sending player rfl effect, rfl⟩
  · have cleaning := of_decide_eq_true cleans
    unfold Instr.cleaning at cleaning
    split at cleaning <;> cases cleaning
    · obtain ⟨unqueued, untimed⟩ := allowed.dequeueing player connection executed superseded
      cases effect
      exact ⟨untouched_dequeue unqueued untimed, rfl⟩
    · cases effect
      unfold World.markDisconnectedRead
      refine ⟨?_, rfl⟩
      split <;> exact .refl player before.state
    · simp [Instr.isCommitted] at uncommitted
    · cases effect
      unfold World.handlePlayerDisconnect
      refine ⟨?_, rfl⟩
      split
      · exact .refl player before.state
      · obtain ⟨game, found, inProgress, -⟩ := GameEngine.handlePlayerDisconnect_eq_some ‹_›
        exact absurd inProgress
          (allowed.leaving _ player connection executed superseded game found)
    · simp [Instr.isCommitted] at uncommitted

/-- Ada opens a second tab and looks for a match there before the handler of
the first tab notices that it has been closed. -/
def secondTab : List ServerChoice :=
  openConnection "ada" "conn-1" 2 7 ++ openConnection "ada" "conn-2" 3 8 ++
    findMatch 3 6 ++ .resume 2 .closed :: proceed 2 1

/-- The clean-up of the first tab takes her out of the queue. -/
theorem secondTab_not_harmless :
    ¬ SupersededHarmless { instanceId := "inst-1" } (booted {} []) unguarded := by
  intro harmless
  let machine := server { instanceId := "inst-1" }
  let choice : ServerChoice := .resume 2 .done
  have removed : (machine.run secondTab (booted {} [])).any (fun before =>
      (machine.step choice before).any fun after =>
        (before.executed choice).any (fun instruction =>
          instruction.isCleanUpOf "ada" "conn-1") &&
        before.state.superseded "ada" "conn-1" && before.state.isQueued "ada" &&
          !after.state.isQueued "ada") = true := by decide +kernel
  obtain ⟨before, executed, holds⟩ := Option.any_eq_true _ _ |>.mp removed
  obtain ⟨after, step, holds⟩ := Option.any_eq_true _ _ |>.mp holds
  simp only [Bool.and_eq_true, Bool.not_eq_true'] at holds
  obtain ⟨⟨⟨cleans, superseded⟩, queued⟩, unqueued⟩ := holds
  obtain ⟨instruction, resumed, cleans⟩ := Option.any_eq_true _ _ |>.mp cleans
  have untouched := (harmless before choice after instruction "ada" "conn-1"
    (Machine.reaches_of_run .start executed) trivial step resumed cleans superseded).1
  rw [World.isQueued, untouched.entry] at unqueued
  rw [World.isQueued, unqueued] at queued
  cases queued

end TerritoryBackend

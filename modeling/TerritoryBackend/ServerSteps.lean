import TerritoryBackend.Successors

/-!
# What a block can do

The two inversion lemmas every invariant of the server is derived from: how a
block changes the world, and which of the instructions it leaves to be executed
matter to the invariants.
-/

namespace TerritoryBackend

open EventLoop

namespace Instr

/-- How an instruction may change the world. -/
inductive Writes (settings : Settings) (world : World) : Instr → World → Prop where
  | nothing (instruction : Instr) : Writes settings world instruction world
  | register (player : PlayerId) (connection : ConnectionId) :
      Writes settings world (.acceptConnection player connection)
        (world.updateConnections fun manager => manager.register player connection)
  | disconnect (instruction : Instr) (connection : ConnectionId) :
      Writes settings world instruction
        (world.updateConnections fun manager => manager.disconnect connection)
  | sent (player : PlayerId) (connection : ConnectionId) (message : Message)
      (after : AfterSend) :
      Writes settings world (.awaitSend player connection message after)
        { world with
          journal := { world.journal with sent := world.journal.sent ++ [(player, message)] } }
  | published (player : PlayerId) (message : Message) :
      Writes settings world (.publish player message)
        { world with
          journal :=
            { world.journal with published := world.journal.published ++ [(player, message)] } }
  | session (instruction : Instr) (player : PlayerId) (command : SessionKey → SessionKey)
      (keepsRoom : ∀ key, SessionManager.storedRoom (command key) = SessionManager.storedRoom key ∨
        SessionManager.storedRoom (command key) = none) :
      Writes settings world instruction
        (world.updateRedis fun redis => redis.updateSession player command)
  | sessionRoom (player : PlayerId) (state : String) (room : RoomId) :
      Writes settings world (.updateSessionState player state (some room))
        (world.updateRedis fun redis => redis.updateSession player
          (SessionManager.updateSessionState state (some room) world.clock))
  | enqueue (player : PlayerId) (eloRating : Int) :
      Writes settings world (.enqueuePlayer player eloRating)
        (world.updateMatchmaking
          (world.redis.matchmaking.enqueuePlayer player eloRating world.clock))
  | dequeue (player : PlayerId) (caller : Option ConnectionId) :
      Writes settings world (.dequeuePlayer player caller)
        (world.updateMatchmaking (world.redis.matchmaking.dequeuePlayer player).1)
  | pop {queue : MatchmakingQueue} {pair : MatchedPair}
      (matched : world.redis.matchmaking.tryMatch settings world.clock = (queue, some pair)) :
      Writes settings world .matchingLoop (world.updateMatchmaking queue)
  | draw {room : RoomId} (pair : MatchedPair) (fresh : room ∉ world.roomIds) :
      Writes settings world (.createMatch pair) { world with roomIds := room :: world.roomIds }
  | store (room : RoomId) (pair : MatchedPair)
      (data : Option (RoomField → Option RedisText)) :
      Writes settings world (.storeRoom room pair)
        (world.updateRedis fun redis =>
          { redis with rooms := Function.update redis.rooms room data })
  | create (room : RoomId) (pair : MatchedPair) :
      Writes settings world (.createGame room pair)
        { world with engine := world.engine.createMatchedGame room pair world.clock }
  | setRoom (player : PlayerId) (room : RoomId) :
      Writes settings world (.setPlayerRoom player room)
        (world.updateRedis fun redis => redis.setPlayerRoom player room)
  | join (player : PlayerId) (room : RoomId) :
      Writes settings world (.joinRoom player room)
        (world.updateConnections fun manager => manager.joinPlayer player room)
  | act {room : RoomId} {player : PlayerId} {action data : Json} {game : ActiveGame}
      {result : ActiveGame × Bool} (found : world.engine.find room = some game)
      (passed : game.processAction player action data world.clock = .ok (.passed result)) :
      Writes settings world (.processAction room player action data)
        { world with engine := world.engine.write room result.1 }
  | declare (room : RoomId) :
      Writes settings world (.handleGameOver room)
        { world with
          journal := { world.journal with gameOvers := world.journal.gameOvers ++ [room] } }
  | persistTask (room : RoomId) (settled : ActiveGame) :
      Writes settings world (.createPersistTask room settled)
        { world with
          journal :=
            { world.journal with persistTasks := world.journal.persistTasks ++ [room] } }
  | record (room : RoomId) (settled game : ActiveGame) :
      Writes settings world (.persistResult room settled)
        { world with
          journal :=
            { world.journal with
              matchRecords := world.journal.matchRecords ++ [⟨room, settled, game⟩] } }
  | snapshot (room : RoomId) (document : Json) :
      Writes settings world (.setSnapshot room document)
        (world.updateRedis fun redis =>
          { redis with roomStates := Function.update redis.roomStates room (some document) })
  | cleanUp {room : RoomId} {game : ActiveGame}
      (found : world.engine.find room = some game) :
      Writes settings world (.cleanupGame room)
        { world with
          engine := world.engine.pop room
          connections :=
            game.playerIds.foldl ConnectionManager.releasePlayer world.connections }
  | deleteKeys (room : RoomId) (playerIds : List PlayerId) :
      Writes settings world (.deleteRoomKeys room playerIds)
        (world.updateRedis fun redis => redis.deleteRoomKeys room playerIds)
  | pause {room : RoomId} {player : PlayerId} (caller : Option ConnectionId)
      {engine : GameEngine}
      (paused : world.engine.handlePlayerDisconnect room player = some engine) :
      Writes settings world (.handlePlayerDisconnect room player caller)
        { world with engine := engine }
  | forfeit {room : RoomId} {player : PlayerId} {deadline : Time} {engine : GameEngine}
      (due : deadline ≤ world.clock)
      (forfeited : world.engine.disconnectTimer room player = some engine) :
      Writes settings world (.disconnectTimerWakes room player deadline)
        { world with engine := engine }
  | resume {room : RoomId} {player : PlayerId} {engine : GameEngine} {game : ActiveGame}
      (resumed : world.engine.handlePlayerReconnect room player = some (engine, game)) :
      Writes settings world (.handlePlayerReconnect room player)
        { world with
          engine := engine
          connections := world.connections.joinPlayer player room }

/-- The instructions whose being pending matters to no invariant below: reads,
loops, ordinary messages, and writes that anyone may make at any time. -/
def quiet : Instr → Bool
  | .sendPersonal _ message _ | .awaitSend _ _ message _ | .publish _ message =>
      message.gameOverRoom.isNone
  | .updateSessionState _ _ room => room.isNone
  | .dequeuePlayer _ caller => caller.isNone
  | .forceClose .. | .checkRateLimit .. | .updateActivity .. | .routeMessage ..
  | .getSessionElo .. | .getPlayerRoom .. | .enqueuePlayer .. | .queueRank .. | .queueSize ..
  | .matchingLoop | .storeRoom .. | .offerMatch .. | .sendGameStarted .. | .processAction ..
  | .sendStateUpdate .. | .saveSnapshot .. | .setSnapshot .. | .snapshotLoop | .sleep ..
  | .wake .. => true
  | _ => false

/-- Which instructions a block may leave to be executed, in its own coroutine
or in one it starts. -/
inductive Yields : Instr → Instr → Prop where
  | quiet (instruction : Instr) {next : Instr} (isQuiet : next.quiet = true) :
      Yields instruction next
  | connect {player : PlayerId} {connection : ConnectionId} :
      Yields (.connect player connection) (.acceptConnection player connection)
  | accepted {player : PlayerId} {connection : ConnectionId} :
      Yields (.acceptConnection player connection) (.getSession player connection)
  | restoring {player : PlayerId} {connection : ConnectionId} :
      Yields (.getSession player connection) (.attemptReconnectRead player connection)
  | creating {player : PlayerId} {connection : ConnectionId} :
      Yields (.getSession player connection) (.createSession player connection)
  | claiming {player : PlayerId} {connection : ConnectionId} (room : Option RoomId) :
      Yields (.attemptReconnectRead player connection)
        (.attemptReconnectWrite player connection room)
  | unclaimed {player : PlayerId} {connection : ConnectionId} :
      Yields (.attemptReconnectRead player connection) (.acknowledge player connection)
  | reconnecting {player : PlayerId} {connection : ConnectionId} {room : RoomId} :
      Yields (.attemptReconnectWrite player connection (some room))
        (.handlePlayerReconnect room player)
  | claimed {player : PlayerId} {connection : ConnectionId} {room : Option RoomId} :
      Yields (.attemptReconnectWrite player connection room) (.acknowledge player connection)
  | created {player : PlayerId} {connection : ConnectionId} :
      Yields (.createSession player connection) (.acknowledge player connection)
  | acknowledged {player : PlayerId} {connection : ConnectionId} :
      Yields (.acknowledge player connection) (.receive player connection)
  | received {player : PlayerId} {connection : ConnectionId} :
      Yields (.receive player connection) (.receive player connection)
  | dequeueing {player : PlayerId} {connection : ConnectionId} :
      Yields (.handleDisconnect player connection) (.dequeuePlayer player (some connection))
  | marking {player : PlayerId} {connection : ConnectionId} :
      Yields (.handleDisconnect player connection) (.markDisconnectedRead player connection)
  | marked {player : PlayerId} {connection : ConnectionId} (room : Option RoomId) :
      Yields (.markDisconnectedRead player connection)
        (.markDisconnectedWrite player connection room)
  | leaving {player : PlayerId} {connection : ConnectionId} {room : RoomId} :
      Yields (.markDisconnectedWrite player connection (some room))
        (.handlePlayerDisconnect room player (some connection))
  | sending {player : PlayerId} {message : Message} {after : AfterSend}
      (connection : ConnectionId) :
      Yields (.sendPersonal player message after) (.awaitSend player connection message after)
  | unsendable {player : PlayerId} {message : Message} {after : AfterSend} :
      Yields (.sendPersonal player message after) (.publish player message)
  | unsent {player : PlayerId} {connection : ConnectionId} {message : Message}
      {after : AfterSend} :
      Yields (.awaitSend player connection message after) (.publish player message)
  | matched (pair : MatchedPair) : Yields .matchingLoop (.createMatch pair)
  | drawn {pair : MatchedPair} (room : RoomId) :
      Yields (.createMatch pair) (.createGame room pair)
  | assigning {room : RoomId} {pair : MatchedPair} {player : PlayerId}
      (plays : player ∈ pair.playerIds) :
      Yields (.createGame room pair) (.setPlayerRoom player room)
  | stating {room : RoomId} {pair : MatchedPair} {player : PlayerId}
      (plays : player ∈ pair.playerIds) :
      Yields (.createGame room pair)
        (.updateSessionState player PlayerConnectionState.inGame.value (some room))
  | joining {room : RoomId} {pair : MatchedPair} {player : PlayerId}
      (plays : player ∈ pair.playerIds) :
      Yields (.createGame room pair) (.joinRoom player room)
  | ended {room : RoomId} {player : PlayerId} {action data : Json} :
      Yields (.processAction room player action data) (.handleGameOver room)
  | forfeited {room : RoomId} {player : PlayerId} {deadline : Time} :
      Yields (.disconnectTimerWakes room player deadline) (.handleGameOver room)
  | announcing {room : RoomId} (player : PlayerId) (settled : ActiveGame) :
      Yields (.handleGameOver room) (.sendGameOver room player settled)
  | persisting {room : RoomId} (settled : ActiveGame) :
      Yields (.handleGameOver room) (.createPersistTask room settled)
  | cleaning {room : RoomId} : Yields (.handleGameOver room) (.cleanupGame room)
  | announced {room : RoomId} {player : PlayerId} {settled : ActiveGame} {message : Message}
      (about : message.gameOverRoom = some room) :
      Yields (.sendGameOver room player settled) (.sendPersonal player message .publish)
  | persisted {room : RoomId} {settled : ActiveGame} :
      Yields (.createPersistTask room settled) (.persistResult room settled)
  | deleting {room : RoomId} (playerIds : List PlayerId) :
      Yields (.cleanupGame room) (.deleteRoomKeys room playerIds)
  | timing {room : RoomId} {player : PlayerId} {caller : Option ConnectionId} :
      Yields (.handlePlayerDisconnect room player caller)
        (.createDisconnectTimer room player caller)
  | timed {room : RoomId} {player : PlayerId} {caller : Option ConnectionId} :
      Yields (.createDisconnectTimer room player caller) (.disconnectTimer room player)
  | started {room : RoomId} {player : PlayerId} (deadline : Time) :
      Yields (.disconnectTimer room player) (.disconnectTimerWakes room player deadline)

variable {settings : Settings} {instruction : Instr} {answer : Answer} {world : World}
  {block : Block World Instr}

theorem block_writes
    (effect : instruction.block settings answer world = some block) :
    Writes settings world instruction block.state := by
  cases instruction
  -- the blocks that read, decide and send
  case connect | getSession | attemptReconnectRead | acknowledge | routeMessage
      | getSessionElo | getPlayerRoom | markDisconnectedRead | sendPersonal | queueRank
      | queueSize | sendGameStarted | sendGameOver | createDisconnectTimer | disconnectTimer
      | snapshotLoop | sleep =>
    cases effect
    simp only [World.connect, World.getSession, World.attemptReconnectRead, World.acknowledge,
      World.routeMessage, World.getSessionElo, World.getPlayerRoom, World.markDisconnectedRead,
      World.sendPersonal, World.queueRank, World.queueSize, World.sendGameStarted,
      World.sendGameOver, World.createDisconnectTimer, World.disconnectTimer,
      World.snapshotLoop, World.sleep, World.withGame, World.showing]
    (repeat' split) <;> exact .nothing _
  case sendStateUpdate room player action data =>
    cases World.sendStateUpdate_eq_some effect
    simp only [World.withGame, World.showing]
    (repeat' split) <;> exact .nothing _
  case receive | checkRateLimit | offerMatch | saveSnapshot | wake =>
    simp only [Instr.block, World.receive, World.checkRateLimit, World.offerMatch,
      World.saveSnapshot, World.wake] at effect
    (repeat' split at effect) <;> cases effect <;> exact .nothing _
  case acceptConnection player connection =>
    simp only [Instr.block, World.acceptConnection] at effect
    split at effect <;> cases effect
    · exact .register player connection
    · exact .nothing _
  case attemptReconnectWrite player connection room =>
    cases effect
    exact .session _ player _ fun key =>
      .inl (SessionManager.storedRoom_attemptReconnect settings connection world.clock key)
  case createSession player connection =>
    cases effect
    exact .session _ player _ fun key => .inr rfl
  case updateActivity player =>
    cases effect
    exact .session _ player _ fun key =>
      .inl (SessionManager.storedRoom_updateActivity settings world.clock key)
  case updateSessionState player state room =>
    cases effect
    cases room with
    | none =>
        exact .session _ player _ fun key =>
          .inl (SessionManager.storedRoom_updateSessionState state none world.clock key)
    | some room => exact .sessionRoom player state room
  case handleDisconnect player connection =>
    cases effect
    exact .disconnect _ connection
  case markDisconnectedWrite player connection room =>
    cases effect
    exact .session _ player _ fun key =>
      .inl (SessionManager.storedRoom_markDisconnected settings world.clock key)
  case awaitSend player connection message after =>
    simp only [Instr.block, World.awaitSend] at effect
    split at effect <;> cases effect
    · exact .sent player connection message after
    · exact .nothing _
    · exact .disconnect _ connection
  case forceClose connection =>
    cases effect
    exact .disconnect _ connection
  case publish player message =>
    cases World.publish_eq_some effect
    exact .published player message
  case enqueuePlayer player eloRating =>
    cases effect
    exact .enqueue player eloRating
  case dequeuePlayer player caller =>
    cases effect
    exact .dequeue player caller
  case matchingLoop =>
    simp only [Instr.block, World.matchingLoop] at effect
    split at effect
    · split at effect
      · rename_i queue pair matched
        cases effect
        exact .pop matched
      · rename_i queue unmatched
        cases effect
        rw [MatchmakingQueue.tryMatch_eq_none unmatched]
        exact .nothing _
    · cases effect
      exact .nothing _
    · cases effect
  case createMatch pair =>
    simp only [Instr.block, World.createMatch] at effect
    split at effect
    · split at effect <;> cases effect
      exact .draw pair ‹_›
    · cases effect
  case storeRoom room pair =>
    cases effect
    exact .store room pair _
  case createGame room pair =>
    cases effect
    exact .create room pair
  case setPlayerRoom player room =>
    cases effect
    exact .setRoom player room
  case joinRoom player room =>
    cases effect
    exact .join player room
  case processAction room player action data =>
    cases effect
    rcases world.processAction_cases settings room player action data with
      ⟨error, refused⟩ | raised | ⟨game, result, found, passed, accepted⟩
    · rw [refused]
      exact .nothing _
    · rw [raised]
      exact .nothing _
    · rw [accepted]
      exact .act found passed
  case handleGameOver room =>
    cases effect
    simp only [World.handleGameOver, World.withGame]
    split
    · exact .declare room
    · exact .nothing _
  case createPersistTask room settled =>
    cases effect
    exact .persistTask room settled
  case persistResult room settled =>
    cases effect
    simp only [World.persistResult, World.withGame]
    split
    · exact .record room settled _
    · exact .nothing _
  case setSnapshot room document =>
    cases effect
    exact .snapshot room document
  case cleanupGame room =>
    cases effect
    unfold World.cleanupGame
    split
    · exact .nothing _
    · exact .cleanUp ‹_›
  case deleteRoomKeys room playerIds =>
    cases effect
    exact .deleteKeys room playerIds
  case handlePlayerDisconnect room player caller =>
    cases effect
    unfold World.handlePlayerDisconnect
    split
    · exact .nothing _
    · simp only [World.withGame]
      split <;> exact .pause caller ‹_›
  case disconnectTimerWakes room player deadline =>
    simp only [Instr.block, World.disconnectTimerWakes] at effect
    split at effect
    · cases effect
    · split at effect <;> cases effect
      · exact .nothing _
      · exact .forfeit (not_lt.mp ‹_›) ‹_›
  case handlePlayerReconnect room player =>
    cases effect
    unfold World.handlePlayerReconnect
    split
    · exact .nothing _
    · simp only [World.showing]
      split <;> exact .resume ‹_›

/-- What follows a message is the message published, or another message that is
about no end of a game. -/
theorem mem_afterSend_next {after : AfterSend} {player : PlayerId} {message : Message}
    {sent : Bool} {next : Instr} (member : next ∈ after.next player message sent) :
    next = .publish player message ∨ ∃ recipient text, text.gameOverRoom = none ∧
      (next = .publish recipient text ∨ ∃ later, next = .sendPersonal recipient text later) := by
  cases after with
  | ignore => simp [AfterSend.next] at member
  | publish =>
      cases sent <;> simp [AfterSend.next] at member
      exact .inl member
  | offerSecond room pair coin =>
      simp only [AfterSend.next, List.mem_singleton] at member
      exact .inr ⟨_, _, by simp, .inr ⟨_, member⟩⟩
  | offerPublish room pair coin sentA =>
      simp only [AfterSend.next, List.mem_append] at member
      rcases member with member | member <;> split at member <;> simp at member <;>
        exact .inr ⟨_, _, by simp, .inl member⟩

theorem mem_afterSend_quiet {after : AfterSend} {player : PlayerId} {message : Message}
    {sent : Bool} {next : Instr} (member : next ∈ after.next player message sent) :
    next = .publish player message ∨ next.quiet = true := by
  rcases mem_afterSend_next member with same | ⟨recipient, text, plain, rfl | ⟨later, rfl⟩⟩
  · exact .inl same
  · exact .inr (by simp [quiet, plain])
  · exact .inr (by simp [quiet, plain])

/-- The instruction writes to the player's session. -/
def writesSession (player : PlayerId) : Instr → Bool
  | .attemptReconnectWrite written _ _ | .createSession written _ | .updateActivity written
  | .updateSessionState written _ _ | .markDisconnectedWrite written _ _ =>
      decide (written = player)
  | _ => false

theorem sessions_block {player : PlayerId}
    (effect : instruction.block settings answer world = some block)
    (idle : instruction.writesSession player = false) :
    block.state.redis.sessions player = world.redis.sessions player := by
  cases instruction with
  | attemptReconnectWrite written | createSession written | updateActivity written
  | updateSessionState written | markDisconnectedWrite written =>
      cases effect
      have different : player ≠ written := fun same => by simp [writesSession, same] at idle
      simp [World.attemptReconnectWrite, World.createSession, World.updateActivity,
        World.updateSessionState, World.markDisconnectedWrite, World.updateRedis,
        Redis.updateSession, different]
  | processAction room actor action data =>
      cases effect
      rcases world.processAction_cases settings room actor action data with
        ⟨error, refused⟩ | raised | ⟨game, result, -, -, accepted⟩
      · rw [refused]
        rfl
      · rw [raised]
        rfl
      · rw [accepted]
        rfl
  | acceptConnection | receive | checkRateLimit | awaitSend | publish | matchingLoop
  | createMatch | offerMatch | saveSnapshot | disconnectTimerWakes | wake =>
      simp only [Instr.block, World.acceptConnection, World.receive, World.checkRateLimit,
        World.awaitSend, World.publish, World.matchingLoop, World.createMatch, World.offerMatch,
        World.saveSnapshot, World.disconnectTimerWakes, World.wake] at effect
      (repeat' split at effect) <;> cases effect <;> rfl
  | connect | getSession | attemptReconnectRead | routeMessage | getSessionElo | getPlayerRoom
  | markDisconnectedRead | sendPersonal | sendGameStarted | handleGameOver | sendGameOver
  | persistResult | cleanupGame | handlePlayerDisconnect | handlePlayerReconnect =>
      cases effect
      simp only [World.connect, World.getSession, World.attemptReconnectRead,
        World.routeMessage, World.getSessionElo, World.getPlayerRoom, World.markDisconnectedRead,
        World.sendPersonal, World.sendGameStarted, World.handleGameOver, World.sendGameOver,
        World.persistResult, World.cleanupGame, World.handlePlayerDisconnect,
        World.handlePlayerReconnect, World.withGame, World.showing]
      (repeat' split) <;> rfl
  | sendStateUpdate room player action data =>
      cases World.sendStateUpdate_eq_some effect
      simp only [World.withGame, World.showing]
      (repeat' split) <;> rfl
  | _ =>
      cases effect
      rfl

theorem Leaves.yields {next : Instr} (leaves : Leaves settings world answer instruction next) :
    Yields instruction next := by
  cases leaves with
  | notifying _ _ isNotice =>
      exact .quiet _ (by simp [quiet, Message.gameOverRoom_of_notice isNotice])
  | connect => exact .connect
  | accepted => exact .accepted
  | restoring => exact .restoring
  | creating => exact .creating
  | claiming room => exact .claiming room
  | unclaimed => exact .unclaimed
  | reconnecting => exact .reconnecting
  | claimed => exact .claimed
  | created => exact .created
  | acknowledged => exact .acknowledged
  | received => exact .received
  | dequeueing => exact .dequeueing
  | marking => exact .marking
  | marked room => exact .marked room
  | leaving => exact .leaving
  | sending connection => exact .sending connection
  | unsendable goesOn =>
      rcases mem_afterSend_quiet goesOn with rfl | isQuiet
      · exact .unsendable
      · exact .quiet _ isQuiet
  | handingOn sent goesOn =>
      rcases mem_afterSend_quiet goesOn with rfl | isQuiet
      · exact .unsent
      · exact .quiet _ isQuiet
  | matched => exact .matched _
  | registering => exact .drawn _
  | assigning plays => exact .assigning plays
  | stating plays => exact .stating plays
  | joining plays => exact .joining plays
  | offering => exact .quiet _ (by simp [quiet])
  | ended => exact .ended
  | forfeited => exact .forfeited
  | announcing player settled => exact .announcing player settled
  | announced => exact .announced rfl
  | persisting settled => exact .persisting settled
  | persisted => exact .persisted
  | cleaning => exact .cleaning
  | deleting => exact .deleting _
  | timing => exact .timing
  | timed => exact .timed
  | counting deadline => exact .started deadline
  | _ => exact .quiet _ rfl

theorem block_yields (effect : instruction.block settings answer world = some block)
    {next : Instr} (member : next ∈ block.next ∨ next ∈ block.spawned.flatten) :
    Yields instruction next :=
  (block_leaves effect member).yields

/-- An exception ends the message loop of a connection with its final clean-up,
and makes a background loop pause and go on. -/
theorem unwind_cases {instructions : List Instr} {next : Instr}
    (member : next ∈ unwind settings instructions) :
    (∃ player connection, .receive player connection ∈ instructions ∧
        next = .handleDisconnect player connection) ∨
      ∃ loop seconds, loop ∈ instructions ∧ (loop = .matchingLoop ∨ loop = .snapshotLoop) ∧
        (next = .sleep seconds ∨ next = loop) := by
  unfold unwind at member
  cases found : instructions.findSome? (handler settings) with
  | none => simp [found] at member
  | some frame =>
      obtain ⟨instruction, present, handled⟩ := List.exists_of_findSome?_eq_some found
      rw [found, Option.getD_some] at member
      unfold handler at handled
      split at handled <;> cases handled
      · exact .inl ⟨_, _, present, List.mem_singleton.mp member⟩
      · exact .inr ⟨_, _, present, .inl rfl, List.mem_pair.mp member⟩
      · exact .inr ⟨_, _, present, .inr rfl, List.mem_pair.mp member⟩

/-- Unwinding leaves a loop, or the final clean-up of a connection whose
message loop was being executed. -/
theorem mem_unwind {instructions : List Instr} {next : Instr}
    (member : next ∈ unwind settings instructions) :
    next.quiet = true ∨ ∃ player connection, .receive player connection ∈ instructions ∧
      next = .handleDisconnect player connection := by
  rcases unwind_cases member with clean | ⟨loop, seconds, -, rfl | rfl, rfl | rfl⟩
  · exact .inr clean
  · exact .inl rfl
  · exact .inl rfl
  · exact .inl rfl
  · exact .inl rfl

/-- A weight that no sleep has, and no final clean-up unless the message loop it
ends has it, is not made by exceptions. -/
theorem unwindsWithin {weight : Instr → Nat} (sleeps : ∀ seconds, weight (.sleep seconds) = 0)
    (cleanUp : ∀ player connection,
      weight (.handleDisconnect player connection) ≤ weight (.receive player connection)) :
    (server settings).UnwindsWithin weight := by
  intro task
  show ((unwind settings task).map weight).sum ≤ (task.map weight).sum
  unfold unwind
  cases found : task.findSome? (handler settings) with
  | none => exact Nat.zero_le _
  | some frame =>
      obtain ⟨loop, loopMem, handled⟩ := List.exists_of_findSome?_eq_some found
      have bounded : (frame.map weight).sum ≤ weight loop := by
        unfold handler at handled
        split at handled <;> cases handled
        · simpa using cleanUp _ _
        · simp [sleeps]
        · simp [sleeps]
      exact bounded.trans (List.single_le_sum (by simp) _ (List.mem_map_of_mem loopMem))

end Instr

/-- What an event from outside changes, and the coroutines it starts. -/
inductive ServerEvent.Happens (world : World) : ServerEvent → World → List (List Instr) → Prop where
  | accept {player : PlayerId} {connection : ConnectionId}
      (fresh : connection ∉ world.connectionIds) :
      Happens world (.accept player connection)
        { world with connectionIds := connection :: world.connectionIds }
        [[.connect player connection]]
  | sessionExpires (player : PlayerId) :
      Happens world (.sessionExpires player)
        (world.updateRedis fun redis => redis.updateSession player RedisHash.lapse) []
  | playerRoomExpires (player : PlayerId) :
      Happens world (.playerRoomExpires player)
        (world.updateRedis fun redis =>
          { redis with playerRooms := Function.update redis.playerRooms player none }) []
  | roomStateExpires (room : RoomId) :
      Happens world (.roomStateExpires room)
        (world.updateRedis fun redis =>
          { redis with roomStates := Function.update redis.roomStates room none }) []
  | advance {seconds : Time} (forward : 0 ≤ seconds) :
      Happens world (.advance seconds) { world with clock := world.clock + seconds } []
  | callProcessAction (room : RoomId) (player : PlayerId) (action data : Json) :
      Happens world (.callProcessAction room player action data) world
        [[.processAction room player action data]]
  | callHandlePlayerDisconnect (room : RoomId) (player : PlayerId) :
      Happens world (.callHandlePlayerDisconnect room player) world
        [[.handlePlayerDisconnect room player none]]
  | callHandlePlayerReconnect (room : RoomId) (player : PlayerId) :
      Happens world (.callHandlePlayerReconnect room player) world
        [[.handlePlayerReconnect room player]]

theorem ServerEvent.happens {event : ServerEvent} {world after : World}
    {spawned : List (List Instr)} (effect : event.effect world = some (after, spawned)) :
    event.Happens world after spawned := by
  cases event with
  | accept player connection =>
      simp only [ServerEvent.effect] at effect
      split at effect <;> cases effect
      exact .accept ‹_›
  | advance seconds =>
      simp only [ServerEvent.effect] at effect
      split at effect <;> cases effect
      exact .advance ‹_›
  | _ =>
      cases effect
      constructor

/-- The coroutines started from outside. -/
theorem ServerEvent.mem_spawned {event : ServerEvent} {world after : World}
    {spawned : List (List Instr)} (effect : event.effect world = some (after, spawned))
    {next : Instr} (member : next ∈ spawned.flatten) :
    next.quiet = true ∨
      (∃ player connection, event = .accept player connection ∧
        connection ∉ world.connectionIds ∧ next = .connect player connection) ∨
      (∃ room player, event = .callHandlePlayerDisconnect room player ∧
        next = .handlePlayerDisconnect room player none) ∨
      ∃ room player, event = .callHandlePlayerReconnect room player ∧
        next = .handlePlayerReconnect room player := by
  cases ServerEvent.happens effect with
  | accept fresh =>
      simp at member
      exact .inr (.inl ⟨_, _, rfl, fresh, member⟩)
  | callProcessAction room player action data =>
      simp at member
      exact .inl (member ▸ rfl)
  | callHandlePlayerDisconnect room player =>
      simp at member
      exact .inr (.inr (.inl ⟨room, player, rfl, member⟩))
  | callHandlePlayerReconnect room player =>
      simp at member
      exact .inr (.inr (.inr ⟨room, player, rfl, member⟩))
  | _ => simp at member

inductive Origin (settings : Settings) (before : ServerConfig) :
    ServerChoice → Instr → Prop where
  | pending (choice : ServerChoice) {next : Instr} (member : next ∈ before.pending) :
      Origin settings before choice next
  | quiet (choice : ServerChoice) {next : Instr} (isQuiet : next.quiet = true) :
      Origin settings before choice next
  | yielded {choice : ServerChoice} {answer : Answer} {instruction next : Instr}
      {block : Block World Instr} (executed : before.executed choice = some instruction)
      (effect : instruction.block settings answer before.state = some block)
      (member : next ∈ block.next ∨ next ∈ block.spawned.flatten)
      (yields : instruction.Yields next) : Origin settings before choice next
  | unwound (choice : ServerChoice) {player : PlayerId} {connection : ConnectionId}
      (member : .receive player connection ∈ before.pending) :
      Origin settings before choice (.handleDisconnect player connection)
  | accepted {player : PlayerId} {connection : ConnectionId}
      (fresh : connection ∉ before.state.connectionIds) :
      Origin settings before (.event (.accept player connection)) (.connect player connection)
  | calledDisconnect (room : RoomId) (player : PlayerId) :
      Origin settings before (.event (.callHandlePlayerDisconnect room player))
        (.handlePlayerDisconnect room player none)
  | calledReconnect (room : RoomId) (player : PlayerId) :
      Origin settings before (.event (.callHandlePlayerReconnect room player))
        (.handlePlayerReconnect room player)

variable {settings : Settings} {choice : ServerChoice} {before after : ServerConfig}

theorem origin_of_step (step : (server settings).step choice before = some after)
    {next : Instr} (member : next ∈ after.pending) : Origin settings before choice next := by
  cases Machine.source_of_step step member with
  | pending _ member => exact .pending _ member
  | yielded executed effect member =>
      exact .yielded executed effect member (Instr.block_yields effect member)
  | unwound _ present unwound =>
      rcases Instr.mem_unwind unwound with isQuiet | ⟨player, connection, loopMem, rfl⟩
      · exact .quiet _ isQuiet
      · exact .unwound _ (List.mem_flatten.mpr ⟨_, present, loopMem⟩)
  | started effect started =>
      rcases ServerEvent.mem_spawned effect started with
        isQuiet | ⟨player, connection, rfl, fresh, rfl⟩ | ⟨room, player, rfl, rfl⟩ |
          ⟨room, player, rfl, rfl⟩
      · exact .quiet _ isQuiet
      · exact .accepted fresh
      · exact .calledDisconnect room player
      · exact .calledReconnect room player

inductive WorldStep (settings : Settings) (before : ServerConfig) :
    ServerChoice → World → Prop where
  | wrote {choice : ServerChoice} {instruction : Instr} {after : World}
      (executed : before.executed choice = some instruction)
      (writes : instruction.Writes settings before.state after) :
      WorldStep settings before choice after
  | failed (task : Nat) : WorldStep settings before (.fail task) before.state
  | happened {event : ServerEvent} {after : World} {spawned : List (List Instr)}
      (effect : event.effect before.state = some (after, spawned)) :
      WorldStep settings before (.event event) after

theorem worldStep_of_step (step : (server settings).step choice before = some after) :
    WorldStep settings before choice after.state := by
  cases Machine.step_cases step with
  | resumed current effect =>
      exact .wrote (Config.executed_of_current current) (Instr.block_writes effect)
  | failed current fallible => exact .failed _
  | happened effect => exact .happened effect

inductive GameChange (world : World) (room : RoomId) : Instr → World → Prop where
  | unchanged (instruction : Instr) {after : World}
      (games : after.engine.games room = world.engine.games room)
      (live : room ∈ after.engine.live ↔ room ∈ world.engine.live) :
      GameChange world room instruction after
  | created (pair : MatchedPair) {after : World}
      (games : after.engine.games room =
        some (ActiveGame.create room pair.playerIds pair.playerElos world.clock))
      (live : room ∈ after.engine.live) :
      GameChange world room (.createGame room pair) after
  | acted {player : PlayerId} {action data : Json} {game : ActiveGame}
      {result : ActiveGame × Bool} {after : World}
      (found : world.engine.find room = some game)
      (passed : game.processAction player action data world.clock = .ok (.passed result))
      (games : after.engine.games room = some result.1)
      (live : room ∈ after.engine.live) :
      GameChange world room (.processAction room player action data) after
  | paused {player : PlayerId} (caller : Option ConnectionId) {game : ActiveGame}
      {after : World} (found : world.engine.find room = some game)
      (inProgress : game.status = .inProgress)
      (games : after.engine.games room =
        some { game with
          disconnectedPlayers := insert player game.disconnectedPlayers
          status := .paused })
      (live : room ∈ after.engine.live) :
      GameChange world room (.handlePlayerDisconnect room player caller) after
  | forfeited {player : PlayerId} {deadline : Time} {game : ActiveGame} {after : World}
      (due : deadline ≤ world.clock) (found : world.engine.find room = some game)
      (absent : player ∈ game.disconnectedPlayers)
      (games : after.engine.games room =
        some { game with
          winnerId := (game.playerIds.find? (· ≠ player)).or game.winnerId
          status := .finished })
      (live : room ∈ after.engine.live) :
      GameChange world room (.disconnectTimerWakes room player deadline) after
  | resumed {player : PlayerId} {game : ActiveGame} {after : World}
      (found : world.engine.find room = some game)
      (games : after.engine.games room = some (game.handlePlayerReconnect player))
      (live : room ∈ after.engine.live) :
      GameChange world room (.handlePlayerReconnect room player) after
  | popped {game : ActiveGame} {after : World} (found : world.engine.find room = some game)
      (games : after.engine.games room = world.engine.games room)
      (gone : room ∉ after.engine.live) :
      GameChange world room (.cleanupGame room) after

theorem GameChange.elsewhere {world after : World} {instruction : Instr}
    {written room : RoomId} {game : ActiveGame} (other : room ≠ written)
    (engine : after.engine = world.engine.write written game) :
    GameChange world room instruction after :=
  .unchanged _ (by rw [engine, GameEngine.write_games, if_neg other]) (by rw [engine]; rfl)

theorem gameChange_of_writes {world after : World} {instruction : Instr}
    (writes : instruction.Writes settings world after) (room : RoomId) :
    GameChange world room instruction after := by
  cases writes with
  | create created pair =>
      by_cases same : room = created
      · subst same
        exact .created pair (by simp [GameEngine.createMatchedGame])
          (by simp [GameEngine.createMatchedGame])
      · exact .unchanged _ (by simp [GameEngine.createMatchedGame, same])
          (by simp [GameEngine.createMatchedGame, same])
  | @act written player action data game result found passed =>
      by_cases same : room = written
      · subst same
        exact .acted found passed (by simp) (GameEngine.find_eq_some.mp found).1
      · exact .elsewhere same rfl
  | @cleanUp popped game found =>
      by_cases same : room = popped
      · subst same
        exact .popped found rfl (by simp)
      · exact .unchanged _ rfl (by simp [same])
  | @pause paused player caller engine call =>
      obtain ⟨game, found, inProgress, rfl⟩ := GameEngine.handlePlayerDisconnect_eq_some call
      by_cases same : room = paused
      · subst same
        exact .paused caller found inProgress (by simp) (GameEngine.find_eq_some.mp found).1
      · exact .elsewhere same rfl
  | @forfeit lost player deadline engine due call =>
      obtain ⟨game, found, absent, rfl⟩ := GameEngine.disconnectTimer_eq_some call
      by_cases same : room = lost
      · subst same
        exact .forfeited due found absent (by simp) (GameEngine.find_eq_some.mp found).1
      · exact .elsewhere same rfl
  | @resume resumed player engine next call =>
      obtain ⟨game, found, rfl, rfl⟩ := GameEngine.handlePlayerReconnect_eq_some call
      by_cases same : room = resumed
      · subst same
        exact .resumed found (by simp) (GameEngine.find_eq_some.mp found).1
      · exact .elsewhere same rfl
  | _ => exact .unchanged _ rfl Iff.rfl

/-- A weight that no coroutine started from outside has is not made by events. -/
theorem ServerEvent.weigh_spawned {weight : Instr → Nat} {event : ServerEvent}
    {world after : World} {spawned : List (List Instr)}
    (effect : event.effect world = some (after, spawned))
    (connects : ∀ player connection, weight (.connect player connection) = 0)
    (acts : ∀ room player action data, weight (.processAction room player action data) = 0)
    (disconnects : ∀ room player, weight (.handlePlayerDisconnect room player none) = 0)
    (reconnects : ∀ room player, weight (.handlePlayerReconnect room player) = 0) :
    weigh weight spawned = 0 := by
  cases ServerEvent.happens effect with
  | accept => simp [weigh, connects]
  | callProcessAction => simp [weigh, acts]
  | callHandlePlayerDisconnect => simp [weigh, disconnects]
  | callHandlePlayerReconnect => simp [weigh, reconnects]
  | _ => rfl

theorem ServerEvent.frame {event : ServerEvent} {world after : World}
    {spawned : List (List Instr)} (effect : event.effect world = some (after, spawned)) :
    after.engine = world.engine ∧ after.roomIds = world.roomIds ∧
      after.journal = world.journal ∧ after.connections = world.connections ∧
      after.redis.matchmaking = world.redis.matchmaking := by
  cases ServerEvent.happens effect <;> exact ⟨rfl, rfl, rfl, rfl, rfl⟩

theorem gameChange_of_step (step : (server settings).step choice before = some after)
    (room : RoomId) :
    (after.state.engine.games room = before.state.engine.games room ∧
      (room ∈ after.state.engine.live ↔ room ∈ before.state.engine.live)) ∨
    ∃ instruction, before.executed choice = some instruction ∧
      GameChange before.state room instruction after.state := by
  have change := worldStep_of_step step
  generalize after.state = world at change
  cases change with
  | wrote executed writes => exact .inr ⟨_, executed, gameChange_of_writes writes room⟩
  | failed task => exact .inl ⟨rfl, Iff.rfl⟩
  | happened effect =>
      rw [(ServerEvent.frame effect).1]
      exact .inl ⟨rfl, Iff.rfl⟩

theorem clock_of_executed (step : (server settings).step choice before = some after)
    {instruction : Instr} (executed : before.executed choice = some instruction) :
    after.state.clock = before.state.clock := by
  have change := worldStep_of_step step
  generalize after.state = world at change
  cases change with
  | wrote _ writes => cases writes <;> rfl
  | failed task => rfl
  | happened effect => cases executed

theorem clock_mono (step : (server settings).step choice before = some after) :
    before.state.clock ≤ after.state.clock := by
  have change := worldStep_of_step step
  generalize after.state = world at change
  cases change with
  | wrote _ writes => cases writes <;> exact le_rfl
  | failed task => exact le_rfl
  | happened effect =>
      cases ServerEvent.happens effect with
      | advance forward => exact le_add_of_nonneg_right forward
      | _ => exact le_rfl

/-- A game object has been there before with the same players, unless it has
just been created. -/
theorem GameChange.players {world after : World} {room : RoomId} {instruction : Instr}
    (change : GameChange world room instruction after) {next : ActiveGame}
    (stored : after.engine.games room = some next) :
    (∃ game, world.engine.games room = some game ∧ next.playerIds = game.playerIds) ∨
      ∃ pair, instruction = .createGame room pair ∧
        next = ActiveGame.create room pair.playerIds pair.playerElos world.clock := by
  have kept {game : ActiveGame} (found : world.engine.find room = some game)
      (playerIds : next.playerIds = game.playerIds) :
      ∃ game, world.engine.games room = some game ∧ next.playerIds = game.playerIds :=
    ⟨game, (GameEngine.find_eq_some.mp found).2, playerIds⟩
  cases change with
  | unchanged _ games live => exact .inl ⟨next, games ▸ stored, rfl⟩
  | created pair games live =>
      rw [games] at stored
      cases stored
      exact .inr ⟨pair, rfl, rfl⟩
  | acted found passed games live =>
      rw [games] at stored
      cases stored
      exact .inl (kept found (ActiveGame.processAction_frame passed).2.1)
  | paused _ found _ games live =>
      rw [games] at stored
      cases stored
      exact .inl (kept found rfl)
  | forfeited _ found _ games live =>
      rw [games] at stored
      cases stored
      exact .inl (kept found rfl)
  | resumed found games live =>
      rw [games] at stored
      cases stored
      exact .inl (kept found rfl)
  | popped found games gone => exact .inl ⟨next, games ▸ stored, rfl⟩

theorem Instr.Writes.roomIds {world after : World} {instruction : Instr}
    (writes : instruction.Writes settings world after) :
    after.roomIds = world.roomIds ∨
      ∃ pair room, instruction = .createMatch pair ∧ room ∉ world.roomIds ∧
        after = { world with roomIds := room :: world.roomIds } := by
  cases writes with
  | draw pair fresh => exact .inr ⟨pair, _, rfl, fresh, rfl⟩
  | _ => exact .inl rfl

end TerritoryBackend

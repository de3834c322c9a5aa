import TerritoryBackend.Server

/-!
# What a block leaves to be executed

The control flow of the coroutines: from which block an instruction can come, and
what is known of the world that block was executed in.  What other modules need to
know about the origin of an instruction is read off these cases.
-/

namespace TerritoryBackend

open EventLoop

@[simp]
theorem World.goOn_state (world : World) (next : List Instr) :
    (world.goOn next).state = world := rfl

@[simp]
theorem World.goOn_next (world : World) (next : List Instr) :
    (world.goOn next).next = next := rfl

@[simp]
theorem World.goOn_spawned (world : World) (next : List Instr) :
    (world.goOn next).spawned = [] := rfl

@[simp]
theorem World.goOn_raises (world : World) (next : List Instr) :
    (world.goOn next).raises = false := rfl

@[simp]
theorem World.carried_goOn (weight : Instr → Nat) (instruction : Instr) (world : World)
    (next : List Instr) :
    (world.goOn next).carried weight instruction = (next.map weight).sum := by
  simp [Block.carried]

@[simp]
theorem World.raise_state (world : World) : world.raise.state = world := rfl

@[simp]
theorem World.raise_next (world : World) : world.raise.next = [] := rfl

@[simp]
theorem World.raise_spawned (world : World) : world.raise.spawned = [] := rfl

@[simp]
theorem MatchedPair.matchFound_gameOverRoom (pair : MatchedPair) (room : RoomId) (coin : Bool)
    (player : PlayerId) : (pair.matchFound room coin player).gameOverRoom = none := by
  unfold MatchedPair.matchFound
  split <;> rfl

/-- A message that is published is kept in the journal. -/
theorem World.publish_eq_some {settings : Settings} {world : World} {player : PlayerId}
    {message : Message} {block : Block World Instr}
    (effect : world.publish settings player message = some block) :
    block =
      { state :=
          { world with
            journal :=
              { world.journal with
                published := world.journal.published ++ [(player, message)] } } } := by
  unfold World.publish at effect
  split at effect <;> cases effect
  rfl

/-- An update that is sent shows the game, unless `current_player_id` raises. -/
theorem World.sendStateUpdate_eq_some {settings : Settings} {world : World} {room : RoomId}
    {player : PlayerId} {action data : Json} {block : Block World Instr}
    (effect : world.sendStateUpdate settings room player action data = some block) :
    block = world.withGame room fun game => world.showing game fun current state =>
      [.sendPersonal player
        (.gameStateUpdate room state (some (action, data)) (decide (player = current))
          game.turnNumber world.clock) .publish] := by
  unfold World.sendStateUpdate at effect
  split at effect <;> cases effect
  rfl

/-- An action is refused, raises, or is broadcast to the players. -/
theorem World.processAction_cases (settings : Settings) (world : World) (room : RoomId)
    (player : PlayerId) (action data : Json) :
    (∃ error, world.processAction settings room player action data =
        world.goOn [sendError player error]) ∨
      world.processAction settings room player action data = world.raise ∨
      ∃ game result, world.engine.find room = some game ∧
        game.processAction player action data world.clock = .ok (.passed result) ∧
        world.processAction settings room player action data =
          ({ world with engine := world.engine.write room result.1 }).goOn
            ((result.1.playerIds.map fun recipient =>
                Instr.sendStateUpdate room recipient action data) ++
              if result.2 then [Instr.handleGameOver room] else []) := by
  unfold World.processAction
  rcases GameEngine.processAction_cases world.engine room player action data world.clock with
    ⟨unchanged, refused⟩ | ⟨game, result, found, passed, equation⟩
  · split
    · rename_i engine error equation
      rw [equation] at unchanged
      subst unchanged
      split
      · exact .inl ⟨error, rfl⟩
      · exact .inr (.inl rfl)
    · rename_i engine error equation
      rw [equation] at unchanged
      subst unchanged
      exact .inr (.inl rfl)
    · rename_i engine gameOver equation
      exact absurd (congrArg Prod.snd equation) (refused gameOver)
  · right
    right
    refine ⟨game, result, found, passed, ?_⟩
    rw [equation]
    simp [World.withGame]

theorem World.disconnectTimerWakes_cases {world : World} {room : RoomId} {player : PlayerId}
    {deadline : Time} {block : Block World Instr}
    (effect : world.disconnectTimerWakes room player deadline = some block) :
    world.engine.disconnectTimer room player = none ∧ block = world.goOn ∨
      ∃ game, world.engine.find room = some game ∧ player ∈ game.disconnectedPlayers ∧
        block = ({ world with
          engine := world.engine.write room
            { game with
              winnerId := (game.playerIds.find? (· ≠ player)).or game.winnerId
              status := .finished } }).goOn [.handleGameOver room] := by
  unfold World.disconnectTimerWakes at effect
  split at effect
  · cases effect
  split at effect
  · cases effect
    exact .inl ⟨‹_›, rfl⟩
  · rename_i engine forfeited
    cases effect
    obtain ⟨game, found, absent, rfl⟩ := GameEngine.disconnectTimer_eq_some forfeited
    exact .inr ⟨game, found, absent, rfl⟩

/-- A block that shows a game in a message. -/
theorem World.mem_showing {world : World} {game : ActiveGame}
    {content : PlayerId → ClientState → List Instr}
    {next : Instr}
    (member : next ∈ (world.showing game content).next) :
    ∃ current, game.currentPlayerId = some current ∧ next ∈ content current game.toClientState := by
  unfold World.showing at member
  split at member
  · exact ⟨_, ‹_›, member⟩
  · simp at member

@[simp]
theorem World.showing_state (world : World) (game : ActiveGame)
    (content : PlayerId → ClientState → List Instr) :
    (world.showing game content).state = world := by
  unfold World.showing
  split <;> rfl

@[simp]
theorem World.showing_spawned (world : World) (game : ActiveGame)
    (content : PlayerId → ClientState → List Instr) :
    (world.showing game content).spawned = [] := by
  unfold World.showing
  split <;> rfl

@[simp]
theorem World.sendPersonal_spawned (world : World) (player : PlayerId) (message : Message)
    (after : AfterSend) : (world.sendPersonal player message after).spawned = [] := by
  unfold World.sendPersonal
  split <;> rfl

/-- A message that shows no game and is about no match. -/
def Message.notice : Message → Bool
  | .matchFound .. | .gameStarted .. | .gameStateUpdate .. | .gameOver .. => false
  | _ => true

theorem Message.gameOverRoom_of_notice {message : Message} (isNotice : message.notice = true) :
    message.gameOverRoom = none := by
  cases message with
  | gameOver => cases isNotice
  | _ => rfl

namespace Instr

/-- How a block comes to leave an instruction to be executed, in its own coroutine
or in one it starts. -/
inductive Leaves (settings : Settings) (world : World) (answer : Answer) :
    Instr → Instr → Prop where
  | notifying (instruction : Instr) (player : PlayerId) {message : Message}
      (isNotice : message.notice = true) :
      Leaves settings world answer instruction (.sendPersonal player message .ignore)
  -- `websocket_endpoint`
  | replacing {player : PlayerId} {connection : ConnectionId} (existing : ConnectionId) :
      Leaves settings world answer (.connect player connection) (.forceClose existing)
  | connect {player : PlayerId} {connection : ConnectionId} :
      Leaves settings world answer (.connect player connection)
        (.acceptConnection player connection)
  | accepted {player : PlayerId} {connection : ConnectionId} :
      Leaves settings world answer (.acceptConnection player connection)
        (.getSession player connection)
  | restoring {player : PlayerId} {connection : ConnectionId} :
      Leaves settings world answer (.getSession player connection)
        (.attemptReconnectRead player connection)
  | creating {player : PlayerId} {connection : ConnectionId} :
      Leaves settings world answer (.getSession player connection)
        (.createSession player connection)
  | claiming {player : PlayerId} {connection : ConnectionId} (room : Option RoomId) :
      Leaves settings world answer (.attemptReconnectRead player connection)
        (.attemptReconnectWrite player connection room)
  | unclaimed {player : PlayerId} {connection : ConnectionId} :
      Leaves settings world answer (.attemptReconnectRead player connection)
        (.acknowledge player connection)
  | reconnecting {player : PlayerId} {connection : ConnectionId} {room : RoomId} :
      Leaves settings world answer (.attemptReconnectWrite player connection (some room))
        (.handlePlayerReconnect room player)
  | claimed {player : PlayerId} {connection : ConnectionId} {room : Option RoomId} :
      Leaves settings world answer (.attemptReconnectWrite player connection room)
        (.acknowledge player connection)
  | created {player : PlayerId} {connection : ConnectionId} :
      Leaves settings world answer (.createSession player connection)
        (.acknowledge player connection)
  | acknowledged {player : PlayerId} {connection : ConnectionId} :
      Leaves settings world answer (.acknowledge player connection) (.receive player connection)
  | checking {player : PlayerId} {connection : ConnectionId} (raw : Option Json) :
      Leaves settings world answer (.receive player connection) (.checkRateLimit player raw)
  | received {player : PlayerId} {connection : ConnectionId} :
      Leaves settings world answer (.receive player connection) (.receive player connection)
  | touching {player : PlayerId} {raw : Option Json} :
      Leaves settings world answer (.checkRateLimit player raw) (.updateActivity player)
  | routing {player : PlayerId} {raw : Option Json} (messageType message : Json) :
      Leaves settings world answer (.checkRateLimit player raw)
        (.routeMessage player messageType message)
  -- `_route_message`
  | seeking {player : PlayerId} {messageType message : Json} :
      Leaves settings world answer (.routeMessage player messageType message)
        (.getSessionElo player)
  | cancelling {player : PlayerId} {messageType message : Json} :
      Leaves settings world answer (.routeMessage player messageType message)
        (.dequeuePlayer player none)
  | cancelled {player : PlayerId} {messageType message : Json} :
      Leaves settings world answer (.routeMessage player messageType message)
        (.updateSessionState player PlayerConnectionState.connected.value none)
  | acting {player : PlayerId} {messageType message : Json} (action data : Json) :
      Leaves settings world answer (.routeMessage player messageType message)
        (.getPlayerRoom player action data)
  | waiting {player : PlayerId} :
      Leaves settings world answer (.getSessionElo player)
        (.updateSessionState player PlayerConnectionState.inMatchmaking.value none)
  | enqueueing {player : PlayerId} (eloRating : Int) :
      Leaves settings world answer (.getSessionElo player) (.enqueuePlayer player eloRating)
  | playing {player : PlayerId} {action data : Json} (room : RoomId) :
      Leaves settings world answer (.getPlayerRoom player action data)
        (.processAction room player action data)
  -- `_handle_disconnect` and `mark_disconnected`
  | dequeueing {player : PlayerId} {connection : ConnectionId} :
      Leaves settings world answer (.handleDisconnect player connection)
        (.dequeuePlayer player (some connection))
  | marking {player : PlayerId} {connection : ConnectionId} :
      Leaves settings world answer (.handleDisconnect player connection)
        (.markDisconnectedRead player connection)
  | marked {player : PlayerId} {connection : ConnectionId} (room : Option RoomId) :
      Leaves settings world answer (.markDisconnectedRead player connection)
        (.markDisconnectedWrite player connection room)
  | leaving {player : PlayerId} {connection : ConnectionId} {room : RoomId} :
      Leaves settings world answer (.markDisconnectedWrite player connection (some room))
        (.handlePlayerDisconnect room player (some connection))
  -- `ConnectionManager` and `publish_to_player`
  | sending {player : PlayerId} {message : Message} {after : AfterSend}
      (connection : ConnectionId) :
      Leaves settings world answer (.sendPersonal player message after)
        (.awaitSend player connection message after)
  | closing {player : PlayerId} {connection : ConnectionId} {message : Message}
      {after : AfterSend} :
      Leaves settings world answer (.awaitSend player connection message after)
        (.forceClose connection)
  | unsendable {player : PlayerId} {message : Message} {after : AfterSend} {next : Instr}
      (goesOn : next ∈ after.next player message false) :
      Leaves settings world answer (.sendPersonal player message after) next
  | handingOn {player : PlayerId} {connection : ConnectionId} {message : Message}
      {after : AfterSend} {next : Instr} (sent : Bool)
      (goesOn : next ∈ after.next player message sent) :
      Leaves settings world answer (.awaitSend player connection message after) next
  -- `MatchmakingService`
  | ranking {player : PlayerId} {eloRating : Int} :
      Leaves settings world answer (.enqueuePlayer player eloRating) (.queueRank player)
  | sizing {player : PlayerId} (rank : Option Nat) :
      Leaves settings world answer (.queueRank player) (.queueSize player rank)
  | matched {queue : MatchmakingQueue} {pair : MatchedPair}
      (popped : world.redis.matchmaking.tryMatch settings world.clock = (queue, some pair)) :
      Leaves settings world answer .matchingLoop (.createMatch pair)
  | unmatched (seconds : Time) : Leaves settings world answer .matchingLoop (.sleep seconds)
  | matching : Leaves settings world answer .matchingLoop .matchingLoop
  | storing {room : RoomId} {pair : MatchedPair} :
      Leaves settings world answer (.createMatch pair) (.storeRoom room pair)
  | drawing {room : RoomId} {pair : MatchedPair} (drawn : answer = .drawn room)
      (fresh : room ∉ world.roomIds) :
      Leaves settings world answer (.createMatch pair) (.offerMatch room pair)
  | registering {room : RoomId} {pair : MatchedPair} (drawn : answer = .drawn room)
      (fresh : room ∉ world.roomIds) :
      Leaves settings world answer (.createMatch pair) (.createGame room pair)
  | offering {room : RoomId} {pair : MatchedPair} {coin : Bool} (tossed : answer = .coin coin) :
      Leaves settings world answer (.offerMatch room pair)
        (.sendPersonal pair.playerA (pair.matchFound room coin pair.playerA)
          (.offerSecond room pair coin))
  -- `GameEngine`
  | assigning {room : RoomId} {pair : MatchedPair} {player : PlayerId}
      (plays : player ∈ pair.playerIds) :
      Leaves settings world answer (.createGame room pair) (.setPlayerRoom player room)
  | stating {room : RoomId} {pair : MatchedPair} {player : PlayerId}
      (plays : player ∈ pair.playerIds) :
      Leaves settings world answer (.createGame room pair)
        (.updateSessionState player PlayerConnectionState.inGame.value (some room))
  | joining {room : RoomId} {pair : MatchedPair} {player : PlayerId}
      (plays : player ∈ pair.playerIds) :
      Leaves settings world answer (.createGame room pair) (.joinRoom player room)
  | starting {room : RoomId} {pair : MatchedPair} {player : PlayerId} {position : Nat}
      (plays : pair.playerIds[position]? = some player) :
      Leaves settings world answer (.createGame room pair) (.sendGameStarted room player position)
  | started {room : RoomId} {player : PlayerId} {position : Nat} {game : ActiveGame}
      (stored : world.engine.games room = some game) :
      Leaves settings world answer (.sendGameStarted room player position)
        (.sendPersonal player
          (.gameStarted room game.toClientState (decide (position = game.currentPlayerIdx)))
          .publish)
  | updating {room : RoomId} {player : PlayerId} {action data : Json} (recipient : PlayerId) :
      Leaves settings world answer (.processAction room player action data)
        (.sendStateUpdate room recipient action data)
  | updated {room : RoomId} {player current : PlayerId} {action data : Json} {game : ActiveGame}
      (stored : world.engine.games room = some game)
      (isCurrent : game.currentPlayerId = some current) :
      Leaves settings world answer (.sendStateUpdate room player action data)
        (.sendPersonal player
          (.gameStateUpdate room game.toClientState (some (action, data))
            (decide (player = current)) game.turnNumber world.clock) .publish)
  | ended {room : RoomId} {player : PlayerId} {action data : Json} :
      Leaves settings world answer (.processAction room player action data) (.handleGameOver room)
  | announcing {room : RoomId} (player : PlayerId) (settled : ActiveGame) :
      Leaves settings world answer (.handleGameOver room) (.sendGameOver room player settled)
  | announced {room : RoomId} {player : PlayerId} {settled : ActiveGame}
      (winner : Option PlayerId) (result : String) (finalState : ClientState) :
      Leaves settings world answer (.sendGameOver room player settled)
        (.sendPersonal player (.gameOver room winner result settled finalState) .publish)
  | persisting {room : RoomId} (settled : ActiveGame) :
      Leaves settings world answer (.handleGameOver room) (.createPersistTask room settled)
  | persisted {room : RoomId} {settled : ActiveGame} :
      Leaves settings world answer (.createPersistTask room settled) (.persistResult room settled)
  | savingFirst {room : RoomId} {pair : MatchedPair} :
      Leaves settings world answer (.createGame room pair) (.saveSnapshot room)
  | savingLast {room : RoomId} :
      Leaves settings world answer (.handleGameOver room) (.saveSnapshot room)
  | saved {room : RoomId} {document : Json}
      (saves : world.engine.saveSnapshot room world.clock = .ok (some document)) :
      Leaves settings world answer (.saveSnapshot room) (.setSnapshot room document)
  | cleaning {room : RoomId} :
      Leaves settings world answer (.handleGameOver room) (.cleanupGame room)
  | delaying {room : RoomId} (seconds : Time) :
      Leaves settings world answer (.cleanupGame room) (.sleep seconds)
  | deleting {room : RoomId} {game : ActiveGame} (found : world.engine.find room = some game) :
      Leaves settings world answer (.cleanupGame room) (.deleteRoomKeys room game.playerIds)
  | timing {room : RoomId} {player : PlayerId} {caller : Option ConnectionId} :
      Leaves settings world answer (.handlePlayerDisconnect room player caller)
        (.createDisconnectTimer room player caller)
  | timed {room : RoomId} {player : PlayerId} {caller : Option ConnectionId} :
      Leaves settings world answer (.createDisconnectTimer room player caller)
        (.disconnectTimer room player)
  | counting {room : RoomId} {player : PlayerId} (deadline : Time) :
      Leaves settings world answer (.disconnectTimer room player)
        (.disconnectTimerWakes room player deadline)
  | forfeited {room : RoomId} {player : PlayerId} {deadline : Time} :
      Leaves settings world answer (.disconnectTimerWakes room player deadline)
        (.handleGameOver room)
  | resumed {room : RoomId} {player current : PlayerId} {game : ActiveGame}
      (found : world.engine.find room = some game)
      (isCurrent : game.currentPlayerId = some current) :
      Leaves settings world answer (.handlePlayerReconnect room player)
        (.sendPersonal player
          (.gameStateUpdate room (game.handlePlayerReconnect player).toClientState none
            (decide (player = current)) game.turnNumber world.clock) .ignore)
  | snapshotting (room : RoomId) : Leaves settings world answer .snapshotLoop (.saveSnapshot room)
  | resting (seconds : Time) : Leaves settings world answer .snapshotLoop (.sleep seconds)
  | repeating : Leaves settings world answer .snapshotLoop .snapshotLoop
  -- `asyncio.sleep`
  | sleeping {seconds : Time} (deadline : Time) :
      Leaves settings world answer (.sleep seconds) (.wake deadline)

variable {settings : Settings} {instruction next : Instr} {answer : Answer} {world : World}
  {block : Block World Instr}

theorem leaves_of_sendPersonal {player : PlayerId} {message : Message} {after : AfterSend}
    (member : next ∈ (world.sendPersonal player message after).next) :
    Leaves settings world answer (.sendPersonal player message after) next := by
  unfold World.sendPersonal at member
  split at member
  · rw [List.mem_singleton.mp member]
    exact .sending _
  · exact .unsendable member

theorem leaves_of_awaitSend {player : PlayerId} {connection : ConnectionId}
    {message : Message} {after : AfterSend}
    (effect : world.awaitSend player connection message after answer = some block)
    (member : next ∈ block.next) :
    Leaves settings world answer (.awaitSend player connection message after) next := by
  unfold World.awaitSend at effect
  split at effect <;> cases effect
  · exact .handingOn true member
  · rcases List.mem_cons.mp member with rfl | later
    · exact .closing
    · exact .handingOn false later
  · exact .handingOn false member

theorem leaves_of_routeMessage {player : PlayerId} {messageType message : Json}
    (member : next ∈ (world.routeMessage settings player messageType message).next) :
    Leaves settings world answer (.routeMessage player messageType message) next := by
  unfold World.routeMessage at member
  split at member
  · simp at member
    exact member ▸ .seeking
  split at member
  · simp at member
    rcases member with rfl | rfl
    · exact .cancelling
    · exact .cancelled
  split at member
  · split at member <;> simp at member
    exact member ▸ .acting _ _
  (repeat' split at member) <;> simp [sendError] at member <;>
    exact member ▸ .notifying _ _ rfl

theorem leaves_of_createGame {room : RoomId} {pair : MatchedPair}
    (member : next ∈ (world.createGame room pair).next) :
    Leaves settings world answer (.createGame room pair) next := by
  simp only [World.createGame, World.goOn_next, List.mem_append, List.mem_flatMap, List.mem_map,
    List.mem_singleton] at member
  rcases member with (⟨player, plays, entering⟩ | ⟨⟨player, position⟩, entry, rfl⟩) | rfl
  · simp only [World.enterRoom, List.mem_cons, List.not_mem_nil, or_false] at entering
    rcases entering with rfl | rfl | rfl
    · exact .assigning plays
    · exact .stating plays
    · exact .joining plays
  · exact .starting (List.mem_zipIdx_iff_getElem?.mp entry)
  · exact .savingFirst

/-- Everything a block leaves to be executed is left in one of these ways. -/
theorem block_leaves (effect : instruction.block settings answer world = some block)
    (member : next ∈ block.next ∨ next ∈ block.spawned.flatten) :
    Leaves settings world answer instruction next := by
  cases instruction with
  -- the blocks that leave nothing
  | forceClose | updateActivity | updateSessionState | storeRoom | setPlayerRoom | joinRoom
  | setSnapshot | deleteRoomKeys =>
      cases effect
      simp [World.forceClose, World.updateActivity, World.updateSessionState, World.storeRoom,
        World.setPlayerRoom, World.joinRoom, World.setSnapshot, World.deleteRoomKeys] at member
  | publish player message =>
      rw [World.publish_eq_some effect] at member
      simp at member
  | persistResult room settled =>
      cases effect
      simp only [World.persistResult, World.withGame] at member
      split at member <;> simp at member
  | wake deadline =>
      simp only [Instr.block, World.wake] at effect
      split at effect <;> cases effect
      simp at member
  -- `websocket_endpoint`
  | connect player connection =>
      cases effect
      unfold World.connect at member
      split at member <;> simp at member
      · rcases member with rfl | rfl
        · exact .replacing _
        · exact .connect
      · exact member ▸ .connect
  | acceptConnection player connection =>
      simp only [Instr.block, World.acceptConnection] at effect
      split at effect <;> cases effect <;> simp at member
      exact member ▸ .accepted
  | getSession player connection =>
      cases effect
      unfold World.getSession at member
      (repeat' split at member) <;> simp at member
      · exact member ▸ .restoring
      · exact member ▸ .creating
      · exact member ▸ .creating
  | attemptReconnectRead player connection =>
      cases effect
      unfold World.attemptReconnectRead at member
      (repeat' split at member) <;> simp at member
      · exact member ▸ .claiming _
      · exact member ▸ .unclaimed
      · exact member ▸ .unclaimed
  | attemptReconnectWrite player connection room =>
      cases effect
      cases room with
      | none =>
          simp [World.attemptReconnectWrite] at member
          exact member ▸ .claimed
      | some room =>
          simp [World.attemptReconnectWrite] at member
          rcases member with rfl | rfl
          · exact .reconnecting
          · exact .claimed
  | createSession player connection =>
      cases effect
      simp [World.createSession] at member
      exact member ▸ .created
  | acknowledge player connection =>
      cases effect
      simp [World.acknowledge] at member
      rcases member with rfl | rfl
      · exact .notifying _ _ rfl
      · exact .acknowledged
  | receive player connection =>
      simp only [Instr.block, World.receive] at effect
      split at effect <;> cases effect <;> simp at member
      rcases member with rfl | rfl
      · exact .checking _
      · exact .received
  | checkRateLimit player raw =>
      simp only [Instr.block, World.checkRateLimit, sendError] at effect
      (repeat' split at effect) <;> cases effect <;> simp at member
      · exact member ▸ .notifying _ _ rfl
      · exact member ▸ .notifying _ _ rfl
      · rcases member with rfl | rfl
        · exact .touching
        · exact .routing _ _
      · exact member ▸ .notifying _ _ rfl
  -- `_route_message`
  | routeMessage player messageType message =>
      cases effect
      refine leaves_of_routeMessage (member.resolve_right ?_)
      unfold World.routeMessage
      (repeat' split) <;> simp
  | getSessionElo player =>
      cases effect
      unfold World.getSessionElo at member
      split at member <;> simp at member
      rcases member with rfl | rfl
      · exact .waiting
      · exact .enqueueing _
  | getPlayerRoom player action data =>
      cases effect
      unfold World.getPlayerRoom at member
      split at member <;> simp [sendError] at member
      · exact member ▸ .playing _
      · exact member ▸ .notifying _ _ rfl
  -- `_handle_disconnect` and `mark_disconnected`
  | handleDisconnect player connection =>
      cases effect
      simp [World.handleDisconnect] at member
      rcases member with rfl | rfl
      · exact .dequeueing
      · exact .marking
  | markDisconnectedRead player connection =>
      cases effect
      unfold World.markDisconnectedRead at member
      split at member <;> simp at member
      exact member ▸ .marked _
  | markDisconnectedWrite player connection room =>
      cases effect
      cases room with
      | none => simp [World.markDisconnectedWrite] at member
      | some room =>
          simp [World.markDisconnectedWrite] at member
          exact member ▸ .leaving
  -- `ConnectionManager`
  | sendPersonal player message after =>
      cases effect
      exact leaves_of_sendPersonal (by simpa using member)
  | awaitSend player connection message after =>
      have effect : world.awaitSend player connection message after answer = some block := effect
      refine leaves_of_awaitSend effect (member.resolve_right ?_)
      unfold World.awaitSend at effect
      split at effect <;> cases effect <;> simp
  -- `MatchmakingService`
  | enqueuePlayer player eloRating =>
      cases effect
      simp [World.enqueuePlayer] at member
      exact member ▸ .ranking
  | queueRank player =>
      cases effect
      simp [World.queueRank] at member
      exact member ▸ .sizing _
  | queueSize player rank =>
      cases effect
      simp [World.queueSize] at member
      exact member ▸ .notifying _ _ rfl
  | dequeuePlayer player caller =>
      cases effect
      simp only [World.dequeuePlayer] at member
      split at member <;> simp at member
      exact member ▸ .notifying _ _ rfl
  | matchingLoop =>
      simp only [Instr.block, World.matchingLoop] at effect
      (repeat' split at effect) <;> cases effect <;> simp at member
      · rcases member with rfl | rfl
        · exact .matched ‹_›
        · exact .matching
      · rcases member with rfl | rfl
        · exact .unmatched _
        · exact .matching
      · rcases member with rfl | rfl
        · exact .unmatched _
        · exact .matching
  | createMatch pair =>
      simp only [Instr.block, World.createMatch] at effect
      (repeat' split at effect) <;> cases effect
      rename_i fresh
      simp at member
      rcases member with rfl | rfl | rfl
      · exact .storing
      · exact .drawing rfl fresh
      · exact .registering rfl fresh
  | offerMatch room pair =>
      simp only [Instr.block, World.offerMatch] at effect
      split at effect <;> cases effect
      simp at member
      exact member ▸ .offering rfl
  -- `GameEngine`
  | createGame room pair =>
      cases effect
      exact leaves_of_createGame (member.resolve_right (by simp [World.createGame]))
  | sendGameStarted room player position =>
      cases effect
      simp only [World.sendGameStarted, World.withGame] at member
      split at member
      · obtain ⟨current, -, shown⟩ := World.mem_showing (by simpa using member)
        exact List.mem_singleton.mp shown ▸ .started ‹_›
      · simp at member
  | processAction room player action data =>
      cases effect
      rcases world.processAction_cases settings room player action data with
        ⟨error, refused⟩ | raised | ⟨game, result, -, -, accepted⟩
      · simp [refused, sendError] at member
        exact member ▸ .notifying _ _ rfl
      · simp [raised] at member
      · simp only [accepted, World.goOn_next, World.goOn_spawned, List.flatten_nil,
          List.not_mem_nil, or_false, List.mem_append, List.mem_map] at member
        rcases member with ⟨recipient, -, rfl⟩ | member
        · exact .updating recipient
        · split at member <;> simp at member
          exact member ▸ .ended
  | sendStateUpdate room player action data =>
      cases World.sendStateUpdate_eq_some effect
      simp only [World.withGame] at member
      split at member
      · obtain ⟨current, isCurrent, shown⟩ := World.mem_showing (by simpa using member)
        exact List.mem_singleton.mp shown ▸ .updated ‹_› isCurrent
      · simp at member
  | handleGameOver room =>
      cases effect
      simp only [World.handleGameOver, World.withGame] at member
      split at member <;> simp at member
      rcases member with ⟨player, -, rfl⟩ | rfl | rfl | rfl
      · exact .announcing player _
      · exact .persisting _
      · exact .savingLast
      · exact .cleaning
  | sendGameOver room player settled =>
      cases effect
      simp only [World.sendGameOver, World.withGame] at member
      split at member
      · obtain ⟨current, -, shown⟩ := World.mem_showing (by simpa using member)
        exact List.mem_singleton.mp shown ▸ .announced _ _ _
      · simp at member
  | createPersistTask room settled =>
      cases effect
      simp [World.createPersistTask] at member
      exact member ▸ .persisted
  | saveSnapshot room =>
      simp only [Instr.block, World.saveSnapshot] at effect
      (repeat' split at effect) <;> cases effect <;> simp at member
      exact member ▸ .saved ‹_›
  | cleanupGame room =>
      cases effect
      unfold World.cleanupGame at member
      split at member <;> simp at member
      rcases member with rfl | rfl
      · exact .delaying _
      · exact .deleting ‹_›
  | handlePlayerDisconnect room player caller =>
      cases effect
      simp only [World.handlePlayerDisconnect, World.withGame] at member
      (repeat' split at member) <;> simp at member
      rcases member with ⟨opponent, -, rfl⟩ | rfl
      · exact .notifying _ _ rfl
      · exact .timing
  | createDisconnectTimer room player caller =>
      cases effect
      simp [World.createDisconnectTimer] at member
      exact member ▸ .timed
  | disconnectTimer room player =>
      cases effect
      simp [World.disconnectTimer] at member
      exact member ▸ .counting _
  | disconnectTimerWakes room player deadline =>
      rcases World.disconnectTimerWakes_cases effect with ⟨-, rfl⟩ | ⟨game, -, -, rfl⟩
      · simp at member
      · simp at member
        exact member ▸ .forfeited
  | handlePlayerReconnect room player =>
      cases effect
      simp only [World.handlePlayerReconnect] at member
      split at member
      · simp at member
      · rename_i engine resumed reconnected
        obtain ⟨game, found, rfl, -⟩ := GameEngine.handlePlayerReconnect_eq_some reconnected
        obtain ⟨current, isCurrent, shown⟩ := World.mem_showing (by simpa using member)
        rcases List.mem_cons.mp shown with rfl | notice
        · exact .resumed found isCurrent
        · obtain ⟨opponent, -, rfl⟩ := List.mem_map.mp notice
          exact .notifying _ _ rfl
  | snapshotLoop =>
      cases effect
      simp [World.snapshotLoop] at member
      rcases member with ⟨room, -, rfl⟩ | rfl | rfl
      · exact .snapshotting room
      · exact .resting _
      · exact .repeating
  -- `asyncio.sleep`
  | sleep seconds =>
      cases effect
      simp [World.sleep] at member
      exact member ▸ .sleeping _

/-- Only persist tasks and forfeit timers are started as coroutines of their own. -/
theorem block_spawned (effect : instruction.block settings answer world = some block) :
    block.spawned = [] ∨
      (∃ room settled, instruction = .createPersistTask room settled) ∨
      ∃ room player caller, instruction = .createDisconnectTimer room player caller := by
  cases instruction with
  | createPersistTask room settled => exact .inr (.inl ⟨room, settled, rfl⟩)
  | createDisconnectTimer room player caller => exact .inr (.inr ⟨room, player, caller, rfl⟩)
  | acceptConnection | receive | checkRateLimit | awaitSend | publish | matchingLoop
  | createMatch | offerMatch | saveSnapshot | disconnectTimerWakes | wake =>
      simp only [Instr.block, World.acceptConnection, World.receive, World.checkRateLimit,
        World.awaitSend, World.publish, World.matchingLoop, World.createMatch, World.offerMatch,
        World.saveSnapshot, World.disconnectTimerWakes, World.wake] at effect
      (repeat' split at effect) <;> cases effect <;> exact .inl rfl
  | processAction room player action data =>
      cases effect
      rcases world.processAction_cases settings room player action data with
        ⟨error, refused⟩ | raised | ⟨game, result, -, -, accepted⟩
      · exact .inl (by rw [refused]; rfl)
      · exact .inl (by rw [raised]; rfl)
      · exact .inl (by rw [accepted]; rfl)
  | connect | getSession | attemptReconnectRead | routeMessage | getSessionElo | getPlayerRoom
  | markDisconnectedRead | sendPersonal | sendGameStarted | handleGameOver | sendGameOver
  | persistResult | cleanupGame | handlePlayerDisconnect | handlePlayerReconnect =>
      cases effect
      left
      simp only [World.connect, World.getSession, World.attemptReconnectRead,
        World.routeMessage, World.getSessionElo, World.getPlayerRoom, World.markDisconnectedRead,
        World.sendPersonal, World.sendGameStarted, World.handleGameOver, World.sendGameOver,
        World.persistResult, World.cleanupGame, World.handlePlayerDisconnect,
        World.handlePlayerReconnect, World.withGame, World.showing]
      (repeat' split) <;> rfl
  | sendStateUpdate room player action data =>
      cases World.sendStateUpdate_eq_some effect
      left
      simp only [World.withGame, World.showing]
      (repeat' split) <;> rfl
  | _ =>
      cases effect
      exact .inl rfl

end Instr

end TerritoryBackend

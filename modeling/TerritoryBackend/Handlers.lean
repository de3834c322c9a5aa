import TerritoryBackend.EventLoop
import TerritoryBackend.Snapshots
import TerritoryBackend.World

/-!
# The blocks of the coroutines

What each coroutine of the server does between two awaits, and what it will do
next.  A read followed by a write of the same key are two blocks, as the
server may do anything else in between.
-/

namespace TerritoryBackend

open EventLoop

def MatchedPair.matchFound (pair : MatchedPair) (room : RoomId) (coin : Bool)
    (player : PlayerId) : Message :=
  if player = pair.playerA then
    .matchFound room pair.playerB pair.eloB (if coin then "player_1" else "player_2")
  else
    .matchFound room pair.playerA pair.eloA (if coin then "player_2" else "player_1")

/-- How the code goes on once it knows whether a message was sent. -/
def AfterSend.next (after : AfterSend) (player : PlayerId) (message : Message)
    (sent : Bool) : List Instr :=
  match after with
  | .ignore => []
  | .publish => if sent then [] else [.publish player message]
  | .offerSecond room pair coin =>
      [.sendPersonal pair.playerB (pair.matchFound room coin pair.playerB)
        (.offerPublish room pair coin sent)]
  | .offerPublish room pair coin sentA =>
      (if sentA then [] else [.publish pair.playerA (pair.matchFound room coin pair.playerA)]) ++
        (if sent then [] else [.publish pair.playerB (pair.matchFound room coin pair.playerB)])

def sendError (player : PlayerId) (error : ErrorResponse) : Instr :=
  .sendPersonal player (.error error) .ignore

namespace World

def goOn (world : World) (next : List Instr := []) : Block World Instr :=
  { state := world, next := next }

def raise (world : World) : Block World Instr :=
  { state := world, raises := true }

def updateRedis (world : World) (command : Redis → Redis) : World :=
  { world with redis := command world.redis }

def updateConnections (world : World) (change : ConnectionManager → ConnectionManager) :
    World :=
  { world with connections := change world.connections }

def withGame (world : World) (room : RoomId) (block : ActiveGame → Block World Instr) :
    Block World Instr :=
  match world.engine.games room with
  | some game => block game
  | none => world.goOn

/-- Go on with messages that show the game, unless `current_player_id` raises. -/
def showing (world : World) (game : ActiveGame) (next : PlayerId → ClientState → List Instr) :
    Block World Instr :=
  match game.currentPlayerId with
  | some current => world.goOn (next current game.toClientState)
  | none => world.raise

/-- `connect` up to its first await. -/
def connect (world : World) (player : PlayerId) (connection : ConnectionId) :
    Block World Instr :=
  match world.connections.connectionOf player with
  | some existing => world.goOn [.forceClose existing, .acceptConnection player connection]
  | none => world.goOn [.acceptConnection player connection]

/-- `connect` after `websocket.accept()`. -/
def acceptConnection (world : World) (player : PlayerId) (connection : ConnectionId)
    (answer : Answer) : Option (Block World Instr) :=
  match answer with
  | .done =>
      some ((world.updateConnections fun manager => manager.register player connection).goOn
        [.getSession player connection])
  | .closed => some world.raise
  | _ => none

/-- `send_personal` up to the await of the socket. -/
def sendPersonal (world : World) (player : PlayerId) (message : Message) (after : AfterSend) :
    Block World Instr :=
  match world.connections.connectionOf player with
  | some connection => world.goOn [.awaitSend player connection message after]
  | none => world.goOn (after.next player message false)

/-- `_send_to_connection` after the await. -/
def awaitSend (world : World) (player : PlayerId) (connection : ConnectionId)
    (message : Message) (after : AfterSend) (answer : Answer) : Option (Block World Instr) :=
  match answer with
  | .done =>
      some
        { state :=
            { world with
              journal :=
                { world.journal with sent := world.journal.sent ++ [(player, message)] } }
          next := after.next player message true }
  | .timedOut => some (world.goOn (.forceClose connection :: after.next player message false))
  | .closed =>
      some ((world.updateConnections fun manager => manager.disconnect connection).goOn
        (after.next player message false))
  | _ => none

/-- `_force_close` after the await. -/
def forceClose (world : World) (connection : ConnectionId) : Block World Instr :=
  (world.updateConnections fun manager => manager.disconnect connection).goOn

/-- `publish_to_player`, which can only fail on a message that nests too deep. -/
def publish (settings : Settings) (world : World) (player : PlayerId) (message : Message) :
    Option (Block World Instr) :=
  if message.depth ≤ settings.nesting.write then
    some
      { state :=
          { world with
            journal :=
              { world.journal with
                published := world.journal.published ++ [(player, message)] } } }
  else none

/-- The read that decides between a reconnection and a fresh connection. -/
def getSession (world : World) (player : PlayerId) (connection : ConnectionId) :
    Block World Instr :=
  match SessionManager.getSession (world.redis.sessions player) with
  | .error _ => world.raise
  | .ok (some session) =>
      if session.state = PlayerConnectionState.disconnected.value then
        world.goOn [.attemptReconnectRead player connection]
      else world.goOn [.createSession player connection]
  | .ok none => world.goOn [.createSession player connection]

/-- The read of `attempt_reconnect`. -/
def attemptReconnectRead (world : World) (player : PlayerId) (connection : ConnectionId) :
    Block World Instr :=
  match SessionManager.getSession (world.redis.sessions player) with
  | .error _ => world.raise
  | .ok (some session) =>
      if session.state = PlayerConnectionState.disconnected.value then
        world.goOn [.attemptReconnectWrite player connection session.roomId]
      else world.goOn [.acknowledge player connection]
  | .ok none => world.goOn [.acknowledge player connection]

/-- The pipeline of `attempt_reconnect`; the room is that of the session read
before. -/
def attemptReconnectWrite (settings : Settings) (world : World) (player : PlayerId)
    (connection : ConnectionId) (room : Option RoomId) : Block World Instr :=
  (world.updateRedis fun redis => redis.updateSession player
    (SessionManager.attemptReconnect settings connection world.clock)).goOn
    (match room with
      | some room => [.handlePlayerReconnect room player, .acknowledge player connection]
      | none => [.acknowledge player connection])

def createSession (settings : Settings) (world : World) (player : PlayerId)
    (connection : ConnectionId) : Block World Instr :=
  (world.updateRedis fun redis => redis.updateSession player
    (SessionManager.createSession settings player connection 1000 "" world.clock)).goOn
    [.acknowledge player connection]

def acknowledge (world : World) (player : PlayerId) (connection : ConnectionId) :
    Block World Instr :=
  world.goOn
    [.sendPersonal player (.connected player connection) .ignore, .receive player connection]

def receive (world : World) (player : PlayerId) (connection : ConnectionId)
    (answer : Answer) : Option (Block World Instr) :=
  match answer with
  | .text raw => some (world.goOn [.checkRateLimit player raw, .receive player connection])
  | .closed => some world.raise
  | _ => none

/-- The rate limit, the parsing of the frame and the test of its type. -/
def checkRateLimit (world : World) (player : PlayerId) (raw : Option Json)
    (answer : Answer) : Option (Block World Instr) :=
  match answer with
  | .limited =>
      some (world.goOn
        [sendError player ⟨"RATE_LIMITED", .text "Too many messages. Slow down."⟩])
  | .done =>
      match raw with
      | none => some (world.goOn [sendError player ⟨"INVALID_JSON", .text "Invalid JSON"⟩])
      | some message =>
          match message.get "type" with
          | .error _ => some world.raise
          | .ok messageType =>
              if messageType.truthy then
                some (world.goOn
                  [.updateActivity player, .routeMessage player messageType message])
              else
                some (world.goOn
                  [sendError player ⟨"MISSING_TYPE", .text "Message missing 'type' field"⟩])
  | _ => none

def updateActivity (settings : Settings) (world : World) (player : PlayerId) :
    Block World Instr :=
  (world.updateRedis fun redis => redis.updateSession player
    (SessionManager.updateActivity settings world.clock)).goOn

/-- `_route_message`; the sequence number is read but never used. -/
def routeMessage (settings : Settings) (world : World) (player : PlayerId)
    (messageType message : Json) : Block World Instr :=
  if messageType.isString "find_match" then
    world.goOn [.getSessionElo player]
  else if messageType.isString "cancel_match" then
    world.goOn
      [.dequeuePlayer player none,
        .updateSessionState player PlayerConnectionState.connected.value none]
  else if messageType.isString "game_action" then
    match message.get "action" (.str ""), message.get "data" (.obj []) with
    | .ok action, .ok data => world.goOn [.getPlayerRoom player action data]
    | _, _ => world.raise
  else if messageType.isString "heartbeat_ping" then
    world.goOn [.sendPersonal player (.heartbeatPong world.clock) .ignore]
  else if messageType.depth ≤ settings.nesting.format then
    world.goOn [sendError player ⟨"UNKNOWN_TYPE", .unknownType messageType⟩]
  else world.raise

/-- The read of the rating in the branch `FIND_MATCH`. -/
def getSessionElo (world : World) (player : PlayerId) : Block World Instr :=
  match SessionManager.getSession (world.redis.sessions player) with
  | .error _ => world.raise
  | .ok session =>
      world.goOn
        [.updateSessionState player PlayerConnectionState.inMatchmaking.value none,
          .enqueuePlayer player ((session.map RedisSession.eloRating).getD 1000)]

def updateSessionState (world : World) (player : PlayerId) (state : String)
    (room : Option RoomId) : Block World Instr :=
  (world.updateRedis fun redis => redis.updateSession player
    (SessionManager.updateSessionState state room world.clock)).goOn

def getPlayerRoom (world : World) (player : PlayerId) (action data : Json) :
    Block World Instr :=
  match world.redis.getPlayerRoom player with
  | some room => world.goOn [.processAction room player action data]
  | none => world.goOn [sendError player ⟨"NOT_IN_GAME", .text "You are not in a game"⟩]

def handleDisconnect (world : World) (player : PlayerId) (connection : ConnectionId) :
    Block World Instr :=
  (world.updateConnections fun manager => manager.disconnect connection).goOn
    [.dequeuePlayer player (some connection), .markDisconnectedRead player connection]

/-- The read of `mark_disconnected`. -/
def markDisconnectedRead (world : World) (player : PlayerId) (connection : ConnectionId) :
    Block World Instr :=
  match SessionManager.getSession (world.redis.sessions player) with
  | .error _ => world.raise
  | .ok (some session) => world.goOn [.markDisconnectedWrite player connection session.roomId]
  | .ok none => world.goOn

/-- The pipeline of `mark_disconnected`, and the notification of the engine. -/
def markDisconnectedWrite (settings : Settings) (world : World) (player : PlayerId)
    (connection : ConnectionId) (room : Option RoomId) : Block World Instr :=
  (world.updateRedis fun redis => redis.updateSession player
    (SessionManager.markDisconnected settings world.clock)).goOn
    (match room with
      | some room => [.handlePlayerDisconnect room player (some connection)]
      | none => [])

def updateMatchmaking (world : World) (queue : MatchmakingQueue) : World :=
  world.updateRedis fun redis => { redis with matchmaking := queue }

def enqueuePlayer (world : World) (player : PlayerId) (eloRating : Int) : Block World Instr :=
  (world.updateMatchmaking
    (world.redis.matchmaking.enqueuePlayer player eloRating world.clock)).goOn
    [.queueRank player]

def queueRank (world : World) (player : PlayerId) : Block World Instr :=
  world.goOn [.queueSize player (world.redis.matchmaking.queue.rank player)]

def queueSize (world : World) (player : PlayerId) (rank : Option Nat) : Block World Instr :=
  world.goOn
    [.sendPersonal player
      (.matchmakingQueued rank
        (MatchmakingQueue.estimateWait world.redis.matchmaking.queue.card)) .ignore]

def dequeuePlayer (world : World) (player : PlayerId) : Block World Instr :=
  let dequeued := world.redis.matchmaking.dequeuePlayer player
  (world.updateMatchmaking dequeued.1).goOn
    (if dequeued.2 then [.sendPersonal player .matchCancelled .ignore] else [])

/-- One iteration of `_matching_loop`; a script evicted from Redis counts as
no pair. -/
def matchingLoop (settings : Settings) (world : World) (answer : Answer) :
    Option (Block World Instr) :=
  match answer with
  | .done =>
      match world.redis.matchmaking.tryMatch settings world.clock with
      | (queue, some pair) =>
          some ((world.updateMatchmaking queue).goOn [.createMatch pair, .matchingLoop])
      | (queue, none) =>
          some ((world.updateMatchmaking queue).goOn
            [.sleep (settings.matchmakingIntervalMs / 1000), .matchingLoop])
  | .timedOut =>
      some (world.goOn [.sleep (settings.matchmakingIntervalMs / 1000), .matchingLoop])
  | _ => none

/-- `_create_match` draws the identifier of the room, new by the uniqueness of
`uuid4`. -/
def createMatch (world : World) (pair : MatchedPair) (answer : Answer) :
    Option (Block World Instr) :=
  match answer with
  | .drawn room =>
      if room ∈ world.roomIds then none
      else
        some (({ world with roomIds := room :: world.roomIds }).goOn
          [.storeRoom room pair, .offerMatch room pair, .createGame room pair])
  | _ => none

def storeRoom (settings : Settings) (world : World) (room : RoomId) (pair : MatchedPair) :
    Block World Instr :=
  (world.updateRedis fun redis =>
    { redis with
      rooms := Function.update redis.rooms room
        (some fun field => ((RedisRoom.ofPair settings room pair world.clock).toDict field).or
          ((redis.rooms room).bind fun data => data field)) }).goOn

/-- The colours are drawn and the match is offered to the first player. -/
def offerMatch (world : World) (room : RoomId) (pair : MatchedPair) (answer : Answer) :
    Option (Block World Instr) :=
  match answer with
  | .coin coin =>
      some (world.goOn
        [.sendPersonal pair.playerA (pair.matchFound room coin pair.playerA)
          (.offerSecond room pair coin)])
  | _ => none

/-- An iteration of the loop of `create_game` that puts a player in the room. -/
def enterRoom (room : RoomId) (player : PlayerId) : List Instr :=
  [.setPlayerRoom player room,
    .updateSessionState player PlayerConnectionState.inGame.value (some room),
    .joinRoom player room]

/-- `create_game` up to its first await. -/
def createGame (world : World) (room : RoomId) (pair : MatchedPair) : Block World Instr :=
  ({ world with
    engine := world.engine.createMatchedGame room pair world.clock }).goOn
    (pair.playerIds.flatMap (enterRoom room) ++
      (pair.playerIds.zipIdx.map fun entry : PlayerId × Nat =>
        Instr.sendGameStarted room entry.1 entry.2) ++
      [Instr.saveSnapshot room])

def setPlayerRoom (world : World) (player : PlayerId) (room : RoomId) : Block World Instr :=
  (world.updateRedis fun redis => redis.setPlayerRoom player room).goOn

def joinRoom (world : World) (player : PlayerId) (room : RoomId) : Block World Instr :=
  (world.updateConnections fun manager => manager.joinPlayer player room).goOn

def sendGameStarted (world : World) (room : RoomId) (player : PlayerId) (position : Nat) :
    Block World Instr :=
  world.withGame room fun game =>
    world.showing game fun _ state =>
      [.sendPersonal player
        (.gameStarted room state (decide (position = game.currentPlayerIdx))) .publish]

/-- `process_action` up to the broadcast. -/
def processAction (settings : Settings) (world : World) (room : RoomId) (player : PlayerId)
    (action data : Json) : Block World Instr :=
  match world.engine.processAction room player action data world.clock with
  | (engine, .refused error) =>
      if error.message.depth ≤ settings.nesting.format then
        ({ world with engine := engine }).goOn [sendError player error]
      else ({ world with engine := engine }).raise
  | (engine, .raised _) => ({ world with engine := engine }).raise
  | (engine, .accepted gameOver) =>
      ({ world with engine := engine }).withGame room fun game =>
        ({ world with engine := engine }).goOn
          ((game.playerIds.map fun recipient => Instr.sendStateUpdate room recipient action data) ++
            (if gameOver then [Instr.handleGameOver room] else []))

/-- An iteration of `_broadcast_state_update`, which can only fail on a move that nests
too deep for `model_dump`. -/
def sendStateUpdate (settings : Settings) (world : World) (room : RoomId) (player : PlayerId)
    (action data : Json) : Option (Block World Instr) :=
  if max action.depth data.depth + 3 ≤ settings.nesting.dump then
    some (world.withGame room fun game =>
      world.showing game fun current state =>
        [.sendPersonal player
          (.gameStateUpdate room state (some (action, data)) (decide (player = current))
            game.turnNumber world.clock) .publish])
  else none

/-- `_handle_game_over` up to its first await. -/
def handleGameOver (world : World) (room : RoomId) : Block World Instr :=
  world.withGame room fun game =>
    ({ world with
      journal := { world.journal with gameOvers := world.journal.gameOvers ++ [room] } }).goOn
      ((game.playerIds.map fun player => Instr.sendGameOver room player game) ++
        [Instr.createPersistTask room game, Instr.saveSnapshot room, Instr.cleanupGame room])

def sendGameOver (world : World) (room : RoomId) (player : PlayerId) (settled : ActiveGame) :
    Block World Instr :=
  world.withGame room fun game =>
    world.showing game fun _ state =>
      [.sendPersonal player
        (.gameOver room game.winnerId
          (if game.winnerId = none then "draw"
            else if game.winnerId = some player then "win" else "loss")
          settled state) .publish]

def createPersistTask (world : World) (room : RoomId) (settled : ActiveGame) :
    Block World Instr :=
  { state :=
      { world with
        journal := { world.journal with persistTasks := world.journal.persistTasks ++ [room] } }
    spawned := [[.persistResult room settled]] }

def persistResult (world : World) (room : RoomId) (settled : ActiveGame) :
    Block World Instr :=
  world.withGame room fun game =>
    ({ world with
      journal :=
        { world.journal with
          matchRecords := world.journal.matchRecords ++ [MatchRecord.mk room settled game] } }).goOn

/-- `_save_snapshot` up to the command, which can only fail on a state that nests too
deep. -/
def saveSnapshot (settings : Settings) (world : World) (room : RoomId) :
    Option (Block World Instr) :=
  match world.engine.saveSnapshot room world.clock with
  | .error _ => some world.raise
  | .ok (some document) =>
      if document.depth ≤ settings.nesting.write then
        some (world.goOn [.setSnapshot room document])
      else none
  | .ok none => some world.goOn

def setSnapshot (world : World) (room : RoomId) (document : Json) : Block World Instr :=
  (world.updateRedis fun redis =>
    { redis with roomStates := Function.update redis.roomStates room (some document) }).goOn

/-- `_cleanup_game` up to its sleep. -/
def cleanupGame (world : World) (room : RoomId) : Block World Instr :=
  match world.engine.find room with
  | none => world.goOn
  | some game =>
      ({ world with
        engine := world.engine.pop room
        connections :=
          game.playerIds.foldl ConnectionManager.releasePlayer world.connections }).goOn
        [.sleep 5, .deleteRoomKeys room game.playerIds]

/-- The pipeline of `_cleanup_game`. -/
def deleteRoomKeys (world : World) (room : RoomId) (playerIds : List PlayerId) :
    Block World Instr :=
  (world.updateRedis fun redis => redis.deleteRoomKeys room playerIds).goOn

/-- `handle_player_disconnect` up to its first await. -/
def handlePlayerDisconnect (settings : Settings) (world : World) (room : RoomId)
    (player : PlayerId) (caller : Option ConnectionId) : Block World Instr :=
  match world.engine.handlePlayerDisconnect room player with
  | none => world.goOn
  | some engine =>
      ({ world with engine := engine }).withGame room fun game =>
        ({ world with engine := engine }).goOn
          ((game.playerIds.filter (· ≠ player)).map (fun opponent =>
              Instr.sendPersonal opponent
                (.playerDisconnected player settings.reconnectGracePeriodSec) .ignore) ++
            [Instr.createDisconnectTimer room player caller])

def createDisconnectTimer (world : World) (room : RoomId) (player : PlayerId) :
    Block World Instr :=
  { state := world, spawned := [[.disconnectTimer room player]] }

/-- The start of `_disconnect_timer`. -/
def disconnectTimer (settings : Settings) (world : World) (room : RoomId)
    (player : PlayerId) : Block World Instr :=
  world.goOn
    [.disconnectTimerWakes room player (world.clock + settings.reconnectGracePeriodSec)]

/-- `_disconnect_timer` after its sleep. -/
def disconnectTimerWakes (world : World) (room : RoomId) (player : PlayerId)
    (deadline : Time) : Option (Block World Instr) :=
  if world.clock < deadline then none
  else
    match world.engine.disconnectTimer room player with
    | none => some world.goOn
    | some engine => some (({ world with engine := engine }).goOn [.handleGameOver room])

/-- `handle_player_reconnect` up to its first await. -/
def handlePlayerReconnect (world : World) (room : RoomId) (player : PlayerId) :
    Block World Instr :=
  match world.engine.handlePlayerReconnect room player with
  | none => world.goOn
  | some (engine, game) =>
      ({ world with
        engine := engine
        connections := world.connections.joinPlayer player room }).showing game
        fun current state =>
          .sendPersonal player
              (.gameStateUpdate room state none (decide (player = current)) game.turnNumber
                world.clock) .ignore ::
            (game.playerIds.filter (· ≠ player)).map fun opponent =>
              .sendPersonal opponent (.playerReconnected player) .ignore

def snapshotLoop (settings : Settings) (world : World) : Block World Instr :=
  world.goOn
    (world.engine.live.map Instr.saveSnapshot ++
      [Instr.sleep settings.stateSnapshotIntervalSec, Instr.snapshotLoop])

def sleep (world : World) (seconds : Time) : Block World Instr :=
  world.goOn [.wake (world.clock + seconds)]

def wake (world : World) (deadline : Time) : Option (Block World Instr) :=
  if world.clock < deadline then none else some world.goOn

end World

end TerritoryBackend

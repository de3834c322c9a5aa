import TerritoryBackend.Handlers

/-!
# The server as an event loop

The coroutines of one instance under an arbitrary scheduler: connection
handlers, the matching loop, the snapshot loop, forfeit timers and persist
tasks.  Redis executes a command some time before its answer arrives, every
command may fail, and keys with a time to live may expire at any time.
-/

namespace TerritoryBackend

open EventLoop

namespace Instr

def kind : Instr → Kind
  | .acceptConnection .. | .receive .. | .awaitSend .. | .forceClose .. | .wake ..
  | .disconnectTimerWakes .. => .resumption
  | .getSession .. | .attemptReconnectRead .. | .attemptReconnectWrite .. | .createSession ..
  | .checkRateLimit .. | .updateActivity .. | .getSessionElo .. | .updateSessionState ..
  | .getPlayerRoom .. | .markDisconnectedRead .. | .markDisconnectedWrite .. | .publish ..
  | .enqueuePlayer .. | .queueRank .. | .queueSize .. | .dequeuePlayer .. | .matchingLoop
  | .storeRoom .. | .setPlayerRoom .. | .persistResult .. | .setSnapshot ..
  | .deleteRoomKeys .. => .remote
  | _ => .local

/-- Commands to Redis and the database may raise, and so do the update and the snapshot
of a game that nests too deep. -/
def fallible (settings : Settings) (instruction : Instr) (world : World) : Bool :=
  match instruction with
  | .sendStateUpdate room player action data =>
      (world.sendStateUpdate settings room player action data).isNone
  | .saveSnapshot room => (world.saveSnapshot settings room).isNone
  | _ => decide (instruction.kind = .remote)

/-- The exception handler that ends in this instruction, if there is one. -/
def handler (settings : Settings) : Instr → Option (List Instr)
  | .receive player connection => some [.handleDisconnect player connection]
  | .matchingLoop => some [.sleep (settings.matchmakingIntervalMs / 1000), .matchingLoop]
  | .snapshotLoop => some [.sleep settings.stateSnapshotIntervalSec, .snapshotLoop]
  | _ => none

/-- What is left of a coroutine after an exception: the innermost handler, or
nothing. -/
def unwind (settings : Settings) (instructions : List Instr) : List Instr :=
  (instructions.findSome? (handler settings)).getD []

def block (settings : Settings) (instruction : Instr) (answer : Answer) (world : World) :
    Option (Block World Instr) :=
  match instruction with
  | .connect player connection => some (world.connect player connection)
  | .acceptConnection player connection => world.acceptConnection player connection answer
  | .getSession player connection => some (world.getSession player connection)
  | .attemptReconnectRead player connection => some (world.attemptReconnectRead player connection)
  | .attemptReconnectWrite player connection room =>
      some (world.attemptReconnectWrite settings player connection room)
  | .createSession player connection => some (world.createSession settings player connection)
  | .acknowledge player connection => some (world.acknowledge player connection)
  | .receive player connection => world.receive player connection answer
  | .checkRateLimit player raw => world.checkRateLimit player raw answer
  | .updateActivity player => some (world.updateActivity settings player)
  | .routeMessage player messageType message =>
      some (world.routeMessage settings player messageType message)
  | .getSessionElo player => some (world.getSessionElo player)
  | .updateSessionState player state room => some (world.updateSessionState player state room)
  | .getPlayerRoom player action data => some (world.getPlayerRoom player action data)
  | .handleDisconnect player connection => some (world.handleDisconnect player connection)
  | .markDisconnectedRead player connection =>
      some (world.markDisconnectedRead player connection)
  | .markDisconnectedWrite player connection room =>
      some (world.markDisconnectedWrite settings player connection room)
  | .sendPersonal player message after => some (world.sendPersonal player message after)
  | .awaitSend player connection message after =>
      world.awaitSend player connection message after answer
  | .forceClose connection => some (world.forceClose connection)
  | .publish player message => world.publish settings player message
  | .enqueuePlayer player eloRating => some (world.enqueuePlayer player eloRating)
  | .queueRank player => some (world.queueRank player)
  | .queueSize player rank => some (world.queueSize player rank)
  | .dequeuePlayer player _ => some (world.dequeuePlayer player)
  | .matchingLoop => world.matchingLoop settings answer
  | .createMatch pair => world.createMatch pair answer
  | .storeRoom room pair => some (world.storeRoom settings room pair)
  | .offerMatch room pair => world.offerMatch room pair answer
  | .createGame room pair => some (world.createGame room pair)
  | .setPlayerRoom player room => some (world.setPlayerRoom player room)
  | .joinRoom player room => some (world.joinRoom player room)
  | .sendGameStarted room player position => some (world.sendGameStarted room player position)
  | .processAction room player action data =>
      some (world.processAction settings room player action data)
  | .sendStateUpdate room player action data =>
      world.sendStateUpdate settings room player action data
  | .handleGameOver room => some (world.handleGameOver room)
  | .sendGameOver room player settled => some (world.sendGameOver room player settled)
  | .createPersistTask room settled => some (world.createPersistTask room settled)
  | .persistResult room settled => some (world.persistResult room settled)
  | .saveSnapshot room => world.saveSnapshot settings room
  | .setSnapshot room document => some (world.setSnapshot room document)
  | .cleanupGame room => some (world.cleanupGame room)
  | .deleteRoomKeys room playerIds => some (world.deleteRoomKeys room playerIds)
  | .handlePlayerDisconnect room player caller =>
      some (world.handlePlayerDisconnect settings room player caller)
  | .createDisconnectTimer room player _ => some (world.createDisconnectTimer room player)
  | .disconnectTimer room player => some (world.disconnectTimer settings room player)
  | .disconnectTimerWakes room player deadline =>
      world.disconnectTimerWakes room player deadline
  | .handlePlayerReconnect room player => some (world.handlePlayerReconnect room player)
  | .snapshotLoop => some (world.snapshotLoop settings)
  | .sleep seconds => some (world.sleep seconds)
  | .wake deadline => world.wake deadline

end Instr

namespace ServerEvent

def effect (event : ServerEvent) (world : World) : Option (World × List (List Instr)) :=
  match event with
  | .accept player connection =>
      if connection ∈ world.connectionIds then none
      else
        some ({ world with connectionIds := connection :: world.connectionIds },
          [[.connect player connection]])
  | .sessionExpires player =>
      some (world.updateRedis fun redis => redis.updateSession player RedisHash.lapse, [])
  | .playerRoomExpires player =>
      some (world.updateRedis fun redis =>
        { redis with playerRooms := Function.update redis.playerRooms player none }, [])
  | .roomStateExpires room =>
      some (world.updateRedis fun redis =>
        { redis with roomStates := Function.update redis.roomStates room none }, [])
  | .advance seconds =>
      if 0 ≤ seconds then some ({ world with clock := world.clock + seconds }, []) else none
  | .callProcessAction room player action data =>
      some (world, [[.processAction room player action data]])
  | .callHandlePlayerDisconnect room player =>
      some (world, [[.handlePlayerDisconnect room player none]])
  | .callHandlePlayerReconnect room player =>
      some (world, [[.handlePlayerReconnect room player]])

end ServerEvent

def server (settings : Settings) : Machine World Instr Answer ServerEvent where
  block := Instr.block settings
  kind := Instr.kind
  fallible := Instr.fallible settings
  unwind := Instr.unwind settings
  event := ServerEvent.effect

abbrev ServerConfig := Config World Instr

abbrev ServerChoice := Choice Answer ServerEvent

/-- The instance once its services have been started, on a Redis that holds
anything: the rooms mentioned there are taken. -/
def booted (redis : Redis) (roomIds : List RoomId) : ServerConfig where
  state := { redis := redis, roomIds := roomIds }
  tasks := [[.matchingLoop], [.snapshotLoop]]

/-- The matching loop, the first coroutine, is between two iterations. -/
def LoopIdle (config : ServerConfig) : Prop :=
  config.tasks[0]? = some [.matchingLoop] ∨
    ∃ pause, config.tasks[0]? = some [pause, .matchingLoop] ∧
      ((∃ seconds, pause = .sleep seconds) ∨ ∃ deadline, pause = .wake deadline)

/-- Let a coroutine take a number of steps, everything it awaits succeeding. -/
def proceed (task count : Nat) : List ServerChoice :=
  List.replicate count (.resume task .done)

def openConnection (player : PlayerId) (connection : ConnectionId) (task count : Nat) :
    List ServerChoice :=
  .event (.accept player connection) :: proceed task count

/-- The matching loop forms a match and goes on for a number of steps. -/
def formMatch (room : RoomId) (count : Nat) : List ServerChoice :=
  proceed 0 1 ++ [.resume 0 (.drawn room)] ++ proceed 0 1 ++ [.resume 0 (.coin true)] ++
    proceed 0 count

/-- A client asks for a match. -/
def findMatch (task count : Nat) : List ServerChoice :=
  .resume task (.text (some (.obj [("type", .str "find_match")]))) :: proceed task count

/-- Ada and Bob connect and look for a match. -/
def waitTogether : List ServerChoice :=
  openConnection "ada" "conn-1" 2 7 ++ findMatch 2 10 ++ openConnection "bob" "conn-2" 3 7 ++
    findMatch 3 10

/-- Two players with the default rating wait for a match. -/
def waitingRookies : Redis where
  matchmaking :=
    (({} : MatchmakingQueue).enqueuePlayer rookies.playerA rookies.eloA 0).enqueuePlayer
      rookies.playerB rookies.eloB 0

end TerritoryBackend

import TerritoryBackend.ConnectionManager
import TerritoryBackend.Matchmaking
import TerritoryBackend.SessionManager

/-!
# The state of a running instance

The keys in Redis, the registries and games of the instance, the clock, and a
journal of what has left the process: messages, log lines and match records.
-/

namespace TerritoryBackend

/-- The messages sent to clients.  `elo_delta` is a function of the game at the
moment it was declared over, which a `gameOver` message carries instead. -/
inductive Message where
  | connected (player : PlayerId) (sessionId : ConnectionId)
  | error (response : ErrorResponse)
  | matchmakingQueued (queuePosition : Option Nat) (estimatedWaitSec : Nat)
  | matchCancelled
  | matchFound (room : RoomId) (opponent : PlayerId) (opponentElo : Int) (yourColor : String)
  | gameStarted (room : RoomId) (initialState : ClientState) (yourTurn : Bool)
  | gameStateUpdate (room : RoomId) (state : ClientState) (lastAction : Option (Json × Json))
      (yourTurn : Bool) (turnNumber : Nat) (serverTimestamp : Time)
  | gameOver (room : RoomId) (winner : Option PlayerId) (result : String)
      (settled : ActiveGame) (finalState : ClientState)
  | heartbeatPong (serverTime : Time)
  | playerDisconnected (player : PlayerId) (gracePeriodSec : Nat)
  | playerReconnected (player : PlayerId)

def Message.gameOverRoom : Message → Option RoomId
  | .gameOver room .. => some room
  | _ => none

/-- How deep the document published for a message nests: the envelope, the payload, the
state, the board and its rows, or the last action and what the client sent for it. -/
def Message.depth : Message → Nat
  | .gameStateUpdate _ _ (some (action, data)) _ _ _ => max 5 (max action.depth data.depth + 3)
  | .gameStarted .. | .gameStateUpdate .. | .gameOver .. => 5
  | _ => 2

structure Redis where
  sessions : PlayerId → SessionKey := fun _ => none
  playerRooms : PlayerId → Option RoomId := fun _ => none
  matchmaking : MatchmakingQueue := {}
  rooms : RoomId → Option (RoomField → Option RedisText) := fun _ => none
  roomStates : RoomId → Option Json := fun _ => none

namespace Redis

/-- Run a command or a pipeline on the key of a player's session. -/
def updateSession (redis : Redis) (player : PlayerId) (command : SessionKey → SessionKey) :
    Redis :=
  { redis with
    sessions := Function.update redis.sessions player (command (redis.sessions player)) }

def setPlayerRoom (redis : Redis) (player : PlayerId) (room : RoomId) : Redis :=
  { redis with playerRooms := Function.update redis.playerRooms player (some room) }

/-- `get_player_room`, where an empty text counts as absent. -/
def getPlayerRoom (redis : Redis) (player : PlayerId) : Option RoomId :=
  (redis.playerRooms player).bind RedisSession.orNone

/-- The pipeline of `_cleanup_game`. -/
def deleteRoomKeys (redis : Redis) (room : RoomId) (playerIds : List PlayerId) : Redis :=
  { redis with
    rooms := Function.update redis.rooms room none
    roomStates := Function.update redis.roomStates room none
    playerRooms := fun player => if player ∈ playerIds then none else redis.playerRooms player }

end Redis

/-- A match row with its results, written by one run of `_persist_result`. -/
structure MatchRecord where
  roomId : RoomId
  settled : ActiveGame
  final : ActiveGame

structure Journal where
  sent : List (PlayerId × Message) := []
  published : List (PlayerId × Message) := []
  /-- the rooms of the log lines `game_over` -/
  gameOvers : List RoomId := []
  /-- the rooms of the tasks named `persist_{room_id}` -/
  persistTasks : List RoomId := []
  matchRecords : List MatchRecord := []

/-- Redis, one instance, the clock and the journal.  The lists of identifiers
are those drawn so far. -/
structure World where
  redis : Redis := {}
  connections : ConnectionManager := {}
  engine : GameEngine := {}
  clock : Time := 0
  connectionIds : List ConnectionId := []
  roomIds : List RoomId := []
  journal : Journal := {}

/-- How the code around a `send_personal` uses its result. -/
inductive AfterSend where
  /-- the result is ignored -/
  | ignore
  /-- an unsent message is published to the player's other instances -/
  | publish
  /-- `sent_a` of `_create_match`: send to the second player -/
  | offerSecond (room : RoomId) (pair : MatchedPair) (coin : Bool)
  /-- `sent_b` of `_create_match`: publish what was not sent -/
  | offerPublish (room : RoomId) (pair : MatchedPair) (coin sentA : Bool)

/-- A block of a coroutine.  `caller` is the connection whose final clean-up
the instruction is part of, if it is part of one. -/
inductive Instr where
  -- `websocket_endpoint`
  | connect (player : PlayerId) (connection : ConnectionId)
  | acceptConnection (player : PlayerId) (connection : ConnectionId)
  | getSession (player : PlayerId) (connection : ConnectionId)
  | attemptReconnectRead (player : PlayerId) (connection : ConnectionId)
  | attemptReconnectWrite (player : PlayerId) (connection : ConnectionId) (room : Option RoomId)
  | createSession (player : PlayerId) (connection : ConnectionId)
  | acknowledge (player : PlayerId) (connection : ConnectionId)
  | receive (player : PlayerId) (connection : ConnectionId)
  | checkRateLimit (player : PlayerId) (raw : Option Json)
  | updateActivity (player : PlayerId)
  -- `_route_message`
  | routeMessage (player : PlayerId) (messageType message : Json)
  | getSessionElo (player : PlayerId)
  | updateSessionState (player : PlayerId) (state : String) (room : Option RoomId)
  | getPlayerRoom (player : PlayerId) (action data : Json)
  -- `_handle_disconnect` and `mark_disconnected`
  | handleDisconnect (player : PlayerId) (connection : ConnectionId)
  | markDisconnectedRead (player : PlayerId) (connection : ConnectionId)
  | markDisconnectedWrite (player : PlayerId) (connection : ConnectionId) (room : Option RoomId)
  -- `ConnectionManager` and `publish_to_player`
  | sendPersonal (player : PlayerId) (message : Message) (after : AfterSend)
  | awaitSend (player : PlayerId) (connection : ConnectionId) (message : Message)
      (after : AfterSend)
  | forceClose (connection : ConnectionId)
  | publish (player : PlayerId) (message : Message)
  -- `MatchmakingService`
  | enqueuePlayer (player : PlayerId) (eloRating : Int)
  | queueRank (player : PlayerId)
  | queueSize (player : PlayerId) (rank : Option Nat)
  | dequeuePlayer (player : PlayerId) (caller : Option ConnectionId)
  | matchingLoop
  | createMatch (pair : MatchedPair)
  | storeRoom (room : RoomId) (pair : MatchedPair)
  | offerMatch (room : RoomId) (pair : MatchedPair)
  -- `GameEngine`
  | createGame (room : RoomId) (pair : MatchedPair)
  | setPlayerRoom (player : PlayerId) (room : RoomId)
  | joinRoom (player : PlayerId) (room : RoomId)
  | sendGameStarted (room : RoomId) (player : PlayerId) (position : Nat)
  | processAction (room : RoomId) (player : PlayerId) (action data : Json)
  | sendStateUpdate (room : RoomId) (player : PlayerId) (action data : Json)
  | handleGameOver (room : RoomId)
  | sendGameOver (room : RoomId) (player : PlayerId) (settled : ActiveGame)
  | createPersistTask (room : RoomId) (settled : ActiveGame)
  | persistResult (room : RoomId) (settled : ActiveGame)
  | saveSnapshot (room : RoomId)
  | setSnapshot (room : RoomId) (document : Json)
  | cleanupGame (room : RoomId)
  | deleteRoomKeys (room : RoomId) (playerIds : List PlayerId)
  | handlePlayerDisconnect (room : RoomId) (player : PlayerId) (caller : Option ConnectionId)
  | createDisconnectTimer (room : RoomId) (player : PlayerId) (caller : Option ConnectionId)
  | disconnectTimer (room : RoomId) (player : PlayerId)
  | disconnectTimerWakes (room : RoomId) (player : PlayerId) (deadline : Time)
  | handlePlayerReconnect (room : RoomId) (player : PlayerId)
  | snapshotLoop
  -- `asyncio.sleep`
  | sleep (seconds : Time)
  | wake (deadline : Time)

inductive Answer where
  /-- the operation succeeded -/
  | done
  /-- `asyncio.wait_for` gave up waiting -/
  | timedOut
  /-- the socket is closed -/
  | closed
  /-- a text frame, by the document it encodes if it is JSON -/
  | text (document : Option Json)
  /-- the rate limiter refuses -/
  | limited
  /-- the identifier drawn by `uuid4` -/
  | drawn (room : RoomId)
  /-- whether `random.random() > 0.5` -/
  | coin (heads : Bool)

inductive ServerEvent where
  /-- a client with a valid token asks for a connection -/
  | accept (player : PlayerId) (connection : ConnectionId)
  | sessionExpires (player : PlayerId)
  | playerRoomExpires (player : PlayerId)
  | roomStateExpires (room : RoomId)
  | advance (seconds : Time)
  /-- a direct call of a method of the engine -/
  | callProcessAction (room : RoomId) (player : PlayerId) (action data : Json)
  | callHandlePlayerDisconnect (room : RoomId) (player : PlayerId)
  | callHandlePlayerReconnect (room : RoomId) (player : PlayerId)

end TerritoryBackend

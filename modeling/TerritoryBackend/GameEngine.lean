import TerritoryBackend.ActiveGame
import Mathlib.Logic.Function.Basic

/-!
# The table of games of one instance

`GameEngine._games` with the synchronous part of every method that looks a
game up in it.  A coroutine that has looked a game up keeps a reference to the
object after the table has dropped it, so the objects are kept apart from the
keys of the table.
-/

namespace TerritoryBackend

/-- The game objects by room, and the keys of `_games`. -/
structure GameEngine where
  games : RoomId → Option ActiveGame := fun _ => none
  live : List RoomId := []

/-- How `process_action` goes on after its synchronous part. -/
inductive ActionReply where
  /-- `_send_error` and `return False` -/
  | refused (error : ErrorResponse)
  /-- an exception leaves the handler -/
  | raised (error : PythonError)
  /-- the state update is broadcast; the flag is `game_over` -/
  | accepted (gameOver : Bool)

namespace GameEngine

def find (engine : GameEngine) (room : RoomId) : Option ActiveGame :=
  if room ∈ engine.live then engine.games room else none

/-- Mutate the object of a room. -/
def write (engine : GameEngine) (room : RoomId) (game : ActiveGame) : GameEngine :=
  { engine with games := Function.update engine.games room (some game) }

def register (engine : GameEngine) (room : RoomId) (game : ActiveGame) : GameEngine :=
  { games := Function.update engine.games room (some game)
    live := if room ∈ engine.live then engine.live else engine.live ++ [room] }

def pop (engine : GameEngine) (room : RoomId) : GameEngine :=
  { engine with live := engine.live.filter (· ≠ room) }

/-- The registration `create_game` starts with. -/
def createGame (engine : GameEngine) (room : RoomId) (playerIds : List PlayerId)
    (playerElos : Dict PlayerId Int) (now : Time) : GameEngine :=
  engine.register room (ActiveGame.create room playerIds playerElos now)

/-- `process_action` up to the broadcast. -/
def processAction (engine : GameEngine) (room : RoomId) (player : PlayerId)
    (action data : Json) (now : Time) : GameEngine × ActionReply :=
  match engine.find room with
  | none => (engine, .refused ⟨"GAME_NOT_FOUND", .text "Game not found"⟩)
  | some game =>
      match game.processAction player action data now with
      | .error error => (engine, .raised error)
      | .ok (.refused error) => (engine, .refused error)
      | .ok (.passed (next, gameOver)) => (engine.write room next, .accepted gameOver)

/-- `handle_player_disconnect` up to the notification of the opponent, `none`
when it returns early. -/
def handlePlayerDisconnect (engine : GameEngine) (room : RoomId) (player : PlayerId) :
    Option GameEngine :=
  (engine.find room).bind fun game =>
    (game.handlePlayerDisconnect player).map (engine.write room)

/-- `_disconnect_timer` after its sleep, `none` when nobody forfeits. -/
def disconnectTimer (engine : GameEngine) (room : RoomId) (player : PlayerId) :
    Option GameEngine :=
  (engine.find room).bind fun game =>
    (game.disconnectTimer player).map (engine.write room)

/-- `handle_player_reconnect` up to the first message, `none` when the game is
not in the table. -/
def handlePlayerReconnect (engine : GameEngine) (room : RoomId) (player : PlayerId) :
    Option (GameEngine × ActiveGame) :=
  (engine.find room).map fun game =>
    let resumed := game.handlePlayerReconnect player
    (engine.write room resumed, resumed)

theorem find_eq_some {engine : GameEngine} {room : RoomId} {game : ActiveGame} :
    engine.find room = some game ↔ room ∈ engine.live ∧ engine.games room = some game := by
  unfold find
  split <;> simp_all

/-- Whether a game is found depends on its entry and its registration only. -/
theorem find_congr {engine after : GameEngine} {room : RoomId}
    (games : after.games room = engine.games room) (live : room ∈ after.live ↔ room ∈ engine.live) :
    after.find room = engine.find room := by
  simp [find, games, live]

@[simp]
theorem write_games (engine : GameEngine) (room other : RoomId) (game : ActiveGame) :
    (engine.write room game).games other =
      if other = room then some game else engine.games other := by
  simp [write, Function.update_apply]

@[simp]
theorem write_live (engine : GameEngine) (room : RoomId) (game : ActiveGame) :
    (engine.write room game).live = engine.live := rfl

theorem find_write {engine : GameEngine} {room : RoomId} (present : room ∈ engine.live)
    (game : ActiveGame) (other : RoomId) :
    (engine.write room game).find other =
      if other = room then some game else engine.find other := by
  unfold find
  rw [write_live, write_games]
  by_cases same : other = room
  · simp [same, present]
  · simp [same]

@[simp]
theorem find_register (engine : GameEngine) (room : RoomId) (game : ActiveGame) :
    (engine.register room game).find room = some game := by
  simp only [find, register]
  split <;> simp_all

@[simp]
theorem pop_games (engine : GameEngine) (room : RoomId) :
    (engine.pop room).games = engine.games := rfl

theorem find_pop {engine : GameEngine} {room other : RoomId} (different : other ≠ room) :
    (engine.pop room).find other = engine.find other := by
  simp [find, pop, different]

@[simp]
theorem mem_pop_live (engine : GameEngine) (room other : RoomId) :
    other ∈ (engine.pop room).live ↔ other ∈ engine.live ∧ other ≠ room := by
  simp [pop]

@[simp]
theorem createGame_games (engine : GameEngine) (room other : RoomId)
    (playerIds : List PlayerId) (playerElos : Dict PlayerId Int) (now : Time) :
    (engine.createGame room playerIds playerElos now).games other =
      if other = room then some (ActiveGame.create room playerIds playerElos now)
      else engine.games other := by
  simp [createGame, register, Function.update_apply]

@[simp]
theorem mem_createGame_live (engine : GameEngine) (room other : RoomId)
    (playerIds : List PlayerId) (playerElos : Dict PlayerId Int) (now : Time) :
    other ∈ (engine.createGame room playerIds playerElos now).live ↔
      other = room ∨ other ∈ engine.live := by
  simp only [createGame, register]
  split
  · exact ⟨.inr, fun member => member.elim (fun same => same ▸ ‹_›) id⟩
  · simp [or_comm]

/-- The part of a game that is fixed when it is created. -/
structure Contest where
  roomId : RoomId
  playerIds : List PlayerId
  playerElos : Dict PlayerId Int

def contests (engine : GameEngine) (room : RoomId) : Option Contest :=
  (engine.games room).map fun game => ⟨game.roomId, game.playerIds, game.playerElos⟩

theorem contests_write {engine : GameEngine} {room : RoomId} {game next : ActiveGame}
    (stored : engine.games room = some game) (roomId : next.roomId = game.roomId)
    (playerIds : next.playerIds = game.playerIds)
    (playerElos : next.playerElos = game.playerElos) :
    (engine.write room next).contests = engine.contests := by
  funext other
  by_cases same : other = room
  · simp [contests, same, stored, roomId, playerIds, playerElos]
  · simp [contests, same]

@[simp]
theorem contests_pop (engine : GameEngine) (room : RoomId) :
    (engine.pop room).contests = engine.contests := rfl

theorem contests_createGame (engine : GameEngine) (room : RoomId) (playerIds : List PlayerId)
    (playerElos : Dict PlayerId Int) (now : Time) :
    (engine.createGame room playerIds playerElos now).contests =
      Function.update engine.contests room (some ⟨room, playerIds, playerElos⟩) := by
  funext other
  by_cases same : other = room <;> simp [contests, same, ActiveGame.create]

/-- `process_action` either leaves the engine alone or writes the accepted
action into the registered game. -/
theorem processAction_cases (engine : GameEngine) (room : RoomId) (player : PlayerId)
    (action data : Json) (now : Time) :
    ((engine.processAction room player action data now).1 = engine ∧
      ∀ gameOver, (engine.processAction room player action data now).2 ≠ .accepted gameOver) ∨
    ∃ game result, engine.find room = some game ∧
      game.processAction player action data now = .ok (.passed result) ∧
      engine.processAction room player action data now =
        (engine.write room result.1, .accepted result.2) := by
  unfold processAction
  split
  · exact .inl ⟨rfl, by simp⟩
  · rename_i game found
    split
    · exact .inl ⟨rfl, by simp⟩
    · exact .inl ⟨rfl, by simp⟩
    · rename_i next gameOver passed
      exact .inr ⟨game, (next, gameOver), found, passed, rfl⟩

@[simp]
theorem contests_processAction (engine : GameEngine) (room : RoomId) (player : PlayerId)
    (action data : Json) (now : Time) :
    (engine.processAction room player action data now).1.contests = engine.contests := by
  rcases processAction_cases engine room player action data now with
    ⟨unchanged, -⟩ | ⟨game, result, found, passed, equation⟩
  · rw [unchanged]
  · obtain ⟨roomId, playerIds, playerElos, -⟩ := ActiveGame.processAction_frame passed
    rw [equation]
    exact contests_write (find_eq_some.mp found).2 roomId playerIds playerElos

theorem handlePlayerDisconnect_eq_some {engine after : GameEngine} {room : RoomId}
    {player : PlayerId} (paused : engine.handlePlayerDisconnect room player = some after) :
    ∃ game, engine.find room = some game ∧ game.status = .inProgress ∧
      after = engine.write room
        { game with
          disconnectedPlayers := insert player game.disconnectedPlayers
          status := .paused } := by
  obtain ⟨game, found, mapped⟩ := Option.bind_eq_some_iff.mp paused
  obtain ⟨next, called, rfl⟩ := Option.map_eq_some_iff.mp mapped
  unfold ActiveGame.handlePlayerDisconnect at called
  split at called
  · cases called
  · cases called
    exact ⟨game, found, not_not.mp ‹_›, rfl⟩

theorem disconnectTimer_eq_some {engine after : GameEngine} {room : RoomId}
    {player : PlayerId} (forfeited : engine.disconnectTimer room player = some after) :
    ∃ game, engine.find room = some game ∧ player ∈ game.disconnectedPlayers ∧
      after = engine.write room
        { game with
          winnerId := (game.playerIds.find? (· ≠ player)).or game.winnerId
          status := .finished } := by
  obtain ⟨game, found, mapped⟩ := Option.bind_eq_some_iff.mp forfeited
  obtain ⟨next, called, rfl⟩ := Option.map_eq_some_iff.mp mapped
  unfold ActiveGame.disconnectTimer at called
  split at called
  · cases called
    exact ⟨game, found, ‹_›, rfl⟩
  · cases called

theorem handlePlayerReconnect_eq_some {engine after : GameEngine} {room : RoomId}
    {player : PlayerId} {resumed : ActiveGame}
    (reconnected : engine.handlePlayerReconnect room player = some (after, resumed)) :
    ∃ game, engine.find room = some game ∧ resumed = game.handlePlayerReconnect player ∧
      after = engine.write room resumed := by
  obtain ⟨game, found, same⟩ := Option.map_eq_some_iff.mp reconnected
  cases same
  exact ⟨game, found, rfl, rfl⟩

theorem contests_handlePlayerDisconnect {engine after : GameEngine} {room : RoomId}
    {player : PlayerId} (paused : engine.handlePlayerDisconnect room player = some after) :
    after.contests = engine.contests := by
  obtain ⟨game, found, -, rfl⟩ := handlePlayerDisconnect_eq_some paused
  exact contests_write (find_eq_some.mp found).2 rfl rfl rfl

theorem contests_disconnectTimer {engine after : GameEngine} {room : RoomId}
    {player : PlayerId} (forfeited : engine.disconnectTimer room player = some after) :
    after.contests = engine.contests := by
  obtain ⟨game, found, -, rfl⟩ := disconnectTimer_eq_some forfeited
  exact contests_write (find_eq_some.mp found).2 rfl rfl rfl

theorem contests_handlePlayerReconnect {engine after : GameEngine} {room : RoomId}
    {player : PlayerId} {resumed : ActiveGame}
    (reconnected : engine.handlePlayerReconnect room player = some (after, resumed)) :
    after.contests = engine.contests := by
  obtain ⟨game, found, rfl, rfl⟩ := handlePlayerReconnect_eq_some reconnected
  exact contests_write (find_eq_some.mp found).2 rfl rfl rfl

end GameEngine

end TerritoryBackend

import TerritoryBackend.Matchmaking

/-!
# Snapshots and their restoration

`to_redis_state` and `_save_snapshot` write the document
`room:{room_id}:state`; `restore_game_from_snapshot` rebuilds a game from it
and from the room hash.
-/

namespace TerritoryBackend

def lastOf {α : Type*} (count : Nat) (values : List α) : List α :=
  values.drop (values.length - count)

namespace ActiveGame

def toRedisState (game : ActiveGame) (now : Time) : Except PythonError RedisGameState :=
  match game.currentPlayerId with
  | none => .error .indexError
  | some current =>
      .ok
        { roomId := game.roomId
          turnNumber := game.turnNumber
          currentPlayerId := current
          board := game.board
          scores := game.scores
          actionHistory := lastOf 20 game.actionHistory
          status := game.status
          winnerId := game.winnerId
          snapshotTime := now }

/-- The game object built by `restore_game_from_snapshot`. -/
def restored (room : RoomId) (state : RedisGameState) (playerIds : List PlayerId)
    (now : Time) : ActiveGame where
  roomId := room
  playerIds := playerIds
  board := state.board
  scores := state.scores
  turnNumber := state.turnNumber
  status := state.status
  winnerId := state.winnerId
  actionHistory := state.actionHistory
  startedAt := now
  lastActionTime := now

end ActiveGame

namespace GameEngine

/-- The document `_save_snapshot` sends to Redis, `none` when the game is not
in the table. -/
def saveSnapshot (engine : GameEngine) (room : RoomId) (now : Time) :
    Except PythonError (Option Json) :=
  match engine.find room with
  | none => .ok none
  | some game => (game.toRedisState now).map fun state => some state.serialize

/-- `restore_game_from_snapshot`, given what the two reads returned. -/
def restoreGameFromSnapshot (engine : GameEngine) (room : RoomId) (raw : Option Json)
    (roomData : Option (RoomField → Option RedisText)) (now : Time) :
    Except PythonError (GameEngine × Option ActiveGame) :=
  match raw with
  | none => .ok (engine, none)
  | some document => do
      let state ← RedisGameState.deserialize document now
      match roomData with
      | none => pure (engine, none)
      | some data =>
          let stored ← RedisRoom.fromDict data
          let game := ActiveGame.restored room state stored.playerIds now
          pure (engine.register room game, some game)

end GameEngine

end TerritoryBackend

import TerritoryBackend.Dict
import TerritoryBackend.GameEngine
import TerritoryBackend.JsonCodec
import TerritoryBackend.RedisHash

/-!
# The records stored in Redis

`RedisSession`, `RedisRoom` and `RedisGameState` of
`app/models/redis_models.py` with their encoders and decoders.  A value of a
hash is the text of a string, an integer or a float; reading the text of a
number back gives that number.  A JSON text is represented by the document it
encodes.
-/

namespace TerritoryBackend

/-- A stored value, by the Python value whose `str` it is. -/
inductive RedisText where
  | str (text : String)
  | int (value : Int)
  | float (value : Time)
  | json (document : Json)

namespace RedisText

def toText : RedisText → String
  | .str text => text
  | .int value => toString value
  | .float value => toString value
  | .json _ => ""

/-- `int(text)` -/
def toInt? : RedisText → Option Int
  | .str text => text.toInt?
  | .int value => some value
  | .float _ | .json _ => none

/-- `float(text)`; a plain string is never stored in a time field. -/
def toFloat? : RedisText → Option Time
  | .str _ | .json _ => none
  | .int value => some value
  | .float value => some value

/-- `orjson.loads(text)` -/
def toJson? : RedisText → Option Json
  | .json document => some document
  | _ => none

end RedisText

def requireField {F : Type*} (data : F → Option RedisText) (field : F) :
    Except PythonError String :=
  match data field with
  | some text => .ok text.toText
  | none => .error .keyError

/-- `parse(data.get(key, default))` -/
def parseField {F β : Type*} (data : F → Option RedisText) (field : F)
    (parse : RedisText → Option β) (default : β) : Except PythonError β :=
  match data field with
  | some text =>
      match parse text with
      | some value => .ok value
      | none => .error .valueError
  | none => .ok default

inductive SessionField where
  | playerId
  | instanceId
  | connectionId
  | roomId
  | state
  | eloRating
  | username
  | connectedAt
  | lastActivity
  deriving DecidableEq

structure RedisSession where
  playerId : PlayerId
  instanceId : InstanceId
  connectionId : ConnectionId
  roomId : Option RoomId := none
  state : String := PlayerConnectionState.connected.value
  eloRating : Int := 1000
  username : String := ""
  connectedAt : Time
  lastActivity : Time

namespace RedisSession

def toDict (session : RedisSession) : SessionField → Option RedisText
  | .playerId => some (.str session.playerId)
  | .instanceId => some (.str session.instanceId)
  | .connectionId => some (.str session.connectionId)
  | .roomId => some (.str (session.roomId.getD ""))
  | .state => some (.str session.state)
  | .eloRating => some (.int session.eloRating)
  | .username => some (.str session.username)
  | .connectedAt => some (.float session.connectedAt)
  | .lastActivity => some (.float session.lastActivity)

/-- `text or None` -/
def orNone (text : String) : Option String := if text = "" then none else some text

def fromDict (data : SessionField → Option RedisText) : Except PythonError RedisSession := do
  let playerId ← requireField data .playerId
  let instanceId ← requireField data .instanceId
  let connectionId ← requireField data .connectionId
  let eloRating ← parseField data .eloRating RedisText.toInt? 1000
  let connectedAt ← parseField data .connectedAt RedisText.toFloat? 0
  let lastActivity ← parseField data .lastActivity RedisText.toFloat? 0
  pure
    { playerId, instanceId, connectionId, eloRating, connectedAt, lastActivity
      roomId := ((data .roomId).map RedisText.toText).bind orNone
      state := ((data .state).map RedisText.toText).getD PlayerConnectionState.connected.value
      username := ((data .username).map RedisText.toText).getD "" }

/-- The hashes `from_dict` decodes. -/
structure Decodable (data : SessionField → Option RedisText) : Prop where
  playerId : (data .playerId).isSome
  instanceId : (data .instanceId).isSome
  connectionId : (data .connectionId).isSome
  eloRating : ∀ text, data .eloRating = some text → text.toInt?.isSome
  connectedAt : ∀ text, data .connectedAt = some text → text.toFloat?.isSome
  lastActivity : ∀ text, data .lastActivity = some text → text.toFloat?.isSome

instance (data : SessionField → Option RedisText) : Decidable (Decodable data) :=
  decidable_of_iff
    (((data .playerId).isSome ∧ (data .instanceId).isSome ∧ (data .connectionId).isSome) ∧
      (∀ text ∈ data .eloRating, text.toInt?.isSome) ∧
      (∀ text ∈ data .connectedAt, text.toFloat?.isSome) ∧
      ∀ text ∈ data .lastActivity, text.toFloat?.isSome)
    ⟨fun ⟨⟨playerId, instanceId, connectionId⟩, eloRating, connectedAt, lastActivity⟩ =>
      ⟨playerId, instanceId, connectionId, eloRating, connectedAt, lastActivity⟩,
    fun ⟨playerId, instanceId, connectionId, eloRating, connectedAt, lastActivity⟩ =>
      ⟨⟨playerId, instanceId, connectionId⟩, eloRating, connectedAt, lastActivity⟩⟩

theorem requireField_isOk {F : Type*} {data : F → Option RedisText} {field : F}
    (present : (data field).isSome) : ∃ text, requireField data field = .ok text := by
  obtain ⟨text, stored⟩ := Option.isSome_iff_exists.mp present
  exact ⟨text.toText, by simp [requireField, stored]⟩

theorem parseField_isOk {F β : Type*} {data : F → Option RedisText} {field : F}
    {parse : RedisText → Option β} (default : β)
    (parses : ∀ text, data field = some text → (parse text).isSome) :
    ∃ value, parseField data field parse default = .ok value := by
  cases stored : data field with
  | none => exact ⟨default, by simp [parseField, stored]⟩
  | some text =>
      obtain ⟨value, parsed⟩ := Option.isSome_iff_exists.mp (parses text stored)
      exact ⟨value, by simp [parseField, stored, parsed]⟩

theorem Decodable.fromDict_isOk {data : SessionField → Option RedisText}
    (decodable : Decodable data) : ∃ session, fromDict data = .ok session := by
  obtain ⟨playerId, playerIdEq⟩ := requireField_isOk decodable.playerId
  obtain ⟨instanceId, instanceIdEq⟩ := requireField_isOk decodable.instanceId
  obtain ⟨connectionId, connectionIdEq⟩ := requireField_isOk decodable.connectionId
  obtain ⟨eloRating, eloRatingEq⟩ := parseField_isOk 1000 decodable.eloRating
  obtain ⟨connectedAt, connectedAtEq⟩ := parseField_isOk 0 decodable.connectedAt
  obtain ⟨lastActivity, lastActivityEq⟩ := parseField_isOk 0 decodable.lastActivity
  simp [fromDict, playerIdEq, instanceIdEq, connectionIdEq, eloRatingEq, connectedAtEq,
    lastActivityEq, bind, Except.bind, pure, Except.pure]

theorem fromDict_eq_ok {data : SessionField → Option RedisText} {session : RedisSession}
    (decoded : fromDict data = .ok session) :
    requireField data .playerId = .ok session.playerId ∧
      requireField data .instanceId = .ok session.instanceId ∧
      requireField data .connectionId = .ok session.connectionId ∧
      parseField data .eloRating RedisText.toInt? 1000 = .ok session.eloRating ∧
      session.roomId = ((data .roomId).map RedisText.toText).bind orNone ∧
      session.state =
        ((data .state).map RedisText.toText).getD PlayerConnectionState.connected.value := by
  simp only [fromDict, bind, Except.bind, pure, Except.pure] at decoded
  split at decoded
  · cases decoded
  rename_i playerId playerIdEq
  split at decoded
  · cases decoded
  rename_i instanceId instanceIdEq
  split at decoded
  · cases decoded
  rename_i connectionId connectionIdEq
  split at decoded
  · cases decoded
  rename_i eloRating eloRatingEq
  split at decoded
  · cases decoded
  split at decoded
  · cases decoded
  cases decoded
  exact ⟨playerIdEq, instanceIdEq, connectionIdEq, eloRatingEq, rfl, rfl⟩

theorem toDict_decodable (session : RedisSession) : Decodable session.toDict where
  playerId := rfl
  instanceId := rfl
  connectionId := rfl
  eloRating := by rintro _ ⟨⟩; rfl
  connectedAt := by rintro _ ⟨⟩; rfl
  lastActivity := by rintro _ ⟨⟩; rfl

/-- Decoding returns the encoded session; an empty room id stands for none. -/
theorem fromDict_toDict (session : RedisSession) (roomNonempty : session.roomId ≠ some "") :
    fromDict session.toDict = .ok session := by
  have roomEq : orNone (session.roomId.getD "") = session.roomId := by
    cases room : session.roomId with
    | none => simp [orNone]
    | some text =>
        have : text ≠ "" := fun same => roomNonempty (by rw [room, same])
        simp [orNone, this]
  simp [fromDict, toDict, requireField, parseField, RedisText.toText, RedisText.toInt?,
    RedisText.toFloat?, roomEq, bind, Except.bind, pure, Except.pure]

end RedisSession

inductive RoomField where
  | roomId
  | ownerInstanceId
  | playerIds
  | status
  | createdAt
  | matchId
  deriving DecidableEq

structure RedisRoom where
  roomId : RoomId
  ownerInstanceId : InstanceId
  playerIds : List PlayerId := []
  status : String := RoomStatus.open.value
  createdAt : Time
  matchId : Option String := none

namespace RedisRoom

def toDict (room : RedisRoom) : RoomField → Option RedisText
  | .roomId => some (.str room.roomId)
  | .ownerInstanceId => some (.str room.ownerInstanceId)
  | .playerIds => some (.json ((JsonCodec.list JsonCodec.text).encode room.playerIds))
  | .status => some (.str room.status)
  | .createdAt => some (.float room.createdAt)
  | .matchId => some (.str (room.matchId.getD ""))

def fromDict (data : RoomField → Option RedisText) : Except PythonError RedisRoom := do
  let roomId ← requireField data .roomId
  let ownerInstanceId ← requireField data .ownerInstanceId
  let playerIds ← parseField data .playerIds
    (fun text => text.toJson?.bind (JsonCodec.list JsonCodec.text).decode) []
  let createdAt ← parseField data .createdAt RedisText.toFloat? 0
  pure
    { roomId, ownerInstanceId, playerIds, createdAt
      status := ((data .status).map RedisText.toText).getD RoomStatus.open.value
      matchId := ((data .matchId).map RedisText.toText).bind RedisSession.orNone }

theorem fromDict_toDict (room : RedisRoom) (noMatch : room.matchId = none) :
    fromDict room.toDict = .ok room := by
  obtain ⟨roomId, ownerInstanceId, playerIds, status, createdAt, matchId⟩ := room
  obtain rfl : matchId = none := noMatch
  simp [fromDict, toDict, requireField, parseField, RedisText.toText, RedisText.toFloat?,
    RedisText.toJson?, RedisSession.orNone, bind, Except.bind, pure, Except.pure]

end RedisRoom

/-- A keyword argument with a default, as passed by `cls(**parsed)`. -/
def memberOr {α : Type*} (document : Json) (key : String) (codec : JsonCodec α)
    (default : α) : Except PythonError α :=
  match document.member? key with
  | none => .ok default
  | some member =>
      match codec.decode member with
      | some value => .ok value
      | none => .error .typeError

namespace GameStatus

/-- A status is serialized as its string. -/
def codec : JsonCodec GameStatus where
  encode status := .str status.value
  decode document := (JsonCodec.text.decode document).bind ofValue
  decode_encode := ofValue_value

end GameStatus

namespace ActionRecord

/-- The dictionary appended to `action_history`. -/
def codec : JsonCodec ActionRecord where
  encode entry :=
    .obj [("player_id", JsonCodec.text.encode entry.playerId), ("action", entry.action),
      ("data", entry.data), ("turn", JsonCodec.nat.encode entry.turn),
      ("timestamp", JsonCodec.float.encode entry.timestamp)]
  decode document := do
    let playerId ← (← document.member? "player_id") |> JsonCodec.text.decode
    let action ← document.member? "action"
    let data ← document.member? "data"
    let turn ← (← document.member? "turn") |> JsonCodec.nat.decode
    let timestamp ← (← document.member? "timestamp") |> JsonCodec.float.decode
    pure { playerId, action, data, turn, timestamp }
  decode_encode _ := rfl

end ActionRecord

structure RedisGameState where
  roomId : RoomId
  turnNumber : Nat := 0
  currentPlayerId : PlayerId := ""
  board : Board := Board.empty
  scores : Dict PlayerId Int := ∅
  actionHistory : List ActionRecord := []
  status : GameStatus := .inProgress
  winnerId : Option PlayerId := none
  snapshotTime : Time
  extra : Dict String Json := ∅

namespace RedisGameState

def boardCodec : JsonCodec Board := .list (.list .nat)

def winnerCodec : JsonCodec (Option PlayerId) := .nullable .text fun _ same => nomatch same

/-- `serialize`, the document `self.__dict__` is dumped as. -/
def serialize (state : RedisGameState) : Json :=
  .obj [("room_id", JsonCodec.text.encode state.roomId),
    ("turn_number", JsonCodec.nat.encode state.turnNumber),
    ("current_player_id", JsonCodec.text.encode state.currentPlayerId),
    ("board", boardCodec.encode state.board),
    ("scores", JsonCodec.int.dict.encode state.scores),
    ("action_history", ActionRecord.codec.list.encode state.actionHistory),
    ("status", GameStatus.codec.encode state.status),
    ("winner_id", winnerCodec.encode state.winnerId),
    ("snapshot_time", JsonCodec.float.encode state.snapshotTime),
    ("extra", JsonCodec.document.dict.encode state.extra)]

/-- `deserialize`, `cls(**parsed)`; the time of a snapshot without one is the
time of reading it. -/
def deserialize (document : Json) (now : Time) : Except PythonError RedisGameState := do
  let roomId ←
    match (document.member? "room_id").bind JsonCodec.text.decode with
    | some roomId => .ok roomId
    | none => .error .typeError
  let turnNumber ← memberOr document "turn_number" JsonCodec.nat 0
  let currentPlayerId ← memberOr document "current_player_id" JsonCodec.text ""
  let board ← memberOr document "board" boardCodec Board.empty
  let scores ← memberOr document "scores" JsonCodec.int.dict ∅
  let actionHistory ← memberOr document "action_history" ActionRecord.codec.list []
  let status ← memberOr document "status" GameStatus.codec .inProgress
  let winnerId ← memberOr document "winner_id" winnerCodec none
  let snapshotTime ← memberOr document "snapshot_time" JsonCodec.float now
  let extra ← memberOr document "extra" JsonCodec.document.dict ∅
  pure
    { roomId, turnNumber, currentPlayerId, board, scores, actionHistory, status, winnerId,
      snapshotTime, extra }

theorem deserialize_serialize (state : RedisGameState) (now : Time) :
    deserialize state.serialize now = .ok state := by
  simp [deserialize, serialize, memberOr, Json.member?, List.lookup_cons, bind, Except.bind,
    pure, Except.pure]

end RedisGameState

end TerritoryBackend

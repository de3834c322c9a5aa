import TerritoryBackend.RedisModels

/-!
# The session manager

The operations of `app/core/session_manager.py` on the hash of one player.
`mark_disconnected` and `attempt_reconnect` read the hash in one Redis command
and write it in a later one, so each of them is split into its two commands.
-/

namespace TerritoryBackend

/-- The key `sess:{player_id}`. -/
abbrev SessionKey := Option (RedisHash SessionField RedisText)

namespace SessionManager

def newSession (settings : Settings) (player : PlayerId) (connection : ConnectionId)
    (eloRating : Int) (username : String) (now : Time) : RedisSession where
  playerId := player
  instanceId := settings.instanceId
  connectionId := connection
  eloRating := eloRating
  username := username
  connectedAt := now
  lastActivity := now

def createSession (settings : Settings) (player : PlayerId) (connection : ConnectionId)
    (eloRating : Int) (username : String) (now : Time) (key : SessionKey) : SessionKey :=
  RedisHash.expire settings.sessionTtlSec
    (RedisHash.hset
      (newSession settings player connection eloRating username now).toDict key)

/-- `get_session`, where decoding a hash without a required field raises. -/
def getSession (key : SessionKey) : Except PythonError (Option RedisSession) :=
  match key with
  | none => .ok none
  | some hash => (RedisSession.fromDict hash.fields).map some

/-- The mapping written by `update_session_state`. -/
def stateUpdates (state : String) (room : Option RoomId) (now : Time) :
    SessionField → Option RedisText
  | .state => some (.str state)
  | .lastActivity => some (.float now)
  | .roomId => room.map .str
  | _ => none

def updateSessionState (state : String) (room : Option RoomId) (now : Time)
    (key : SessionKey) : SessionKey :=
  RedisHash.hset (stateUpdates state room now) key

def activityUpdates (now : Time) : SessionField → Option RedisText
  | .lastActivity => some (.float now)
  | _ => none

def updateActivity (settings : Settings) (now : Time) (key : SessionKey) : SessionKey :=
  RedisHash.expire settings.sessionTtlSec (RedisHash.hset (activityUpdates now) key)

def deleteSession (_ : SessionKey) : SessionKey := none

/-- The pipeline of `mark_disconnected`, run when the read found a session. -/
def markDisconnected (settings : Settings) (now : Time) (key : SessionKey) : SessionKey :=
  RedisHash.expire settings.reconnectGracePeriodSec
    (RedisHash.hset (stateUpdates PlayerConnectionState.disconnected.value none now) key)

def reconnectUpdates (settings : Settings) (connection : ConnectionId) (now : Time) :
    SessionField → Option RedisText
  | .instanceId => some (.str settings.instanceId)
  | .connectionId => some (.str connection)
  | .state => some (.str PlayerConnectionState.connected.value)
  | .lastActivity => some (.float now)
  | _ => none

/-- The pipeline of `attempt_reconnect`, run when the read found a session in
the state `disconnected`. -/
def attemptReconnect (settings : Settings) (connection : ConnectionId) (now : Time)
    (key : SessionKey) : SessionKey :=
  RedisHash.expire settings.sessionTtlSec
    (RedisHash.hset (reconnectUpdates settings connection now) key)

/-- A present hash can be decoded and will expire. -/
structure Complete (hash : RedisHash SessionField RedisText) : Prop where
  decodable : RedisSession.Decodable hash.fields
  expires : hash.ttl.isSome

instance (hash : RedisHash SessionField RedisText) : Decidable (Complete hash) :=
  decidable_of_iff (RedisSession.Decodable hash.fields ∧ hash.ttl.isSome)
    ⟨fun ⟨decodable, expires⟩ => ⟨decodable, expires⟩,
      fun ⟨decodable, expires⟩ => ⟨decodable, expires⟩⟩

/-- A write that only stores well-typed values keeps a decodable hash
decodable. -/
theorem decodable_hset {fields updates : SessionField → Option RedisText}
    (decodable : RedisSession.Decodable fields)
    (elo : updates .eloRating = none) (connectedAt : updates .connectedAt = none)
    (lastActivity : ∀ text, updates .lastActivity = some text → text.toFloat?.isSome) :
    RedisSession.Decodable fun field => (updates field).or (fields field) where
  playerId := by simp [decodable.playerId]
  instanceId := by simp [decodable.instanceId]
  connectionId := by simp [decodable.connectionId]
  eloRating := by simpa [elo] using decodable.eloRating
  connectedAt := by simpa [connectedAt] using decodable.connectedAt
  lastActivity := by
    intro text stored
    cases updated : updates .lastActivity with
    | none => exact decodable.lastActivity text (by simpa [updated] using stored)
    | some written =>
        have same : written = text := by simpa [updated] using stored
        exact lastActivity text (by rw [updated, same])

theorem createSession_complete (settings : Settings) (player : PlayerId)
    (connection : ConnectionId) (eloRating : Int) (username : String) (now : Time)
    (key : SessionKey) :
    ∃ hash, createSession settings player connection eloRating username now key = some hash ∧
      Complete hash := by
  refine ⟨⟨(newSession settings player connection eloRating username now).toDict,
    some settings.sessionTtlSec⟩, ?_, RedisSession.toDict_decodable _, rfl⟩
  unfold createSession RedisHash.hset
  simp only [RedisHash.expire_some, Option.some.injEq, RedisHash.mk.injEq, and_true]
  funext field
  cases field <;> rfl

theorem updateSessionState_complete {hash : RedisHash SessionField RedisText}
    (complete : Complete hash) (state : String) (room : Option RoomId) (now : Time) :
    ∃ after, updateSessionState state room now (some hash) = some after ∧ Complete after :=
  ⟨_, rfl, decodable_hset complete.decodable rfl rfl (by rintro _ ⟨⟩; rfl), complete.expires⟩

theorem updateActivity_complete {hash : RedisHash SessionField RedisText}
    (complete : Complete hash) (settings : Settings) (now : Time) :
    ∃ after, updateActivity settings now (some hash) = some after ∧ Complete after :=
  ⟨_, rfl, decodable_hset complete.decodable rfl rfl (by rintro _ ⟨⟩; rfl), rfl⟩

theorem markDisconnected_complete {hash : RedisHash SessionField RedisText}
    (complete : Complete hash) (settings : Settings) (now : Time) :
    ∃ after, markDisconnected settings now (some hash) = some after ∧ Complete after :=
  ⟨_, rfl, decodable_hset complete.decodable rfl rfl (by rintro _ ⟨⟩; rfl), rfl⟩

theorem attemptReconnect_complete {hash : RedisHash SessionField RedisText}
    (complete : Complete hash) (settings : Settings) (connection : ConnectionId)
    (now : Time) :
    ∃ after, attemptReconnect settings connection now (some hash) = some after ∧
      Complete after :=
  ⟨_, rfl, decodable_hset complete.decodable rfl rfl (by rintro _ ⟨⟩; rfl), rfl⟩

theorem Complete.getSession_isOk {hash : RedisHash SessionField RedisText}
    (complete : Complete hash) :
    ∃ session, getSession (some hash) = .ok (some session) := by
  obtain ⟨session, decoded⟩ := complete.decodable.fromDict_isOk
  exact ⟨session, by simp [getSession, decoded, Except.map]⟩

def storedRoom (key : SessionKey) : Option RoomId :=
  key.bind fun hash => ((hash.fields .roomId).map RedisText.toText).bind RedisSession.orNone

theorem getSession_roomId {key : SessionKey} {session : RedisSession}
    (read : getSession key = .ok (some session)) : session.roomId = storedRoom key := by
  unfold getSession at read
  split at read
  · cases read
  · rename_i hash
    cases decoded : RedisSession.fromDict hash.fields with
    | error error => simp [decoded, Except.map] at read
    | ok value =>
        simp only [decoded, Except.map, Except.ok.injEq, Option.some.injEq] at read
        subst read
        exact (RedisSession.fromDict_eq_ok decoded).2.2.2.2.1

@[simp]
theorem storedRoom_createSession (settings : Settings) (player : PlayerId)
    (connection : ConnectionId) (eloRating : Int) (username : String) (now : Time)
    (key : SessionKey) :
    storedRoom (createSession settings player connection eloRating username now key) = none :=
  rfl

@[simp]
theorem storedRoom_updateActivity (settings : Settings) (now : Time) (key : SessionKey) :
    storedRoom (updateActivity settings now key) = storedRoom key := by
  cases key <;> rfl

@[simp]
theorem storedRoom_markDisconnected (settings : Settings) (now : Time) (key : SessionKey) :
    storedRoom (markDisconnected settings now key) = storedRoom key := by
  cases key <;> rfl

@[simp]
theorem storedRoom_attemptReconnect (settings : Settings) (connection : ConnectionId)
    (now : Time) (key : SessionKey) :
    storedRoom (attemptReconnect settings connection now key) = storedRoom key := by
  cases key <;> rfl

@[simp]
theorem storedRoom_updateSessionState (state : String) (room : Option RoomId) (now : Time)
    (key : SessionKey) :
    storedRoom (updateSessionState state room now key) =
      match room with
      | some room => RedisSession.orNone room
      | none => storedRoom key := by
  cases room <;> cases key <;> rfl

theorem storedRoom_lapse (key : SessionKey) :
    storedRoom (RedisHash.lapse key) = storedRoom key ∨
      storedRoom (RedisHash.lapse key) = none := by
  cases key with
  | none => exact .inl rfl
  | some hash =>
      unfold RedisHash.lapse
      cases expires : hash.ttl.isNone
      · exact .inr (by simp [Option.filter, expires, storedRoom])
      · exact .inl (by simp [Option.filter, expires])

end SessionManager

end TerritoryBackend

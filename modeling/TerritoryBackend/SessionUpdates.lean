import TerritoryBackend.SessionManager

/-!
# The session store is an updatable record

The calls of the session manager on one player's session, each run to its end
before the next one starts.  `toDict` says how a record is laid out in the
hash, and every call updates the layout as it updates the record.
-/

namespace TerritoryBackend

/-- A call of the session manager on an existing session. -/
inductive SessionCall where
  | updateSessionState (state : String) (room : Option RoomId) (now : Time)
  | updateActivity (now : Time)
  | markDisconnected (now : Time)
  | attemptReconnect (connection : ConnectionId) (now : Time)

namespace SessionCall

/-- A room id that is given is not empty. -/
def NamesRoom : SessionCall → Prop
  | updateSessionState _ room _ => room ≠ some ""
  | _ => True

/-- A player gets a room, is disconnected from one instance and comes back to
another. -/
def leaveAndReturn (here there : Settings) (state : String) (room : RoomId)
    (connection : ConnectionId) (earlier left later : Time) : List (Settings × SessionCall) :=
  [(here, updateSessionState state (some room) earlier), (here, markDisconnected left),
    (there, attemptReconnect connection later)]

end SessionCall

namespace SessionManager

/-- A whole call of `mark_disconnected`: the key after it and its result. -/
def markDisconnectedCall (settings : Settings) (now : Time) (key : SessionKey) :
    Except PythonError (SessionKey × Option RedisSession) := do
  match ← getSession key with
  | none => pure (key, none)
  | some session => pure (markDisconnected settings now key, some session)

/-- A whole call of `attempt_reconnect`: the key after it and its result. -/
def attemptReconnectCall (settings : Settings) (connection : ConnectionId) (now : Time)
    (key : SessionKey) : Except PythonError (SessionKey × Option RedisSession) := do
  match ← getSession key with
  | none => pure (key, none)
  | some session =>
      if session.state ≠ PlayerConnectionState.disconnected.value then
        pure (key, none)
      else
        -- The session that was read is returned with the claim's fields, but
        -- with the old `last_activity`.
        pure (attemptReconnect settings connection now key,
          some { session with
            instanceId := settings.instanceId
            connectionId := connection
            state := PlayerConnectionState.connected.value })

def perform (settings : Settings) (call : SessionCall) (key : SessionKey) :
    Except PythonError (SessionKey × Option RedisSession) :=
  match call with
  | .updateSessionState state room now => pure (updateSessionState state room now key, none)
  | .updateActivity now => pure (updateActivity settings now key, none)
  | .markDisconnected now => markDisconnectedCall settings now key
  | .attemptReconnect connection now => attemptReconnectCall settings connection now key

/-- The key after calls of any instances. -/
def performAll (calls : List (Settings × SessionCall)) (key : SessionKey) :
    Except PythonError SessionKey :=
  calls.foldlM (fun key call => (perform call.1 call.2 key).map Prod.fst) key

end SessionManager

namespace RedisSession

/-- The fields a call assigns, on a record in memory. -/
def updated (session : RedisSession) (settings : Settings) : SessionCall → RedisSession
  | .updateSessionState state room now =>
      { session with state := state, lastActivity := now, roomId := room.or session.roomId }
  | .updateActivity now => { session with lastActivity := now }
  | .markDisconnected now =>
      { session with
        state := PlayerConnectionState.disconnected.value
        lastActivity := now }
  | .attemptReconnect connection now =>
      if session.state = PlayerConnectionState.disconnected.value then
        { session with
          instanceId := settings.instanceId
          connectionId := connection
          state := PlayerConnectionState.connected.value
          lastActivity := now }
      else
        session

def updatedAll (session : RedisSession) (calls : List (Settings × SessionCall)) :
    RedisSession :=
  calls.foldl (fun session call => session.updated call.1 call.2) session

end RedisSession

/-- The hash is the layout of the record. -/
structure Stores (key : SessionKey) (session : RedisSession) : Prop where
  laidOut : ∃ hash, key = some hash ∧ hash.fields = session.toDict
  roomNonempty : session.roomId ≠ some ""

namespace Stores

open SessionManager

variable {settings : Settings} {key after : SessionKey} {session : RedisSession}

theorem getSession_eq (stores : Stores key session) : getSession key = .ok (some session) := by
  obtain ⟨hash, rfl, fields⟩ := stores.laidOut
  simp [getSession, fields, RedisSession.fromDict_toDict session stores.roomNonempty, Except.map]

/-- A write lays out the record that differs in the fields it writes. -/
theorem hset (stores : Stores key session) {updates : SessionField → Option RedisText}
    {next : RedisSession} (roomNonempty : next.roomId ≠ some "")
    (written : ∀ field, (updates field).or (session.toDict field) = next.toDict field) :
    Stores (RedisHash.hset updates key) next := by
  obtain ⟨hash, rfl, fields⟩ := stores.laidOut
  refine ⟨⟨_, rfl, ?_⟩, roomNonempty⟩
  funext field
  simpa [fields] using written field

theorem expire (stores : Stores key session) (seconds : Nat) :
    Stores (RedisHash.expire seconds key) session := by
  obtain ⟨hash, rfl, fields⟩ := stores.laidOut
  exact ⟨⟨_, rfl, fields⟩, stores.roomNonempty⟩

theorem createSession (settings : Settings) (player : PlayerId) (connection : ConnectionId)
    (eloRating : Int) (username : String) (now : Time) (key : SessionKey) :
    Stores (SessionManager.createSession settings player connection eloRating username now key)
      (newSession settings player connection eloRating username now) := by
  refine ⟨⟨_, rfl, ?_⟩, by simp [newSession]⟩
  funext field
  cases field <;> rfl

theorem updateSessionState (stores : Stores key session) (state : String)
    {room : Option RoomId} (named : room ≠ some "") (now : Time) :
    Stores (SessionManager.updateSessionState state room now key)
      (session.updated settings (.updateSessionState state room now)) := by
  apply stores.hset
  · cases room with
    | none => exact stores.roomNonempty
    | some room => exact named
  · intro field
    cases field with
    | roomId => cases room <;> rfl
    | _ => rfl

theorem updateActivity (stores : Stores key session) (now : Time) :
    Stores (SessionManager.updateActivity settings now key)
      (session.updated settings (.updateActivity now)) := by
  refine expire (stores.hset ?_ ?_) _
  · exact stores.roomNonempty
  · intro field
    cases field <;> rfl

theorem markDisconnected (stores : Stores key session) (now : Time) :
    Stores (SessionManager.markDisconnected settings now key)
      (session.updated settings (.markDisconnected now)) := by
  refine expire (stores.hset ?_ ?_) _
  · exact stores.roomNonempty
  · intro field
    cases field <;> rfl

theorem attemptReconnect (stores : Stores key session)
    (disconnected : session.state = PlayerConnectionState.disconnected.value)
    (connection : ConnectionId) (now : Time) :
    Stores (SessionManager.attemptReconnect settings connection now key)
      (session.updated settings (.attemptReconnect connection now)) := by
  rw [RedisSession.updated, if_pos disconnected]
  refine expire (stores.hset ?_ ?_) _
  · exact stores.roomNonempty
  · intro field
    cases field <;> rfl

/-- A reconnect returns a session exactly when the stored one is marked as
disconnected. -/
theorem attemptReconnectCall_isOk (stores : Stores key session) (settings : Settings)
    (connection : ConnectionId) (now : Time) :
    ∃ after result, attemptReconnectCall settings connection now key = .ok (after, result) ∧
      Stores after (session.updated settings (.attemptReconnect connection now)) ∧
      (result.isSome ↔ session.state = PlayerConnectionState.disconnected.value) := by
  simp only [attemptReconnectCall, stores.getSession_eq, bind, Except.bind, pure, Except.pure]
  by_cases disconnected : session.state = PlayerConnectionState.disconnected.value
  · rw [if_neg (not_not.mpr disconnected)]
    exact ⟨_, _, rfl, stores.attemptReconnect disconnected connection now, by simp [disconnected]⟩
  · rw [if_pos disconnected]
    refine ⟨_, _, rfl, ?_, by simp [disconnected]⟩
    rwa [RedisSession.updated, if_neg disconnected]

/-- One call updates the layout as it updates the record. -/
theorem perform (stores : Stores key session) (settings : Settings) {call : SessionCall}
    (named : call.NamesRoom) :
    ∃ after result, SessionManager.perform settings call key = .ok (after, result) ∧
      Stores after (session.updated settings call) := by
  cases call with
  | updateSessionState state room now =>
      exact ⟨_, _, rfl, stores.updateSessionState state named now⟩
  | updateActivity now => exact ⟨_, _, rfl, stores.updateActivity now⟩
  | markDisconnected now =>
      refine ⟨_, some session, ?_, stores.markDisconnected now⟩
      simp only [SessionManager.perform, markDisconnectedCall, stores.getSession_eq]
      rfl
  | attemptReconnect connection now =>
      obtain ⟨after, result, called, stored, -⟩ :=
        stores.attemptReconnectCall_isOk settings connection now
      exact ⟨after, result, called, stored⟩

theorem performAll (stores : Stores key session) {calls : List (Settings × SessionCall)}
    (named : ∀ call ∈ calls, call.2.NamesRoom) :
    ∃ after, SessionManager.performAll calls key = .ok after ∧
      Stores after (session.updatedAll calls) := by
  induction calls generalizing key session with
  | nil => exact ⟨key, rfl, stores⟩
  | cons call calls ih =>
      obtain ⟨next, result, called, stored⟩ :=
        stores.perform call.1 (named call List.mem_cons_self)
      obtain ⟨after, performed, storedAfter⟩ :=
        ih stored fun later member => named later (List.mem_cons_of_mem _ member)
      refine ⟨after, ?_, storedAfter⟩
      simp only [SessionManager.performAll, List.foldlM_cons, called]
      exact performed

end Stores

/-- What the store promises of the session it holds. -/
structure ImplementsRecord (key : SessionKey) (session : RedisSession) : Prop where
  read : SessionManager.getSession key = .ok (some session)
  /-- a reconnect succeeds exactly from the state `disconnected` -/
  reconnects : ∀ settings connection now, ∃ after result,
    SessionManager.attemptReconnectCall settings connection now key = .ok (after, result) ∧
      (result.isSome ↔ session.state = PlayerConnectionState.disconnected.value)
  /-- a room set before a disconnect survives the reconnect -/
  keepsRoom : ∀ here there state room connection earlier left later, room ≠ "" →
    ∃ after restored,
      SessionManager.performAll
        (SessionCall.leaveAndReturn here there state room connection earlier left later) key =
          .ok after ∧
      SessionManager.getSession after = .ok (some restored) ∧ restored.roomId = some room ∧
      restored.instanceId = there.instanceId ∧ restored.connectionId = connection ∧
      restored.state = PlayerConnectionState.connected.value

theorem Stores.implementsRecord {key : SessionKey} {session : RedisSession}
    (stores : Stores key session) : ImplementsRecord key session where
  read := stores.getSession_eq
  reconnects settings connection now := by
    obtain ⟨after, result, called, -, succeeds⟩ :=
      stores.attemptReconnectCall_isOk settings connection now
    exact ⟨after, result, called, succeeds⟩
  keepsRoom here there state room connection earlier left later nonempty := by
    have named : ∀ call ∈
        SessionCall.leaveAndReturn here there state room connection earlier left later,
        call.2.NamesRoom := by
      simp [SessionCall.leaveAndReturn, SessionCall.NamesRoom, nonempty]
    obtain ⟨after, performed, stored⟩ := stores.performAll named
    exact ⟨after, _, performed, stored.getSession_eq, rfl, rfl, rfl, rfl⟩

/-- Main result: after any calls, reading the session gives the created record
with the calls' field updates. -/
theorem implementsRecord_of_performAll (settings : Settings) (player : PlayerId)
    (connection : ConnectionId) (eloRating : Int) (username : String) (now : Time)
    (key : SessionKey) (calls : List (Settings × SessionCall))
    (named : ∀ call ∈ calls, call.2.NamesRoom) :
    ∃ after,
      SessionManager.performAll calls (SessionManager.createSession settings player connection
        eloRating username now key) = .ok after ∧
      ImplementsRecord after ((SessionManager.newSession settings player connection eloRating
        username now).updatedAll calls) := by
  obtain ⟨after, performed, stored⟩ :=
    (Stores.createSession settings player connection eloRating username now key).performAll named
  exact ⟨after, performed, stored.implementsRecord⟩

theorem implementsRecord_of_return :
    ∃ after,
      SessionManager.performAll
        (SessionCall.leaveAndReturn { instanceId := "inst-1" } { instanceId := "inst-2" }
          "in_game" "room-1" "conn-2" 3 5 7)
        (SessionManager.createSession { instanceId := "inst-1" } "ada" "conn-1" 1000 "" 1 none) =
          .ok after ∧
      ImplementsRecord after
        ((SessionManager.newSession { instanceId := "inst-1" } "ada" "conn-1" 1000 "" 1).updatedAll
          (SessionCall.leaveAndReturn { instanceId := "inst-1" } { instanceId := "inst-2" }
            "in_game" "room-1" "conn-2" 3 5 7)) :=
  implementsRecord_of_performAll _ "ada" "conn-1" 1000 "" 1 none _
    (by simp [SessionCall.leaveAndReturn, SessionCall.NamesRoom])

end TerritoryBackend

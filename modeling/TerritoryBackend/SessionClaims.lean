import TerritoryBackend.Coroutines
import TerritoryBackend.SessionManager

/-!
# Claiming a disconnected session

`attempt_reconnect` and `mark_disconnected` as any number of instances call
them for one player: each reads the session in one Redis command and writes it
in a later pipeline.  The write of a claim does not look at the state again.
-/

namespace TerritoryBackend

open EventLoop

/-- A Redis command of one of the two methods. -/
inductive ClaimInstr where
  | attemptReconnectRead (settings : Settings) (connection : ConnectionId)
  | attemptReconnectWrite (settings : Settings) (connection : ConnectionId)
  | markDisconnectedRead (settings : Settings)
  | markDisconnectedWrite (settings : Settings)

/-- A call on some instance, or the end of the key's time to live. -/
inductive ClaimCall where
  | attemptReconnect (settings : Settings) (connection : ConnectionId)
  | markDisconnected (settings : Settings)
  | expire

namespace SessionManager

def claimBlock (instruction : ClaimInstr) (now : Time) (key : SessionKey) :
    Option (Block SessionKey ClaimInstr) :=
  match instruction with
  | .attemptReconnectRead settings connection =>
      match getSession key with
      | .error _ => some { state := key, raises := true }
      | .ok none => some { state := key }
      | .ok (some session) =>
          if session.state = PlayerConnectionState.disconnected.value then
            some { state := key, next := [.attemptReconnectWrite settings connection] }
          else some { state := key }
  | .attemptReconnectWrite settings connection =>
      some { state := attemptReconnect settings connection now key }
  | .markDisconnectedRead settings =>
      match getSession key with
      | .error _ => some { state := key, raises := true }
      | .ok none => some { state := key }
      | .ok (some _) => some { state := key, next := [.markDisconnectedWrite settings] }
  | .markDisconnectedWrite settings => some { state := markDisconnected settings now key }

def claimCall (call : ClaimCall) (key : SessionKey) : SessionKey × List (List ClaimInstr) :=
  match call with
  | .attemptReconnect settings connection => (key, [[.attemptReconnectRead settings connection]])
  | .markDisconnected settings => (key, [[.markDisconnectedRead settings]])
  | .expire => (RedisHash.lapse key, [])

end SessionManager

/-- The answer to a command is the time at which it is sent.  Every command may
fail instead. -/
def sessionCalls : Machine SessionKey ClaimInstr Time ClaimCall where
  block := SessionManager.claimBlock
  kind _ := .remote
  fallible _ _ := true
  unwind _ := []
  event call key := some (SessionManager.claimCall call key)

abbrev ClaimConfig := Config SessionKey ClaimInstr

abbrev ClaimChoice := Choice Time ClaimCall

def sessionOf (key : SessionKey) : ClaimConfig where
  state := key
  tasks := []

inductive ClaimEvent where
  /-- the state becomes `disconnected` -/
  | disconnected
  /-- `attempt_reconnect` returns the session -/
  | claimed (instanceId : InstanceId) (connection : ConnectionId)
  | expired
  deriving DecidableEq

namespace SessionManager

def storedState (key : SessionKey) : Option String :=
  key.bind fun hash => (hash.fields .state).map RedisText.toText

/-- The stored `instance_id` and `connection_id`. -/
def storedOwner (key : SessionKey) : Option (InstanceId × ConnectionId) :=
  key.bind fun hash => (hash.fields .instanceId).bind fun instanceId =>
    (hash.fields .connectionId).map fun connection => (instanceId.toText, connection.toText)

def IsDisconnected (key : SessionKey) : Prop :=
  storedState key = some PlayerConnectionState.disconnected.value

instance (key : SessionKey) : Decidable (IsDisconnected key) :=
  inferInstanceAs (Decidable (storedState key = some PlayerConnectionState.disconnected.value))

end SessionManager

open SessionManager (IsDisconnected storedOwner)

/-- What is observed of a command. -/
def ClaimInstr.observed (key : SessionKey) : ClaimInstr → List ClaimEvent
  | .attemptReconnectWrite settings connection => [.claimed settings.instanceId connection]
  | .markDisconnectedWrite _ => if IsDisconnected key then [] else [.disconnected]
  | _ => []

def observeClaims (choice : ClaimChoice) (before : ClaimConfig) : List ClaimEvent :=
  match choice with
  | .event .expire => if (RedisHash.lapse before.state).isNone then [.expired] else []
  | choice =>
      match before.executed choice with
      | some instruction => instruction.observed before.state
      | none => []

namespace ClaimEvent

/-- The claims since the session has last become disconnected. -/
def claims (log : List ClaimEvent) : List (InstanceId × ConnectionId) :=
  log.foldl (fun claims event =>
    match event with
    | disconnected => []
    | claimed instanceId connection => claims ++ [(instanceId, connection)]
    | expired => claims) []

/-- The last claim of a session that has not expired since. -/
def holder (log : List ClaimEvent) : Option (InstanceId × ConnectionId) :=
  log.foldl (fun holder event =>
    match event with
    | disconnected => holder
    | claimed instanceId connection => some (instanceId, connection)
    | expired => none) none

end ClaimEvent

/-- At most one call has returned the session since it has last become
disconnected, and the stored identifiers are those of the last one. -/
structure ClaimedOnce (log : List ClaimEvent) (key : SessionKey) : Prop where
  single : (ClaimEvent.claims log).length ≤ 1
  holder : ∀ claim, ClaimEvent.holder log = some claim → storedOwner key = some claim

/-- Every run from a session keeps to one claim. -/
def ClaimsExclusive (key : SessionKey) (guard : ClaimChoice → ClaimConfig → Prop) : Prop :=
  ∀ log config, sessionCalls.Logged (sessionOf key) guard observeClaims log config →
    ClaimedOnce log config.state

/-- The pipeline of a claim is executed while the session is disconnected. -/
def WritesWhileDisconnected (choice : ClaimChoice) (config : ClaimConfig) : Prop :=
  ∀ settings connection,
    config.executed choice = some (.attemptReconnectWrite settings connection) →
    IsDisconnected config.state

namespace ClaimEvent

variable (log : List ClaimEvent)

@[simp]
theorem claims_disconnected : claims (log ++ [disconnected]) = [] := by
  simp [claims]

@[simp]
theorem claims_claimed (instanceId : InstanceId) (connection : ConnectionId) :
    claims (log ++ [claimed instanceId connection]) = claims log ++ [(instanceId, connection)] := by
  simp [claims]

@[simp]
theorem claims_expired : claims (log ++ [expired]) = claims log := by
  simp [claims]

@[simp]
theorem holder_disconnected : holder (log ++ [disconnected]) = holder log := by
  simp [holder]

@[simp]
theorem holder_claimed (instanceId : InstanceId) (connection : ConnectionId) :
    holder (log ++ [claimed instanceId connection]) = some (instanceId, connection) := by
  simp [holder]

@[simp]
theorem holder_expired : holder (log ++ [expired]) = none := by
  simp [holder]

end ClaimEvent

namespace SessionManager

@[simp]
theorem isDisconnected_markDisconnected (settings : Settings) (now : Time) (key : SessionKey) :
    IsDisconnected (markDisconnected settings now key) := by
  cases key <;> rfl

@[simp]
theorem not_isDisconnected_attemptReconnect (settings : Settings) (connection : ConnectionId)
    (now : Time) (key : SessionKey) :
    ¬ IsDisconnected (attemptReconnect settings connection now key) := by
  have connected : storedState (attemptReconnect settings connection now key) =
      some PlayerConnectionState.connected.value := by
    cases key <;> rfl
  rw [IsDisconnected, connected]
  decide

theorem storedOwner_attemptReconnect (settings : Settings) (connection : ConnectionId)
    (now : Time) (key : SessionKey) :
    storedOwner (attemptReconnect settings connection now key) =
      some (settings.instanceId, connection) := by
  cases key <;> rfl

theorem storedOwner_markDisconnected (settings : Settings) (now : Time)
    (hash : RedisHash SessionField RedisText) :
    storedOwner (markDisconnected settings now (some hash)) = storedOwner (some hash) :=
  rfl

theorem storedOwner_eq_some {key : SessionKey} {claim : InstanceId × ConnectionId}
    (owned : storedOwner key = some claim) : ∃ hash, key = some hash := by
  obtain ⟨hash, present, -⟩ := Option.bind_eq_some_iff.mp owned
  exact ⟨hash, present⟩

/-- A session that is read as disconnected is stored as disconnected. -/
theorem isDisconnected_of_read {key : SessionKey} {session : RedisSession}
    (read : getSession key = .ok (some session))
    (state : session.state = PlayerConnectionState.disconnected.value) : IsDisconnected key := by
  unfold getSession at read
  split at read
  · cases read
  · rename_i hash
    cases decoded : RedisSession.fromDict hash.fields with
    | error error => simp [decoded, Except.map] at read
    | ok value =>
        simp only [decoded, Except.map, Except.ok.injEq, Option.some.injEq] at read
        subst read
        have stored := (RedisSession.fromDict_eq_ok decoded).2.2.2.2.2
        rw [state] at stored
        change (hash.fields .state).map RedisText.toText = _
        cases field : (hash.fields .state).map RedisText.toText with
        | none =>
            rw [field] at stored
            exact absurd stored (by decide)
        | some text =>
            rw [field] at stored
            rw [stored, Option.getD_some]

end SessionManager

variable {choice : ClaimChoice} {before after : ClaimConfig} {key : SessionKey}
  {log : List ClaimEvent}

/-- What a step does to the session, and what is observed of it. -/
inductive ClaimStep (before : ClaimConfig) (choice : ClaimChoice) :
    List ClaimEvent → SessionKey → Prop where
  | kept : ClaimStep before choice [] before.state
  | claimed (settings : Settings) (connection : ConnectionId) (now : Time)
      (executed : before.executed choice = some (.attemptReconnectWrite settings connection)) :
      ClaimStep before choice [.claimed settings.instanceId connection]
        (SessionManager.attemptReconnect settings connection now before.state)
  | marked (settings : Settings) (now : Time) :
      ClaimStep before choice (if IsDisconnected before.state then [] else [.disconnected])
        (SessionManager.markDisconnected settings now before.state)
  | lapsed : ClaimStep before choice
      (if (RedisHash.lapse before.state).isNone then [.expired] else [])
      (RedisHash.lapse before.state)

theorem observeClaims_of_executed {instruction : ClaimInstr}
    (executed : before.executed choice = some instruction) :
    observeClaims choice before = instruction.observed before.state := by
  cases choice with
  | resume task now => simp [observeClaims, executed]
  | fail | event => cases executed

theorem claimStep (step : sessionCalls.step choice before = some after) :
    ClaimStep before choice (observeClaims choice before) after.state := by
  cases Machine.step_cases step with
  | @resumed task now instruction rest block running current effect =>
      have executed : before.executed (.resume task now : ClaimChoice) = some instruction :=
        Config.executed_of_current current
      have effect : SessionManager.claimBlock instruction now before.state = some block := effect
      cases instruction with
      | attemptReconnectWrite settings connection =>
          cases effect
          rw [observeClaims_of_executed executed]
          exact .claimed settings connection now executed
      | markDisconnectedWrite settings =>
          cases effect
          rw [observeClaims_of_executed executed]
          exact .marked settings now
      | attemptReconnectRead | markDisconnectedRead =>
          rw [observeClaims_of_executed executed]
          simp only [SessionManager.claimBlock] at effect
          (repeat' split at effect) <;> cases effect <;> exact .kept
  | failed current fallible => exact .kept
  | @happened event state spawned effect =>
      have effect : some (SessionManager.claimCall event before.state) = some (state, spawned) :=
        effect
      cases event with
      | expire =>
          cases effect
          exact .lapsed
      | attemptReconnect | markDisconnected =>
          cases effect
          exact .kept

/-- The read that leads to the write of a claim finds a disconnected session. -/
theorem read_of_yielded {settings : Settings} {connection : ConnectionId}
    {instruction : ClaimInstr} {now : Time} {block : Block SessionKey ClaimInstr}
    (effect : SessionManager.claimBlock instruction now key = some block)
    (yielded : .attemptReconnectWrite settings connection ∈ block.next ∨
      .attemptReconnectWrite settings connection ∈ block.spawned.flatten) :
    instruction = .attemptReconnectRead settings connection ∧ IsDisconnected key := by
  cases instruction with
  | attemptReconnectRead reader opened =>
      simp only [SessionManager.claimBlock] at effect
      split at effect
      · cases effect
        simp at yielded
      · cases effect
        simp at yielded
      · rename_i session read
        split at effect
        · rename_i state
          cases effect
          obtain ⟨rfl, rfl⟩ : settings = reader ∧ connection = opened := by simpa using yielded
          exact ⟨rfl, SessionManager.isDisconnected_of_read read state⟩
        · cases effect
          simp at yielded
  | attemptReconnectWrite | markDisconnectedWrite =>
      cases effect
      simp at yielded
  | markDisconnectedRead =>
      simp only [SessionManager.claimBlock] at effect
      split at effect <;> cases effect <;> simp at yielded

theorem pending_attemptReconnectWrite {settings : Settings} {connection : ConnectionId}
    (step : sessionCalls.step choice before = some after)
    (pending : .attemptReconnectWrite settings connection ∈ after.pending) :
    .attemptReconnectWrite settings connection ∈ before.pending ∨ IsDisconnected after.state := by
  cases Machine.source_of_step step pending with
  | pending _ member => exact .inl member
  | @yielded _ instruction now block executed effect member =>
      obtain ⟨rfl, disconnected⟩ := read_of_yielded effect member
      obtain ⟨now, block, effect, state⟩ := Machine.block_of_executed step executed
      simp only [sessionCalls, SessionManager.claimBlock] at effect
      right
      rw [state]
      (repeat' split at effect) <;> cases effect <;> exact disconnected
  | unwound _ _ member => cases member
  | @started event state spawned effect member =>
      have effect : some (SessionManager.claimCall event before.state) = some (state, spawned) :=
        effect
      cases event <;> cases effect <;> simp at member

/-- A disconnected session has not been claimed. -/
structure Claiming (log : List ClaimEvent) (key : SessionKey) : Prop where
  once : ClaimedOnce log key
  unclaimed : IsDisconnected key → ClaimEvent.claims log = []

theorem lapse_cases (key : SessionKey) :
    RedisHash.lapse key = none ∨ RedisHash.lapse key = key := by
  cases key with
  | none => exact .inl rfl
  | some hash => cases ttl : hash.ttl.isNone <;> simp [RedisHash.lapse, Option.filter, ttl]

theorem Claiming.marked (claiming : Claiming log key) (settings : Settings) (now : Time) :
    Claiming (log ++ if IsDisconnected key then [] else [.disconnected])
      (SessionManager.markDisconnected settings now key) := by
  have owner claim (owned : storedOwner key = some claim) :
      storedOwner (SessionManager.markDisconnected settings now key) = some claim := by
    obtain ⟨hash, rfl⟩ := SessionManager.storedOwner_eq_some owned
    rwa [SessionManager.storedOwner_markDisconnected]
  split
  · rename_i disconnected
    rw [List.append_nil]
    exact
      { once.single := claiming.once.single
        once.holder := fun claim held => owner claim (claiming.once.holder claim held)
        unclaimed := fun _ => claiming.unclaimed disconnected }
  · exact
      { once.single := by simp
        once.holder := fun claim held =>
          owner claim (claiming.once.holder claim (by simpa using held))
        unclaimed := fun _ => by simp }

theorem Claiming.lapsed (claiming : Claiming log key) :
    Claiming (log ++ if (RedisHash.lapse key).isNone then [.expired] else [])
      (RedisHash.lapse key) := by
  obtain gone | kept := lapse_cases key
  · rw [gone]
    exact
      { once.single := by simpa using claiming.once.single
        once.holder := fun claim held => by simp at held
        unclaimed := fun disconnected => absurd disconnected (by decide) }
  · cases key with
    | none =>
        exact
          { once.single := by simpa [RedisHash.lapse] using claiming.once.single
            once.holder := fun claim held => by simp [RedisHash.lapse] at held
            unclaimed := fun disconnected => absurd disconnected (by decide) }
    | some hash =>
        rw [kept]
        simpa using claiming

theorem Claiming.step (claiming : Claiming log before.state)
    (allowed : WritesWhileDisconnected choice before)
    (step : sessionCalls.step choice before = some after) :
    Claiming (log ++ observeClaims choice before) after.state := by
  have change := claimStep step
  generalize observeClaims choice before = events at change
  generalize after.state = next at change
  cases change with
  | kept => rwa [List.append_nil]
  | claimed settings connection now executed =>
      have none := claiming.unclaimed (allowed settings connection executed)
      exact
        { once.single := by simp [none]
          once.holder := by
            intro claim held
            rw [ClaimEvent.holder_claimed] at held
            rw [SessionManager.storedOwner_attemptReconnect, held]
          unclaimed := fun disconnected => by simp at disconnected }
  | marked settings now => exact claiming.marked settings now
  | lapsed => exact claiming.lapsed

/-- A claim about to be written belongs to a disconnected session, to one that
has been claimed already or to one that has expired. -/
def Prepared (log : List ClaimEvent) (config : ClaimConfig) : Prop :=
  ∀ settings connection, .attemptReconnectWrite settings connection ∈ config.pending →
    IsDisconnected config.state ∨ ClaimEvent.claims log ≠ [] ∨ .expired ∈ log

theorem Prepared.step (prepared : Prepared log before)
    (step : sessionCalls.step choice before = some after) :
    Prepared (log ++ observeClaims choice before) after := by
  intro settings connection pending
  obtain pending | disconnected := pending_attemptReconnectWrite step pending
  · have earlier := prepared settings connection pending
    have change := claimStep step
    generalize observeClaims choice before = events at change
    generalize after.state = next at change
    cases change with
    | kept => rwa [List.append_nil]
    | claimed => exact .inr (.inl (by simp))
    | marked settings now => exact .inl (by simp)
    | lapsed =>
        cases gone : (RedisHash.lapse before.state).isNone
        · obtain absent | kept := lapse_cases before.state
          · rw [absent] at gone
            cases gone
          · rwa [if_neg (by simp), List.append_nil, kept]
        · exact .inr (.inr (by simp))
  · exact .inl disconnected

theorem claiming_of_logged {config : ClaimConfig}
    (logged : sessionCalls.Logged (sessionOf key) WritesWhileDisconnected observeClaims log
      config) : Claiming log config.state ∧ Prepared log config := by
  induction logged with
  | start =>
      refine ⟨⟨⟨Nat.zero_le 1, ?_⟩, fun _ => rfl⟩, ?_⟩
      · intro claim held
        cases held
      · intro settings connection pending
        cases pending
  | step _ allowed step ih => exact ⟨ih.1.step allowed step, ih.2.step step⟩

/-- A session is claimed once as long as every claim is written while the
session is disconnected; the first other claim of a session that has not expired
is one too many. -/
theorem claimsExclusive_of_writesWhileDisconnected (key : SessionKey) :
    ClaimsExclusive key WritesWhileDisconnected ∧
      ∀ log before choice after,
        sessionCalls.Logged (sessionOf key) WritesWhileDisconnected observeClaims log before →
        sessionCalls.step choice before = some after → .expired ∉ log →
        ¬ WritesWhileDisconnected choice before →
        ¬ ClaimedOnce (log ++ observeClaims choice before) after.state := by
  refine ⟨fun _ _ logged => (claiming_of_logged logged).1.once, ?_⟩
  intro log before choice after logged step unexpired violated once
  unfold WritesWhileDisconnected at violated
  push Not at violated
  obtain ⟨settings, connection, executed, connected⟩ := violated
  have prepared := (claiming_of_logged logged).2 settings connection
    (Config.mem_pending_of_executed executed)
  have claimed := (prepared.resolve_left connected).resolve_right unexpired
  have single := once.single
  rw [observeClaims_of_executed executed, ClaimInstr.observed, ClaimEvent.claims_claimed,
    List.length_append, List.length_singleton] at single
  exact claimed (List.length_eq_zero_iff.mp (by omega))

/-- The session of a player who has just lost the connection. -/
def lostSession : SessionKey :=
  SessionManager.markDisconnected { instanceId := "server-1" } 1
    (SessionManager.createSession { instanceId := "server-1" } "ada" "conn-1" 1000 "ada" 0 none)

/-- Two instances read the session before either of them writes it. -/
def twoClaimants : List ClaimChoice :=
  [.event (.attemptReconnect { instanceId := "server-1" } "conn-2"),
    .event (.attemptReconnect { instanceId := "server-2" } "conn-3"), .resume 0 2, .resume 1 2,
    .resume 0 3, .resume 1 3]

theorem twoClaimants_not_exclusive : ¬ ClaimsExclusive lostSession unguarded := by
  intro exclusive
  have both : (sessionCalls.record observeClaims twoClaimants (sessionOf lostSession) []).any
      (fun result => decide (ClaimEvent.claims result.1 =
        [("server-1", "conn-2"), ("server-2", "conn-3")])) = true := by
    decide
  obtain ⟨result, executed, claims⟩ := Option.any_eq_true _ _ |>.mp both
  have logged : sessionCalls.Logged (sessionOf lostSession) unguarded observeClaims result.1
      result.2 := Machine.logged_of_record .start (fun _ _ _ => trivial) executed
  have single := (exclusive result.1 result.2 logged).single
  rw [of_decide_eq_true claims] at single
  exact absurd single (by decide)

end TerritoryBackend

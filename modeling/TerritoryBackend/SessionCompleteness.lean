import TerritoryBackend.SessionManager
import Mathlib.Data.List.Infix

/-!
# Partial and immortal sessions

A history of Redis commands on one session hash: the commands of the session
manager in any order and any interleaving, with the key allowed to expire
between any two of them.  `HSET` creates a key it does not find, so a command
that writes some of the fields leaves a partial hash behind when the key is
gone.  The hash stays complete in exactly the histories where every such
command finds the key.
-/

namespace TerritoryBackend

open SessionManager

/-- The write an operation still has to make after its read. -/
inductive PendingWrite where
  | markDisconnected
  | attemptReconnect (connection : ConnectionId)
  deriving DecidableEq

structure SessionStore where
  key : SessionKey := none
  pending : List PendingWrite := []

/-- One Redis command of the session manager, or the expiry of the key. -/
inductive SessionStep where
  | createSession (connection : ConnectionId) (eloRating : Int) (username : String)
      (now : Time)
  | updateSessionState (state : String) (room : Option RoomId) (now : Time)
  | updateActivity (now : Time)
  | deleteSession
  | readForMark
  | writeMark (now : Time)
  | readForReconnect (connection : ConnectionId)
  | writeReconnect (connection : ConnectionId) (now : Time)
  | expire

def SessionStep.isPartialWrite : SessionStep → Bool
  | .updateSessionState .. | .updateActivity _ | .writeMark _ | .writeReconnect .. => true
  | _ => false

namespace SessionStore

variable (settings : Settings) (player : PlayerId)

/-- The effect of a command, `none` when it cannot be issued: a write without
its read, or the expiry of a key without a time to live. -/
def step (store : SessionStore) : SessionStep → Option SessionStore
  | .createSession connection eloRating username now =>
      some { store with
        key := SessionManager.createSession settings player connection eloRating username now
          store.key }
  | .updateSessionState state room now =>
      some { store with key := SessionManager.updateSessionState state room now store.key }
  | .updateActivity now =>
      some { store with key := SessionManager.updateActivity settings now store.key }
  | .deleteSession => some { store with key := SessionManager.deleteSession store.key }
  | .readForMark =>
      match getSession store.key with
      | .ok (some _) => some { store with pending := .markDisconnected :: store.pending }
      | _ => some store
  | .writeMark now =>
      if .markDisconnected ∈ store.pending then
        some
          { key := SessionManager.markDisconnected settings now store.key
            pending := store.pending.erase .markDisconnected }
      else none
  | .readForReconnect connection =>
      match getSession store.key with
      | .ok (some session) =>
          if session.state = PlayerConnectionState.disconnected.value then
            some { store with pending := .attemptReconnect connection :: store.pending }
          else some store
      | _ => some store
  | .writeReconnect connection now =>
      if .attemptReconnect connection ∈ store.pending then
        some
          { key := SessionManager.attemptReconnect settings connection now store.key
            pending := store.pending.erase (.attemptReconnect connection) }
      else none
  | .expire =>
      if store.key.isSome ∧ RedisHash.lapse store.key = none then
        some { store with key := none }
      else none

def run (steps : List SessionStep) : Option SessionStore :=
  steps.foldl (fun store next => store.bind fun store => store.step settings player next)
    (some {})

theorem run_append_singleton (steps : List SessionStep) (next : SessionStep) :
    run settings player (steps ++ [next]) =
      (run settings player steps).bind fun store => store.step settings player next := by
  simp [run]

end SessionStore

/-- The hash is absent, or it has the required fields and expires; in either
case `get_session` does not raise. -/
def SessionSound (key : SessionKey) : Prop :=
  (∀ hash, key = some hash →
    (hash.fields .playerId).isSome ∧ (hash.fields .instanceId).isSome ∧
      (hash.fields .connectionId).isSome ∧ hash.ttl.isSome) ∧
    ∃ session, getSession key = .ok session

def AlwaysSound (settings : Settings) (player : PlayerId) (steps : List SessionStep) : Prop :=
  ∀ before store, before <+: steps → SessionStore.run settings player before = some store →
    SessionSound store.key

/-- Every partial write of a history finds the key it writes to. -/
def WritesFindKey (settings : Settings) (player : PlayerId) (steps : List SessionStep) : Prop :=
  ∀ before next store after, before ++ [next] <+: steps →
    SessionStore.run settings player before = some store →
    store.step settings player next = some after →
    next.isPartialWrite = true → store.key ≠ none

def KeyComplete (key : SessionKey) : Prop := ∀ hash, key = some hash → Complete hash

theorem KeyComplete.sound {key : SessionKey} (complete : KeyComplete key) :
    SessionSound key := by
  cases key with
  | none => exact ⟨by simp, none, rfl⟩
  | some hash =>
      have whole := complete hash rfl
      constructor
      · rintro _ ⟨⟩
        exact ⟨whole.decodable.playerId, whole.decodable.instanceId,
          whole.decodable.connectionId, whole.expires⟩
      · obtain ⟨session, read⟩ := whole.getSession_isOk
        exact ⟨some session, read⟩

theorem KeyComplete.of_result {key : SessionKey}
    (result : ∃ hash, key = some hash ∧ Complete hash) : KeyComplete key := by
  obtain ⟨hash, rfl, complete⟩ := result
  rintro _ ⟨⟩
  exact complete

theorem KeyComplete.step {settings : Settings} {player : PlayerId}
    {store after : SessionStore} {next : SessionStep} (complete : KeyComplete store.key)
    (stepTo : store.step settings player next = some after)
    (finds : next.isPartialWrite = true → store.key ≠ none) : KeyComplete after.key := by
  have present (isPartial : next.isPartialWrite = true) :
      ∃ hash, store.key = some hash ∧ Complete hash := by
    obtain ⟨hash, stored⟩ := Option.ne_none_iff_exists'.mp (finds isPartial)
    exact ⟨hash, stored, complete hash stored⟩
  cases next with
  | createSession connection eloRating username now =>
      cases stepTo
      exact .of_result (createSession_complete ..)
  | updateSessionState state room now =>
      cases stepTo
      obtain ⟨hash, stored, whole⟩ := present rfl
      exact .of_result (by rw [stored]; exact updateSessionState_complete whole state room now)
  | updateActivity now =>
      cases stepTo
      obtain ⟨hash, stored, whole⟩ := present rfl
      exact .of_result (by rw [stored]; exact updateActivity_complete whole settings now)
  | deleteSession =>
      cases stepTo
      rintro _ ⟨⟩
  | readForMark =>
      simp only [SessionStore.step] at stepTo
      split at stepTo <;> (cases stepTo; exact complete)
  | writeMark now =>
      simp only [SessionStore.step] at stepTo
      split at stepTo
      · cases stepTo
        obtain ⟨hash, stored, whole⟩ := present rfl
        exact .of_result (by rw [stored]; exact markDisconnected_complete whole settings now)
      · cases stepTo
  | readForReconnect connection =>
      simp only [SessionStore.step] at stepTo
      split at stepTo
      · split at stepTo <;> (cases stepTo; exact complete)
      · cases stepTo
        exact complete
  | writeReconnect connection now =>
      simp only [SessionStore.step] at stepTo
      split at stepTo
      · cases stepTo
        obtain ⟨hash, stored, whole⟩ := present rfl
        exact .of_result
          (by rw [stored]; exact attemptReconnect_complete whole settings connection now)
      · cases stepTo
  | expire =>
      simp only [SessionStore.step] at stepTo
      split at stepTo
      · cases stepTo
        rintro _ ⟨⟩
      · cases stepTo

/-- A partial write on an absent key leaves a hash without a player id. -/
theorem partialWrite_on_absent {settings : Settings} {player : PlayerId}
    {store after : SessionStore} {next : SessionStep} (absent : store.key = none)
    (stepTo : store.step settings player next = some after)
    (isPartial : next.isPartialWrite = true) :
    ∃ hash, after.key = some hash ∧ hash.fields .playerId = none := by
  cases next with
  | updateSessionState state room now =>
      cases stepTo
      exact ⟨_, by rw [absent]; rfl, rfl⟩
  | updateActivity now =>
      cases stepTo
      exact ⟨_, by rw [absent]; rfl, rfl⟩
  | writeMark now =>
      simp only [SessionStore.step, absent] at stepTo
      split at stepTo
      · cases stepTo
        exact ⟨_, rfl, rfl⟩
      · cases stepTo
  | writeReconnect connection now =>
      simp only [SessionStore.step, absent] at stepTo
      split at stepTo
      · cases stepTo
        exact ⟨_, rfl, rfl⟩
      · cases stepTo
  | _ => cases isPartial

theorem keyComplete_of_writesFindKey {settings : Settings} {player : PlayerId}
    {steps : List SessionStep} (finds : WritesFindKey settings player steps)
    {before : List SessionStep} {store : SessionStore} (isPrefix : before <+: steps)
    (reached : SessionStore.run settings player before = some store) :
    KeyComplete store.key := by
  induction before using List.reverseRecOn generalizing store with
  | nil =>
      cases reached
      rintro _ ⟨⟩
  | append_singleton before next ih =>
      rw [SessionStore.run_append_singleton, Option.bind_eq_some_iff] at reached
      obtain ⟨middle, reachedMiddle, stepTo⟩ := reached
      have earlier : before <+: steps := (List.prefix_append before [next]).trans isPrefix
      exact (ih earlier reachedMiddle).step stepTo
        (finds before next middle store isPrefix reachedMiddle stepTo)

/-- The stored session is never partial and never immortal in precisely the
histories where every partial write finds the key. -/
theorem alwaysSound_iff_writesFindKey (settings : Settings) (player : PlayerId)
    (steps : List SessionStep) :
    AlwaysSound settings player steps ↔ WritesFindKey settings player steps := by
  constructor
  · intro sound before next store after isPrefix reached stepTo isPartial absent
    obtain ⟨hash, stored, noPlayer⟩ := partialWrite_on_absent absent stepTo isPartial
    have reachedAfter :
        SessionStore.run settings player (before ++ [next]) = some after := by
      rw [SessionStore.run_append_singleton, reached]
      exact stepTo
    have required := (sound _ after isPrefix reachedAfter).1 hash stored
    simp [noPlayer] at required
  · intro finds before store isPrefix reached
    exact (keyComplete_of_writesFindKey finds isPrefix reached).sound

/-- The session expires while the player waits in the queue, and the next state
update recreates the hash. -/
def expiryBeforeUpdate : List SessionStep :=
  [.createSession "conn-1" 1000 "" 0, .expire, .updateSessionState "in_game" (some "room-1") 3601]

/-- The recreated hash has no player id and no expiry, so the next
`get_session` raises. -/
theorem expiryBeforeUpdate_not_sound :
    ¬ AlwaysSound { instanceId := "inst-1" } "ada" expiryBeforeUpdate := by
  intro sound
  have required := sound expiryBeforeUpdate _ (List.prefix_refl _) rfl
  exact absurd (required.1 _ rfl).1 (by decide)

end TerritoryBackend

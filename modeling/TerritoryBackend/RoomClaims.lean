import TerritoryBackend.KeyedMachines
import TerritoryBackend.Matchmaking
import TerritoryBackend.Snapshots

/-!
# Claims of orphaned rooms

`scripts/lua/claim_room.lua` hands a room over to another instance if its owner is
still the one believed to be dead.  However many instances claim rooms, and in
whatever order, the owners of a room form a chain: a room is taken from an instance
once, unless that instance takes it back.
-/

namespace TerritoryBackend

/-- The hash `room:{room_id}`. -/
abbrev RoomHash := RoomField → Option RedisText

/-- What is done to the hashes of rooms. -/
inductive RoomCommand where
  /-- the `HSET` of `_create_match` -/
  | createMatch (instanceId : InstanceId) (room : RoomId) (pair : MatchedPair) (now : Time)
  | claimRoom (room : RoomId) (claimingInstance deadInstance : InstanceId)
  /-- the `DEL` of `_cleanup_game` -/
  | cleanupGame (room : RoomId)

namespace RoomHash

/-- `HGET room_key owner_instance_id` -/
def owner (key : Option RoomHash) : Option InstanceId :=
  (key.bind fun data => data .ownerInstanceId).map RedisText.toText

/-- `claim_room.lua`; it returns 1 or 0. -/
def claimRoom (key : Option RoomHash) (claimingInstance deadInstance : InstanceId) :
    Option RoomHash × Bool :=
  if owner key = some deadInstance then
    (key.map fun data => Function.update data .ownerInstanceId (some (.str claimingInstance)), true)
  else (key, false)

end RoomHash

namespace RoomCommand

@[simp]
def room : RoomCommand → RoomId
  | .createMatch _ room _ _ | .claimRoom room _ _ | .cleanupGame room => room

/-- The room `_create_match` builds on an instance. -/
def matchRoom (instanceId : InstanceId) (room : RoomId) (pair : MatchedPair) (now : Time) :
    RedisRoom :=
  RedisRoom.ofPair { instanceId := instanceId } room pair now

def act : RoomCommand → Option RoomHash → Option RoomHash × Bool
  | .createMatch instanceId room pair now, key =>
      (some fun field =>
        ((matchRoom instanceId room pair now).toDict field).or (key.bind fun data => data field),
        false)
  | .claimRoom _ claimingInstance deadInstance, key =>
      RoomHash.claimRoom key claimingInstance deadInstance
  | .cleanupGame _, _ => (none, false)

end RoomCommand

/-- The hashes of all rooms. -/
def roomHashes : KeyedMachine RoomId (Option RoomHash) RoomCommand Bool where
  key command := some command.room
  act := RoomCommand.act
  free _ := false

/-- Commands with their answers, from an empty Redis on. -/
abbrev answered (commands : List RoomCommand) : List (RoomCommand × Bool) :=
  roomHashes.answers (fun _ => none) commands

/-- The room is not created among the commands. -/
def NotCreated (room : RoomId) (commands : List (RoomCommand × Bool)) : Prop :=
  ∀ instanceId pair now, (.createMatch instanceId room pair now, false) ∉ commands

/-- How claims hand over rooms. -/
structure ClaimsHandOver (commands : List RoomCommand) : Prop where
  /-- a claim succeeds on the owner it names, and leaves the room to the claiming one -/
  takes : ∀ room claimingInstance deadInstance succeeded earlier later,
    answered commands =
      earlier ++ (.claimRoom room claimingInstance deadInstance, succeeded) :: later →
    let before := roomHashes.finalState (fun _ => none) (earlier.map Prod.fst)
    let after := roomHashes.finalState before [.claimRoom room claimingInstance deadInstance]
    (succeeded = true ↔ RoomHash.owner (before room) = some deadInstance) ∧
      (succeeded = true → RoomHash.owner (after room) = some claimingInstance)
  /-- a room that has been claimed from an instance is claimed from it again only
  after this instance has claimed it -/
  once : ∀ room deadInstance first second earlier between later,
    answered commands =
      earlier ++ (.claimRoom room first deadInstance, true) :: between ++
        (.claimRoom room second deadInstance, true) :: later →
    NotCreated room between →
    first = deadInstance ∨ ∃ former, (.claimRoom room deadInstance former, true) ∈ between
  /-- a room is as it was created but for its owner, who created or claimed it -/
  owned : ∀ room data, roomHashes.finalState (fun _ => none) commands room = some data →
    ∃ creator pair now owner,
      (.createMatch creator room pair now, false) ∈ answered commands ∧
        data = { RoomCommand.matchRoom creator room pair now with
          ownerInstanceId := owner }.toDict ∧
        (owner = creator ∨ ∃ former, (.claimRoom room owner former, true) ∈ answered commands) ∧
        -- whoever owns the room restores the same game
        ∀ (engine : GameEngine) (snapshot : Option Json) (time : Time),
          engine.restoreGameFromSnapshot room snapshot (some data) time =
            engine.restoreGameFromSnapshot room snapshot
              (some (RoomCommand.matchRoom creator room pair now).toDict) time

variable {room : RoomId} {key after : Option RoomHash} {instanceId owner : InstanceId}
  {claimingInstance deadInstance : InstanceId} {state : RoomId → Option RoomHash}
  {command : RoomCommand}

theorem RedisRoom.toDict_owner (stored : RedisRoom) (owner : InstanceId) :
    Function.update stored.toDict .ownerInstanceId (some (.str owner)) =
      { stored with ownerInstanceId := owner }.toDict := by
  funext field
  cases field <;> rfl

theorem RedisRoom.toDict_or (stored : RedisRoom) (old : RoomHash) :
    (fun field => (stored.toDict field).or (old field)) = stored.toDict := by
  funext field
  cases field <;> rfl

theorem RoomHash.owner_update (data : RoomHash) (owner : InstanceId) :
    RoomHash.owner (some (Function.update data .ownerInstanceId (some (.str owner)))) =
      some owner := by
  simp [RoomHash.owner, RedisText.toText]

/-- A claim succeeds exactly on the instance believed to be dead. -/
theorem RoomHash.claimRoom_succeeds :
    (RoomHash.claimRoom key claimingInstance deadInstance).2 = true ↔
      RoomHash.owner key = some deadInstance := by
  unfold RoomHash.claimRoom
  split
  · simpa using ‹_›
  · simpa using ‹_›

/-- The owner after a command is the one before, or it has claimed the room, or the
room has just been created. -/
theorem RoomCommand.owner_act (command : RoomCommand) (key : Option RoomHash)
    (owned : RoomHash.owner (command.act key).1 = some owner) :
    RoomHash.owner key = some owner ∨
      (∃ room former, command = .claimRoom room owner former ∧ (command.act key).2 = true) ∨
      ∃ creator room pair now, command = .createMatch creator room pair now := by
  cases command with
  | createMatch creator room pair now => exact .inr (.inr ⟨creator, room, pair, now, rfl⟩)
  | cleanupGame room => cases owned
  | claimRoom room claimingInstance deadInstance =>
      simp only [RoomCommand.act, RoomHash.claimRoom] at owned ⊢
      split at owned
      · rename_i current
        right
        left
        cases key with
        | none => cases current
        | some data =>
            rw [Option.map_some, RoomHash.owner_update] at owned
            cases owned
            exact ⟨room, deadInstance, rfl, by rw [if_pos current]⟩
      · exact .inl owned

theorem RoomHash.owner_claimRoom (held : RoomHash.owner key = some deadInstance) :
    RoomHash.owner (RoomHash.claimRoom key claimingInstance deadInstance).1 =
      some claimingInstance := by
  unfold RoomHash.claimRoom
  rw [if_pos held]
  cases key with
  | none => cases held
  | some data => exact RoomHash.owner_update data claimingInstance

theorem roomHashes_step_state (state : RoomId → Option RoomHash) (command : RoomCommand) :
    (roomHashes.step state command).1 =
      Function.update state command.room (command.act (state command.room)).1 :=
  rfl

theorem roomHashes_step_answer (state : RoomId → Option RoomHash) (command : RoomCommand) :
    (roomHashes.step state command).2 = (command.act (state command.room)).2 :=
  rfl

/-- An owner a room did not have before has claimed it. -/
theorem owner_of_notCreated {commands : List RoomCommand}
    (notCreated : NotCreated room (roomHashes.answers state commands))
    (owned : RoomHash.owner (roomHashes.finalState state commands room) = some owner) :
    RoomHash.owner (state room) = some owner ∨
      ∃ former, (.claimRoom room owner former, true) ∈ roomHashes.answers state commands := by
  induction commands generalizing state with
  | nil => exact .inl owned
  | cons command commands ih =>
      have later : NotCreated room
          (roomHashes.answers (roomHashes.step state command).1 commands) := by
        intro instanceId pair now member
        exact notCreated instanceId pair now (List.mem_cons_of_mem _ member)
      rcases ih later owned with before | ⟨former, claimed⟩
      · by_cases same : command.room = room
        · subst same
          rw [roomHashes_step_state, Function.update_self] at before
          rcases command.owner_act _ before with
            unchanged | ⟨named, former, rfl, succeeds⟩ | ⟨creator, named, pair, now, rfl⟩
          · exact .inl unchanged
          · right
            refine ⟨former, List.mem_cons.mpr (.inl ?_)⟩
            rw [roomHashes_step_answer, succeeds]
            rfl
          · exact absurd List.mem_cons_self (notCreated creator pair now)
        · rw [roomHashes_step_state, Function.update_of_ne (Ne.symm same)] at before
          exact .inl before
      · exact .inr ⟨former, List.mem_cons_of_mem _ claimed⟩

/-- A successful claim finds the owner it names and leaves the claiming instance. -/
theorem claim_takes {commands : List RoomCommand} {succeeded : Bool}
    {earlier later : List (RoomCommand × Bool)}
    (split : answered commands =
      earlier ++ (.claimRoom room claimingInstance deadInstance, succeeded) :: later) :
    let before := roomHashes.finalState (fun _ => none) (earlier.map Prod.fst)
    let after := roomHashes.finalState before [.claimRoom room claimingInstance deadInstance]
    (succeeded = true ↔ RoomHash.owner (before room) = some deadInstance) ∧
      (succeeded = true → RoomHash.owner (after room) = some claimingInstance) := by
  intro before after
  obtain ⟨first, second, -, earlierEq, rest⟩ := roomHashes.answers_split split
  obtain ⟨_, -, answer, -⟩ := roomHashes.answers_cons rest
  have same : earlier.map Prod.fst = first := by rw [← earlierEq, roomHashes.map_fst_answers]
  rw [← same] at answer
  have succeeds : succeeded = true ↔ RoomHash.owner (before room) = some deadInstance := by
    rw [← show _ = succeeded from answer]
    exact RoomHash.claimRoom_succeeds
  refine ⟨succeeds, ?_⟩
  intro took
  have claimed : after room =
      (RoomHash.claimRoom (before room) claimingInstance deadInstance).1 :=
    Function.update_self ..
  rw [claimed]
  exact RoomHash.owner_claimRoom (succeeds.mp took)

/-- A room is taken from an instance once, unless this instance takes it back. -/
theorem claimed_once {commands : List RoomCommand} {first second : InstanceId}
    {earlier between later : List (RoomCommand × Bool)}
    (split : answered commands =
      earlier ++ (.claimRoom room first deadInstance, true) :: between ++
        (.claimRoom room second deadInstance, true) :: later)
    (notCreated : NotCreated room between) :
    first = deadInstance ∨ ∃ former, (.claimRoom room deadInstance former, true) ∈ between := by
  rw [List.append_assoc, List.cons_append] at split
  obtain ⟨_, fromFirst, -, -, rest⟩ := roomHashes.answers_split split
  obtain ⟨afterFirst, -, succeeds, rest⟩ := roomHashes.answers_cons rest
  obtain ⟨commandsBetween, fromSecond, -, betweenEq, rest⟩ := roomHashes.answers_split rest
  obtain ⟨_, -, again, -⟩ := roomHashes.answers_cons rest
  have held := RoomHash.claimRoom_succeeds.mp succeeds
  have heldAgain := RoomHash.claimRoom_succeeds.mp again
  rw [← betweenEq] at notCreated ⊢
  rcases owner_of_notCreated notCreated heldAgain with kept | claimed
  · left
    rw [roomHashes_step_state] at kept
    simp only [RoomCommand.room, Function.update_self] at kept
    exact Option.some.inj ((RoomHash.owner_claimRoom held).symm.trans kept)
  · exact .inr claimed

/-- The room was created by one of the commands, and its owner created or claimed it. -/
def Owned (log : List (RoomCommand × Bool)) (room : RoomId) (data : RoomHash) : Prop :=
  ∃ creator pair now owner,
    (.createMatch creator room pair now, false) ∈ log ∧
      data = { RoomCommand.matchRoom creator room pair now with
        ownerInstanceId := owner }.toDict ∧
      (owner = creator ∨ ∃ former, (.claimRoom room owner former, true) ∈ log)

theorem Owned.append {log : List (RoomCommand × Bool)} {data : RoomHash}
    (owned : Owned log room data) (news : List (RoomCommand × Bool)) :
    Owned (log ++ news) room data := by
  obtain ⟨creator, pair, now, owner, created, same, took⟩ := owned
  refine ⟨creator, pair, now, owner, List.mem_append_left news created, same, ?_⟩
  rcases took with created | ⟨former, claimed⟩
  · exact .inl created
  · exact .inr ⟨former, List.mem_append_left news claimed⟩

/-- What a command leaves of its room. -/
theorem Owned.act {log : List (RoomCommand × Bool)} {data : RoomHash}
    (owned : ∀ old, key = some old → Owned log command.room old)
    (left : (command.act key).1 = some data) :
    Owned (log ++ [(command, (command.act key).2)]) command.room data := by
  cases command with
  | createMatch creator room pair now =>
      cases key with
      | none =>
          cases left
          refine ⟨creator, pair, now, creator, by simp [RoomCommand.act], ?_, .inl rfl⟩
          exact RedisRoom.toDict_or _ fun _ => none
      | some old =>
          cases left
          refine ⟨creator, pair, now, creator, by simp [RoomCommand.act], ?_, .inl rfl⟩
          exact RedisRoom.toDict_or _ old
  | cleanupGame room => cases left
  | claimRoom room claimingInstance deadInstance =>
      simp only [RoomCommand.act, RoomHash.claimRoom] at left ⊢
      split at left
      · rename_i current
        obtain ⟨old, stored, rfl⟩ := Option.map_eq_some_iff.mp left
        obtain ⟨creator, pair, now, owner, created, rfl, -⟩ := owned old stored
        refine ⟨creator, pair, now, claimingInstance, List.mem_append_left _ created, ?_, ?_⟩
        · exact RedisRoom.toDict_owner _ claimingInstance
        · right
          exact ⟨deadInstance, by simp [if_pos current]⟩
      · exact (owned data left).append _

theorem owned_of_answered (commands : List RoomCommand) :
    ∀ room data, roomHashes.finalState (fun _ => none) commands room = some data →
      Owned (answered commands) room data := by
  induction commands using List.reverseRecOn with
  | nil =>
      intro room data stored
      cases stored
  | append_singleton commands command ih =>
      intro room data stored
      rw [roomHashes.finalState_append] at stored
      rw [answered, roomHashes.answers_append]
      generalize roomHashes.finalState (fun _ => none) commands = state at ih stored
      change Function.update state command.room _ room = some data at stored
      by_cases same : room = command.room
      · subst same
        rw [Function.update_self] at stored
        exact Owned.act (ih _) stored
      · rw [Function.update_of_ne same] at stored
        exact (ih room data stored).append _

/-- Restoring a game does not depend on the owner of its room. -/
theorem restoreGameFromSnapshot_owner (engine : GameEngine) (room : RoomId)
    (snapshot : Option Json) (stored : RedisRoom) (noMatch : stored.matchId = none)
    (owner : InstanceId) (time : Time) :
    engine.restoreGameFromSnapshot room snapshot
        (some { stored with ownerInstanceId := owner }.toDict) time =
      engine.restoreGameFromSnapshot room snapshot (some stored.toDict) time := by
  unfold GameEngine.restoreGameFromSnapshot
  cases snapshot with
  | none => rfl
  | some document =>
      simp only [RedisRoom.fromDict_toDict stored noMatch,
        RedisRoom.fromDict_toDict { stored with ownerInstanceId := owner } noMatch]
      rfl

/-- Main result: whatever instances claim which rooms in which order, every claim
that succeeds takes a room over from its last owner. -/
theorem claimsHandOver (commands : List RoomCommand) : ClaimsHandOver commands := by
  constructor
  · intro room claimingInstance deadInstance succeeded earlier later split
    exact claim_takes split
  · intro room deadInstance first second earlier between later split notCreated
    exact claimed_once split notCreated
  · intro room data stored
    obtain ⟨creator, pair, now, owner, created, rfl, took⟩ :=
      owned_of_answered commands room data stored
    refine ⟨creator, pair, now, owner, created, rfl, took, ?_⟩
    intro engine snapshot time
    exact restoreGameFromSnapshot_owner engine room snapshot _ rfl owner time

end TerritoryBackend

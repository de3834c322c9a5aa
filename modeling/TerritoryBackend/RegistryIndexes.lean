import TerritoryBackend.RoomMembers
import TerritoryBackend.SingleConnection

/-!
# The three indexes of the connection registry

`_connections`, `_player_connections` and `_room_members` are kept in step by
every call, whatever is registered, sent or closed in between.  Identifiers of
rooms are not empty, so that a connection with a room is never taken for one
without.
-/

namespace TerritoryBackend

open EventLoop

namespace ConnectionManager

/-- `get_room_member_ids`: the set is listed in no particular order. -/
def getRoomMemberIds (manager : ConnectionManager) (room : RoomId) : Multiset PlayerId :=
  (manager.roomMembers.getD room ∅).val.filterMap fun connection =>
    (manager.connections.lookup connection).map ConnectionInfo.playerId

/-- The connections `broadcast_to_room` starts a send for. -/
def broadcastTargets (manager : ConnectionManager) (room : RoomId) (excluded : Option PlayerId) :
    Multiset ConnectionId :=
  (manager.roomMembers.getD room ∅).val.filter fun connection =>
    (manager.connections.lookup connection).any (fun info =>
      decide (some info.playerId ≠ excluded)) = true

/-- The registered connections that have last joined a room, with their
players. -/
def residents (manager : ConnectionManager) (room : RoomId) : List (ConnectionId × PlayerId) :=
  (manager.connections.entries.filter fun entry => decide (entry.2.roomId = some room)).map
    fun entry => (entry.1, entry.2.playerId)

/-- A room that is listed has members. -/
def NoEmptyRoom (manager : ConnectionManager) : Prop :=
  ∀ room members, manager.roomMembers.lookup room = some members → members.Nonempty

end ConnectionManager

/-- The indexes say the same, and the members of a room are addressed once
each. -/
structure IndexesAgree (registry : Registry) : Prop where
  indexed : ∀ player connection, registry.manager.playerConnections.lookup player =
      some connection →
    ∃ info, registry.manager.connections.lookup connection = some info ∧ info.playerId = player
  member_iff : ∀ connection room, registry.manager.Member connection room ↔
    ∃ info, registry.manager.connections.lookup connection = some info ∧ info.roomId = some room
  noEmptyRoom : registry.manager.NoEmptyRoom
  memberIds : ∀ room, registry.manager.getRoomMemberIds room =
    ((registry.manager.residents room).map Prod.snd : List PlayerId)
  targets : ∀ room excluded, registry.manager.broadcastTargets room excluded =
    (((registry.manager.residents room).filter fun resident =>
      decide (some resident.2 ≠ excluded)).map Prod.fst : List ConnectionId)
  recipients : ∀ room excluded, (registry.recipients room excluded : Multiset ConnectionId) =
    registry.manager.broadcastTargets room excluded
  once : ∀ room, ((registry.manager.residents room).map Prod.fst).Nodup

/-- Rooms that are joined have an identifier that is not empty. -/
def NamesRooms (choice : ConnectionChoice) (_ : ConnectionConfig) : Prop :=
  ∀ connection room, choice = .event (.joinRoom connection room) → room ≠ ""

namespace ConnectionManager

theorem noEmptyRoom_discardMember {members : Dict RoomId (Finset ConnectionId)}
    (nonempty : ∀ room set, members.lookup room = some set → set.Nonempty) (room : RoomId)
    (connection : ConnectionId) {other : RoomId} {set : Finset ConnectionId}
    (stored : (discardMember members room connection).lookup other = some set) : set.Nonempty := by
  unfold discardMember at stored
  split at stored
  · exact nonempty other set stored
  · split at stored
    · rw [Dict.lookup_erase] at stored
      split at stored
      · cases stored
      · exact nonempty other set stored
    · rename_i remaining
      rw [Dict.lookup_insert] at stored
      split at stored
      · cases stored
        exact Finset.nonempty_iff_ne_empty.mpr remaining
      · exact nonempty other set stored

namespace NoEmptyRoom

variable {manager : ConnectionManager}

theorem leaveRoom (nonempty : manager.NoEmptyRoom) (connection : ConnectionId) :
    (manager.leaveRoom connection).NoEmptyRoom := by
  unfold ConnectionManager.leaveRoom
  split
  · exact nonempty
  · split
    · exact nonempty
    · intro room set stored
      exact noEmptyRoom_discardMember nonempty _ connection stored

theorem joinRoom (nonempty : manager.NoEmptyRoom) (connection : ConnectionId) (room : RoomId) :
    (manager.joinRoom connection room).NoEmptyRoom := by
  unfold ConnectionManager.joinRoom
  split
  · exact nonempty
  · intro other set stored
    dsimp only at stored
    rw [Dict.lookup_insert] at stored
    split at stored
    · cases stored
      exact Finset.insert_nonempty _ _
    · split at stored
      · exact nonempty.leaveRoom connection other set stored
      · exact nonempty other set stored

theorem disconnect (nonempty : manager.NoEmptyRoom) (connection : ConnectionId) :
    (manager.disconnect connection).NoEmptyRoom := by
  unfold ConnectionManager.disconnect
  split
  · exact nonempty
  · intro other set stored
    dsimp only at stored
    split at stored
    · exact noEmptyRoom_discardMember nonempty _ connection stored
    · exact nonempty other set stored

end NoEmptyRoom

variable {manager : ConnectionManager}

theorem lookup_of_mem_entries {entry : Sigma fun _ : ConnectionId => ConnectionInfo}
    (member : entry ∈ manager.connections.entries) :
    manager.connections.lookup entry.1 = some entry.2 :=
  AList.mem_lookup_iff.mpr member

theorem mem_residents_iff (room : RoomId) (connection : ConnectionId) (player : PlayerId) :
    (connection, player) ∈ manager.residents room ↔
      ∃ info, manager.connections.lookup connection = some info ∧ info.roomId = some room ∧
        info.playerId = player := by
  simp only [residents, List.mem_map, List.mem_filter, decide_eq_true_iff, Prod.mk.injEq]
  constructor
  · rintro ⟨⟨_, info⟩, ⟨stored, joined⟩, rfl, rfl⟩
    exact ⟨info, lookup_of_mem_entries stored, joined, rfl⟩
  · rintro ⟨info, stored, joined, rfl⟩
    exact ⟨⟨connection, info⟩, ⟨AList.mem_lookup_iff.mp stored, joined⟩, rfl, rfl⟩

theorem residents_nodup (manager : ConnectionManager) (room : RoomId) :
    ((manager.residents room).map Prod.fst).Nodup := by
  have keys : (manager.connections.entries.map Sigma.fst).Nodup := manager.connections.nodupKeys
  rw [residents, List.map_map]
  exact keys.sublist (List.filter_sublist.map _)

theorem roomOf_eq_some (connection : ConnectionId) (room : RoomId) :
    manager.roomOf connection = some room ↔
      ∃ info, manager.connections.lookup connection = some info ∧ info.roomId = some room :=
  Option.bind_eq_some_iff

namespace Housed

/-- The set of a room holds the registered connections that have joined it. -/
theorem members_eq (housed : manager.Housed) (room : RoomId) :
    (manager.roomMembers.getD room ∅).val =
      ((manager.residents room).map Prod.fst : List ConnectionId) := by
  refine (Multiset.Nodup.ext (Finset.nodup _) ?_).mpr ?_
  · exact Multiset.coe_nodup.mpr (manager.residents_nodup room)
  · intro connection
    have member := housed connection room
    rw [roomOf_eq_some] at member
    rw [Finset.mem_val, Multiset.mem_coe, List.mem_map]
    refine member.trans ⟨?_, ?_⟩
    · rintro ⟨info, stored, joined⟩
      exact ⟨(connection, info.playerId),
        (mem_residents_iff room connection info.playerId).mpr ⟨info, stored, joined, rfl⟩, rfl⟩
    · rintro ⟨⟨_, player⟩, resident, rfl⟩
      obtain ⟨info, stored, joined, -⟩ := (mem_residents_iff room _ player).mp resident
      exact ⟨info, stored, joined⟩

theorem player_of_resident {room : RoomId} {resident : ConnectionId × PlayerId}
    (member : resident ∈ manager.residents room) :
    (manager.connections.lookup resident.1).map ConnectionInfo.playerId = some resident.2 := by
  obtain ⟨info, stored, -, isPlayer⟩ := (mem_residents_iff room resident.1 resident.2).mp member
  rw [stored, Option.map_some, isPlayer]

theorem getRoomMemberIds_eq (housed : manager.Housed) (room : RoomId) :
    manager.getRoomMemberIds room =
      ((manager.residents room).map Prod.snd : List PlayerId) := by
  rw [getRoomMemberIds, housed.members_eq, Multiset.filterMap_coe, List.filterMap_map]
  congr 1
  rw [← List.filterMap_eq_map]
  exact List.filterMap_congr fun resident member => player_of_resident member

theorem broadcastTargets_eq (housed : manager.Housed) (room : RoomId)
    (excluded : Option PlayerId) :
    manager.broadcastTargets room excluded =
      (((manager.residents room).filter fun resident =>
        decide (some resident.2 ≠ excluded)).map Prod.fst : List ConnectionId) := by
  rw [broadcastTargets, housed.members_eq, Multiset.filter_coe, List.filter_map]
  congr 2
  apply List.filter_congr
  intro resident member
  obtain ⟨info, stored, isPlayer⟩ := Option.map_eq_some_iff.mp (player_of_resident member)
  simp [stored, isPlayer]

end Housed

end ConnectionManager

open ConnectionManager (Housed NoEmptyRoom)

/-- The tasks of a broadcast are for the members of the set that are not left
out. -/
theorem Registry.recipients_eq {registry : Registry} (housed : registry.manager.Housed)
    (room : RoomId) (excluded : Option PlayerId) :
    (registry.recipients room excluded : Multiset ConnectionId) =
      registry.manager.broadcastTargets room excluded := by
  rw [housed.broadcastTargets_eq, recipients, ConnectionManager.residents, List.filter_map,
    List.map_map, List.filter_filter, AList.keys, List.keys, List.filter_map]
  congr 2
  apply List.filter_congr
  intro entry member
  have stored := ConnectionManager.lookup_of_mem_entries member
  have inRoom : registry.manager.Member entry.1 room ↔ entry.2.roomId = some room := by
    rw [housed, ConnectionManager.roomOf, stored]
    rfl
  simp [stored, inRoom, Bool.and_comm]

variable {choice : ConnectionChoice} {before after : ConnectionConfig}

/-- What a step does to the registry. -/
inductive RegistryStep (before : ConnectionConfig) (choice : ConnectionChoice) :
    ConnectionManager → Prop where
  | same : RegistryStep before choice before.state.manager
  | registered (player : PlayerId) (connection : ConnectionId)
      (executed : before.executed choice = some (.acceptConnection player connection)) :
      RegistryStep before choice (before.state.manager.register player connection)
  | closed (connection : ConnectionId) :
      RegistryStep before choice (before.state.manager.disconnect connection)
  | joined (connection : ConnectionId) (room : RoomId) :
      RegistryStep before choice (before.state.manager.joinRoom connection room)
  | left (connection : ConnectionId) :
      RegistryStep before choice (before.state.manager.leaveRoom connection)

theorem registryStep (step : connectionCalls.step choice before = some after) :
    RegistryStep before choice after.state.manager := by
  cases Machine.step_cases step with
  | @resumed task answer instruction rest block running current effect =>
      have effect : Registry.block instruction answer before.state = some block := effect
      cases instruction with
      | acceptConnection player connection =>
          cases answer <;> cases effect
          · exact .registered player connection (Config.executed_of_current current)
          · exact .same
      | disconnect connection =>
          cases effect
          exact .closed connection
      | joinRoom connection room =>
          cases effect
          exact .joined connection room
      | leaveRoom connection =>
          cases effect
          exact .left connection
      | _ =>
          simp only [Registry.block] at effect
          (repeat' split at effect) <;> cases effect <;> exact .same
  | failed => exact .same
  | @happened event state spawned effect =>
      have same : state.manager = before.state.manager := Registry.call_manager effect
      rw [same]
      exact .same

/-- What every call keeps up. -/
structure InStep (manager : ConnectionManager) : Prop where
  indexed : manager.Indexed
  housed : manager.Housed
  noEmptyRoom : manager.NoEmptyRoom

theorem InStep.step (inStep : InStep before.state.manager)
    (once : ∀ connection, openings connection before ≤ 1)
    (step : connectionCalls.step choice before = some after) : InStep after.state.manager := by
  obtain ⟨indexed, housed, noEmptyRoom⟩ := inStep
  have change := registryStep step
  generalize after.state.manager = manager at change
  cases change with
  | same => exact ⟨indexed, housed, noEmptyRoom⟩
  | registered player connection executed =>
      have fresh := unregistered_of_pending (once connection)
        (Config.mem_pending_of_executed executed)
      exact ⟨indexed.register player fresh, housed.register player fresh, noEmptyRoom⟩
  | closed connection =>
      exact ⟨indexed.disconnect connection, housed.disconnect connection,
        noEmptyRoom.disconnect connection⟩
  | joined connection room =>
      have same : ConnectionManager.SameConnections before.state.manager _ :=
        ⟨fun other => ConnectionManager.owner_joinRoom _ connection other room,
          ConnectionManager.joinRoom_playerConnections _ connection room⟩
      exact ⟨indexed.of_same same, housed.joinRoom connection room,
        noEmptyRoom.joinRoom connection room⟩
  | left connection =>
      have same : ConnectionManager.SameConnections before.state.manager _ :=
        ⟨fun other => ConnectionManager.owner_leaveRoom _ connection other,
          ConnectionManager.leaveRoom_playerConnections _ connection⟩
      exact ⟨indexed.of_same same, housed.leaveRoom connection, noEmptyRoom.leaveRoom connection⟩

structure CallsInStep (config : ConnectionConfig) : Prop where
  manager : InStep config.state.manager
  once : ∀ connection, openings connection config ≤ 1

theorem callsInStep_of_reaches {connectionIds : List ConnectionId}
    (reached : connectionCalls.Reaches (noConnections connectionIds) NamesRooms before) :
    CallsInStep before := by
  refine reached.invariant ⟨⟨?_, ?_, ?_⟩, ?_⟩ fun _ _ _ _ inStep step =>
    ⟨inStep.manager.step inStep.once step,
      fun connection => (openings_step step connection).trans (inStep.once connection)⟩
  · intro player connection stored
    simp [noConnections] at stored
  · intro connection room
    simp [noConnections, ConnectionManager.Member, ConnectionManager.roomOf, Dict.getD]
  · intro room members stored
    simp [noConnections] at stored
  · intro connection
    simp [openings, noConnections, ConnectionManager.owner, Bool.toNat_le]

/-- The indexes agree in every state the calls reach. -/
theorem indexesAgree_of_reaches (connectionIds : List ConnectionId) (config : ConnectionConfig)
    (reached : connectionCalls.Reaches (noConnections connectionIds) NamesRooms config) :
    IndexesAgree config.state := by
  obtain ⟨indexed, housed, noEmptyRoom⟩ := (callsInStep_of_reaches reached).manager
  exact
    { indexed := by
        intro player connection stored
        obtain ⟨info, registered, same⟩ :=
          Option.map_eq_some_iff.mp (indexed player connection stored)
        exact ⟨info, registered, (Prod.mk.inj same).1⟩
      member_iff := fun connection room =>
        (housed connection room).trans (ConnectionManager.roomOf_eq_some connection room)
      noEmptyRoom := noEmptyRoom
      memberIds := housed.getRoomMemberIds_eq
      targets := housed.broadcastTargets_eq
      recipients := Registry.recipients_eq housed
      once := ConnectionManager.residents_nodup config.state.manager }

/-- Ada connects and joins a room. -/
def adaJoins : List ConnectionChoice :=
  [.event (.connect "ada" "conn-1"), .resume 0 .done, .resume 0 .done,
    .event (.joinRoom "conn-1" "room-1"), .resume 1 .done]

theorem adaJoins_indexesAgree :
    ∃ config, connectionCalls.run adaJoins (noConnections []) = some config ∧
      config.state.manager.Member "conn-1" "room-1" ∧ IndexesAgree config.state := by
  have joined : (connectionCalls.run adaJoins (noConnections [])).any (fun config =>
      decide (config.state.manager.Member "conn-1" "room-1")) = true := by
    decide +kernel
  obtain ⟨config, executed, member⟩ := Option.any_eq_true _ _ |>.mp joined
  have named : ∀ choice ∈ adaJoins, ∀ config, NamesRooms choice config := by
    rintro choice called config connection room rfl
    simp only [adaJoins, List.mem_cons, reduceCtorEq, Choice.event.injEq,
      ConnectionCall.joinRoom.injEq, List.not_mem_nil, or_false, false_or] at called
    rw [called.2]
    decide
  exact ⟨config, executed, of_decide_eq_true member,
    indexesAgree_of_reaches [] config (Machine.reaches_of_run_guarded .start named executed)⟩

end TerritoryBackend

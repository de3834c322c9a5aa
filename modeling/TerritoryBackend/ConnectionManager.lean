import TerritoryBackend.Constants
import TerritoryBackend.Dict
import Mathlib.Data.Finset.Basic

/-!
# The connection manager

The registries of `app/core/ws_manager.py` and the synchronous operations on
them.  The socket itself, the time of the last activity and the message count
of a connection are read by nothing modelled here.
-/

namespace TerritoryBackend

structure ConnectionInfo where
  playerId : PlayerId
  connectionId : ConnectionId
  roomId : Option RoomId := none

/-- `_connections`, `_player_connections` and `_room_members` -/
structure ConnectionManager where
  connections : Dict ConnectionId ConnectionInfo := ∅
  playerConnections : Dict PlayerId ConnectionId := ∅
  roomMembers : Dict RoomId (Finset ConnectionId) := ∅

namespace ConnectionManager

/-- Discard a connection from the members of a room, and the room when it has
no member left. -/
def discardMember (members : Dict RoomId (Finset ConnectionId)) (room : RoomId)
    (connection : ConnectionId) : Dict RoomId (Finset ConnectionId) :=
  match members.lookup room with
  | none => members
  | some present =>
      if present.erase connection = ∅ then members.erase room
      else members.insert room (present.erase connection)

/-- The registered connection of a player, which `connect` closes first and
`send_personal` sends to. -/
def connectionOf (manager : ConnectionManager) (player : PlayerId) : Option ConnectionId :=
  (manager.playerConnections.lookup player).filter fun connection =>
    (manager.connections.lookup connection).isSome

/-- The registration at the end of `connect`. -/
def register (manager : ConnectionManager) (player : PlayerId) (connection : ConnectionId) :
    ConnectionManager :=
  { manager with
    connections := manager.connections.insert connection ⟨player, connection, none⟩
    playerConnections := manager.playerConnections.insert player connection }

def disconnect (manager : ConnectionManager) (connection : ConnectionId) :
    ConnectionManager :=
  match manager.connections.lookup connection with
  | none => manager
  | some info =>
      { connections := manager.connections.erase connection
        playerConnections :=
          if manager.playerConnections.lookup info.playerId = some connection then
            manager.playerConnections.erase info.playerId
          else manager.playerConnections
        roomMembers :=
          match info.roomId with
          | some room => discardMember manager.roomMembers room connection
          | none => manager.roomMembers }

def leaveRoom (manager : ConnectionManager) (connection : ConnectionId) :
    ConnectionManager :=
  match manager.connections.lookup connection with
  | none => manager
  | some info =>
      match info.roomId with
      | none => manager
      | some room =>
          { manager with
            connections := manager.connections.insert connection { info with roomId := none }
            roomMembers := discardMember manager.roomMembers room connection }

def joinRoom (manager : ConnectionManager) (connection : ConnectionId) (room : RoomId) :
    ConnectionManager :=
  match manager.connections.lookup connection with
  | none => manager
  | some info =>
      let left :=
        if info.roomId.isSome ∧ info.roomId ≠ some room then manager.leaveRoom connection
        else manager
      { left with
        connections := left.connections.insert connection { info with roomId := some room }
        roomMembers :=
          left.roomMembers.insert room (insert connection (left.roomMembers.getD room ∅)) }

def getConnectionByPlayer (manager : ConnectionManager) (player : PlayerId) :
    Option ConnectionInfo :=
  (manager.playerConnections.lookup player).bind manager.connections.lookup

/-- Join the player's connection to a room if there is one here. -/
def joinPlayer (manager : ConnectionManager) (player : PlayerId) (room : RoomId) :
    ConnectionManager :=
  match manager.getConnectionByPlayer player with
  | some info => manager.joinRoom info.connectionId room
  | none => manager

/-- Let the player's connection leave its room if there is one here. -/
def releasePlayer (manager : ConnectionManager) (player : PlayerId) : ConnectionManager :=
  match manager.getConnectionByPlayer player with
  | some info => manager.leaveRoom info.connectionId
  | none => manager

def Member (manager : ConnectionManager) (connection : ConnectionId) (room : RoomId) : Prop :=
  connection ∈ manager.roomMembers.getD room ∅

instance (manager : ConnectionManager) (connection : ConnectionId) (room : RoomId) :
    Decidable (manager.Member connection room) :=
  inferInstanceAs (Decidable (connection ∈ manager.roomMembers.getD room ∅))

/-- The room a connection has last joined. -/
def roomOf (manager : ConnectionManager) (connection : ConnectionId) : Option RoomId :=
  (manager.connections.lookup connection).bind ConnectionInfo.roomId

theorem mem_discardMember (members : Dict RoomId (Finset ConnectionId)) (room other : RoomId)
    (connection member : ConnectionId) :
    member ∈ (discardMember members room connection).getD other ∅ ↔
      member ∈ members.getD other ∅ ∧ ¬(other = room ∧ member = connection) := by
  unfold discardMember
  split
  · rename_i absent
    refine ⟨fun present => ⟨present, ?_⟩, And.left⟩
    rintro ⟨rfl, -⟩
    simp [Dict.getD, absent] at present
  · rename_i present stored
    by_cases same : other = room
    · subst same
      split
      · rename_i emptied
        have outside : member ∉ present.erase connection := by simp [emptied]
        simp only [Finset.mem_erase, not_and] at outside
        have only : member ∈ present → member = connection :=
          fun inside => by_contra fun different => outside different inside
        simpa [Dict.getD, stored] using only
      · simp [Dict.getD, stored, and_comm]
    · split <;> simp [Dict.getD, same]

theorem leaveRoom_lookup (manager : ConnectionManager) (connection other : ConnectionId) :
    (manager.leaveRoom connection).connections.lookup other =
      (manager.connections.lookup other).map fun info =>
        if other = connection then { info with roomId := none } else info := by
  unfold leaveRoom
  split
  · rename_i absent
    by_cases same : other = connection
    · subst same
      simp [absent]
    · simp [same]
  · rename_i info stored
    split
    · rename_i roomless
      by_cases same : other = connection
      · subst same
        simp [stored, ← roomless]
      · simp [same]
    · by_cases same : other = connection
      · subst same
        simp [stored]
      · simp [same]

theorem joinRoom_lookup (manager : ConnectionManager) (connection other : ConnectionId)
    (room : RoomId) :
    (manager.joinRoom connection room).connections.lookup other =
      (manager.connections.lookup other).map fun info =>
        if other = connection then { info with roomId := some room } else info := by
  unfold joinRoom
  split
  · rename_i absent
    by_cases same : other = connection
    · subst same
      simp [absent]
    · simp [same]
  · rename_i info stored
    by_cases same : other = connection
    · subst same
      simp [stored]
    · dsimp only
      split
      · simp [same, leaveRoom_lookup]
      · simp [same]

@[simp]
theorem leaveRoom_playerConnections (manager : ConnectionManager)
    (connection : ConnectionId) :
    (manager.leaveRoom connection).playerConnections = manager.playerConnections := by
  unfold leaveRoom
  split
  · rfl
  · split <;> rfl

@[simp]
theorem joinRoom_playerConnections (manager : ConnectionManager) (connection : ConnectionId)
    (room : RoomId) :
    (manager.joinRoom connection room).playerConnections = manager.playerConnections := by
  unfold joinRoom
  split
  · rfl
  · dsimp only
    split
    · exact leaveRoom_playerConnections manager connection
    · rfl

/-- Whose connection it is, and the identifier it was registered under. -/
def owner (manager : ConnectionManager) (connection : ConnectionId) :
    Option (PlayerId × ConnectionId) :=
  (manager.connections.lookup connection).map fun info => (info.playerId, info.connectionId)

@[simp]
theorem owner_leaveRoom (manager : ConnectionManager) (connection other : ConnectionId) :
    (manager.leaveRoom connection).owner other = manager.owner other := by
  unfold owner
  rw [leaveRoom_lookup, Option.map_map]
  congr 1
  funext info
  simp only [Function.comp_apply]
  split <;> rfl

@[simp]
theorem owner_joinRoom (manager : ConnectionManager) (connection other : ConnectionId)
    (room : RoomId) : (manager.joinRoom connection room).owner other = manager.owner other := by
  unfold owner
  rw [joinRoom_lookup, Option.map_map]
  congr 1
  funext info
  simp only [Function.comp_apply]
  split <;> rfl

theorem owner_register (manager : ConnectionManager) (player : PlayerId)
    (connection other : ConnectionId) :
    (manager.register player connection).owner other =
      if other = connection then some (player, connection) else manager.owner other := by
  unfold owner register
  rw [Dict.lookup_insert]
  split <;> rfl

theorem owner_disconnect (manager : ConnectionManager) (removed other : ConnectionId) :
    (manager.disconnect removed).owner other =
      if other = removed then none else manager.owner other := by
  unfold owner disconnect
  split
  · rename_i absent
    split
    · rename_i same
      subst same
      simp [absent]
    · rfl
  · rw [Dict.lookup_erase]
    split <;> rfl

structure SameConnections (before after : ConnectionManager) : Prop where
  owner : ∀ connection, after.owner connection = before.owner connection
  index : after.playerConnections = before.playerConnections

namespace SameConnections

theorem refl (manager : ConnectionManager) : SameConnections manager manager :=
  ⟨fun _ => rfl, rfl⟩

theorem trans {first second third : ConnectionManager}
    (before : SameConnections first second) (after : SameConnections second third) :
    SameConnections first third :=
  ⟨fun connection => (after.owner connection).trans (before.owner connection),
    after.index.trans before.index⟩

end SameConnections

theorem sameConnections_joinPlayer (manager : ConnectionManager) (player : PlayerId)
    (room : RoomId) : SameConnections manager (manager.joinPlayer player room) := by
  unfold joinPlayer
  split
  · constructor
    · intro other
      exact owner_joinRoom manager _ other room
    · exact joinRoom_playerConnections manager _ room
  · exact .refl manager

theorem sameConnections_releasePlayer (manager : ConnectionManager) (player : PlayerId) :
    SameConnections manager (manager.releasePlayer player) := by
  unfold releasePlayer
  split
  · exact ⟨fun other => owner_leaveRoom manager _ other, leaveRoom_playerConnections manager _⟩
  · exact .refl manager

theorem sameConnections_releaseAll (manager : ConnectionManager) (players : List PlayerId) :
    SameConnections manager (players.foldl releasePlayer manager) := by
  induction players generalizing manager with
  | nil => exact .refl manager
  | cons player players ih =>
      exact (sameConnections_releasePlayer manager player).trans (ih _)

theorem disconnect_playerConnections {manager : ConnectionManager}
    {removed connection : ConnectionId} {player : PlayerId}
    (indexed : (manager.disconnect removed).playerConnections.lookup player =
      some connection) :
    manager.playerConnections.lookup player = some connection := by
  unfold disconnect at indexed
  split at indexed
  · exact indexed
  · dsimp only at indexed
    split at indexed
    · rw [Dict.lookup_erase] at indexed
      split at indexed
      · cases indexed
      · exact indexed
    · exact indexed

/-- Every indexed connection is registered for its player. -/
def Indexed (manager : ConnectionManager) : Prop :=
  ∀ player connection, manager.playerConnections.lookup player = some connection →
    manager.owner connection = some (player, connection)

theorem Indexed.of_same {before after : ConnectionManager} (indexed : before.Indexed)
    (same : SameConnections before after) : after.Indexed := by
  intro player connection stored
  rw [same.owner]
  exact indexed player connection (same.index ▸ stored)

theorem Indexed.register {manager : ConnectionManager} (indexed : manager.Indexed)
    (player : PlayerId) {connection : ConnectionId} (fresh : manager.owner connection = none) :
    (manager.register player connection).Indexed := by
  intro other indexedAs stored
  rw [owner_register]
  by_cases isPlayer : other = player
  · subst isPlayer
    have same : connection = indexedAs := by simpa [ConnectionManager.register] using stored
    simp [same]
  · have old := indexed other indexedAs (by
      simpa [ConnectionManager.register, isPlayer] using stored)
    have different : indexedAs ≠ connection := by
      rintro rfl
      rw [fresh] at old
      cases old
    rw [if_neg different, old]

theorem Indexed.not_indexed_disconnect {manager : ConnectionManager}
    (indexed : manager.Indexed) (player : PlayerId) (connection : ConnectionId) :
    (manager.disconnect connection).playerConnections.lookup player ≠ some connection := by
  intro stored
  have before := disconnect_playerConnections stored
  obtain ⟨info, registered, same⟩ := Option.map_eq_some_iff.mp (indexed player connection before)
  cases same
  simp [disconnect, registered, before] at stored

theorem Indexed.disconnect {manager : ConnectionManager} (indexed : manager.Indexed)
    (connection : ConnectionId) : (manager.disconnect connection).Indexed := by
  intro player other stored
  have different : other ≠ connection := by
    rintro rfl
    exact indexed.not_indexed_disconnect player other stored
  rw [owner_disconnect, if_neg different]
  exact indexed player other (disconnect_playerConnections stored)

end ConnectionManager

end TerritoryBackend

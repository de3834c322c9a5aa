import TerritoryBackend.ConnectionManager

/-!
# Who is in which room

`_room_members` and the rooms of the connections say the same, and a player's
local room is that of their indexed connection.
-/

namespace TerritoryBackend

namespace ConnectionManager

/-- The members of a room are the connections that have last joined it. -/
def Housed (manager : ConnectionManager) : Prop :=
  ∀ connection room, manager.Member connection room ↔ manager.roomOf connection = some room

def localRoom (manager : ConnectionManager) (player : PlayerId) : Option RoomId :=
  (manager.getConnectionByPlayer player).bind ConnectionInfo.roomId

theorem roomOf_leaveRoom (manager : ConnectionManager) (connection other : ConnectionId) :
    (manager.leaveRoom connection).roomOf other =
      if other = connection then none else manager.roomOf other := by
  unfold roomOf
  rw [leaveRoom_lookup]
  cases manager.connections.lookup other <;> split <;> rfl

theorem roomOf_joinRoom (manager : ConnectionManager) (connection other : ConnectionId)
    (room : RoomId) :
    (manager.joinRoom connection room).roomOf other =
      if other = connection then (manager.connections.lookup connection).map fun _ => room
      else manager.roomOf other := by
  unfold roomOf
  rw [joinRoom_lookup]
  by_cases same : other = connection
  · subst same
    cases manager.connections.lookup other <;> simp
  · cases manager.connections.lookup other <;> simp [same]

theorem roomOf_register (manager : ConnectionManager) (player : PlayerId)
    (connection other : ConnectionId) :
    (manager.register player connection).roomOf other =
      if other = connection then none else manager.roomOf other := by
  unfold roomOf register
  rw [Dict.lookup_insert]
  split <;> rfl

theorem roomOf_disconnect (manager : ConnectionManager) (removed other : ConnectionId) :
    (manager.disconnect removed).roomOf other =
      if other = removed then none else manager.roomOf other := by
  unfold roomOf disconnect
  split
  · rename_i absent
    split
    · rename_i same
      subst same
      simp [absent]
    · rfl
  · rw [Dict.lookup_erase]
    split <;> rfl

theorem member_leaveRoom (manager : ConnectionManager) (connection other : ConnectionId)
    (room : RoomId) :
    (manager.leaveRoom connection).Member other room ↔
      manager.Member other room ∧
        ¬(manager.roomOf connection = some room ∧ other = connection) := by
  unfold leaveRoom roomOf Member
  split
  · rename_i absent
    simp [absent]
  · rename_i info stored
    split
    · rename_i roomless
      simp [stored, roomless]
    · rename_i left joined
      simp [mem_discardMember, stored, joined, eq_comm]

theorem member_disconnect (manager : ConnectionManager) (removed other : ConnectionId)
    (room : RoomId) :
    (manager.disconnect removed).Member other room ↔
      manager.Member other room ∧ ¬(manager.roomOf removed = some room ∧ other = removed) := by
  unfold disconnect roomOf Member
  split
  · rename_i absent
    simp [absent]
  · rename_i info stored
    dsimp only
    split
    · rename_i left joined
      simp [mem_discardMember, stored, joined, eq_comm]
    · rename_i roomless
      simp [stored, roomless]

theorem Housed.leaveRoom {manager : ConnectionManager} (housed : manager.Housed)
    (connection : ConnectionId) : (manager.leaveRoom connection).Housed := by
  intro other room
  rw [member_leaveRoom, roomOf_leaveRoom, housed]
  by_cases same : other = connection
  · subst same
    simp
  · simp [same]

theorem Housed.disconnect {manager : ConnectionManager} (housed : manager.Housed)
    (removed : ConnectionId) : (manager.disconnect removed).Housed := by
  intro other room
  rw [member_disconnect, roomOf_disconnect, housed]
  by_cases same : other = removed
  · subst same
    simp
  · simp [same]

theorem Housed.register {manager : ConnectionManager} (housed : manager.Housed)
    (player : PlayerId) {connection : ConnectionId} (fresh : manager.owner connection = none) :
    (manager.register player connection).Housed := by
  intro other room
  have member : (manager.register player connection).Member other room ↔
      manager.Member other room := Iff.rfl
  rw [member, roomOf_register, housed]
  split
  · rename_i same
    subst same
    simp [roomOf, Option.map_eq_none_iff.mp fresh]
  · rfl

theorem mem_insertMember (members : Dict RoomId (Finset ConnectionId)) (room other : RoomId)
    (connection member : ConnectionId) :
    member ∈ Dict.getD
        (members.insert room (insert connection (members.getD room ∅))) other ∅ ↔
      other = room ∧ member = connection ∨ member ∈ members.getD other ∅ := by
  rw [Dict.getD_insert]
  split
  · rename_i same
    simp [same]
  · rename_i different
    simp [different]

/-- A connection is in the room it joins and no other; others stay where they
are. -/
theorem Housed.member_joinRoom {manager : ConnectionManager} (housed : manager.Housed)
    {connection : ConnectionId} {info : ConnectionInfo}
    (stored : manager.connections.lookup connection = some info) (room : RoomId)
    (other : ConnectionId) (joined : RoomId) :
    (manager.joinRoom connection room).Member other joined ↔
      if other = connection then joined = room else manager.Member other joined := by
  have current : manager.roomOf connection = info.roomId := by simp [roomOf, stored]
  have member := housed connection joined
  rw [current] at member
  unfold ConnectionManager.joinRoom
  rw [stored]
  dsimp only
  split
  · apply (mem_insertMember _ _ _ _ _).trans
    have left := member_leaveRoom manager connection other joined
    rw [current] at left
    unfold Member at left ⊢
    rw [left]
    by_cases same : other = connection
    · subst same
      unfold Member at member
      simp [member]
    · simp [same]
  · rename_i stays
    apply (mem_insertMember _ _ _ _ _).trans
    by_cases same : other = connection
    · subst same
      unfold Member at member
      rw [member]
      have here : info.roomId = some joined → joined = room := by
        intro inRoom
        simpa [inRoom] using stays
      simpa using here
    · simp [same, Member]

theorem Housed.joinRoom {manager : ConnectionManager} (housed : manager.Housed)
    (connection : ConnectionId) (room : RoomId) : (manager.joinRoom connection room).Housed := by
  intro other joined
  cases stored : manager.connections.lookup connection with
  | none =>
      have unchanged : manager.joinRoom connection room = manager := by
        simp [ConnectionManager.joinRoom, stored]
      rw [unchanged]
      exact housed other joined
  | some info =>
      rw [housed.member_joinRoom stored, roomOf_joinRoom, stored, housed]
      split
      · simp [eq_comm]
      · rfl

theorem localRoom_eq (manager : ConnectionManager) (player : PlayerId) :
    manager.localRoom player =
      (manager.playerConnections.lookup player).bind manager.roomOf := by
  unfold localRoom getConnectionByPlayer
  rw [Option.bind_assoc]
  rfl

theorem localRoom_eq_some {manager : ConnectionManager} {player : PlayerId} {room : RoomId} :
    manager.localRoom player = some room ↔
      ∃ connection, manager.playerConnections.lookup player = some connection ∧
        manager.roomOf connection = some room := by
  rw [localRoom_eq, Option.bind_eq_some_iff]

/-- The record of a player's connection names the connection. -/
theorem Indexed.getConnectionByPlayer {manager : ConnectionManager}
    (indexed : manager.Indexed) {player : PlayerId} {info : ConnectionInfo}
    (found : manager.getConnectionByPlayer player = some info) :
    info.playerId = player ∧ manager.playerConnections.lookup player = some info.connectionId ∧
      manager.connections.lookup info.connectionId = some info := by
  obtain ⟨connection, listed, stored⟩ := Option.bind_eq_some_iff.mp found
  have owned := indexed player connection listed
  simp only [owner, stored, Option.map_some, Option.some.injEq, Prod.mk.injEq] at owned
  obtain ⟨isPlayer, rfl⟩ := owned
  exact ⟨isPlayer, listed, stored⟩

theorem Indexed.injective {manager : ConnectionManager} (indexed : manager.Indexed)
    {first second : PlayerId} {connection : ConnectionId}
    (ofFirst : manager.playerConnections.lookup first = some connection)
    (ofSecond : manager.playerConnections.lookup second = some connection) :
    first = second := by
  have same := (indexed first connection ofFirst).symm.trans (indexed second connection ofSecond)
  simpa using same

theorem Indexed.connectionOf {manager : ConnectionManager} (indexed : manager.Indexed)
    {player : PlayerId} {connection : ConnectionId}
    (listed : manager.playerConnections.lookup player = some connection) :
    manager.connectionOf player = some connection := by
  have owned := indexed player connection listed
  obtain ⟨info, stored, -⟩ := Option.map_eq_some_iff.mp owned
  simp [ConnectionManager.connectionOf, listed, stored]

theorem Indexed.roomOf_joinPlayer {manager : ConnectionManager} (indexed : manager.Indexed)
    {player : PlayerId} {connection : ConnectionId} (room : RoomId)
    (listed : manager.playerConnections.lookup player = some connection) :
    (manager.joinPlayer player room).roomOf connection = some room := by
  obtain ⟨info, stored, same⟩ := Option.map_eq_some_iff.mp (indexed player connection listed)
  cases same
  have found : manager.getConnectionByPlayer info.playerId = some info := by
    simp [ConnectionManager.getConnectionByPlayer, listed, stored]
  simp [ConnectionManager.joinPlayer, found, roomOf_joinRoom, stored]

theorem localRoom_joinPlayer {manager : ConnectionManager} (indexed : manager.Indexed)
    {player other : PlayerId} {room joined : RoomId}
    (inRoom : (manager.joinPlayer player room).localRoom other = some joined) :
    other = player ∧ joined = room ∨ manager.localRoom other = some joined := by
  unfold joinPlayer at inRoom
  split at inRoom
  · rename_i info found
    obtain ⟨-, listed, -⟩ := indexed.getConnectionByPlayer found
    obtain ⟨connection, ofOther, at_⟩ := localRoom_eq_some.mp inRoom
    rw [joinRoom_playerConnections] at ofOther
    rw [roomOf_joinRoom] at at_
    split at at_
    · rename_i same
      subst same
      obtain ⟨_, -, rfl⟩ := Option.map_eq_some_iff.mp at_
      exact .inl ⟨indexed.injective ofOther listed, rfl⟩
    · exact .inr (localRoom_eq_some.mpr ⟨connection, ofOther, at_⟩)
  · exact .inr inRoom

theorem localRoom_register {manager : ConnectionManager} {player other : PlayerId}
    {connection : ConnectionId} {room : RoomId}
    (inRoom : (manager.register player connection).localRoom other = some room) :
    manager.localRoom other = some room := by
  obtain ⟨indexedAs, ofOther, at_⟩ := localRoom_eq_some.mp inRoom
  rw [roomOf_register] at at_
  split at at_
  · cases at_
  · rename_i different
    refine localRoom_eq_some.mpr ⟨indexedAs, ?_, at_⟩
    by_cases isPlayer : other = player
    · subst isPlayer
      have same : connection = indexedAs := by
        simpa [ConnectionManager.register] using ofOther
      exact absurd same.symm different
    · simpa [ConnectionManager.register, isPlayer] using ofOther

theorem localRoom_disconnect {manager : ConnectionManager} {player : PlayerId}
    {removed : ConnectionId} {room : RoomId}
    (inRoom : (manager.disconnect removed).localRoom player = some room) :
    manager.localRoom player = some room := by
  obtain ⟨connection, listed, at_⟩ := localRoom_eq_some.mp inRoom
  rw [roomOf_disconnect] at at_
  split at at_
  · cases at_
  · exact localRoom_eq_some.mpr ⟨connection, disconnect_playerConnections listed, at_⟩

theorem localRoom_releasePlayer {manager : ConnectionManager} {player other : PlayerId}
    {room : RoomId} (inRoom : (manager.releasePlayer player).localRoom other = some room) :
    manager.localRoom other = some room := by
  unfold releasePlayer at inRoom
  split at inRoom
  · obtain ⟨connection, listed, at_⟩ := localRoom_eq_some.mp inRoom
    rw [leaveRoom_playerConnections] at listed
    rw [roomOf_leaveRoom] at at_
    split at at_
    · cases at_
    · exact localRoom_eq_some.mpr ⟨connection, listed, at_⟩
  · exact inRoom

theorem localRoom_releaseAll {manager : ConnectionManager} {players : List PlayerId}
    {other : PlayerId} {room : RoomId}
    (inRoom : (players.foldl releasePlayer manager).localRoom other = some room) :
    manager.localRoom other = some room := by
  induction players generalizing manager with
  | nil => exact inRoom
  | cons player players ih => exact localRoom_releasePlayer (ih inRoom)

/-- Letting players leave takes nobody out of a room none of them is in. -/
theorem member_releaseAll {manager : ConnectionManager} (indexed : manager.Indexed)
    {players : List PlayerId} {connection : ConnectionId} {room : RoomId}
    (elsewhere : ∀ player ∈ players, manager.localRoom player ≠ some room)
    (member : manager.Member connection room) :
    (players.foldl releasePlayer manager).Member connection room := by
  induction players generalizing manager with
  | nil => exact member
  | cons player players ih =>
      have same := sameConnections_releasePlayer manager player
      refine ih (indexed.of_same same)
        (fun other listed inRoom => elsewhere other (List.mem_cons_of_mem _ listed)
          (localRoom_releasePlayer inRoom)) ?_
      unfold releasePlayer
      split
      · rename_i info found
        obtain ⟨-, listed, -⟩ := indexed.getConnectionByPlayer found
        refine (member_leaveRoom manager _ connection room).mpr ⟨member, ?_⟩
        rintro ⟨inRoom, -⟩
        exact elsewhere player List.mem_cons_self
          (localRoom_eq_some.mpr ⟨info.connectionId, listed, inRoom⟩)
      · exact member

/-- Letting other players leave does not move a connection. -/
theorem roomOf_releaseAll {manager : ConnectionManager} (indexed : manager.Indexed)
    {players : List PlayerId} {connection : ConnectionId}
    (others : ∀ player ∈ players, manager.playerConnections.lookup player ≠ some connection) :
    (players.foldl releasePlayer manager).roomOf connection = manager.roomOf connection := by
  induction players generalizing manager with
  | nil => rfl
  | cons player players ih =>
      have same := sameConnections_releasePlayer manager player
      refine (ih (indexed.of_same same) ?_).trans ?_
      · intro other listed
        rw [same.index]
        exact others other (List.mem_cons_of_mem _ listed)
      · unfold releasePlayer
        split
        · rename_i info found
          obtain ⟨-, listed, -⟩ := indexed.getConnectionByPlayer found
          have different : connection ≠ info.connectionId := by
            rintro rfl
            exact others player List.mem_cons_self listed
          rw [roomOf_leaveRoom, if_neg different]
        · rfl

theorem Housed.joinPlayer {manager : ConnectionManager} (housed : manager.Housed)
    (player : PlayerId) (room : RoomId) : (manager.joinPlayer player room).Housed := by
  unfold ConnectionManager.joinPlayer
  split
  · exact housed.joinRoom _ room
  · exact housed

theorem Housed.releaseAll {manager : ConnectionManager} (housed : manager.Housed)
    (players : List PlayerId) : (players.foldl releasePlayer manager).Housed := by
  induction players generalizing manager with
  | nil => exact housed
  | cons player players ih =>
      apply ih
      unfold releasePlayer
      split
      · exact housed.leaveRoom _
      · exact housed

end ConnectionManager

end TerritoryBackend

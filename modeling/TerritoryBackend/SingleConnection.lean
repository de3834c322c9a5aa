import TerritoryBackend.ConnectionManager
import TerritoryBackend.EventLoop

/-!
# One connection for each player

The calls a connection manager receives, interleaved at the awaits of the
sockets.  `connect` closes the connection a player already has and registers
the new one only after it has been accepted, so a second `connect` of the
player may register a connection in between.
-/

namespace TerritoryBackend

open EventLoop

/-- A block of a call, `forceClose` and `sendToConnection` being called by
others. -/
inductive ConnectionInstr where
  | connect (player : PlayerId) (connection : ConnectionId)
  | acceptConnection (player : PlayerId) (connection : ConnectionId)
  | disconnect (connection : ConnectionId)
  | forceClose (connection : ConnectionId)
  | awaitClose (connection : ConnectionId)
  | joinRoom (connection : ConnectionId) (room : RoomId)
  | leaveRoom (connection : ConnectionId)
  | sendPersonal (player : PlayerId)
  | broadcastToRoom (room : RoomId) (excluded : Option PlayerId)
  | sendToConnection (connection : ConnectionId)
  | awaitSend (connection : ConnectionId)
  | closeAll

/-- What a socket answers. -/
inductive SocketAnswer where
  | done
  | timedOut
  /-- the operation raises -/
  | raised
  /-- the client state is `CONNECTED`, or it is not -/
  | clientState (connected : Bool)
  deriving DecidableEq

/-- A call of a public method.  Identifiers of connections are new. -/
inductive ConnectionCall where
  | connect (player : PlayerId) (connection : ConnectionId)
  | disconnect (connection : ConnectionId)
  | joinRoom (connection : ConnectionId) (room : RoomId)
  | leaveRoom (connection : ConnectionId)
  | sendPersonal (player : PlayerId)
  | broadcastToRoom (room : RoomId) (excluded : Option PlayerId)
  | closeAll

/-- The registries and the identifiers drawn so far. -/
structure Registry where
  manager : ConnectionManager := {}
  connectionIds : List ConnectionId := []

namespace Registry

def goOn (registry : Registry) (next : List ConnectionInstr := []) :
    Block Registry ConnectionInstr :=
  { state := registry, next := next }

def update (registry : Registry) (change : ConnectionManager → ConnectionManager) : Registry :=
  { registry with manager := change registry.manager }

/-- The connections a broadcast sends to, each by a task of its own. -/
def recipients (registry : Registry) (room : RoomId) (excluded : Option PlayerId) :
    List ConnectionId :=
  registry.manager.connections.keys.filter fun connection =>
    decide (registry.manager.Member connection room) &&
      (registry.manager.connections.lookup connection).any fun info =>
        decide (some info.playerId ≠ excluded)

def block (instruction : ConnectionInstr) (answer : SocketAnswer) (registry : Registry) :
    Option (Block Registry ConnectionInstr) :=
  match instruction with
  | .connect player connection =>
      match registry.manager.connectionOf player with
      | some existing =>
          some (registry.goOn [.forceClose existing, .acceptConnection player connection])
      | none => some (registry.goOn [.acceptConnection player connection])
  | .acceptConnection player connection =>
      match answer with
      | .done => some ((registry.update fun manager => manager.register player connection).goOn)
      | .raised => some { state := registry, raises := true }
      | _ => none
  | .disconnect connection =>
      some ((registry.update fun manager => manager.disconnect connection).goOn)
  | .forceClose connection =>
      match registry.manager.connections.lookup connection, answer with
      | some _, .clientState true => some (registry.goOn [.awaitClose connection])
      | some _, .clientState false => some (registry.goOn [.disconnect connection])
      | some _, _ => none
      | none, _ => some registry.goOn
  | .awaitClose connection =>
      -- the exceptions of `close` are ignored
      match answer with
      | .done | .raised => some (registry.goOn [.disconnect connection])
      | _ => none
  | .joinRoom connection room =>
      some ((registry.update fun manager => manager.joinRoom connection room).goOn)
  | .leaveRoom connection =>
      some ((registry.update fun manager => manager.leaveRoom connection).goOn)
  | .sendPersonal player =>
      match registry.manager.playerConnections.lookup player with
      | some connection => some (registry.goOn [.sendToConnection connection])
      | none => some registry.goOn
  | .broadcastToRoom room excluded =>
      some
        { state := registry
          spawned := (registry.recipients room excluded).map fun connection =>
            [.sendToConnection connection] }
  | .sendToConnection connection =>
      match registry.manager.connections.lookup connection with
      | some _ => some (registry.goOn [.awaitSend connection])
      | none => some registry.goOn
  | .awaitSend connection =>
      match answer with
      | .done => some registry.goOn
      | .timedOut => some (registry.goOn [.forceClose connection])
      | .raised => some (registry.goOn [.disconnect connection])
      | _ => none
  | .closeAll => some (registry.goOn (registry.manager.connections.keys.map .forceClose))

def call (request : ConnectionCall) (registry : Registry) :
    Option (Registry × List (List ConnectionInstr)) :=
  match request with
  | .connect player connection =>
      if connection ∈ registry.connectionIds then none
      else
        some ({ registry with connectionIds := connection :: registry.connectionIds },
          [[.connect player connection]])
  | .disconnect connection => some (registry, [[.disconnect connection]])
  | .joinRoom connection room => some (registry, [[.joinRoom connection room]])
  | .leaveRoom connection => some (registry, [[.leaveRoom connection]])
  | .sendPersonal player => some (registry, [[.sendPersonal player]])
  | .broadcastToRoom room excluded => some (registry, [[.broadcastToRoom room excluded]])
  | .closeAll => some (registry, [[.closeAll]])

end Registry

def ConnectionInstr.kind : ConnectionInstr → Kind
  | .acceptConnection .. | .awaitClose .. | .awaitSend .. => .resumption
  | _ => .local

def connectionCalls : Machine Registry ConnectionInstr SocketAnswer ConnectionCall where
  block := Registry.block
  kind := ConnectionInstr.kind
  fallible _ _ := false
  unwind _ := []
  event := Registry.call

abbrev ConnectionConfig := Config Registry ConnectionInstr

abbrev ConnectionChoice := Choice SocketAnswer ConnectionCall

/-- A new connection manager, some identifiers having been drawn elsewhere. -/
def noConnections (connectionIds : List ConnectionId) : ConnectionConfig where
  state := { connectionIds := connectionIds }
  tasks := []

/-- No two registered connections belong to one player. -/
def OnePerPlayer (manager : ConnectionManager) : Prop :=
  ∀ first second firstInfo secondInfo,
    manager.connections.lookup first = some firstInfo →
    manager.connections.lookup second = some secondInfo →
    firstInfo.playerId = secondInfo.playerId → first = second

theorem OnePerPlayer.eq_of_owner {manager : ConnectionManager} (single : OnePerPlayer manager)
    {first second : ConnectionId} {owner other : PlayerId × ConnectionId}
    (ownedFirst : manager.owner first = some owner)
    (ownedSecond : manager.owner second = some other) (same : owner.1 = other.1) :
    first = second := by
  obtain ⟨firstInfo, storedFirst, rfl⟩ := Option.map_eq_some_iff.mp ownedFirst
  obtain ⟨secondInfo, storedSecond, rfl⟩ := Option.map_eq_some_iff.mp ownedSecond
  exact single _ _ _ _ storedFirst storedSecond same

def OneConnectionEach (connectionIds : List ConnectionId)
    (guard : ConnectionChoice → ConnectionConfig → Prop) : Prop :=
  ∀ config, connectionCalls.Reaches (noConnections connectionIds) guard config →
    OnePerPlayer config.state.manager

/-- A connection is accepted while the index leads to no registered connection
of its player. -/
def AcceptsUnregistered (choice : ConnectionChoice) (config : ConnectionConfig) : Prop :=
  ∀ task player connection, choice = .resume task .done →
    config.executed choice = some (.acceptConnection player connection) →
    config.state.manager.connectionOf player = none

/-- How a block changes the registries. -/
inductive RegistryChange (registry : Registry) : ConnectionInstr → SocketAnswer → Registry → Prop
    where
  | kept (instruction : ConnectionInstr) (answer : SocketAnswer) {after : Registry}
      (same : ConnectionManager.SameConnections registry.manager after.manager)
      (drawn : after.connectionIds = registry.connectionIds) :
      RegistryChange registry instruction answer after
  | registered (player : PlayerId) (connection : ConnectionId) :
      RegistryChange registry (.acceptConnection player connection) .done
        (registry.update fun manager => manager.register player connection)
  | closed (connection : ConnectionId) (answer : SocketAnswer) :
      RegistryChange registry (.disconnect connection) answer
        (registry.update fun manager => manager.disconnect connection)

variable {registry : Registry} {instruction : ConnectionInstr} {answer : SocketAnswer}
  {block : Block Registry ConnectionInstr} {choice : ConnectionChoice}
  {before after : ConnectionConfig}

theorem registryChange_of_block
    (effect : Registry.block instruction answer registry = some block) :
    RegistryChange registry instruction answer block.state := by
  cases instruction with
  | acceptConnection player connection =>
      cases answer <;> cases effect
      · exact .registered player connection
      · exact .kept _ _ (.refl _) rfl
  | disconnect connection =>
      cases effect
      exact .closed connection answer
  | joinRoom connection room =>
      cases effect
      exact .kept _ _ ⟨fun other => ConnectionManager.owner_joinRoom _ connection other room,
        ConnectionManager.joinRoom_playerConnections _ connection room⟩ rfl
  | leaveRoom connection =>
      cases effect
      exact .kept _ _ ⟨fun other => ConnectionManager.owner_leaveRoom _ connection other,
        ConnectionManager.leaveRoom_playerConnections _ connection⟩ rfl
  | _ =>
      simp only [Registry.block] at effect
      (repeat' split at effect) <;> cases effect <;> exact .kept _ _ (.refl _) rfl

theorem RegistryChange.connectionIds {after : Registry}
    (change : RegistryChange registry instruction answer after) :
    after.connectionIds = registry.connectionIds := by
  cases change with
  | kept _ _ same drawn => exact drawn
  | registered | closed => rfl

/-- The weight of a connection about to be registered. -/
def ConnectionInstr.opens (connection : ConnectionId) : ConnectionInstr → Nat
  | .connect _ opened | .acceptConnection _ opened => if opened = connection then 1 else 0
  | _ => 0

/-- Where a connection is, its identifier being still to be drawn included. -/
def openings (connection : ConnectionId) (config : ConnectionConfig) : Nat :=
  weigh (ConnectionInstr.opens connection) config.tasks +
    (config.state.manager.owner connection).isSome.toNat +
      (decide (connection ∉ config.state.connectionIds)).toNat

theorem carried_opens (effect : Registry.block instruction answer registry = some block)
    (connection : ConnectionId) :
    block.carried (ConnectionInstr.opens connection) instruction +
        (block.state.manager.owner connection).isSome.toNat ≤
      instruction.opens connection + (registry.manager.owner connection).isSome.toNat := by
  cases instruction with
  | connect player opened =>
      simp only [Registry.block] at effect
      split at effect <;> cases effect <;>
        simp [Block.carried, Registry.goOn, ConnectionInstr.opens]
  | acceptConnection player opened =>
      cases answer <;> cases effect
      · simp only [Block.carried, Registry.goOn, Registry.update,
          ConnectionManager.owner_register, ConnectionInstr.opens]
        by_cases same : connection = opened
        · simp [same]
        · simp [same]
      · simp [Block.carried]
  | disconnect closed =>
      cases effect
      by_cases same : connection = closed <;>
        simp [Block.carried, Registry.goOn, Registry.update, ConnectionManager.owner_disconnect,
          same]
  | joinRoom | leaveRoom =>
      cases effect
      simp [Block.carried, Registry.goOn, Registry.update]
  | _ =>
      simp only [Registry.block] at effect
      (repeat' split at effect) <;> cases effect <;>
        simp [Block.carried, Registry.goOn, ConnectionInstr.opens, weigh, Function.comp_def]

theorem openings_step (step : connectionCalls.step choice before = some after)
    (connection : ConnectionId) : openings connection after ≤ openings connection before := by
  have unwinds : connectionCalls.UnwindsWithin (ConnectionInstr.opens connection) :=
    fun _ => Nat.zero_le _
  unfold openings
  cases Machine.weighed_step step with
  | @executed _ instruction answer block executed effect state weighed =>
      have effect : Registry.block instruction answer before.state = some block := effect
      have weighed := weighed unwinds
      have carried := carried_opens effect connection
      have drawn := (registryChange_of_block effect).connectionIds
      rw [state, drawn]
      omega
  | failed task state weighed =>
      have weighed := weighed unwinds
      rw [state]
      omega
  | @happened event spawned effect weighed =>
      have weighed := weighed (ConnectionInstr.opens connection)
      have effect : Registry.call event before.state = some (after.state, spawned) := effect
      cases event with
      | connect player opened =>
          simp only [Registry.call] at effect
          split at effect
          · cases effect
          · rename_i fresh
            rw [Option.some.injEq, Prod.mk.injEq] at effect
            obtain ⟨state, rfl⟩ := effect
            rw [← state]
            by_cases same : opened = connection
            · subst same
              simp [ConnectionInstr.opens, fresh] at weighed ⊢
              omega
            · simp [ConnectionInstr.opens, same, Ne.symm same] at weighed ⊢
              omega
      | _ =>
          simp only [Registry.call, Option.some.injEq, Prod.mk.injEq] at effect
          obtain ⟨state, rfl⟩ := effect
          simp [ConnectionInstr.opens] at weighed
          rw [← state]
          omega

/-- A connection about to be registered is not registered yet. -/
theorem unregistered_of_pending {player : PlayerId} {connection : ConnectionId}
    (once : openings connection before ≤ 1)
    (pending : .acceptConnection player connection ∈ before.pending) :
    before.state.manager.owner connection = none := by
  have weight := weight_le_weigh (ConnectionInstr.opens connection) pending
  simp only [ConnectionInstr.opens, if_true] at weight
  unfold openings at once
  by_contra registered
  rw [Option.isSome_iff_ne_none.mpr registered] at once
  simp only [Bool.toNat_true] at once
  omega

/-- A registered connection is the one its player is indexed with. -/
def ReachedByIndex (manager : ConnectionManager) : Prop :=
  ∀ connection player registeredAs, manager.owner connection = some (player, registeredAs) →
    manager.playerConnections.lookup player = some connection

namespace ReachedByIndex

variable {manager : ConnectionManager}

theorem onePerPlayer (reached : ReachedByIndex manager) : OnePerPlayer manager := by
  intro first second firstInfo secondInfo storedFirst storedSecond same
  have indexedFirst := reached first firstInfo.playerId firstInfo.connectionId
    (by simp [ConnectionManager.owner, storedFirst])
  have indexedSecond := reached second secondInfo.playerId secondInfo.connectionId
    (by simp [ConnectionManager.owner, storedSecond])
  rw [same] at indexedFirst
  exact Option.some.inj (indexedFirst.symm.trans indexedSecond)

theorem of_same (reached : ReachedByIndex manager) {changed : ConnectionManager}
    (same : ConnectionManager.SameConnections manager changed) : ReachedByIndex changed := by
  intro connection player registeredAs owned
  rw [same.index]
  exact reached connection player registeredAs (same.owner connection ▸ owned)

theorem register (reached : ReachedByIndex manager) {player : PlayerId}
    (none : manager.connectionOf player = none) (connection : ConnectionId) :
    ReachedByIndex (manager.register player connection) := by
  intro other owner registeredAs owned
  rw [ConnectionManager.owner_register] at owned
  split at owned
  · rename_i same
    cases owned
    simp [ConnectionManager.register, same]
  · have indexed := reached other owner registeredAs owned
    have different : owner ≠ player := by
      rintro rfl
      obtain ⟨info, stored, -⟩ := Option.map_eq_some_iff.mp owned
      simp [ConnectionManager.connectionOf, indexed, stored] at none
    simp [ConnectionManager.register, different, indexed]

theorem disconnect (reached : ReachedByIndex manager) (closed : ConnectionId) :
    ReachedByIndex (manager.disconnect closed) := by
  intro connection player registeredAs owned
  rw [ConnectionManager.owner_disconnect] at owned
  split at owned
  · cases owned
  · rename_i different
    have indexed := reached connection player registeredAs owned
    unfold ConnectionManager.disconnect
    split
    · exact indexed
    · dsimp only
      split
      · rename_i info stored wasIndexed
        have other : player ≠ info.playerId := by
          rintro rfl
          exact different (Option.some.inj (indexed.symm.trans wasIndexed))
        rw [Dict.lookup_erase, if_neg other, indexed]
      · exact indexed

end ReachedByIndex

/-- What holds while every accepted connection is the only one of its player. -/
structure Separate (config : ConnectionConfig) : Prop where
  reached : ReachedByIndex config.state.manager
  indexed : config.state.manager.Indexed
  once : ∀ connection, openings connection config ≤ 1

theorem Registry.call_manager {request : ConnectionCall} {called : Registry}
    {spawned : List (List ConnectionInstr)}
    (effect : Registry.call request registry = some (called, spawned)) :
    called.manager = registry.manager := by
  cases request with
  | connect player connection =>
      simp only [Registry.call] at effect
      split at effect <;> cases effect
      rfl
  | _ =>
      cases effect
      rfl

/-- How a step changes the manager. -/
theorem manager_step (step : connectionCalls.step choice before = some after) :
    ConnectionManager.SameConnections before.state.manager after.state.manager ∨
      (∃ task player connection, choice = .resume task .done ∧
        before.executed choice = some (.acceptConnection player connection) ∧
        after.state.manager = before.state.manager.register player connection) ∨
      ∃ connection, after.state.manager = before.state.manager.disconnect connection := by
  cases Machine.step_cases step with
  | @resumed task answer instruction rest block running current effect =>
      have effect : Registry.block instruction answer before.state = some block := effect
      have change := registryChange_of_block effect
      generalize block.state = next at change
      cases change with
      | kept _ _ same => exact .inl same
      | registered player connection =>
          exact .inr (.inl ⟨task, player, connection, rfl, Config.executed_of_current current, rfl⟩)
      | closed connection => exact .inr (.inr ⟨connection, rfl⟩)
  | failed current fallible => exact .inl (.refl _)
  | @happened event state spawned effect =>
      have same : state.manager = before.state.manager := Registry.call_manager effect
      rw [same]
      exact .inl (.refl _)

theorem Separate.fresh (separate : Separate before) {player : PlayerId}
    {connection : ConnectionId}
    (executed : before.executed choice = some (.acceptConnection player connection)) :
    before.state.manager.owner connection = none :=
  unregistered_of_pending (separate.once connection) (Config.mem_pending_of_executed executed)

theorem Separate.step (separate : Separate before) (allowed : AcceptsUnregistered choice before)
    (step : connectionCalls.step choice before = some after) : Separate after := by
  obtain ⟨reached, indexed, once⟩ := separate
  have openings connection := (openings_step step connection).trans (once connection)
  rcases manager_step step with
    same | ⟨task, player, connection, isDone, executed, registered⟩ | ⟨connection, closed⟩
  · exact ⟨reached.of_same same, indexed.of_same same, openings⟩
  · have none := allowed task player connection isDone executed
    have fresh := Separate.fresh ⟨reached, indexed, once⟩ executed
    refine ⟨?_, ?_, openings⟩ <;> rw [registered]
    · exact reached.register none connection
    · exact indexed.register player fresh
  · refine ⟨?_, ?_, openings⟩ <;> rw [closed]
    · exact reached.disconnect connection
    · exact indexed.disconnect connection

theorem separate_of_reaches {connectionIds : List ConnectionId}
    (reached : connectionCalls.Reaches (noConnections connectionIds) AcceptsUnregistered before) :
    Separate before := by
  refine reached.invariant ⟨?_, ?_, ?_⟩ fun _ _ _ allowed separate step =>
    separate.step allowed step
  · intro connection player registeredAs owned
    simp [noConnections, ConnectionManager.owner] at owned
  · intro player connection stored
    simp [noConnections] at stored
  · intro connection
    simp [openings, noConnections, ConnectionManager.owner, Bool.toNat_le]

/-- A connection accepted while its player has another one stands beside it. -/
theorem not_onePerPlayer_of_accepted (separate : Separate before)
    (step : connectionCalls.step choice before = some after)
    (violated : ¬ AcceptsUnregistered choice before) : ¬ OnePerPlayer after.state.manager := by
  unfold AcceptsUnregistered at violated
  push Not at violated
  obtain ⟨task, player, connection, rfl, executed, present⟩ := violated
  have fresh := separate.fresh executed
  have accepted : after.state.manager = before.state.manager.register player connection := by
    cases Machine.step_cases step with
    | resumed current effect =>
        cases Config.eq_of_executed current executed
        cases effect
        rfl
  obtain ⟨existing, reachable⟩ := Option.ne_none_iff_exists'.mp present
  have owned := separate.indexed player existing (Option.filter_eq_some_iff.mp reachable).1
  have different : existing ≠ connection := by
    rintro rfl
    rw [fresh] at owned
    cases owned
  intro single
  rw [accepted] at single
  have ownedExisting : (before.state.manager.register player connection).owner existing =
      some (player, existing) := by
    rw [ConnectionManager.owner_register, if_neg different, owned]
  have ownedNew : (before.state.manager.register player connection).owner connection =
      some (player, connection) := by
    rw [ConnectionManager.owner_register, if_pos rfl]
  exact different (single.eq_of_owner ownedExisting ownedNew rfl)

/-- Main result: calls keep one connection for each player as long as no
connection is accepted while another one of its player is registered, and the
first such connection breaks the rule. -/
theorem oneConnectionEach_of_acceptsUnregistered (connectionIds : List ConnectionId) :
    OneConnectionEach connectionIds AcceptsUnregistered ∧
      ∀ before choice after,
        connectionCalls.Reaches (noConnections connectionIds) AcceptsUnregistered before →
        connectionCalls.step choice before = some after →
        ¬ AcceptsUnregistered choice before → ¬ OnePerPlayer after.state.manager :=
  ⟨fun _ reached => (separate_of_reaches reached).reached.onePerPlayer,
    fun _ _ _ reached step violated =>
      not_onePerPlayer_of_accepted (separate_of_reaches reached) step violated⟩

/-- Two connections of one player are opened at the same time. -/
def twoTabs : List ConnectionChoice :=
  [.event (.connect "ada" "conn-1"), .event (.connect "ada" "conn-2"), .resume 0 .done,
    .resume 1 .done, .resume 0 .done, .resume 1 .done]

theorem twoTabs_not_single : ¬ OneConnectionEach [] unguarded := by
  intro single
  have both : (connectionCalls.run twoTabs (noConnections [])).any (fun config =>
      decide (config.state.manager.owner "conn-1" = some ("ada", "conn-1") ∧
        config.state.manager.owner "conn-2" = some ("ada", "conn-2"))) = true := by
    decide +kernel
  obtain ⟨config, executed, owned⟩ := Option.any_eq_true _ _ |>.mp both
  obtain ⟨first, second⟩ := of_decide_eq_true owned
  have same := (single config (Machine.reaches_of_run .start executed)).eq_of_owner first second rfl
  exact absurd same (by decide)

end TerritoryBackend

import TerritoryBackend.RoomMembers
import TerritoryBackend.ServerSteps

/-!
# The life of a connection

A connection is opened once, by the coroutine that handles it: while it is
being opened it is not registered and no other part of its handler is pending.
-/

namespace TerritoryBackend

open EventLoop

inductive ConnectionChange (world : World) : Instr → World → Prop where
  | kept (instruction : Instr) {after : World}
      (same : ConnectionManager.SameConnections world.connections after.connections) :
      ConnectionChange world instruction after
  | registered (player : PlayerId) (connection : ConnectionId) {after : World}
      (connections : after.connections = world.connections.register player connection) :
      ConnectionChange world (.acceptConnection player connection) after
  | closed (instruction : Instr) (connection : ConnectionId) {after : World}
      (connections : after.connections = world.connections.disconnect connection) :
      ConnectionChange world instruction after

variable {settings : Settings} {choice : ServerChoice} {before after : ServerConfig}

theorem connectionChange_of_writes {world after : World} {instruction : Instr}
    (writes : instruction.Writes settings world after) :
    ConnectionChange world instruction after := by
  cases writes with
  | register player connection => exact .registered player connection rfl
  | disconnect _ connection => exact .closed _ connection rfl
  | join player room =>
      exact .kept _ (ConnectionManager.sameConnections_joinPlayer world.connections player room)
  | cleanUp found =>
      exact .kept _ (ConnectionManager.sameConnections_releaseAll world.connections _)
  | @resume room player engine game resumed =>
      exact .kept _ (ConnectionManager.sameConnections_joinPlayer world.connections player room)
  | _ => exact .kept _ (.refl _)

theorem Instr.Writes.connectionIds {world after : World} {instruction : Instr}
    (writes : instruction.Writes settings world after) :
    after.connectionIds = world.connectionIds := by
  cases writes <;> rfl

namespace Instr

/-- The weight of the pending opening of a connection. -/
def opens (connection : ConnectionId) : Instr → Nat
  | .connect _ opened | .acceptConnection _ opened => if opened = connection then 1 else 0
  | _ => 0

/-- The weight of the rest of a connection's handler. -/
def handles (connection : ConnectionId) : Instr → Nat
  | .getSession _ handled | .attemptReconnectRead _ handled
  | .attemptReconnectWrite _ handled _ | .createSession _ handled | .acknowledge _ handled
  | .receive _ handled | .handleDisconnect _ handled | .dequeuePlayer _ (some handled)
  | .markDisconnectedRead _ handled | .markDisconnectedWrite _ handled _
  | .handlePlayerDisconnect _ _ (some handled)
  | .createDisconnectTimer _ _ (some handled) => if handled = connection then 1 else 0
  | _ => 0

theorem opens_quiet {instruction : Instr} (isQuiet : instruction.quiet = true)
    (connection : ConnectionId) : instruction.opens connection = 0 := by
  cases instruction with
  | connect | acceptConnection => cases isQuiet
  | _ => rfl

theorem handles_quiet {instruction : Instr} (isQuiet : instruction.quiet = true)
    (connection : ConnectionId) : instruction.handles connection = 0 := by
  cases instruction with
  | getSession | attemptReconnectRead | attemptReconnectWrite | createSession | acknowledge
  | receive | handleDisconnect | markDisconnectedRead | markDisconnectedWrite
  | handlePlayerDisconnect | createDisconnectTimer => cases isQuiet
  | dequeuePlayer player caller =>
      cases caller with
      | none => rfl
      | some handled => cases isQuiet
  | _ => rfl

theorem handler_of_yields {instruction next : Instr} (yields : instruction.Yields next)
    {connection : ConnectionId} (notOpening : instruction.opens connection = 0)
    (notHandling : instruction.handles connection = 0) :
    next.opens connection = 0 ∧ next.handles connection = 0 := by
  cases yields with
  | quiet _ isQuiet => exact ⟨opens_quiet isQuiet connection, handles_quiet isQuiet connection⟩
  | connect => exact ⟨notOpening, rfl⟩
  | accepted => exact ⟨rfl, notOpening⟩
  | restoring | creating | claiming | unclaimed | claimed | created | acknowledged | received
  | dequeueing | marking | marked | leaving => exact ⟨rfl, notHandling⟩
  | @timing room player caller => exact ⟨rfl, by cases caller <;> exact notHandling⟩
  | _ => exact ⟨rfl, rfl⟩

theorem opens_of_yields {instruction next : Instr} (yields : instruction.Yields next)
    (notConnect : ∀ player connection, instruction ≠ .connect player connection)
    (connection : ConnectionId) : next.opens connection = 0 := by
  cases yields with
  | quiet _ isQuiet => exact opens_quiet isQuiet connection
  | connect => exact absurd rfl (notConnect _ _)
  | _ => rfl

end Instr

theorem unwindsWithin_opens (connection : ConnectionId) :
    (server settings).UnwindsWithin (Instr.opens connection) :=
  Instr.unwindsWithin (fun _ => rfl) fun _ _ => le_rfl

theorem unwindsWithin_handles (connection : ConnectionId) :
    (server settings).UnwindsWithin (Instr.handles connection) :=
  Instr.unwindsWithin (fun _ => rfl) fun _ _ => le_rfl

theorem ConnectionChange.unregistered {world after : World} {instruction : Instr}
    (change : ConnectionChange world instruction after) {connection : ConnectionId}
    (notOpening : instruction.opens connection = 0)
    (unregistered : world.connections.owner connection = none) :
    after.connections.owner connection = none := by
  cases change with
  | kept _ same => rw [same.owner, unregistered]
  | registered player opened connections =>
      have other : connection ≠ opened := by
        rintro rfl
        simp [Instr.opens] at notOpening
      rw [connections, ConnectionManager.owner_register, if_neg other, unregistered]
  | closed _ closed connections =>
      rw [connections, ConnectionManager.owner_disconnect]
      split
      · rfl
      · exact unregistered

section Opening

variable {instruction : Instr} {answer : Answer} {world : World} {block : Block World Instr}
  {connection : ConnectionId}

theorem carried_opens_le (connection : ConnectionId)
    (effect : instruction.block settings answer world = some block) :
    block.carried (Instr.opens connection) instruction ≤ instruction.opens connection := by
  by_cases isConnect : ∃ player opened, instruction = .connect player opened
  · obtain ⟨player, opened, rfl⟩ := isConnect
    cases effect
    unfold World.connect
    split <;> simp [Instr.opens]
  · push Not at isConnect
    exact Block.carried_le fun next member =>
      Instr.opens_of_yields (Instr.block_yields effect member) isConnect connection

/-- Unless a block registers the connection, it leaves a connection that is
neither handled nor registered so. -/
theorem opened_or_unregistered
    (effect : instruction.block settings answer world = some block)
    (notHandling : instruction.handles connection = 0)
    (unregistered : world.connections.owner connection = none) :
    (instruction.opens connection = 1 ∧
        block.carried (Instr.opens connection) instruction = 0) ∨
      (block.carried (Instr.handles connection) instruction = 0 ∧
        block.state.connections.owner connection = none) := by
  have lost (weightless : ∀ next, next ∈ block.next ∨ next ∈ block.spawned.flatten →
      next.handles connection = 0) :
      block.carried (Instr.handles connection) instruction = 0 :=
    Nat.eq_zero_of_le_zero ((Block.carried_le weightless).trans_eq notHandling)
  by_cases notOpening : instruction.opens connection = 0
  · exact .inr
      ⟨lost fun next member =>
        (Instr.handler_of_yields (Instr.block_yields effect member) notOpening notHandling).2,
        (connectionChange_of_writes (Instr.block_writes effect)).unregistered notOpening
          unregistered⟩
  · cases instruction with
    | connect player opened =>
        right
        refine ⟨lost ?_, ?_⟩
        · intro next member
          cases Instr.block_yields effect member with
          | quiet _ isQuiet => exact Instr.handles_quiet isQuiet connection
          | connect => rfl
        · cases effect
          unfold World.connect
          split <;> exact unregistered
    | acceptConnection player opened =>
        have same : opened = connection := by simpa [Instr.opens] using notOpening
        subst same
        simp only [Instr.block, World.acceptConnection] at effect
        split at effect <;> cases effect
        · exact .inl ⟨by simp [Instr.opens], by simp [Instr.opens]⟩
        · exact .inr ⟨by simp [Block.carried, World.raise, Instr.handles], unregistered⟩
    | _ => exact absurd rfl notOpening

end Opening

/-- The stages of a connection: not drawn yet, being opened, opened. -/
structure Staged (connection : ConnectionId) (config : ServerConfig) : Prop where
  once : weigh (Instr.opens connection) config.tasks ≤ 1
  undrawn : connection ∉ config.state.connectionIds →
    weigh (Instr.opens connection) config.tasks = 0
  unopened : connection ∉ config.state.connectionIds ∨
      0 < weigh (Instr.opens connection) config.tasks →
    weigh (Instr.handles connection) config.tasks = 0 ∧
      config.state.connections.owner connection = none

theorem connectionIds_of_executed (step : (server settings).step choice before = some after)
    {instruction : Instr} (executed : before.executed choice = some instruction) :
    after.state.connectionIds = before.state.connectionIds := by
  obtain ⟨answer, block, effect, state⟩ := Machine.block_of_executed step executed
  rw [state]
  exact (Instr.block_writes effect).connectionIds

theorem ServerEvent.draws {event : ServerEvent} {world after : World}
    {spawned : List (List Instr)} (effect : event.effect world = some (after, spawned))
    (connection : ConnectionId) :
    (connection ∉ world.connectionIds ∧ connection ∈ after.connectionIds ∧
        weigh (Instr.opens connection) spawned = 1) ∨
      ((connection ∈ after.connectionIds ↔ connection ∈ world.connectionIds) ∧
        weigh (Instr.opens connection) spawned = 0) := by
  cases ServerEvent.happens effect with
  | @accept player opened fresh =>
      by_cases same : opened = connection
      · subst same
        exact .inl ⟨fresh, List.mem_cons_self, by simp [Instr.opens]⟩
      · right
        refine ⟨?_, by simp [Instr.opens, same]⟩
        simp [Ne.symm same]
  | _ => exact .inr ⟨Iff.rfl, rfl⟩

theorem staged_step {connection : ConnectionId} (staged : Staged connection before)
    (step : (server settings).step choice before = some after) : Staged connection after := by
  cases Machine.weighed_step step with
  | @executed _ instruction answer block executed effect state weighed =>
      have effect : instruction.block settings answer before.state = some block := effect
      have opens := weighed (unwindsWithin_opens connection)
      have handles := weighed (unwindsWithin_handles connection)
      have carried := carried_opens_le connection effect
      have drawn := connectionIds_of_executed step executed
      constructor
      · exact by have := staged.once; omega
      · intro new
        have := staged.undrawn (drawn ▸ new)
        omega
      · intro unopened
        have ⟨unhandled, unregistered⟩ := staged.unopened
          (unopened.imp (fun new => drawn ▸ new) fun opening => by omega)
        have bounded := weight_le_weigh (Instr.handles connection)
          (Config.mem_pending_of_executed executed)
        have notHandling : instruction.handles connection = 0 := by omega
        rcases opened_or_unregistered effect notHandling unregistered with
          ⟨opened, spent⟩ | ⟨unhandledStill, unregisteredStill⟩
        · have := staged.once
          rcases unopened with new | opening
          · have := staged.undrawn (drawn ▸ new)
            omega
          · omega
        · exact ⟨by omega, state ▸ unregisteredStill⟩
  | failed task state weighed =>
      have opens := weighed (unwindsWithin_opens connection)
      have handles := weighed (unwindsWithin_handles connection)
      constructor
      · exact opens.trans staged.once
      · intro new
        have := staged.undrawn (state ▸ new)
        omega
      · intro unopened
        have ⟨unhandled, unregistered⟩ := staged.unopened
          (unopened.imp (fun new => state ▸ new) fun opening => by omega)
        exact ⟨by omega, state ▸ unregistered⟩
  | @happened event spawned effect weighed =>
      have opens := weighed (Instr.opens connection)
      have handles := weighed (Instr.handles connection)
      have effect : event.effect before.state = some (after.state, spawned) := effect
      have frame := (ServerEvent.frame effect).2.2.2.1
      have unhandled : weigh (Instr.handles connection) spawned = 0 :=
        ServerEvent.weigh_spawned effect (fun _ _ => rfl) (fun _ _ _ _ => rfl)
          (fun _ _ => rfl) fun _ _ => rfl
      rcases ServerEvent.draws effect connection with ⟨fresh, drawn, opened⟩ | ⟨kept, unopened⟩
      · have ⟨unhandledBefore, unregistered⟩ := staged.unopened (.inl fresh)
        have := staged.undrawn fresh
        exact ⟨by omega, fun new => absurd drawn new,
          fun _ => ⟨by omega, frame ▸ unregistered⟩⟩
      · constructor
        · exact by have := staged.once; omega
        · intro new
          have := staged.undrawn fun old => new (kept.mpr old)
          omega
        · intro stage
          have ⟨unhandledBefore, unregistered⟩ := staged.unopened
            (stage.imp (fun new old => new (kept.mpr old)) fun opening => by omega)
          exact ⟨by omega, frame ▸ unregistered⟩

/-- Every connection is at a stage of its life, and the player index is in step
with the registry. -/
structure Connected (config : ServerConfig) : Prop where
  staged : ∀ connection, Staged connection config
  indexed : config.state.connections.Indexed

/-- A connection being accepted is not registered, and nothing else of its
handler is pending. -/
theorem Connected.accepting {config : ServerConfig} (connected : Connected config)
    {player : PlayerId} {connection : ConnectionId}
    (accepting : .acceptConnection player connection ∈ config.pending) :
    (∀ instruction ∈ config.pending, instruction.handles connection = 0) ∧
      config.state.connections.owner connection = none := by
  have opening := weight_le_weigh (Instr.opens connection) accepting
  simp only [Instr.opens, if_true] at opening
  obtain ⟨unhandled, unregistered⟩ := (connected.staged connection).unopened (.inr opening)
  exact ⟨(weigh_eq_zero_iff _ _).mp unhandled, unregistered⟩

theorem indexed_before (step : (server settings).step choice before = some after)
    {player : PlayerId} {connection : ConnectionId}
    (stored : after.state.connections.playerConnections.lookup player = some connection) :
    before.state.connections.playerConnections.lookup player = some connection ∨
      ∃ task, choice = .resume task .done ∧
        before.executed choice = some (.acceptConnection player connection) := by
  have change {instruction : Instr} {world : World}
      (writes : instruction.Writes settings before.state world)
      (stored : world.connections.playerConnections.lookup player = some connection) :
      before.state.connections.playerConnections.lookup player = some connection ∨
        instruction = .acceptConnection player connection := by
    cases connectionChange_of_writes writes with
    | kept _ same => exact .inl (same.index ▸ stored)
    | registered accepted opened connections =>
        rw [connections] at stored
        by_cases same : player = accepted
        · subst same
          have : opened = connection := by simpa [ConnectionManager.register] using stored
          exact .inr (this ▸ rfl)
        · exact .inl (by simpa [ConnectionManager.register, same] using stored)
    | closed _ closed connections =>
        rw [connections] at stored
        exact .inl (ConnectionManager.disconnect_playerConnections stored)
  cases Machine.step_cases step with
  | @resumed task answer instruction rest block running current effect =>
      have executed : before.executed (.resume task answer : ServerChoice) =
          some instruction :=
        Config.executed_of_current current
      rcases change (Instr.block_writes effect) stored with old | rfl
      · exact .inl old
      · simp only [server, Instr.block, World.acceptConnection] at effect
        split at effect <;> cases effect
        · exact .inr ⟨task, rfl, executed⟩
        · exact .inl stored
  | failed current fallible => exact .inl stored
  | happened effect =>
      have same := (ServerEvent.frame effect).2.2.2.1
      exact .inl (same ▸ stored)

theorem indexed_step (connected : Connected before)
    (step : (server settings).step choice before = some after) :
    after.state.connections.Indexed := by
  have change := worldStep_of_step step
  generalize after.state = world at change
  cases change with
  | wrote executed writes =>
      cases connectionChange_of_writes writes with
      | kept _ same => exact connected.indexed.of_same same
      | registered player connection connections =>
          rw [connections]
          exact connected.indexed.register player
            (connected.accepting (Config.mem_pending_of_executed executed)).2
      | closed _ connection connections =>
          rw [connections]
          exact connected.indexed.disconnect connection
  | failed task => exact connected.indexed
  | happened effect =>
      rw [(ServerEvent.frame effect).2.2.2.1]
      exact connected.indexed

theorem connected_of_reaches {redis : Redis} {roomIds : List RoomId}
    {guard : ServerChoice → ServerConfig → Prop} {config : ServerConfig}
    (reached : (server settings).Reaches (booted redis roomIds) guard config) :
    Connected config := by
  refine reached.invariant ⟨fun connection => ⟨Nat.zero_le _, fun _ => rfl, fun _ => ?_⟩, ?_⟩
    fun choice before after _ connected step =>
      ⟨fun connection => staged_step (connected.staged connection) step,
        indexed_step connected step⟩
  · exact ⟨rfl, rfl⟩
  · intro player connection stored
    cases stored

/-- In every reachable configuration the members of a room are the connections
that have last joined it. -/
theorem housed_of_reaches {redis : Redis} {roomIds : List RoomId} {config : ServerConfig}
    {guard : ServerChoice → ServerConfig → Prop}
    (reached : (server settings).Reaches (booted redis roomIds) guard config) :
    config.state.connections.Housed := by
  induction reached with
  | start => exact fun connection room => by simp [booted, ConnectionManager.Member,
      ConnectionManager.roomOf, Dict.getD]
  | @step choice before after reached allowed step ih =>
      have change := worldStep_of_step step
      generalize after.state = world at change
      cases change with
      | wrote executed writes =>
          cases writes with
          | register player connection =>
              exact ih.register player ((connected_of_reaches reached).accepting
                (Config.mem_pending_of_executed executed)).2
          | disconnect _ connection => exact ih.disconnect connection
          | join player room => exact ih.joinPlayer player room
          | cleanUp => exact ih.releaseAll _
          | resume => exact ih.joinPlayer _ _
          | _ => exact ih
      | failed task => exact ih
      | happened effect => exact (ServerEvent.frame effect).2.2.2.1 ▸ ih

end TerritoryBackend

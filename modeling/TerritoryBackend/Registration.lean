import TerritoryBackend.ServerSteps

/-!
# Rooms are registered once

Every room identifier is drawn once, so `create_game` registers each room at
most once; the two players of a room differ, since the matching script pops
two members of a sorted set.
-/

namespace TerritoryBackend

open EventLoop

def Instr.registers (room : RoomId) : Instr → Nat
  | .createGame created _ => if created = room then 1 else 0
  | _ => 0

/-- The registrations of a room: pending, made, or still to come because its
identifier has not been drawn. -/
def registrations (room : RoomId) (config : ServerConfig) : Nat :=
  weigh (Instr.registers room) config.tasks +
    (config.state.engine.games room).isSome.toNat + (decide (room ∉ config.state.roomIds)).toNat

/-- What holds of the rooms of every reachable configuration. -/
structure Registered (config : ServerConfig) : Prop where
  once : ∀ room, registrations room config ≤ 1
  matched : ∀ pair, .createMatch pair ∈ config.pending → pair.playerA ≠ pair.playerB
  created : ∀ room pair, .createGame room pair ∈ config.pending → pair.playerA ≠ pair.playerB
  players : ∀ room game, config.state.engine.games room = some game →
    ∃ pair : MatchedPair, pair.playerA ≠ pair.playerB ∧ game.playerIds = pair.playerIds
  known : ∀ room, room ∈ config.state.engine.live → (config.state.engine.games room).isSome

namespace Registered

variable {config : ServerConfig}

theorem unregistered (registered : Registered config) {room : RoomId} {pair : MatchedPair}
    (pending : .createGame room pair ∈ config.pending) :
    config.state.engine.games room = none ∧ room ∉ config.state.engine.live := by
  have once := registered.once room
  have weight := weight_le_weigh (Instr.registers room) pending
  simp only [Instr.registers, if_true] at weight
  have unknown : config.state.engine.games room = none := by
    by_contra known
    simp only [registrations, Option.isSome_iff_ne_none.mpr known, Bool.toNat_true] at once
    omega
  refine ⟨unknown, ?_⟩
  intro live
  simpa [unknown] using registered.known room live

theorem playerIds_nodup (registered : Registered config) {room : RoomId} {game : ActiveGame}
    (stored : config.state.engine.games room = some game) : game.playerIds.Nodup := by
  obtain ⟨pair, distinct, players⟩ := registered.players room game stored
  simp [players, MatchedPair.playerIds, distinct]

end Registered

variable {settings : Settings} {choice : ServerChoice} {before after : ServerConfig}

/-- Only `_create_match` leaves a registration to be made. -/
theorem registers_of_yields {instruction next : Instr} (yields : instruction.Yields next)
    (room : RoomId) (other : ∀ pair, instruction ≠ .createMatch pair) :
    next.registers room = 0 := by
  cases yields with
  | quiet _ isQuiet =>
      unfold Instr.registers
      split
      · cases isQuiet
      · rfl
  | drawn => exact absurd rfl (other _)
  | _ => rfl

theorem registrations_block {instruction : Instr} {answer : Answer} {world : World}
    {block : Block World Instr} (effect : instruction.block settings answer world = some block)
    (room : RoomId) :
    block.carried (Instr.registers room) instruction +
        (block.state.engine.games room).isSome.toNat +
          (decide (room ∉ block.state.roomIds)).toNat ≤
      instruction.registers room + (world.engine.games room).isSome.toNat +
        (decide (room ∉ world.roomIds)).toNat := by
  have writes := Instr.block_writes effect
  have change := gameChange_of_writes writes room
  by_cases draws : ∃ pair, instruction = .createMatch pair
  · obtain ⟨pair, rfl⟩ := draws
    simp only [Instr.block, World.createMatch] at effect
    split at effect
    · split at effect
      · cases effect
      · rename_i drawn fresh
        cases effect
        by_cases same : drawn = room
        · subst same
          simp [Block.carried, Instr.registers, fresh]
          omega
        · simp [Block.carried, Instr.registers, same, Ne.symm same]
    · cases effect
  have others : ∀ pair, instruction ≠ .createMatch pair := fun pair same => draws ⟨pair, same⟩
  have roomIds : block.state.roomIds = world.roomIds := by
    rcases writes.roomIds with same | ⟨pair, drawn, isDraw, -⟩
    · exact same
    · exact absurd isDraw (others pair)
  have weightless : ∀ next, next ∈ block.next ∨ next ∈ block.spawned.flatten →
      next.registers room = 0 := fun next member =>
    registers_of_yields (Instr.block_yields effect member) room others
  have carried : block.carried (Instr.registers room) instruction ≤ instruction.registers room :=
    Block.carried_le weightless
  rw [roomIds]
  cases stored : block.state.engine.games room with
  | none =>
      simp only [Option.isSome_none, Bool.toNat_false]
      omega
  | some game =>
      rcases change.players stored with ⟨old, known, -⟩ | ⟨pair, rfl, -⟩
      · simp only [known, Option.isSome_some]
        omega
      · cases effect
        have nothing : (world.createGame room pair).carried (Instr.registers room)
            (.createGame room pair) = 0 := Block.carried_eq_zero weightless rfl
        simp only [nothing, Instr.registers, if_true, Option.isSome_some, Bool.toNat_true]
        omega

theorem registrations_step (step : (server settings).step choice before = some after)
    (room : RoomId) : registrations room after ≤ registrations room before := by
  unfold registrations
  have unwinds : (server settings).UnwindsWithin (Instr.registers room) :=
    Instr.unwindsWithin (fun _ => rfl) fun _ _ => le_rfl
  cases Machine.weighed_step step with
  | executed executed effect state weighed =>
      have weighed := weighed unwinds
      have consumed := registrations_block effect room
      rw [state]
      omega
  | failed task state weighed =>
      have weighed := weighed unwinds
      rw [state]
      omega
  | @happened event spawned effect weighed =>
      have weighed := weighed (Instr.registers room)
      have nothing : weigh (Instr.registers room) spawned = 0 :=
        ServerEvent.weigh_spawned effect (fun _ _ => rfl) (fun _ _ _ _ => rfl)
          (fun _ _ => rfl) fun _ _ => rfl
      rw [(ServerEvent.frame effect).1, (ServerEvent.frame effect).2.1]
      omega

/-- Two members of the queue are matched. -/
theorem matched_distinct {answer : Answer} {world : World} {block : Block World Instr}
    {pair : MatchedPair}
    (effect : Instr.matchingLoop.block settings answer world = some block)
    (member : .createMatch pair ∈ block.next ∨ .createMatch pair ∈ block.spawned.flatten) :
    pair.playerA ≠ pair.playerB := by
  cases Instr.block_leaves effect member with
  | matched popped => exact (MatchmakingQueue.tryMatch_eq_some popped).1

theorem Registered.step (registered : Registered before)
    (step : (server settings).step choice before = some after) : Registered after where
  once room := (registrations_step step room).trans (registered.once room)
  matched pair pending := by
    cases origin_of_step step pending with
    | pending _ member => exact registered.matched pair member
    | quiet _ isQuiet => cases isQuiet
    | yielded executed effect member yields =>
        cases yields with
        | quiet _ isQuiet => cases isQuiet
        | matched => exact matched_distinct effect member
  created room pair pending := by
    cases origin_of_step step pending with
    | pending _ member => exact registered.created room pair member
    | quiet _ isQuiet => cases isQuiet
    | yielded executed effect member yields =>
        cases yields with
        | quiet _ isQuiet => cases isQuiet
        | drawn => exact registered.matched pair (Config.mem_pending_of_executed executed)
  players room game stored := by
    rcases gameChange_of_step step room with ⟨games, -⟩ | ⟨instruction, executed, change⟩
    · exact registered.players room game (games ▸ stored)
    rcases change.players stored with ⟨old, known, same⟩ | ⟨pair, rfl, rfl⟩
    · rw [same]
      exact registered.players room old known
    · exact ⟨pair, registered.created room pair (Config.mem_pending_of_executed executed), rfl⟩
  known room live := by
    rcases gameChange_of_step step room with ⟨games, same⟩ | ⟨instruction, executed, change⟩
    · exact games ▸ registered.known room (same.mp live)
    cases change with
    | unchanged _ games same => exact games ▸ registered.known room (same.mp live)
    | popped found games gone => exact absurd live gone
    | created _ games | acted _ _ games | paused _ _ _ games | forfeited _ _ _ games
    | resumed _ games => rw [games]; rfl

/-- A game that has been removed from the table stays removed. -/
theorem Registered.removed_step (registered : Registered before)
    (step : (server settings).step choice before = some after) {room : RoomId}
    (gone : room ∉ before.state.engine.live)
    (known : (before.state.engine.games room).isSome = true) :
    room ∉ after.state.engine.live ∧ (after.state.engine.games room).isSome = true := by
  have unfound {game : ActiveGame} (found : before.state.engine.find room = some game) : False :=
    gone (GameEngine.find_eq_some.mp found).1
  rcases gameChange_of_step step room with ⟨games, live⟩ | ⟨instruction, executed, change⟩
  · exact ⟨fun listed => gone (live.mp listed), games ▸ known⟩
  cases change with
  | unchanged _ games live => exact ⟨fun listed => gone (live.mp listed), games ▸ known⟩
  | created pair =>
      have unknown := (registered.unregistered (Config.mem_pending_of_executed executed)).1
      rw [unknown] at known
      cases known
  | acted found | paused _ found | forfeited _ found | resumed found | popped found =>
      exact (unfound found).elim

theorem registered_of_reaches {redis : Redis} {roomIds : List RoomId}
    {guard : ServerChoice → ServerConfig → Prop} {config : ServerConfig}
    (reached : (server settings).Reaches (booted redis roomIds) guard config) :
    Registered config := by
  refine reached.invariant ?_ fun choice before after _ registered step => registered.step step
  constructor
  · intro room
    simp [registrations, booted, weigh, Instr.registers, Bool.toNat_le]
  all_goals simp [booted, Config.pending]

end TerritoryBackend

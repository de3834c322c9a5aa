import TerritoryBackend.FinishedGames
import TerritoryBackend.RecoveryPoints

/-!
# What a sweep of snapshots keeps

`_snapshot_loop` saves one live game after another, and so does `GameEngine.stop`
before the process goes away.  While they wait for Redis, moves are made, games end and
other tasks save the same games.  Once a sweep is complete, no move made before it began
can be lost: a recovery, then or later, finds the game with all of them.
-/

namespace TerritoryBackend

open EventLoop

/-- `GameEngine.stop` saves all games in a coroutine of its own.  The snapshot loop it
cancels first stays in the configuration, as a coroutine that need not run. -/
def stopEngine (config : ServerConfig) : ServerConfig :=
  { config with tasks := config.tasks ++ [config.state.engine.live.map .saveSnapshot] }

/-- A coroutine begins to save all games. -/
inductive SweepStarts (settings : Settings) (before : ServerConfig) :
    Nat → ServerConfig → Prop where
  | loop {position : Nat} {answer : Answer} {after : ServerConfig}
      (executed : before.executed (.resume position answer : ServerChoice) = some .snapshotLoop)
      (step : (server settings).step (.resume position answer) before = some after) :
      SweepStarts settings before position after
  | stop : SweepStarts settings before before.tasks.length (stopEngine before)

/-- Commands about snapshots keep their order, and no snapshot of a game that is going
on expires. -/
structure KeepsSnapshots (choice : ServerChoice) (config : ServerConfig) : Prop where
  inOrder : CommandsInOrder choice config
  unexpired : ∀ room, choice = .event (.roomStateExpires room) → room ∉ config.state.engine.live

/-- Besides, no command of the sweep fails. -/
def SweepGoesOn (position : Nat) (choice : ServerChoice) (config : ServerConfig) : Prop :=
  KeepsSnapshots choice config ∧ choice ≠ .fail position

def Instr.saves : Instr → Bool
  | .saveSnapshot .. | .setSnapshot .. => true
  | _ => false

/-- The coroutine has nothing left to save. -/
def Swept (position : Nat) (config : ServerConfig) : Prop :=
  ∀ list, config.tasks[position]? = some list → ∀ instruction ∈ list, instruction.saves = false

/-- If the game of the room still goes on, a recovery succeeds on what is stored and finds
a stage of it that has all these moves. -/
def RecoversMoves (config : ServerConfig) (room : RoomId) (saved : ActiveGame) : Prop :=
  ∀ game, config.state.engine.find room = some game → ∃ document data stage,
    config.state.redis.roomStates room = some document ∧
    config.state.redis.rooms room = some data ∧
    saved.actionHistory <+: stage.actionHistory ∧ stage.Lives game ∧
    ∀ (recovering : GameEngine) (now : Time), ∃ restored,
      recovering.restoreGameFromSnapshot room (some document) (some data) now =
        .ok (recovering.register room restored, some restored) ∧
      RebuiltFrom stage game restored

variable {settings : Settings} {choice : ServerChoice} {before after config : ServerConfig}
  {room : RoomId} {game saved next : ActiveGame} {position : Nat}

/-- The hash of the room is there as long as its game goes on, and it is stored before
the game is registered. -/
structure HashStored (room : RoomId) (config : ServerConfig) : Prop where
  live : room ∈ config.state.engine.live → config.state.redis.rooms room ≠ none
  first : ∀ pair earlier later, earlier ++ .createGame room pair :: later ∈ config.tasks →
    config.state.redis.rooms room ≠ none ∨ ∃ stored, .storeRoom room stored ∈ earlier

/-- Only `_cleanup_game` deletes the hash of a room. -/
theorem roomData_kept (step : (server settings).step choice before = some after)
    (present : before.state.redis.rooms room ≠ none) :
    after.state.redis.rooms room ≠ none ∨
      ∃ playerIds, before.executed choice = some (.deleteRoomKeys room playerIds) := by
  by_cases stores : ∃ stored pair, before.executed choice = some (.storeRoom stored pair)
  · obtain ⟨stored, pair, executed⟩ := stores
    obtain ⟨_, block, effect, same⟩ := Machine.block_of_executed step executed
    cases effect
    rw [same, storeRoom_rooms, Function.update_apply]
    split
    · exact .inl (Option.some_ne_none _)
    · exact .inl present
  · have change := worldStep_of_step step
    generalize after.state = world at change
    cases change with
    | wrote executed writes =>
        cases writes with
        | store stored pair data => exact absurd ⟨stored, pair, executed⟩ stores
        | deleteKeys deleted playerIds =>
            by_cases same : room = deleted
            · subst same
              exact .inr ⟨playerIds, executed⟩
            · exact .inl (by simpa [World.updateRedis, Redis.deleteRoomKeys, same] using present)
        | _ => exact .inl present
    | failed task => exact .inl present
    | happened effect => cases ServerEvent.happens effect <;> exact .inl present

/-- Storing a match writes the hash of its room. -/
theorem roomData_stored (step : (server settings).step choice before = some after)
    {pair : MatchedPair} (executed : before.executed choice = some (.storeRoom room pair)) :
    after.state.redis.rooms room ≠ none := by
  obtain ⟨_, block, effect, same⟩ := Machine.block_of_executed step executed
  cases effect
  simp [same, storeRoom_rooms]

/-- The creation of a game comes out of a block behind the command that stores its room. -/
theorem storesFirst_of_block {instruction : Instr} {answer : Answer} {world : World}
    {block : Block World Instr} (effect : instruction.block settings answer world = some block)
    {pair : MatchedPair} :
    (∀ earlier later, block.next = earlier ++ .createGame room pair :: later →
      ∃ stored, .storeRoom room stored ∈ earlier) ∧
      .createGame room pair ∉ block.spawned.flatten := by
  have leaves next (member : next ∈ block.next ∨ next ∈ block.spawned.flatten)
      (creates : next = .createGame room pair) : instruction = .createMatch pair := by
    subst creates
    cases Instr.block_leaves effect member with
    | registering => rfl
    | unsendable goesOn | handingOn _ goesOn =>
        rcases AfterSend.next_cases goesOn with carries | ⟨_, _, _, _, carries⟩ <;> cases carries
  constructor
  · intro earlier later split
    obtain rfl := leaves _ (.inl (by simp [split])) rfl
    change world.createMatch pair answer = some block at effect
    unfold World.createMatch at effect
    split at effect
    · split at effect <;> cases effect
      rcases earlier with _ | ⟨_, _ | ⟨_, _ | ⟨_, _⟩⟩⟩ <;>
        simp [World.goOn] at split
      obtain ⟨rfl, -, rfl, -⟩ := split
      exact ⟨pair, List.mem_cons_self⟩
    · cases effect
  · intro member
    obtain rfl := leaves _ (.inr member) rfl
    rcases Instr.block_spawned effect with nothing | ⟨_, _, other⟩ | ⟨_, _, _, other⟩
    · simp [nothing] at member
    · cases other
    · cases other

theorem unwind_creates {task : List Instr} {pair : MatchedPair} :
    .createGame room pair ∉ Instr.unwind settings task := by
  intro member
  rcases Instr.unwind_cases member with
    ⟨_, _, -, other⟩ | ⟨_, _, -, rfl | rfl, other | other⟩ <;> cases other

/-- A game that goes on has been registered by now. -/
theorem live_before (step : (server settings).step choice before = some after)
    (live : room ∈ after.state.engine.live) :
    room ∈ before.state.engine.live ∨
      ∃ pair, before.executed choice = some (.createGame room pair) := by
  rcases gameChange_of_step step room with ⟨-, same⟩ | ⟨instruction, executed, change⟩
  · exact .inl (same.mp live)
  · cases change with
    | unchanged _ _ same => exact .inl (same.mp live)
    | created pair => exact .inr ⟨pair, executed⟩
    | acted found | paused _ found | forfeited _ found | resumed found =>
        exact .inl (GameEngine.find_eq_some.mp found).1
    | popped _ _ gone => exact absurd live gone

theorem HashStored.step (hashed : HashStored room before) (registered : Registered before)
    (sound : SnapshotsSound before) (step : (server settings).step choice before = some after) :
    HashStored room after where
  live live := by
    have stored : before.state.redis.rooms room ≠ none ∧
        ∀ playerIds, before.executed choice ≠ some (.deleteRoomKeys room playerIds) := by
      rcases live_before step live with known | ⟨pair, executed⟩
      · constructor
        · exact hashed.live known
        · intro playerIds executed
          exact (sound.removed room playerIds (Config.mem_pending_of_executed executed)).1 known
      · obtain ⟨rest, member⟩ := Config.mem_tasks_of_executed executed
        refine ⟨(hashed.first pair [] rest member).resolve_right (by simp), ?_⟩
        intro playerIds other
        cases executed.symm.trans other
    exact (roomData_kept step stored.1).resolve_right fun ⟨playerIds, executed⟩ =>
      stored.2 playerIds executed
  first pair earlier later member := by
    have kept (stored : before.state.redis.rooms room ≠ none)
        (pending : .createGame room pair ∈ before.pending) :
        after.state.redis.rooms room ≠ none := by
      apply (roomData_kept step stored).resolve_right
      rintro ⟨playerIds, executed⟩
      have removed := (sound.removed room playerIds (Config.mem_pending_of_executed executed)).2
      rw [(registered.unregistered pending).1] at removed
      cases removed
    have created : Instr.createGame room pair ∈ earlier ++ .createGame room pair :: later := by simp
    cases Machine.taskSource_of_step step member with
    | kept _ old =>
        exact (hashed.first pair earlier later old).imp_left fun stored =>
          kept stored (List.mem_flatten.mpr ⟨_, old, created⟩)
    | @continued position answer instruction rest block current effect state remaining =>
        have task := List.mem_of_getElem? current
        have executed : before.executed (.resume position answer : ServerChoice) =
            some instruction := Config.executed_of_current current
        have behind (passed : List Instr)
            (split : rest = passed ++ .createGame room pair :: later) :
            after.state.redis.rooms room ≠ none ∨ ∃ stored, .storeRoom room stored ∈ passed := by
          subst split
          rcases hashed.first pair (instruction :: passed) later task with stored | ⟨other, stores⟩
          · exact .inl (kept stored (List.mem_flatten.mpr ⟨_, task, by simp⟩))
          · rcases List.mem_cons.mp stores with rfl | waiting
            · exact .inl (roomData_stored step executed)
            · exact .inr ⟨other, waiting⟩
        unfold Machine.continuation at remaining
        split at remaining
        · exact absurd (remaining ▸ created) unwind_creates
        · rcases List.append_eq_append_iff.mp remaining with
            ⟨yielded, next, split⟩ | ⟨passed, rfl, split⟩
          · cases yielded with
            | nil =>
                rw [List.append_nil] at next
                apply (behind [] split.symm).imp_right
                rintro ⟨_, member⟩
                cases member
            | cons first yielded =>
                obtain ⟨rfl, -⟩ := List.cons.inj split
                exact .inr ((storesFirst_of_block effect).1 earlier yielded next)
          · apply (behind passed split).imp_right
            rintro ⟨stored, waiting⟩
            exact ⟨stored, List.mem_append_right _ waiting⟩
    | spawned executed effect started =>
        exact absurd (List.mem_flatten.mpr ⟨_, started, created⟩)
          (storesFirst_of_block effect).2
    | unwound _ old remaining => exact absurd (remaining ▸ created) unwind_creates
    | started effect started =>
        have inEvent := List.mem_flatten.mpr ⟨_, started, created⟩
        cases ServerEvent.happens effect <;> simp at inEvent

/-- What holds of the games, the snapshots and the hashes of rooms in every
configuration, also after `GameEngine.stop` has begun. -/
structure GamesKept (settings : Settings) (config : ServerConfig) : Prop where
  registered : Registered config
  sound : SnapshotsSound config
  stages : KeepsStages settings config
  hashed : ∀ room, HashStored room config
  turns : ∀ room game, config.state.engine.games room = some game → game.HasTurn
  passed : ∀ room game, config.state.engine.games room = some game →
    Passed config.state room game

theorem GamesKept.step (kept : GamesKept settings before) (allowed : KeepsSnapshots choice before)
    (step : (server settings).step choice before = some after) : GamesKept settings after where
  registered := kept.registered.step step
  sound := kept.sound.step kept.registered allowed.inOrder step
  stages := kept.stages.step kept.registered kept.passed step
  hashed room := (kept.hashed room).step kept.registered kept.sound step
  turns room game stored := by
    rcases game_before_step step stored with ⟨known, same, rfl | steps⟩ | ⟨pair, -, rfl⟩
    · exact kept.turns room _ same
    · exact (kept.turns room known same).step steps
    · exact Nat.zero_lt_succ 1
  passed room game stored := by
    rcases game_before_step step stored with ⟨known, same, rfl | steps⟩ | ⟨pair, executed, rfl⟩
    · exact (kept.passed room _ same).step kept.registered step
    · obtain ⟨pair, now, _, distinct, born, -⟩ := kept.passed room known same
      exact ⟨pair, now, game, distinct, born.tail steps, stored, .refl⟩
    · exact ⟨pair, _, _, kept.registered.created room pair
        (Config.mem_pending_of_executed executed), .refl, stored, .refl⟩

theorem gamesKept_of_reaches {redis : Redis} {roomIds : List RoomId}
    (taken : ∀ room, redis.roomStates room ≠ none ∨ redis.rooms room ≠ none → room ∈ roomIds)
    (reached : (server settings).Reaches (booted redis roomIds) KeepsSnapshots config) :
    GamesKept settings config := by
  refine reached.invariant ?_ fun choice before after allowed kept step => kept.step allowed step
  have nowhere : (server settings).Reaches (booted redis roomIds) CommandsInOrder
    (booted redis roomIds) := .start
  refine ⟨registered_of_reaches nowhere, snapshotsSound_of_reaches
    (fun room stored => taken room (.inl stored)) nowhere, keepsStages_of_reaches taken nowhere, fun
    room => ⟨?_, ?_⟩, ?_, ?_⟩
  · intro live
    cases live
  · intro pair earlier later member
    rcases List.mem_pair.mp member with split | split <;> cases earlier <;> simp at split
  · intro room game stored
    cases stored
  · intro room game stored
    cases stored

/-- The coroutine of `stop` adds reads of games only. -/
theorem pending_stopEngine {instruction : Instr}
    (pending : instruction ∈ (stopEngine config).pending) :
    instruction ∈ config.pending ∨ ∃ room, instruction = .saveSnapshot room := by
  simp only [stopEngine, Config.pending, List.flatten_append, List.flatten_singleton,
    List.mem_append, List.mem_map] at pending
  rcases pending with old | ⟨room, -, same⟩
  · exact .inl old
  · exact .inr ⟨room, same.symm⟩

theorem Vacant.stop (vacant : Vacant config room) : Vacant (stopEngine config) room where
  drawn := vacant.drawn
  unregistered pair pending := by
    rcases pending_stopEngine pending with old | ⟨_, other⟩
    · exact vacant.unregistered pair old
    · cases other
  empty := vacant.empty

theorem Paired.stop {pair : MatchedPair} (paired : Paired config room pair) :
    Paired (stopEngine config) room pair where
  drawn := paired.drawn
  plays := paired.plays
  willPlay other pending := by
    rcases pending_stopEngine pending with old | ⟨_, other⟩
    · exact paired.willPlay other old
    · cases other

theorem registrations_stopEngine (room : RoomId) (config : ServerConfig) :
    registrations room (stopEngine config) = registrations room config := by
  have silent : weigh (Instr.registers room) [config.state.engine.live.map .saveSnapshot] = 0 := by
    apply weigh_eq_zero
    intro instruction member
    rw [List.flatten_singleton] at member
    obtain ⟨saved, -, rfl⟩ := List.mem_map.mp member
    rfl
  rw [registrations, registrations, stopEngine, weigh_append, silent]
  rfl

theorem GamesKept.stop (kept : GamesKept settings config) :
    GamesKept settings (stopEngine config) where
  registered := by
    constructor
    · intro room
      exact (registrations_stopEngine room config).trans_le (kept.registered.once room)
    · intro pair pending
      rcases pending_stopEngine pending with old | ⟨_, other⟩
      · exact kept.registered.matched pair old
      · cases other
    · intro room pair pending
      rcases pending_stopEngine pending with old | ⟨_, other⟩
      · exact kept.registered.created room pair old
      · cases other
    · exact kept.registered.players
    · exact kept.registered.known
  sound := by
    constructor
    · intro room document pending
      rcases pending_stopEngine pending with old | ⟨_, other⟩
      · exact kept.sound.current room document old
      · cases other
    · exact kept.sound.stored
    · intro room document waiting stored pending
      rcases pending_stopEngine pending with old | ⟨_, other⟩
      · exact kept.sound.ordered room document waiting stored old
      · cases other
    · intro room stored
      obtain ⟨drawn, unregistered⟩ := kept.sound.taken room stored
      refine ⟨drawn, ?_⟩
      intro pair pending
      rcases pending_stopEngine pending with old | ⟨_, other⟩
      · exact unregistered pair old
      · cases other
    · intro room playerIds pending
      rcases pending_stopEngine pending with old | ⟨_, other⟩
      · exact kept.sound.removed room playerIds old
      · cases other
  stages := by
    constructor
    · intro room document pending
      rcases pending_stopEngine pending with old | ⟨_, other⟩
      · exact kept.stages.waiting room document old
      · cases other
    · intro room document stored
      exact (kept.stages.snapshots room document stored).imp_left Vacant.stop
    · intro room pair pending
      rcases pending_stopEngine pending with old | ⟨_, other⟩
      · exact (kept.stages.storing room pair old).stop
      · cases other
    · intro room data stored
      apply (kept.stages.hashes room data stored).imp Vacant.stop
      rintro ⟨pair, now, paired, same⟩
      exact ⟨pair, now, paired.stop, same⟩
  hashed room := by
    refine ⟨(kept.hashed room).live, ?_⟩
    intro pair earlier later member
    rcases List.mem_append.mp member with old | new
    · exact (kept.hashed room).first pair earlier later old
    · have creates : Instr.createGame room pair ∈ config.state.engine.live.map .saveSnapshot :=
        List.mem_singleton.mp new ▸ by simp
      obtain ⟨_, -, other⟩ := List.mem_map.mp creates
      cases other
  turns := kept.turns
  passed := kept.passed

theorem ActiveGame.Lives.progress_le (lives : saved.Lives game) :
    saved.progress ≤ game.progress := by
  induction lives with
  | refl => exact le_rfl
  | tail _ step ih => exact ih.trans step.progress_le

/-- What is stored about the room from now on has the progress of this game, or the game
has ended. -/
inductive Secured (room : RoomId) (saved : ActiveGame) (config : ServerConfig) : Prop where
  | stored (atLeast : AtLeast saved.progress room config)
      (present : config.state.redis.roomStates room ≠ none)
  | ended (gone : room ∉ config.state.engine.live)
      (known : (config.state.engine.games room).isSome = true)

/-- Snapshots go away when the keys of their room are deleted or when they expire. -/
theorem roomState_kept (step : (server settings).step choice before = some after)
    (present : before.state.redis.roomStates room ≠ none) :
    after.state.redis.roomStates room ≠ none ∨
      (∃ playerIds, before.executed choice = some (.deleteRoomKeys room playerIds)) ∨
      choice = .event (.roomStateExpires room) := by
  have change := worldStep_of_step step
  generalize after.state = world at change
  cases change with
  | wrote executed writes =>
      cases writes with
      | snapshot written document =>
          by_cases same : room = written
          · exact .inl (by simp [World.updateRedis, same])
          · exact .inl (by simpa [World.updateRedis, same] using present)
      | deleteKeys deleted playerIds =>
          by_cases same : room = deleted
          · subst same
            exact .inr (.inl ⟨playerIds, executed⟩)
          · exact .inl (by simpa [World.updateRedis, Redis.deleteRoomKeys, same] using present)
      | _ => exact .inl present
  | failed task => exact .inl present
  | happened effect =>
      cases ServerEvent.happens effect with
      | roomStateExpires expired =>
          by_cases same : room = expired
          · exact .inr (.inr (by rw [same]))
          · exact .inl (by simpa [World.updateRedis, same] using present)
      | _ => exact .inl present

theorem Secured.step (secured : Secured room saved before) (kept : GamesKept settings before)
    (passed : Passed before.state room saved) (allowed : KeepsSnapshots choice before)
    (step : (server settings).step choice before = some after) : Secured room saved after := by
  have known : (before.state.engine.games room).isSome = true := by
    obtain ⟨_, _, game, -, -, stored, -⟩ := passed
    simp [stored]
  by_cases live : room ∈ before.state.engine.live
  · cases secured with
    | ended gone => exact absurd live gone
    | stored atLeast present =>
        rcases roomState_kept step present with still | ⟨playerIds, executed⟩ | expired
        · exact .stored (atLeast.step step) still
        · exact absurd live
            (kept.sound.removed room playerIds (Config.mem_pending_of_executed executed)).1
        · exact absurd live (allowed.unexpired room expired)
  · obtain ⟨gone, known⟩ := kept.registered.removed_step step live known
    exact .ended gone known

/-- The sweep has yet to take a snapshot of the room or to store the one it has taken, or
the room is secured. -/
inductive SweepPhase (position : Nat) (room : RoomId) (saved : ActiveGame)
    (config : ServerConfig) : Prop where
  | toTake {rest : List Instr}
      (planned : Planned (fun instruction : Instr => instruction.announces = true) position
        (.saveSnapshot room :: rest) config.tasks)
  | toStore {document : Json} {rest : List Instr}
      (planned : Planned (fun instruction : Instr => instruction.announces = true) position
        (.setSnapshot room document :: rest) config.tasks)
      (shows : saved.progress ≤ snapshotProgress document)
  | done (secured : Secured room saved config)

/-- Once the command of the sweep has taken effect, no older snapshot is in flight. -/
theorem Secured.of_stored (kept : GamesKept settings before)
    (allowed : KeepsSnapshots choice before)
    (step : (server settings).step choice before = some after) {document : Json}
    (executed : before.executed choice = some (.setSnapshot room document))
    (passed : Passed before.state room saved)
    (shows : saved.progress ≤ snapshotProgress document) : Secured room saved after := by
  have known := passed
  obtain ⟨_, _, game, -, -, stored, -⟩ := known
  have drawn := kept.registered.drawn (.inr (by rw [stored]; rfl))
  have present : after.state.redis.roomStates room = some document := by
    obtain ⟨_, block, effect, state⟩ := Machine.block_of_executed step executed
    cases effect
    simp [state, World.setSnapshot, World.updateRedis]
  refine .stored ⟨roomIds_step step drawn, ?_, ?_, ?_, ?_⟩ (by simp [present])
  · intro pair pending
    have unknown := (kept.registered.unregistered (createGame_before step pending drawn)).1
    rw [stored] at unknown
    cases unknown
  · intro kept same
    cases present.symm.trans same
    exact shows
  · intro waiting pending
    rcases setSnapshot_before step pending with old | ⟨saves, -⟩
    · exact shows.trans (allowed.inOrder.sets room document executed waiting old)
    · cases executed.symm.trans saves
  · intro next storedNext
    exact ((passed.step kept.registered step).lives storedNext).progress_le

/-- A game in which it is somebody's turn can be saved. -/
theorem saveSnapshot_isOk {engine : GameEngine} (turn : game.HasTurn)
    (found : engine.find room = some game) (now : Time) :
    ∃ document, engine.saveSnapshot room now = .ok (some document) := by
  obtain ⟨current, isCurrent⟩ := turn.exists_current
  simp only [GameEngine.saveSnapshot, found, ActiveGame.toRedisState, isCurrent, Except.map]
  exact ⟨_, rfl⟩

/-- The sweep takes a snapshot of the room. -/
theorem SweepPhase.of_taken (kept : GamesKept settings before)
    (passed : Passed before.state room saved) {answer : Answer} {block : Block World Instr}
    {rest : List Instr}
    (effect : (server settings).block (.saveSnapshot room) answer before.state = some block)
    (state : after.state = block.state)
    (remaining : after.tasks[position]? =
      some ((server settings).continuation (.saveSnapshot room) rest block)) :
    SweepPhase position room saved after := by
  have known := passed
  obtain ⟨_, _, game, -, -, stored, -⟩ := known
  have effect : before.state.saveSnapshot settings room = some block := effect
  unfold World.saveSnapshot at effect
  cases found : before.state.engine.find room with
  | none =>
      have gone : room ∉ before.state.engine.live := by
        intro live
        rw [GameEngine.find_eq_some.mpr ⟨live, stored⟩] at found
        cases found
      simp only [GameEngine.saveSnapshot, found] at effect
      cases effect
      exact .done (.ended (state ▸ gone) (state ▸ by simp [World.goOn, stored]))
  | some shown =>
      have shownStored := (GameEngine.find_eq_some.mp found).2
      obtain ⟨document, saves⟩ := saveSnapshot_isOk (kept.turns room shown shownStored) found
        before.state.clock
      simp only [saves] at effect
      split at effect <;> cases effect
      refine .toStore (.of_getElem? remaining) ?_
      obtain ⟨same, sameFound, shows⟩ := progress_of_saved saves
      cases found.symm.trans sameFound
      rw [shows]
      exact (passed.lives shownStored).progress_le

theorem SweepPhase.step (phase : SweepPhase position room saved before)
    (kept : GamesKept settings before) (passed : Passed before.state room saved)
    (allowed : SweepGoesOn position choice before)
    (step : (server settings).step choice before = some after) :
    SweepPhase position room saved after := by
  have course : (server settings).KeepsCourseAt _ before.state :=
    announces_keepsCourseAt kept.turns
  cases phase with
  | toTake planned =>
      cases planned.step course step with
      | ahead _ planned => exact .toTake planned
      | reached executed effect state remaining =>
          exact .of_taken kept passed effect state remaining
      | failed => exact absurd rfl allowed.2
  | toStore planned shows =>
      cases planned.step course step with
      | ahead _ planned => exact .toStore planned shows
      | reached executed effect state remaining =>
          exact .done (.of_stored kept allowed.1 step (Config.executed_of_current executed)
            passed shows)
      | failed => exact absurd rfl allowed.2
  | done secured => exact .done (secured.step kept passed allowed.1 step)

/-- All games that go on are ahead of the sweep. -/
theorem SweepStarts.toTake (starts : SweepStarts settings before position after)
    (found : before.state.engine.find room = some saved) :
    after.state = before.state ∧ SweepPhase position room saved after := by
  have live := (GameEngine.find_eq_some.mp found).1
  obtain ⟨earlier, later, split⟩ := List.append_of_mem live
  have ahead : ∀ instruction ∈ earlier.map Instr.saveSnapshot, instruction.announces = true := by
    simp [Instr.announces]
  cases starts with
  | @loop _ answer _ executed step =>
      cases Machine.step_cases step with
      | @resumed _ _ head rest block running current effect =>
          cases Config.eq_of_executed current executed
          cases effect
          obtain ⟨bound, -⟩ := List.getElem?_eq_some_iff.mp current
          refine ⟨rfl, @SweepPhase.toTake _ _ _ _ (later.map .saveSnapshot ++
            [.sleep settings.stateSnapshotIntervalSec, .snapshotLoop] ++ rest)
            ⟨earlier.map .saveSnapshot, ?_, ahead⟩⟩
          rw [List.getElem?_append_left (by simpa using bound), List.getElem?_set_self bound]
          simp [Machine.continuation, World.snapshotLoop, World.goOn, split]
  | stop =>
      refine ⟨rfl, @SweepPhase.toTake _ _ _ _ (later.map .saveSnapshot)
        ⟨earlier.map .saveSnapshot, ?_, ahead⟩⟩
      simp [stopEngine, split]

theorem GamesKept.start (kept : GamesKept settings before)
    (starts : SweepStarts settings before position after) : GamesKept settings after := by
  cases starts with
  | stop => exact kept.stop
  | loop executed step =>
      refine kept.step ⟨⟨?_, ?_⟩, ?_⟩ step
      · intro room document stores
        cases executed.symm.trans stores
      · intro room playerIds deletes
        cases executed.symm.trans deletes
      · intro room expires
        cases expires

theorem progress_of_snapshot {stage : ActiveGame} {document : Json}
    (snapshot : SnapshotOf stage document) : snapshotProgress document = stage.progress := by
  obtain ⟨now, state, taken, rfl⟩ := snapshot
  unfold ActiveGame.toRedisState at taken
  split at taken <;> cases taken
  exact progress_serialize _

theorem turnNumber_of_passed {world : World} {stage : ActiveGame}
    (passed : Passed world room stage) : stage.turnNumber = stage.actionHistory.length := by
  obtain ⟨_, _, _, -, born, -, -⟩ := passed
  exact born.invariant (fun _ _ counted step => step.turnNumber_eq counted) rfl

/-- What is secured is recovered. -/
theorem RecoversMoves.of_secured (kept : GamesKept settings config)
    (passed : Passed config.state room saved) (secured : Secured room saved config) :
    RecoversMoves config room saved := by
  intro game found
  obtain ⟨live, stored⟩ := GameEngine.find_eq_some.mp found
  cases secured with
  | ended gone => exact absurd live gone
  | stored atLeast present =>
      obtain ⟨document, isStored⟩ := Option.ne_none_iff_exists'.mp present
      obtain ⟨data, isHash⟩ := Option.ne_none_iff_exists'.mp ((kept.hashed room).live live)
      rcases kept.stages.snapshots room document isStored with vacant | ⟨stage, reaches, snapshot⟩
      · exact absurd stored vacant.not_stored
      rcases kept.stages.hashes room data isHash with vacant | ⟨pair, created, paired, rfl⟩
      · exact absurd stored vacant.not_stored
      have lives := reaches.lives stored
      refine ⟨document, _, stage, isStored, isHash, ?_, lives, fun recovering now =>
        ActiveGame.restore_of_snapshot settings recovering room pair created now snapshot
          (paired.plays game stored)⟩
      have behind : saved.turnNumber ≤ stage.turnNumber := by
        have shows := (atLeast.stored document isStored).1
        rwa [progress_of_snapshot snapshot] at shows
      rw [turnNumber_of_passed passed, turnNumber_of_passed reaches] at behind
      have grown := passed.lives stored
      exact List.prefix_of_prefix_length_le grown.history_prefix lives.history_prefix behind

theorem phase_of_reaches (kept : GamesKept settings before)
    (passed : Passed before.state room saved) (phase : SweepPhase position room saved before)
    (sweeps : (server settings).Reaches before (SweepGoesOn position) after) :
    GamesKept settings after ∧ Passed after.state room saved ∧
      SweepPhase position room saved after := by
  induction sweeps with
  | start => exact ⟨kept, passed, phase⟩
  | step _ allowed step ih =>
      obtain ⟨kept, passed, phase⟩ := ih
      exact ⟨kept.step allowed.1 step, passed.step kept.registered step,
        phase.step kept passed allowed step⟩

theorem secured_of_reaches (kept : GamesKept settings before)
    (passed : Passed before.state room saved) (secured : Secured room saved before)
    (goesOn : (server settings).Reaches before KeepsSnapshots after) :
    GamesKept settings after ∧ Passed after.state room saved ∧ Secured room saved after := by
  induction goesOn with
  | start => exact ⟨kept, passed, secured⟩
  | step _ allowed step ih =>
      obtain ⟨kept, passed, secured⟩ := ih
      exact ⟨kept.step allowed step, passed.step kept.registered step,
        secured.step kept passed allowed step⟩

/-- Main result: a complete sweep keeps all moves made before it began. -/
theorem recoversMoves_of_swept {redis : Redis} {roomIds : List RoomId}
    {sweeping done : ServerConfig}
    (taken : ∀ room, redis.roomStates room ≠ none ∨ redis.rooms room ≠ none → room ∈ roomIds)
    (reached : (server settings).Reaches (booted redis roomIds) KeepsSnapshots before)
    (starts : SweepStarts settings before position sweeping)
    (sweeps : (server settings).Reaches sweeping (SweepGoesOn position) done)
    (swept : Swept position done)
    (goesOn : (server settings).Reaches done KeepsSnapshots after)
    (found : before.state.engine.find room = some saved) : RecoversMoves after room saved := by
  have kept := gamesKept_of_reaches taken reached
  obtain ⟨same, phase⟩ := starts.toTake found
  have passed : Passed sweeping.state room saved :=
    same ▸ kept.passed room saved (GameEngine.find_eq_some.mp found).2
  obtain ⟨keptDone, passedDone, phaseDone⟩ :=
    phase_of_reaches (kept.start starts) passed phase sweeps
  have secured : Secured room saved done := by
    cases phaseDone with
    | toTake planned | toStore planned =>
        obtain ⟨earlier, present, -⟩ := planned
        have silent := swept _ present _ (List.mem_append_right _ List.mem_cons_self)
        cases silent
    | done secured => exact secured
  obtain ⟨keptAfter, passedAfter, securedAfter⟩ :=
    secured_of_reaches keptDone passedDone secured goesOn
  exact .of_secured keptAfter passedAfter securedAfter

/-- The choice keeps the snapshots, as far as it can be seen. -/
def keepsSnapshots (choice : ServerChoice) (config : ServerConfig) : Bool :=
  (match config.executed choice with
    | some (.setSnapshot room document) => config.pending.all fun
        | .setSnapshot other waiting => decide (other = room →
            (snapshotProgress document).1 ≤ (snapshotProgress waiting).1 ∧
              (snapshotProgress document).2 ≤ (snapshotProgress waiting).2)
        | _ => true
    | some (.deleteRoomKeys room _) => config.pending.all fun
        | .setSnapshot other _ => decide (other ≠ room)
        | _ => true
    | _ => true) &&
  match choice with
  | .event (.roomStateExpires room) => decide (room ∉ config.state.engine.live)
  | _ => true

theorem keepsSnapshots_sound (choice : ServerChoice) (config : ServerConfig)
    (checked : keepsSnapshots choice config = true) : KeepsSnapshots choice config := by
  unfold keepsSnapshots at checked
  rw [Bool.and_eq_true] at checked
  obtain ⟨ordered, unexpired⟩ := checked
  refine ⟨⟨?_, ?_⟩, ?_⟩
  · intro room document executed waiting pending
    simp only [executed] at ordered
    have behind := of_decide_eq_true (List.all_eq_true.mp ordered _ pending)
    exact behind rfl
  · intro room playerIds executed waiting pending
    simp only [executed] at ordered
    have other := of_decide_eq_true (List.all_eq_true.mp ordered _ pending)
    exact other rfl
  · intro room expires
    subst expires
    exact of_decide_eq_true unexpired

def sweepGoesOn (position : Nat) (choice : ServerChoice) (config : ServerConfig) : Bool :=
  keepsSnapshots choice config && match choice with
    | .fail task => decide (task ≠ position)
    | _ => true

theorem sweepGoesOn_sound (position : Nat) (choice : ServerChoice) (config : ServerConfig)
    (checked : sweepGoesOn position choice config = true) :
    SweepGoesOn position choice config := by
  unfold sweepGoesOn at checked
  rw [Bool.and_eq_true] at checked
  refine ⟨keepsSnapshots_sound choice config checked.1, ?_⟩
  intro fails
  subst fails
  exact of_decide_eq_true checked.2 rfl

/-- The rookies are matched, and Ada claims a corner. -/
def claimCorner : List ServerChoice :=
  formMatch "room-1" 19 ++
    .event (.callProcessAction "room-1" "ada" (.str "place")
      (.obj [("x", .int 0), ("y", .int 0)])) :: proceed 2 3

/-- The process is stopped while the snapshot in Redis lacks the claim. -/
theorem recoversMoves_of_swept_rookies : ∃ before done saved,
    (server { instanceId := "inst-1" }).Reaches (booted waitingRookies []) KeepsSnapshots before ∧
      (server { instanceId := "inst-1" }).Reaches (stopEngine before)
        (SweepGoesOn before.tasks.length) done ∧
      before.state.engine.find "room-1" = some saved ∧ saved.actionHistory.length = 1 ∧
      (∃ document, before.state.redis.roomStates "room-1" = some document ∧
        (snapshotProgress document).1 = 0) ∧
      RecoversMoves done "room-1" saved := by
  have runs : ((server { instanceId := "inst-1" }).runChecked keepsSnapshots claimCorner
      (booted waitingRookies [])).any (fun before =>
        (before.state.engine.find "room-1").any (fun saved =>
          decide (saved.actionHistory.length = 1)) &&
        (before.state.redis.roomStates "room-1").any (fun document =>
          decide ((snapshotProgress document).1 = 0)) &&
        ((server { instanceId := "inst-1" }).runChecked (sweepGoesOn before.tasks.length)
          (proceed before.tasks.length 2) (stopEngine before)).any fun done =>
            (done.tasks[before.tasks.length]?).any List.isEmpty) = true := by
    decide +kernel
  obtain ⟨before, executed, holds⟩ := Option.any_eq_true _ _ |>.mp runs
  rw [Bool.and_eq_true, Bool.and_eq_true] at holds
  obtain ⟨⟨hasGame, hasState⟩, sweeps⟩ := holds
  obtain ⟨saved, found, moved⟩ := Option.any_eq_true _ _ |>.mp hasGame
  obtain ⟨document, stored, lacks⟩ := Option.any_eq_true _ _ |>.mp hasState
  obtain ⟨done, swept, isDone⟩ := Option.any_eq_true _ _ |>.mp sweeps
  obtain ⟨list, present, empty⟩ := Option.any_eq_true _ _ |>.mp isDone
  have reached := Machine.reaches_of_runChecked keepsSnapshots_sound .start executed
  have sweeping :=
    Machine.reaches_of_runChecked (sweepGoesOn_sound before.tasks.length) .start swept
  refine ⟨before, done, saved, reached, sweeping, found, of_decide_eq_true moved,
    ⟨document, stored, of_decide_eq_true lacks⟩,
    recoversMoves_of_swept (by simp [waitingRookies]) reached .stop sweeping ?_ .start found⟩
  intro other same
  cases present.symm.trans same
  simp [List.isEmpty_iff.mp empty]

end TerritoryBackend

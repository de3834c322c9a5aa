import TerritoryBackend.RoomCleanup

/-!
# Snapshots and their order

`_save_snapshot` serializes the game and then awaits the command that stores it,
and several tasks do so for one room.  A command that waits longer than a later one
of another task overwrites a newer snapshot, or writes the key again after its
deletion.  As long as no command overtakes an older snapshot, what is stored about a
room never goes back.
-/

namespace TerritoryBackend

open EventLoop

/-- The turn number and the finished status a stored snapshot shows, with the
defaults of its fields. -/
def snapshotProgress (document : Json) : Nat × Bool :=
  (((document.member? "turn_number").bind JsonCodec.nat.decode).getD 0,
    decide ((document.member? "status").bind GameStatus.codec.decode = some .finished))

def ActiveGame.progress (game : ActiveGame) : Nat × Bool :=
  (game.turnNumber, decide (game.status = .finished))

/-- From now on, what is stored about a room does not go back, and what is being
deleted is not written again. -/
structure SnapshotsKept (settings : Settings) (guard : ServerChoice → ServerConfig → Prop)
    (before : ServerConfig) : Prop where
  advances : ∀ room earlier document later, (server settings).Reaches before guard later →
    before.state.redis.roomStates room = some earlier →
    later.state.redis.roomStates room = some document →
    snapshotProgress earlier ≤ snapshotProgress document
  deleted : ∀ choice after room playerIds later, guard choice before →
    (server settings).step choice before = some after →
    before.executed choice = some (.deleteRoomKeys room playerIds) →
    (server settings).Reaches after guard later → later.state.redis.roomStates room = none

/-- In every run the snapshots are kept, the ones at the start being of taken rooms. -/
def SnapshotsAdvance (settings : Settings) (guard : ServerChoice → ServerConfig → Prop) : Prop :=
  ∀ redis roomIds, (∀ room, redis.roomStates room ≠ none → room ∈ roomIds) →
    ∀ config, (server settings).Reaches (booted redis roomIds) guard config →
      SnapshotsKept settings guard config

/-- No command about a room overtakes an older snapshot of it: a SET takes effect
only when no SET in flight shows less than it does, and the keys of a room are
deleted only when no SET of it is in flight. -/
structure CommandsInOrder (choice : ServerChoice) (config : ServerConfig) : Prop where
  sets : ∀ room document, config.executed choice = some (.setSnapshot room document) →
    ∀ waiting, .setSnapshot room waiting ∈ config.pending →
      snapshotProgress document ≤ snapshotProgress waiting
  deletes : ∀ room playerIds, config.executed choice = some (.deleteRoomKeys room playerIds) →
    ∀ waiting, .setSnapshot room waiting ∉ config.pending

variable {settings : Settings} {choice : ServerChoice} {before after : ServerConfig}
  {room : RoomId} {game next : ActiveGame} {document : Json}

theorem progress_serialize (state : RedisGameState) :
    snapshotProgress state.serialize = (state.turnNumber, decide (state.status = .finished)) := by
  simp [snapshotProgress, RedisGameState.serialize, Json.member?, List.lookup_cons]

/-- A snapshot shows the game it was taken of. -/
theorem progress_of_saved {engine : GameEngine} {now : Time}
    (saves : engine.saveSnapshot room now = .ok (some document)) :
    ∃ game, engine.find room = some game ∧ snapshotProgress document = game.progress := by
  unfold GameEngine.saveSnapshot at saves
  split at saves
  · cases saves
  · rename_i game found
    refine ⟨game, found, ?_⟩
    unfold ActiveGame.toRedisState at saves
    split at saves
    · cases saves
    · cases saves
      exact progress_serialize _

theorem ActiveGame.Step.progress_le (step : game.Step next) : game.progress ≤ next.progress := by
  cases step with
  | acted passed =>
      obtain ⟨-, -, -, -, turn, -⟩ := processAction_frame passed
      have inProgress := (processAction_passed passed).1
      constructor
      · simp only [progress]
        omega
      · simp [progress, inProgress]
  | paused player inProgress => exact ⟨le_rfl, by simp [progress, inProgress]⟩
  | forfeited absent => exact ⟨le_rfl, by simp [progress]⟩
  | resumed player =>
      refine ⟨le_rfl, ?_⟩
      simp only [progress, handlePlayerReconnect]
      split
      · rename_i resumes
        simp [resumes.1]
      · exact le_rfl

/-- A new snapshot is taken of the game of the room. -/
theorem setSnapshot_before (step : (server settings).step choice before = some after)
    (pending : .setSnapshot room document ∈ after.pending) :
    .setSnapshot room document ∈ before.pending ∨
      before.executed choice = some (.saveSnapshot room) ∧ after.state = before.state ∧
        ∃ game, before.state.engine.find room = some game ∧
          snapshotProgress document = game.progress := by
  rcases announced_of_step step pending with
    old | isPlain | ⟨-, instruction, answer, block, -, executed, effect, state, announces⟩
  · exact .inl old
  · cases isPlain
  · cases announces with
    | plain _ isPlain => cases isPlain
    | saved saves =>
        simp only [Instr.block, World.saveSnapshot, saves] at effect
        split at effect <;> cases effect
        exact .inr ⟨executed, state, progress_of_saved saves⟩
    | @handingOn _ _ _ _ later sender sent goesOn =>
        cases later <;> simp [AfterSend.next] at goesOn

/-- What a step does to the snapshot of a room. -/
theorem roomState_step (step : (server settings).step choice before = some after)
    (room : RoomId) :
    after.state.redis.roomStates room = before.state.redis.roomStates room ∨
      after.state.redis.roomStates room = none ∨
      ∃ document, before.executed choice = some (.setSnapshot room document) ∧
        after.state.redis.roomStates room = some document := by
  have change := worldStep_of_step step
  generalize after.state = world at change
  cases change with
  | wrote executed writes =>
      cases writes with
      | snapshot written document =>
          by_cases same : room = written
          · subst same
            exact .inr (.inr ⟨document, executed, by simp [World.updateRedis]⟩)
          · exact .inl (by simp [World.updateRedis, same])
      | deleteKeys deleted playerIds =>
          by_cases same : room = deleted
          · exact .inr (.inl (by simp [World.updateRedis, Redis.deleteRoomKeys, same]))
          · exact .inl (by simp [World.updateRedis, Redis.deleteRoomKeys, same])
      | _ => exact .inl rfl
  | failed task => exact .inl rfl
  | happened effect =>
      cases ServerEvent.happens effect with
      | roomStateExpires expired =>
          by_cases same : room = expired
          · exact .inr (.inl (by simp [World.updateRedis, same]))
          · exact .inl (by simp [World.updateRedis, same])
      | _ => exact .inl rfl

/-- What is stored and what is in flight about a room does not go beyond its game,
and what is in flight does not fall behind what is stored. -/
structure SnapshotsSound (config : ServerConfig) : Prop where
  current : ∀ room document, .setSnapshot room document ∈ config.pending →
    ∃ game, config.state.engine.games room = some game ∧
      snapshotProgress document ≤ game.progress
  stored : ∀ room document game, config.state.redis.roomStates room = some document →
    config.state.engine.games room = some game → snapshotProgress document ≤ game.progress
  ordered : ∀ room document waiting, config.state.redis.roomStates room = some document →
    .setSnapshot room waiting ∈ config.pending →
    snapshotProgress document ≤ snapshotProgress waiting
  taken : ∀ room, config.state.redis.roomStates room ≠ none →
    room ∈ config.state.roomIds ∧ ∀ pair, .createGame room pair ∉ config.pending
  removed : ∀ room playerIds, .deleteRoomKeys room playerIds ∈ config.pending →
    room ∉ config.state.engine.live ∧ (config.state.engine.games room).isSome = true

theorem progress_step (registered : Registered before)
    (step : (server settings).step choice before = some after)
    (stored : before.state.engine.games room = some game) :
    ∃ next, after.state.engine.games room = some next ∧ game.progress ≤ next.progress := by
  obtain ⟨next, storedNext, rfl | steps⟩ := game_after_step registered step stored
  · exact ⟨next, storedNext, le_rfl⟩
  · exact ⟨next, storedNext, steps.progress_le⟩

namespace SnapshotsSound

section Step

variable (sound : SnapshotsSound before) (registered : Registered before)
  (step : (server settings).step choice before = some after)

include sound registered step

theorem current_step (pending : .setSnapshot room document ∈ after.pending) :
    ∃ game, after.state.engine.games room = some game ∧
      snapshotProgress document ≤ game.progress := by
  rcases setSnapshot_before step pending with old | ⟨-, state, game, found, shows⟩
  · obtain ⟨game, stored, behind⟩ := sound.current room document old
    obtain ⟨next, storedNext, grows⟩ := progress_step registered step stored
    exact ⟨next, storedNext, behind.trans grows⟩
  · rw [state]
    exact ⟨game, (GameEngine.find_eq_some.mp found).2, shows.le⟩

theorem stored_step (kept : after.state.redis.roomStates room = some document)
    (stored : after.state.engine.games room = some next) :
    snapshotProgress document ≤ next.progress := by
  rcases roomState_step step room with same | gone | ⟨written, executed, writes⟩
  · rw [same] at kept
    rcases game_before_step step stored with ⟨game, known, rfl | steps⟩ | ⟨pair, executed, -⟩
    · exact sound.stored room document next kept known
    · exact (sound.stored room document game kept known).trans steps.progress_le
    · exact absurd (Config.mem_pending_of_executed executed)
        ((sound.taken room (by simp [kept])).2 pair)
  · rw [gone] at kept
    cases kept
  · cases writes.symm.trans kept
    obtain ⟨game, known, behind⟩ :=
      sound.current room document (Config.mem_pending_of_executed executed)
    obtain ⟨later, storedLater, grows⟩ := progress_step registered step known
    cases stored.symm.trans storedLater
    exact behind.trans grows

omit registered in
theorem ordered_step (allowed : CommandsInOrder choice before)
    (kept : after.state.redis.roomStates room = some document) {waiting : Json}
    (pending : .setSnapshot room waiting ∈ after.pending) :
    snapshotProgress document ≤ snapshotProgress waiting := by
  rcases setSnapshot_before step pending with old | ⟨executed, state, game, found, shows⟩
  · rcases roomState_step step room with same | gone | ⟨written, executed, writes⟩
    · exact sound.ordered room document waiting (same ▸ kept) old
    · rw [gone] at kept
      cases kept
    · cases writes.symm.trans kept
      exact allowed.sets room document executed waiting old
  · rw [state] at kept
    rw [shows]
    exact sound.stored room document game kept (GameEngine.find_eq_some.mp found).2

theorem taken_step (kept : after.state.redis.roomStates room ≠ none) :
    room ∈ after.state.roomIds ∧ ∀ pair, .createGame room pair ∉ after.pending := by
  have known : room ∈ before.state.roomIds ∧ ∀ pair, .createGame room pair ∉ before.pending := by
    rcases roomState_step step room with same | gone | ⟨written, executed, writes⟩
    · exact sound.taken room (same ▸ kept)
    · exact absurd gone kept
    · obtain ⟨game, stored, -⟩ :=
        sound.current room written (Config.mem_pending_of_executed executed)
      refine ⟨registered.drawn (.inr (by rw [stored]; rfl)), ?_⟩
      intro pair pending
      have unknown := (registered.unregistered pending).1
      rw [stored] at unknown
      cases unknown
  constructor
  · exact roomIds_step step known.1
  · intro pair pending
    exact known.2 pair (createGame_before step pending known.1)

end Step

theorem step (sound : SnapshotsSound before) (registered : Registered before)
    (allowed : CommandsInOrder choice before)
    (step : (server settings).step choice before = some after) : SnapshotsSound after where
  current _ _ pending := sound.current_step registered step pending
  stored _ _ _ kept stored := sound.stored_step registered step kept stored
  ordered _ _ _ kept pending := sound.ordered_step step allowed kept pending
  taken _ kept := sound.taken_step registered step kept
  removed room _ pending :=
    TerritoryBackend.removed_step registered (sound.removed room) step pending

end SnapshotsSound

theorem snapshotsSound_of_reaches {redis : Redis} {roomIds : List RoomId} {config : ServerConfig}
    (taken : ∀ room, redis.roomStates room ≠ none → room ∈ roomIds)
    (reached : (server settings).Reaches (booted redis roomIds) CommandsInOrder config) :
    SnapshotsSound config := by
  induction reached with
  | start =>
      refine ⟨?_, ?_, ?_, fun room kept => ⟨taken room kept, ?_⟩, ?_⟩ <;>
        simp [booted, Config.pending]
  | step reached allowed step ih => exact ih.step (registered_of_reaches reached) allowed step

/-- Whatever is stored about the room, now or later, shows at least this progress. -/
structure AtLeast (progress : Nat × Bool) (room : RoomId) (config : ServerConfig) : Prop where
  drawn : room ∈ config.state.roomIds
  registered : ∀ pair, .createGame room pair ∉ config.pending
  stored : ∀ document, config.state.redis.roomStates room = some document →
    progress ≤ snapshotProgress document
  waiting : ∀ document, .setSnapshot room document ∈ config.pending →
    progress ≤ snapshotProgress document
  game : ∀ game, config.state.engine.games room = some game → progress ≤ game.progress

theorem AtLeast.step {progress : Nat × Bool} (atLeast : AtLeast progress room before)
    (step : (server settings).step choice before = some after) : AtLeast progress room after where
  drawn := roomIds_step step atLeast.drawn
  registered pair pending :=
    atLeast.registered pair (createGame_before step pending atLeast.drawn)
  stored document kept := by
    rcases roomState_step step room with same | gone | ⟨written, executed, writes⟩
    · exact atLeast.stored document (same ▸ kept)
    · rw [gone] at kept
      cases kept
    · cases writes.symm.trans kept
      exact atLeast.waiting document (Config.mem_pending_of_executed executed)
  waiting document pending := by
    rcases setSnapshot_before step pending with old | ⟨-, -, game, found, shows⟩
    · exact atLeast.waiting document old
    · rw [shows]
      exact atLeast.game game (GameEngine.find_eq_some.mp found).2
  game next stored := by
    rcases game_before_step step stored with ⟨game, known, rfl | steps⟩ | ⟨pair, executed, -⟩
    · exact atLeast.game next known
    · exact (atLeast.game game known).trans steps.progress_le
    · exact absurd (Config.mem_pending_of_executed executed) (atLeast.registered pair)

/-- The snapshot of the room is deleted for good. -/
structure Erased (room : RoomId) (config : ServerConfig) : Prop where
  stored : config.state.redis.roomStates room = none
  waiting : ∀ document, .setSnapshot room document ∉ config.pending
  removed : room ∉ config.state.engine.live ∧ (config.state.engine.games room).isSome = true

theorem Erased.step (erased : Erased room before) (registered : Registered before)
    (step : (server settings).step choice before = some after) : Erased room after where
  stored := by
    rcases roomState_step step room with same | gone | ⟨written, executed, -⟩
    · exact same.trans erased.stored
    · exact gone
    · exact absurd (Config.mem_pending_of_executed executed) (erased.waiting written)
  waiting document pending := by
    rcases setSnapshot_before step pending with old | ⟨-, -, game, found, -⟩
    · exact erased.waiting document old
    · exact erased.removed.1 (GameEngine.find_eq_some.mp found).1
  removed := registered.removed_step step erased.removed.1 erased.removed.2

theorem erased_of_deleted (sound : SnapshotsSound before) (registered : Registered before)
    (allowed : CommandsInOrder choice before)
    (step : (server settings).step choice before = some after) {playerIds : List PlayerId}
    (executed : before.executed choice = some (.deleteRoomKeys room playerIds)) :
    Erased room after where
  stored := by
    obtain ⟨answer, block, effect, state⟩ := Machine.block_of_executed step executed
    cases effect
    simp [state, World.deleteRoomKeys, World.updateRedis, Redis.deleteRoomKeys]
  waiting document pending := by
    rcases setSnapshot_before step pending with old | ⟨executedAlso, -⟩
    · exact allowed.deletes room playerIds executed document old
    · cases executed.symm.trans executedAlso
  removed :=
    have removed := sound.removed room playerIds (Config.mem_pending_of_executed executed)
    registered.removed_step step removed.1 removed.2

/-- Main result: when no command overtakes an older snapshot, snapshots do not go
back. -/
theorem snapshotsAdvance_of_commandsInOrder (settings : Settings) :
    SnapshotsAdvance settings CommandsInOrder := by
  intro redis roomIds taken before reached
  have sound := snapshotsSound_of_reaches taken reached
  have registered := registered_of_reaches reached
  constructor
  · intro room earlier document later reaches stored kept
    have known := sound.taken room (by simp [stored])
    have start : AtLeast (snapshotProgress earlier) room before :=
      ⟨known.1, known.2, fun shown same => by rw [Option.some.inj (stored.symm.trans same)],
        fun waiting pending => sound.ordered room earlier waiting stored pending,
        fun game isGame => sound.stored room earlier game stored isGame⟩
    have still := reaches.invariant start fun _ _ _ _ atLeast step => atLeast.step step
    exact still.stored document kept
  · intro choice after room playerIds later allowed step executed reaches
    have erased : Erased room later ∧ Registered later := by
      induction reaches with
      | start =>
          exact ⟨erased_of_deleted sound registered allowed step executed, registered.step step⟩
      | step _ _ next ih => exact ⟨ih.1.step ih.2 next, ih.2.step next⟩
    exact erased.1.stored

/-- The command that stores a snapshot of the room. -/
def Instr.stores : Instr → Prop
  | .setSnapshot .. => True
  | _ => False

theorem stores_plain {instruction : Instr} (isPlain : instruction.plain = true) :
    ¬ instruction.stores := by
  cases instruction with
  | setSnapshot => cases isPlain
  | _ => exact id

theorem stores_before {instruction next : Instr} {answer : Answer} {world : World}
    (announces : instruction.Announces world answer next) (stores : next.stores) :
    ∃ room, instruction = .saveSnapshot room := by
  cases announces with
  | plain _ isPlain => exact absurd stores (stores_plain isPlain)
  | saved => exact ⟨_, rfl⟩
  | @handingOn _ _ _ _ later sender sent goesOn =>
      cases next with
      | setSnapshot => cases later <;> simp [AfterSend.next] at goesOn
      | _ => cases stores
  | _ => cases stores

theorem stores_block {instruction : Instr} {answer : Answer} {world : World}
    {block : Block World Instr} (effect : instruction.block settings answer world = some block) :
    (∀ next ∈ block.next.tail, ¬ next.stores) ∧ ∀ next ∈ block.spawned.flatten, ¬ next.stores := by
  by_cases saves : ∃ room, instruction = .saveSnapshot room
  · obtain ⟨room, rfl⟩ := saves
    simp only [Instr.block, World.saveSnapshot] at effect
    (repeat' split at effect) <;> cases effect <;> simp
  · have silent (next : Instr) (member : next ∈ block.next ∨ next ∈ block.spawned.flatten) :
        ¬ next.stores :=
      fun stores => saves (stores_before (Instr.block_announces effect member) stores)
    constructor
    · intro next member
      exact silent next (.inl (List.mem_of_mem_tail member))
    · intro next member
      exact silent next (.inr member)

/-- A snapshot is sent to Redis as soon as it has been taken. -/
theorem stores_inFront {redis : Redis} {roomIds : List RoomId}
    {guard : ServerChoice → ServerConfig → Prop} {config : ServerConfig}
    (reached : (server settings).Reaches (booted redis roomIds) guard config) :
    InFront Instr.stores config.tasks := by
  induction reached with
  | start => simp [InFront, booted]
  | step reached allowed step ih =>
      refine ih.step (fun _ _ _ effect => stores_block effect)
        (fun task next member => stores_plain (Instr.plain_of_unwind member)) ?_ step
      intro event state spawned effect next member
      cases ServerEvent.happens effect <;> simp at member <;> subst member <;> exact id

/-- A snapshot that another command has overtaken may be stored next. -/
theorem stored_after_overtaking {redis : Redis} {roomIds : List RoomId}
    {guard : ServerChoice → ServerConfig → Prop}
    (reached : (server settings).Reaches (booted redis roomIds) guard before)
    (step : (server settings).step choice before = some after) {instruction : Instr}
    (executed : before.executed choice = some instruction) (remote : instruction.kind = .remote)
    {waiting : Json} (pending : .setSnapshot room waiting ∈ before.pending)
    (different : Instr.setSnapshot room waiting ≠ instruction) :
    ∃ next last, (server settings).step next after = some last ∧
      last.state.redis.roomStates room = some waiting := by
  obtain ⟨task, rest, front⟩ := (stores_inFront reached).eq_cons pending trivial
  have effect : (server settings).block (.setSnapshot room waiting) .done after.state =
      some (after.state.setSnapshot room waiting) := rfl
  obtain ⟨last, next, state⟩ := Machine.step_other step executed remote front different effect
  refine ⟨_, last, next, ?_⟩
  rw [state]
  simp [World.setSnapshot, World.updateRedis]

/-- The order is needed: after a step that breaks it, a snapshot may go back or come
back at once. -/
theorem goesBack_of_overtaking {redis : Redis} {roomIds : List RoomId}
    {guard : ServerChoice → ServerConfig → Prop}
    (reached : (server settings).Reaches (booted redis roomIds) guard before)
    (step : (server settings).step choice before = some after)
    (overtakes : ¬ CommandsInOrder choice before) :
    ∃ room waiting next last, (server settings).step next after = some last ∧
      last.state.redis.roomStates room = some waiting ∧
      ((∃ document, after.state.redis.roomStates room = some document ∧
          ¬ snapshotProgress document ≤ snapshotProgress waiting) ∨
        ∃ playerIds, before.executed choice = some (.deleteRoomKeys room playerIds)) := by
  by_contra never
  refine overtakes ⟨?_, ?_⟩
  · intro room document executed waiting pending
    by_contra behind
    have different : Instr.setSnapshot room waiting ≠ .setSnapshot room document := by
      rintro same
      cases same
      exact behind le_rfl
    obtain ⟨next, last, nextStep, stored⟩ :=
      stored_after_overtaking reached step executed rfl pending different
    refine never ⟨room, waiting, next, last, nextStep, stored, .inl ⟨document, ?_, behind⟩⟩
    obtain ⟨answer, block, effect, state⟩ := Machine.block_of_executed step executed
    cases effect
    simp [state, World.setSnapshot, World.updateRedis]
  · intro room playerIds executed waiting pending
    obtain ⟨next, last, nextStep, stored⟩ :=
      stored_after_overtaking reached step executed rfl pending (by rintro ⟨⟩)
    exact never ⟨room, waiting, next, last, nextStep, stored, .inr ⟨playerIds, executed⟩⟩

/-- The first snapshot of a game waits for a connection while a turn is played and
the snapshot loop stores the next one. -/
def overtakenSnapshot : List ServerChoice :=
  formMatch "room-1" 18 ++
    .event (.callProcessAction "room-1" "ada" (.str "place")
      (.obj [("x", .int 0), ("y", .int 0)])) :: proceed 2 3 ++ proceed 1 3

/-- The snapshot stored for the room shows a turn of an unfinished game. -/
def storesTurn (turn : Nat) (config : ServerConfig) : Bool :=
  (config.state.redis.roomStates "room-1").any fun document =>
    decide (snapshotProgress document = (turn, false))

theorem exists_of_storesTurn {turn : Nat} {config : ServerConfig}
    (stores : storesTurn turn config = true) :
    ∃ document, config.state.redis.roomStates "room-1" = some document ∧
      snapshotProgress document = (turn, false) := by
  obtain ⟨document, stored, shows⟩ := Option.any_eq_true _ _ |>.mp stores
  exact ⟨document, stored, of_decide_eq_true shows⟩

theorem overtakenSnapshot_goesBack :
    ¬ SnapshotsAdvance { instanceId := "inst-1" } unguarded := by
  intro advance
  have reverts : ((server { instanceId := "inst-1" }).run overtakenSnapshot
      (booted waitingRookies [])).any (fun config => storesTurn 1 config &&
        ((server { instanceId := "inst-1" }).step (.resume 0 .done) config).any
          (storesTurn 0)) = true := by
    decide +kernel
  obtain ⟨config, executed, reverts⟩ := Option.any_eq_true _ _ |>.mp reverts
  obtain ⟨newer, older⟩ := Bool.and_eq_true_iff.mp reverts
  obtain ⟨last, step, older⟩ := Option.any_eq_true _ _ |>.mp older
  obtain ⟨first, storedFirst, showsFirst⟩ := exists_of_storesTurn newer
  obtain ⟨second, storedSecond, showsSecond⟩ := exists_of_storesTurn older
  have kept := advance waitingRookies [] (by simp [waitingRookies]) config
    (Machine.reaches_of_run .start executed)
  have advances := kept.advances "room-1" first second last (.step .start trivial step)
    storedFirst storedSecond
  rw [showsFirst, showsSecond] at advances
  exact absurd advances.1 (by decide)

end TerritoryBackend

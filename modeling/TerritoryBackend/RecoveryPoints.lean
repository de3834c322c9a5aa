import TerritoryBackend.MessageOrigins
import TerritoryBackend.Placement
import TerritoryBackend.SnapshotOrder

/-!
# What a crash leaves behind

Whenever an instance stops, what Redis holds about one of its rooms is an earlier
stage of the game and the two players of the match.  A recovery from the two keys
never invents anything: it goes back to that stage, at whatever point of whatever
coroutine the instance was stopped and whichever commands have failed.
-/

namespace TerritoryBackend

open EventLoop

/-- A game rebuilt from a snapshot of this stage.  Whoever was to move, the first of
the players is; nobody is away, and the ratings are not known. -/
structure RebuiltFrom (stage game restored : ActiveGame) : Prop where
  players : restored.playerIds = game.playerIds
  board : restored.board = stage.board
  scores : restored.scores = stage.scores
  turnNumber : restored.turnNumber = stage.turnNumber
  status : restored.status = stage.status
  winner : restored.winnerId = stage.winnerId
  history : restored.actionHistory = lastOf 20 stage.actionHistory
  toMove : restored.currentPlayerIdx = 0
  absentees : restored.disconnectedPlayers = ∅
  ratings : restored.playerElos = ∅

/-- What is stored about the room takes any instance back to a stage the game has
passed: a prefix of its actions on a well-formed board, with every cell owned as it is
now. -/
def Recoverable (config : ServerConfig) (room : RoomId) (game : ActiveGame) : Prop :=
  ∀ (recovering : GameEngine) (document : Json) (data : RoomField → Option RedisText)
    (now : Time), config.state.redis.roomStates room = some document →
    config.state.redis.rooms room = some data →
    ∃ stage restored, stage.Lives game ∧
      recovering.restoreGameFromSnapshot room (some document) (some data) now =
        .ok (recovering.register room restored, some restored) ∧
      RebuiltFrom stage game restored ∧
      stage.actionHistory <+: game.actionHistory ∧
      stage.turnNumber = stage.actionHistory.length ∧
      restored.board.WellFormed ∧
      ∀ column line, restored.board.cell column line ≠ 0 →
        game.board.cell column line = restored.board.cell column line

/-- Every game of every reachable configuration is recoverable, the rooms mentioned
in Redis at the start being taken. -/
def AlwaysRecoverable (settings : Settings) (guard : ServerChoice → ServerConfig → Prop) : Prop :=
  ∀ redis roomIds,
    (∀ room, redis.roomStates room ≠ none ∨ redis.rooms room ≠ none → room ∈ roomIds) →
    ∀ config, (server settings).Reaches (booted redis roomIds) guard config →
      ∀ room game, config.state.engine.games room = some game → Recoverable config room game

/-- The document is a snapshot of this stage. -/
def SnapshotOf (stage : ActiveGame) (document : Json) : Prop :=
  ∃ now state, stage.toRedisState now = .ok state ∧ document = state.serialize

/-- The room is taken, but there is no game in it and there will be none. -/
structure Vacant (config : ServerConfig) (room : RoomId) : Prop where
  drawn : room ∈ config.state.roomIds
  unregistered : ∀ pair, .createGame room pair ∉ config.pending
  empty : config.state.engine.games room = none

/-- Whatever game the room has or gets is the one of this pair. -/
structure Paired (config : ServerConfig) (room : RoomId) (pair : MatchedPair) : Prop where
  drawn : room ∈ config.state.roomIds
  plays : ∀ game, config.state.engine.games room = some game → game.playerIds = pair.playerIds
  willPlay : ∀ other, .createGame room other ∈ config.pending → other = pair

variable {settings : Settings} {choice : ServerChoice} {before after : ServerConfig}
  {room : RoomId} {pair : MatchedPair} {game stage next : ActiveGame} {document : Json}

theorem Vacant.step (vacant : Vacant before room)
    (step : (server settings).step choice before = some after) : Vacant after room where
  drawn := roomIds_step step vacant.drawn
  unregistered pair pending :=
    vacant.unregistered pair (createGame_before step pending vacant.drawn)
  empty := by
    cases stored : after.state.engine.games room with
    | none => rfl
    | some game =>
        rcases game_before_step step stored with ⟨known, same, -⟩ | ⟨pair, executed, -⟩
        · rw [vacant.empty] at same
          cases same
        · exact absurd (Config.mem_pending_of_executed executed) (vacant.unregistered pair)

theorem Paired.step (paired : Paired before room pair)
    (step : (server settings).step choice before = some after) : Paired after room pair where
  drawn := roomIds_step step paired.drawn
  plays game stored := by
    rcases game_before_step step stored with ⟨known, same, rfl | steps⟩ | ⟨other, executed, rfl⟩
    · exact paired.plays game same
    · exact steps.playerIds.trans (paired.plays known same)
    · cases paired.willPlay other (Config.mem_pending_of_executed executed)
      rfl
  willPlay other pending :=
    paired.willPlay other (createGame_before step pending paired.drawn)

theorem Vacant.not_stored (vacant : Vacant before room) :
    before.state.engine.games room ≠ some game := by
  simp [vacant.empty]

theorem snapshotOf_of_saved {engine : GameEngine} {now : Time}
    (saves : engine.saveSnapshot room now = .ok (some document)) :
    ∃ game, engine.find room = some game ∧ SnapshotOf game document := by
  unfold GameEngine.saveSnapshot at saves
  split at saves
  · cases saves
  · rename_i game found
    cases taken : game.toRedisState now with
    | error error => simp [taken, Except.map] at saves
    | ok state =>
        simp only [taken, Except.map, Except.ok.injEq, Option.some.injEq] at saves
        exact ⟨game, found, now, state, taken, saves.symm⟩

/-- A snapshot on its way to Redis is one the step has taken, or it was on its way. -/
theorem waiting_before (step : (server settings).step choice before = some after)
    (pending : .setSnapshot room document ∈ after.pending) :
    .setSnapshot room document ∈ before.pending ∨
      ∃ game, before.state.engine.games room = some game ∧ SnapshotOf game document := by
  rcases announced_of_step step pending with
    old | isPlain | ⟨-, instruction, answer, block, -, executed, effect, state, announces⟩
  · exact .inl old
  · cases isPlain
  · cases announces with
    | plain _ isPlain => cases isPlain
    | saved saves =>
        obtain ⟨game, found, taken⟩ := snapshotOf_of_saved saves
        exact .inr ⟨game, (GameEngine.find_eq_some.mp found).2, taken⟩
    | @handingOn _ _ _ _ later sender sent goesOn =>
        cases later <;> simp [AfterSend.next] at goesOn

/-- The hash `_create_match` stores. -/
theorem storeRoom_rooms (world : World) (room : RoomId) (pair : MatchedPair) :
    (world.storeRoom settings room pair).state.redis.rooms =
      Function.update world.redis.rooms room
        (some (RedisRoom.ofPair settings room pair world.clock).toDict) := by
  simp only [World.storeRoom, World.goOn_state, World.updateRedis]
  congr 2
  funext field
  cases field <;> rfl

/-- What a step does to the hash of a room. -/
theorem roomData_step (step : (server settings).step choice before = some after)
    (room : RoomId) :
    after.state.redis.rooms room = before.state.redis.rooms room ∨
      after.state.redis.rooms room = none ∨
      ∃ pair, before.executed choice = some (.storeRoom room pair) ∧
        after.state.redis.rooms room =
          some (RedisRoom.ofPair settings room pair before.state.clock).toDict := by
  by_cases stores : ∃ stored pair, before.executed choice = some (.storeRoom stored pair)
  · obtain ⟨stored, pair, executed⟩ := stores
    obtain ⟨_, block, effect, same⟩ := Machine.block_of_executed step executed
    cases effect
    rw [same, storeRoom_rooms]
    by_cases own : room = stored
    · subst own
      exact .inr (.inr ⟨pair, executed, by simp⟩)
    · exact .inl (by simp [own])
  · have change := worldStep_of_step step
    generalize after.state = world at change
    cases change with
    | wrote executed writes =>
        cases writes with
        | store stored pair data => exact absurd ⟨stored, pair, executed⟩ stores
        | deleteKeys deleted playerIds =>
            by_cases same : room = deleted
            · exact .inr (.inl (by simp [World.updateRedis, Redis.deleteRoomKeys, same]))
            · exact .inl (by simp [World.updateRedis, Redis.deleteRoomKeys, same])
        | _ => exact .inl rfl
    | failed task => exact .inl rfl
    | happened effect => cases ServerEvent.happens effect <;> exact .inl rfl

/-- A match is stored for a room that has just been drawn. -/
theorem storing_before (step : (server settings).step choice before = some after)
    (pending : .storeRoom room pair ∈ after.pending) :
    .storeRoom room pair ∈ before.pending ∨
      before.executed choice = some (.createMatch pair) ∧ room ∉ before.state.roomIds ∧
        room ∈ after.state.roomIds := by
  rcases Machine.left_of_step step pending with
    old | ⟨instruction, answer, block, executed, effect, state, member⟩ | ⟨task, -, member⟩ |
      ⟨event, _, _, -, effect, member⟩
  · exact .inl old
  · cases Instr.block_leaves effect member with
    | storing =>
        change before.state.createMatch pair answer = some block at effect
        unfold World.createMatch at effect
        split at effect
        · split at effect
          · cases effect
          · rename_i drawn fresh
            cases effect
            have same : room = drawn := by
              simp only [World.goOn_next, World.goOn_spawned, List.flatten_nil,
                List.not_mem_nil, or_false, List.mem_cons, Instr.storeRoom.injEq, and_true,
                reduceCtorEq] at member
              exact member
            subst same
            exact .inr ⟨executed, fresh, state ▸ List.mem_cons_self⟩
        · cases effect
    | unsendable goesOn | handingOn _ goesOn =>
        rcases AfterSend.next_cases goesOn with carries | ⟨_, _, _, _, carries⟩ <;> cases carries
  · rcases Instr.unwind_cases member with
      ⟨_, _, -, other⟩ | ⟨loop, seconds, -, rfl | rfl, other | other⟩ <;> cases other
  · cases ServerEvent.happens effect <;> simp at member

/-- What is stored or on its way to Redis about the rooms. -/
structure KeepsStages (settings : Settings) (config : ServerConfig) : Prop where
  waiting : ∀ room document, .setSnapshot room document ∈ config.pending →
    ∃ stage, Passed config.state room stage ∧ SnapshotOf stage document
  snapshots : ∀ room document, config.state.redis.roomStates room = some document →
    Vacant config room ∨ ∃ stage, Passed config.state room stage ∧ SnapshotOf stage document
  storing : ∀ room pair, .storeRoom room pair ∈ config.pending → Paired config room pair
  hashes : ∀ room data, config.state.redis.rooms room = some data →
    Vacant config room ∨ ∃ pair now, Paired config room pair ∧
      data = (RedisRoom.ofPair settings room pair now).toDict

theorem paired_of_createMatch (registered : Registered before)
    (step : (server settings).step choice before = some after)
    (executed : before.executed choice = some (.createMatch pair))
    (fresh : room ∉ before.state.roomIds) (drawn : room ∈ after.state.roomIds) :
    Paired after room pair where
  drawn := drawn
  plays game stored := by
    rcases game_before_step step stored with ⟨known, same, -⟩ | ⟨other, creates, -⟩
    · exact absurd (registered.drawn (.inr (by simp [same]))) fresh
    · cases executed.symm.trans creates
  willPlay other pending := by
    rcases registering_before step pending with old | ⟨creates, -⟩
    · exact absurd (registered.drawn (.inl ⟨other, old⟩)) fresh
    · cases executed.symm.trans creates
      rfl

theorem KeepsStages.step (keeps : KeepsStages settings before) (registered : Registered before)
    (passes : ∀ room game, before.state.engine.games room = some game →
      Passed before.state room game)
    (step : (server settings).step choice before = some after) : KeepsStages settings after where
  waiting room document pending := by
    rcases waiting_before step pending with old | ⟨game, stored, taken⟩
    · obtain ⟨stage, passed, taken⟩ := keeps.waiting room document old
      exact ⟨stage, passed.step registered step, taken⟩
    · exact ⟨game, (passes room game stored).step registered step, taken⟩
  snapshots room document kept := by
    rcases roomState_step step room with same | gone | ⟨written, executed, writes⟩
    · rcases keeps.snapshots room document (same ▸ kept) with vacant | ⟨stage, passed, taken⟩
      · exact .inl (vacant.step step)
      · exact .inr ⟨stage, passed.step registered step, taken⟩
    · rw [gone] at kept
      cases kept
    · cases writes.symm.trans kept
      obtain ⟨stage, passed, taken⟩ :=
        keeps.waiting room document (Config.mem_pending_of_executed executed)
      exact .inr ⟨stage, passed.step registered step, taken⟩
  storing room pair pending := by
    rcases storing_before step pending with old | ⟨executed, fresh, drawn⟩
    · exact (keeps.storing room pair old).step step
    · exact paired_of_createMatch registered step executed fresh drawn
  hashes room data kept := by
    rcases roomData_step step room with same | gone | ⟨pair, executed, writes⟩
    · rcases keeps.hashes room data (same ▸ kept) with vacant | ⟨pair, now, paired, stored⟩
      · exact .inl (vacant.step step)
      · exact .inr ⟨pair, now, paired.step step, stored⟩
    · rw [gone] at kept
      cases kept
    · cases writes.symm.trans kept
      exact .inr ⟨pair, _,
        (keeps.storing room pair (Config.mem_pending_of_executed executed)).step step, rfl⟩

theorem keepsStages_of_reaches {redis : Redis} {roomIds : List RoomId}
    {guard : ServerChoice → ServerConfig → Prop} {config : ServerConfig}
    (taken : ∀ room, redis.roomStates room ≠ none ∨ redis.rooms room ≠ none → room ∈ roomIds)
    (reached : (server settings).Reaches (booted redis roomIds) guard config) :
    KeepsStages settings config := by
  induction reached with
  | start =>
      have vacant {room : RoomId} (drawn : room ∈ roomIds) :
          Vacant (booted redis roomIds) room := by
        refine ⟨drawn, ?_, rfl⟩
        intro pair pending
        rcases List.mem_pair.mp pending with other | other <;> cases other
      refine ⟨fun room document pending => ?_,
        fun room document kept => .inl (vacant (taken room (.inl (by
          rw [show redis.roomStates room = some document from kept]; simp)))),
        fun room pair pending => ?_,
        fun room data kept => .inl (vacant (taken room (.inr (by
          rw [show redis.rooms room = some data from kept]; simp))))⟩
      · rcases List.mem_pair.mp pending with other | other <;> cases other
      · rcases List.mem_pair.mp pending with other | other <;> cases other
  | step reached allowed step ih =>
      exact ih.step (registered_of_reaches reached) (fun _ _ => passed_of_reaches reached) step

namespace ActiveGame

theorem Lives.history_prefix (lives : stage.Lives game) :
    stage.actionHistory <+: game.actionHistory := by
  induction lives with
  | refl => exact List.prefix_rfl
  | @tail middle next _ step ih =>
      apply ih.trans
      cases step with
      | acted passed => exact ⟨_, (processAction_history passed).symm⟩
      | _ => exact List.prefix_rfl

/-- The turn number counts the recorded actions. -/
theorem Step.turnNumber_eq (step : game.Step next)
    (counted : game.turnNumber = game.actionHistory.length) :
    next.turnNumber = next.actionHistory.length := by
  cases step with
  | acted passed =>
      rw [processAction_history passed, (processAction_frame passed).2.2.2.2.1, counted]
      simp
  | _ => exact counted

/-- The game a snapshot and the hash of its room give a recovering instance. -/
theorem restore_of_snapshot (settings : Settings) (recovering : GameEngine) (room : RoomId)
    (pair : MatchedPair) (created now : Time) (taken : SnapshotOf stage document)
    (players : game.playerIds = pair.playerIds) :
    ∃ restored, recovering.restoreGameFromSnapshot room (some document)
        (some (RedisRoom.ofPair settings room pair created).toDict) now =
          .ok (recovering.register room restored, some restored) ∧
      RebuiltFrom stage game restored := by
  obtain ⟨savedAt, state, snapshot, rfl⟩ := taken
  have restores := RedisRoom.fromDict_toDict (RedisRoom.ofPair settings room pair created) rfl
  refine ⟨restored room state pair.playerIds now, ?_, ?_⟩
  · simp only [GameEngine.restoreGameFromSnapshot, RedisGameState.deserialize_serialize,
      restores, bind, Except.bind, pure, Except.pure]
    rfl
  · unfold toRedisState at snapshot
    split at snapshot <;> cases snapshot
    exact ⟨players.symm, rfl, rfl, rfl, rfl, rfl, rfl, rfl, rfl, rfl⟩

end ActiveGame

/-- Main result: at any moment of any run, whatever is stored about a game takes a
recovering instance back to a stage of this game. -/
theorem alwaysRecoverable (settings : Settings) : AlwaysRecoverable settings unguarded := by
  intro redis roomIds taken config reached room game stored recovering document data now
    kept hashed
  have keeps := keepsStages_of_reaches taken reached
  rcases keeps.snapshots room document kept with vacant | ⟨stage, passed, snapshot⟩
  · exact absurd stored vacant.not_stored
  rcases keeps.hashes room data hashed with vacant | ⟨pair, created, paired, rfl⟩
  · exact absurd stored vacant.not_stored
  have lives := passed.lives stored
  obtain ⟨_, _, _, -, born, -, -⟩ := passed
  obtain ⟨restored, restores, rebuilt⟩ := ActiveGame.restore_of_snapshot settings recovering room
    pair created now snapshot (paired.plays game stored)
  have wellFormed := born.invariant (fun _ _ holds step => ActiveGame.wellFormed_of_step holds step)
    Board.empty_wellFormed
  refine ⟨stage, restored, lives, restores, rebuilt, lives.history_prefix, born.invariant
    (fun _ _ counted step => step.turnNumber_eq counted) rfl, rebuilt.board ▸ wellFormed, ?_⟩
  intro column line claimed
  rw [rebuilt.board] at claimed ⊢
  exact ActiveGame.cell_of_lives wellFormed lives claimed

/-- Once the first snapshot of a match is stored there is something to recover. -/
theorem alwaysRecoverable_rookies : ∃ config game document data,
    (server { instanceId := "inst-1" }).Reaches (booted waitingRookies []) unguarded config ∧
      config.state.redis.roomStates "room-1" = some document ∧
      config.state.redis.rooms "room-1" = some data ∧
      Recoverable config "room-1" game := by
  have stored : ((server { instanceId := "inst-1" }).run (formMatch "room-1" 19)
      (booted waitingRookies [])).any (fun config =>
        (config.state.engine.games "room-1").isSome &&
          (config.state.redis.roomStates "room-1").isSome &&
          (config.state.redis.rooms "room-1").isSome) = true := by
    decide +kernel
  obtain ⟨config, executed, holds⟩ := Option.any_eq_true _ _ |>.mp stored
  simp only [Bool.and_eq_true] at holds
  obtain ⟨⟨hasGame, hasState⟩, hasRoom⟩ := holds
  obtain ⟨game, storedGame⟩ := Option.isSome_iff_exists.mp hasGame
  obtain ⟨document, kept⟩ := Option.isSome_iff_exists.mp hasState
  obtain ⟨data, hashed⟩ := Option.isSome_iff_exists.mp hasRoom
  have reached := Machine.reaches_of_run .start executed
  exact ⟨config, game, document, data, reached, kept, hashed,
    alwaysRecoverable _ waitingRookies [] (fun room stored => by simp [waitingRookies] at stored)
      config reached "room-1" game storedGame⟩

end TerritoryBackend

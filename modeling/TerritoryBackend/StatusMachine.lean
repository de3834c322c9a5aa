import TerritoryBackend.Coroutines
import TerritoryBackend.GameRuns
import TerritoryBackend.Registration

/-!
# The status of a game on a running server

Games in progress have nobody absent, a paused game waits for one player whose
forfeit timer is outstanding, and a finished game keeps its result.  The timer
of a paused game cannot get lost, because between the pause and its start the
handler only sends messages, and sending never raises.
-/

namespace TerritoryBackend

open EventLoop

/-- The blocks of a `send_personal` whose result is ignored. -/
def Instr.sends : Instr → Bool
  | .sendPersonal _ _ .ignore | .awaitSend _ _ _ .ignore | .forceClose _ => true
  | _ => false

/-- The room and the player a block of a forfeit timer is for, its creation
included. -/
def Instr.timerOf : Instr → Option (RoomId × PlayerId)
  | .createDisconnectTimer room player _ | .disconnectTimer room player
  | .disconnectTimerWakes room player _ => some (room, player)
  | _ => none

/-- A forfeit timer is asleep, about to start, or about to be created by a
handler that only sends messages before. -/
def TimerOutstanding (config : ServerConfig) (room : RoomId) (player : PlayerId) : Prop :=
  Due (fun instruction : Instr => instruction.sends = true)
    (fun instruction => instruction.timerOf = some (room, player)) config.tasks

/-- The part of a game that its end fixes. -/
structure SameResult (game last : ActiveGame) : Prop where
  status : last.status = game.status
  winner : last.winnerId = game.winnerId
  board : last.board = game.board
  scores : last.scores = game.scores
  turnNumber : last.turnNumber = game.turnNumber
  history : last.actionHistory = game.actionHistory

/-- Players are reported absent only for games they play. -/
def DisconnectsPlayers (choice : ServerChoice) (config : ServerConfig) : Prop :=
  ∀ room player caller game,
    config.executed choice = some (.handlePlayerDisconnect room player caller) →
    config.state.engine.games room = some game → player ∈ game.playerIds

/-- The status of every game means what it says. -/
structure StatusSound (settings : Settings) (guard : ServerChoice → ServerConfig → Prop)
    (config : ServerConfig) (room : RoomId) (game : ActiveGame) : Prop where
  inProgress : game.status = .inProgress → game.disconnectedPlayers = ∅
  paused : game.status = .paused → ∃ player ∈ game.playerIds,
    game.disconnectedPlayers = {player} ∧ TimerOutstanding config room player ∧
      config.state.engine.disconnectTimer room player ≠ none
  accepts : ∀ player action data now gameOver,
    (config.state.engine.processAction room player action data now).2 = .accepted gameOver →
      game.status = .inProgress
  finished : game.status = .finished → ∀ later,
    (server settings).Reaches config guard later →
      ∃ last, later.state.engine.games room = some last ∧ SameResult game last

def StatusesSound (settings : Settings) (start : ServerConfig)
    (guard : ServerChoice → ServerConfig → Prop) : Prop :=
  ∀ config, (server settings).Reaches start guard config →
    ∀ room game, config.state.engine.games room = some game →
      StatusSound settings guard config room game

variable {settings : Settings} {choice : ServerChoice} {before after : ServerConfig}
  {room : RoomId} {player : PlayerId} {game next : ActiveGame}

theorem sends_keepsCourse :
    (server settings).KeepsCourse fun instruction => instruction.sends = true := by
  intro instruction answer world block isSend effect
  have effect : instruction.block settings answer world = some block := effect
  unfold Instr.sends at isSend
  split at isSend
  · simp only [Instr.block, World.sendPersonal, Option.some.injEq] at effect
    split at effect <;> cases effect <;> simp [Instr.sends, AfterSend.next]
  · simp only [Instr.block, World.awaitSend] at effect
    split at effect <;> cases effect <;> simp [Instr.sends, AfterSend.next]
  · cases effect
    simp [World.forceClose]
  · cases isSend

theorem sends_infallible {instruction : Instr} (isSend : instruction.sends = true)
    (world : World) : (server settings).fallible instruction world = false := by
  unfold Instr.sends at isSend
  split at isSend
  · rfl
  · rfl
  · rfl
  · cases isSend

theorem timer_infallible {instruction : Instr}
    (isTimer : instruction.timerOf = some (room, player)) (world : World) :
    (server settings).fallible instruction world = false := by
  unfold Instr.timerOf at isTimer
  split at isTimer
  · rfl
  · rfl
  · rfl
  · cases isTimer

/-- A timer is outstanding until it wakes. -/
theorem TimerOutstanding.step (outstanding : TimerOutstanding before room player)
    (step : (server settings).step choice before = some after) :
    TimerOutstanding after room player ∨
      ∃ deadline, before.executed choice = some (.disconnectTimerWakes room player deadline) := by
  rcases Due.step sends_keepsCourse (fun _ world sound => sound.elim
    (fun isSend => sends_infallible isSend world) fun isTimer => timer_infallible isTimer world)
    outstanding step with stays | ⟨instruction, executed, isTimer⟩
  · exact .inl stays
  obtain ⟨answer, rest, block, effect, -, continues, spawned⟩ :=
    Machine.tasks_of_executed step executed
  have effect : instruction.block settings answer before.state = some block := effect
  unfold Instr.timerOf at isTimer
  split at isTimer
  · cases isTimer
    cases effect
    exact .inl (Due.of_head
      (spawned [.disconnectTimer room player] (by simp [World.createDisconnectTimer])) rfl)
  · cases isTimer
    cases effect
    exact .inl (Due.of_head continues rfl)
  · cases isTimer
    exact .inr ⟨_, executed⟩
  · cases isTimer

theorem GameChange.lives {world after : World} {instruction : Instr}
    (change : GameChange world room instruction after)
    (stored : after.engine.games room = some next) :
    (∃ game, world.engine.games room = some game ∧ (next = game ∨ game.Step next)) ∨
      ∃ pair, instruction = .createGame room pair ∧
        next = ActiveGame.create room pair.playerIds pair.playerElos world.clock := by
  cases change with
  | unchanged _ games => exact .inl ⟨next, games ▸ stored, .inl rfl⟩
  | popped found games => exact .inl ⟨next, games ▸ stored, .inl rfl⟩
  | created pair games =>
      cases games.symm.trans stored
      exact .inr ⟨pair, rfl, rfl⟩
  | acted found passed games =>
      cases games.symm.trans stored
      exact .inl ⟨_, (GameEngine.find_eq_some.mp found).2, .inr (.acted passed)⟩
  | paused caller found inProgress games =>
      cases games.symm.trans stored
      exact .inl ⟨_, (GameEngine.find_eq_some.mp found).2, .inr (.paused _ inProgress)⟩
  | forfeited due found absent games =>
      cases games.symm.trans stored
      exact .inl ⟨_, (GameEngine.find_eq_some.mp found).2, .inr (.forfeited absent)⟩
  | resumed found games =>
      cases games.symm.trans stored
      exact .inl ⟨_, (GameEngine.find_eq_some.mp found).2, .inr (.resumed _)⟩

theorem game_before_step (step : (server settings).step choice before = some after)
    (stored : after.state.engine.games room = some next) :
    (∃ game, before.state.engine.games room = some game ∧ (next = game ∨ game.Step next)) ∨
      ∃ pair, before.executed choice = some (.createGame room pair) ∧
        next = ActiveGame.create room pair.playerIds pair.playerElos before.state.clock := by
  rcases gameChange_of_step step room with ⟨games, -⟩ | ⟨instruction, executed, change⟩
  · exact .inl ⟨next, games ▸ stored, .inl rfl⟩
  · rcases change.lives stored with known | ⟨pair, rfl, created⟩
    · exact .inl known
    · exact .inr ⟨pair, executed, created⟩

/-- A registered game object stays, and changes only by a step of its life. -/
theorem game_after_step (registered : Registered before)
    (step : (server settings).step choice before = some after)
    (stored : before.state.engine.games room = some game) :
    ∃ next, after.state.engine.games room = some next ∧ (next = game ∨ game.Step next) := by
  have kept : (after.state.engine.games room).isSome = true := by
    rcases gameChange_of_step step room with ⟨games, -⟩ | ⟨instruction, -, change⟩
    · rw [games, stored]
      rfl
    cases change with
    | unchanged _ games | popped _ games =>
        rw [games, stored]
        rfl
    | created _ games | acted _ _ games | paused _ _ _ games | forfeited _ _ _ games
    | resumed _ games =>
        rw [games]
        rfl
  obtain ⟨next, storedNext⟩ := Option.isSome_iff_exists.mp kept
  refine ⟨next, storedNext, ?_⟩
  rcases game_before_step step storedNext with ⟨known, same, steps⟩ | ⟨pair, executed, -⟩
  · cases stored.symm.trans same
    exact steps
  · have new := (registered.unregistered (Config.mem_pending_of_executed executed)).1
    rw [stored] at new
    cases new

def Finished (world : World) (room : RoomId) : Prop :=
  ∃ game, world.engine.games room = some game ∧ game.status = .finished

/-- Only finished games are closed or have been. -/
structure ClosedAfterEnd (config : ServerConfig) : Prop where
  closing : ∀ room, .handleGameOver room ∈ config.pending → Finished config.state room
  cleaning : ∀ room, .cleanupGame room ∈ config.pending → Finished config.state room
  gone : ∀ room game, config.state.engine.games room = some game →
    room ∉ config.state.engine.live → game.status = .finished

theorem handleGameOver_finished {instruction : Instr} {answer : Answer} {world : World}
    {block : Block World Instr} (effect : instruction.block settings answer world = some block)
    (member : .handleGameOver room ∈ block.next ∨ .handleGameOver room ∈ block.spawned.flatten) :
    Finished block.state room := by
  cases Instr.block_yields effect member with
  | quiet _ isQuiet => cases isQuiet
  | @ended _ player action data =>
      cases effect
      rcases world.processAction_cases settings room player action data with
        ⟨error, refused⟩ | raised | ⟨game, result, found, passed, accepted⟩
      · simp [refused, sendError] at member
      · simp [raised] at member
      · rw [accepted] at member ⊢
        refine ⟨result.1, by simp, ?_⟩
        rw [(ActiveGame.processAction_frame passed).2.2.2.2.2]
        cases ended : result.2 with
        | false => simp [ended] at member
        | true => rfl
  | @forfeited _ player deadline =>
      rcases World.disconnectTimerWakes_cases effect with
        ⟨-, rfl⟩ | ⟨game, found, absent, rfl⟩
      · simp at member
      · exact ⟨_, by rw [World.goOn_state, GameEngine.write_games, if_pos rfl], rfl⟩

theorem Finished.step (registered : Registered before)
    (settled : ∀ game, before.state.engine.games room = some game → game.Settled)
    (step : (server settings).step choice before = some after)
    (finished : Finished before.state room) : Finished after.state room := by
  obtain ⟨game, stored, status⟩ := finished
  obtain ⟨next, storedNext, rfl | steps⟩ := game_after_step registered step stored
  · exact ⟨next, storedNext, status⟩
  · refine ⟨next, storedNext, ?_⟩
    rw [(settled game stored).frozen status steps]
    exact status

theorem ClosedAfterEnd.step (closed : ClosedAfterEnd before) (registered : Registered before)
    (settled : ∀ room game, before.state.engine.games room = some game → game.Settled)
    (step : (server settings).step choice before = some after) : ClosedAfterEnd after where
  closing room pending := by
    cases origin_of_step step pending with
    | pending _ member => exact (closed.closing room member).step registered (settled room) step
    | quiet _ isQuiet => cases isQuiet
    | yielded executed effect member yields =>
        obtain ⟨_, other, actual, state⟩ := Machine.block_of_executed step executed
        rw [state]
        cases yields with
        | quiet _ isQuiet => cases isQuiet
        | ended | forfeited =>
            cases effect.symm.trans actual
            exact handleGameOver_finished effect member
  cleaning room pending := by
    cases origin_of_step step pending with
    | pending _ member => exact (closed.cleaning room member).step registered (settled room) step
    | quiet _ isQuiet => cases isQuiet
    | yielded executed effect member yields =>
        cases yields with
        | quiet _ isQuiet => cases isQuiet
        | cleaning =>
            exact (closed.closing room (Config.mem_pending_of_executed executed)).step registered
              (settled room) step
  gone room game stored gone := by
    rcases gameChange_of_step step room with ⟨games, live⟩ | ⟨instruction, executed, change⟩
    · exact closed.gone room game (games ▸ stored) (mt live.mpr gone)
    cases change with
    | unchanged _ games live => exact closed.gone room game (games ▸ stored) (mt live.mpr gone)
    | popped found games =>
        obtain ⟨last, storedLast, finished⟩ :=
          closed.cleaning room (Config.mem_pending_of_executed executed)
        rw [games] at stored
        cases stored.symm.trans storedLast
        exact finished
    | created _ _ live | acted _ _ _ live | paused _ _ _ _ live | forfeited _ _ _ _ live
    | resumed _ _ live => exact absurd live gone

/-- What holds of the games of every reachable configuration. -/
structure GamesSound (config : ServerConfig) : Prop where
  settled : ∀ room game, config.state.engine.games room = some game → game.Settled
  closed : ClosedAfterEnd config
  timed : ∀ room game player, config.state.engine.games room = some game →
    game.status = .paused → player ∈ game.disconnectedPlayers →
    TimerOutstanding config room player

/-- A disconnect is ignored, or it pauses the game and leads to a timer. -/
theorem World.handlePlayerDisconnect_cases (settings : Settings) (world : World) (room : RoomId)
    (player : PlayerId) (caller : Option ConnectionId) :
    (∀ game, world.engine.find room = some game → game.status ≠ .inProgress) ∧
        world.handlePlayerDisconnect settings room player caller = world.goOn ∨
      ∃ game messages, world.engine.find room = some game ∧ game.status = .inProgress ∧
        (∀ message ∈ messages, Instr.sends message = true) ∧
        world.handlePlayerDisconnect settings room player caller =
          ({ world with
            engine := world.engine.write room
              { game with
                disconnectedPlayers := insert player game.disconnectedPlayers
                status := .paused } }).goOn
            (messages ++ [Instr.createDisconnectTimer room player caller]) := by
  unfold World.handlePlayerDisconnect
  cases paused : world.engine.handlePlayerDisconnect room player with
  | none =>
      left
      refine ⟨?_, rfl⟩
      intro game found inProgress
      simp [GameEngine.handlePlayerDisconnect, found, ActiveGame.handlePlayerDisconnect,
        inProgress] at paused
  | some engine =>
      obtain ⟨game, found, inProgress, rfl⟩ := GameEngine.handlePlayerDisconnect_eq_some paused
      refine .inr ⟨game, (game.playerIds.filter (· ≠ player)).map fun opponent => Instr.sendPersonal
        opponent (.playerDisconnected player settings.reconnectGracePeriodSec) .ignore, found,
        inProgress, ?_, by simp [World.withGame]⟩
      intro message member
      obtain ⟨opponent, -, rfl⟩ := List.mem_map.mp member
      rfl

/-- The handler that pauses a game goes on to create the timer. -/
theorem timer_created {caller : Option ConnectionId}
    (step : (server settings).step choice before = some after)
    (executed : before.executed choice = some (.handlePlayerDisconnect room player caller))
    (found : before.state.engine.find room = some game) (inProgress : game.status = .inProgress) :
    TimerOutstanding after room player := by
  obtain ⟨answer, rest, block, effect, -, continues, -⟩ := Machine.tasks_of_executed step executed
  cases effect
  rcases before.state.handlePlayerDisconnect_cases settings room player caller with
    ⟨ignored, -⟩ | ⟨_, messages, -, -, send, pauses⟩
  · exact absurd inProgress (ignored game found)
  rw [pauses] at continues
  have goesOn : messages ++ .createDisconnectTimer room player caller :: rest ∈ after.tasks := by
    simpa [Machine.continuation] using continues
  exact Due.of_mem goesOn send rfl

/-- A paused game is registered, so its timer ends it. -/
theorem GamesSound.forfeits (sound : GamesSound before)
    (stored : before.state.engine.games room = some game) (paused : game.status = .paused)
    (absent : player ∈ game.disconnectedPlayers) :
    before.state.engine.disconnectTimer room player ≠ none := by
  have live : room ∈ before.state.engine.live := by
    by_contra gone
    have finished := sound.closed.gone room game stored gone
    rw [paused] at finished
    cases finished
  have found := GameEngine.find_eq_some.mpr ⟨live, stored⟩
  simp [GameEngine.disconnectTimer, found, ActiveGame.disconnectTimer, absent]

theorem GamesSound.waits (sound : GamesSound before)
    (step : (server settings).step choice before = some after)
    (stored : before.state.engine.games room = some game) (paused : game.status = .paused)
    (absent : player ∈ game.disconnectedPlayers)
    (storedNext : after.state.engine.games room = some next) (stays : next.status = .paused) :
    TimerOutstanding after room player := by
  rcases (sound.timed room game player stored paused absent).step step with
    outstanding | ⟨deadline, executed⟩
  · exact outstanding
  obtain ⟨_, block, effect, state⟩ := Machine.block_of_executed step executed
  have effect : before.state.disconnectTimerWakes room player deadline = some block := effect
  rcases World.disconnectTimerWakes_cases effect with ⟨nobody, -⟩ | ⟨found, -, -, rfl⟩
  · exact absurd nobody (sound.forfeits stored paused absent)
  · simp only [state, World.goOn_state, GameEngine.write_games, if_true,
      Option.some.injEq] at storedNext
    rw [← storedNext] at stays
    cases stays

theorem GamesSound.timed_step (sound : GamesSound before)
    (step : (server settings).step choice before = some after)
    (stored : after.state.engine.games room = some next) (paused : next.status = .paused)
    (absent : player ∈ next.disconnectedPlayers) : TimerOutstanding after room player := by
  rcases gameChange_of_step step room with ⟨games, -⟩ | ⟨instruction, executed, change⟩
  · exact sound.waits step (games ▸ stored) paused absent stored paused
  cases change with
  | unchanged _ games | popped _ games =>
      exact sound.waits step (games ▸ stored) paused absent stored paused
  | created pair games =>
      cases games.symm.trans stored
      cases paused
  | acted found passed games =>
      cases games.symm.trans stored
      rw [(ActiveGame.processAction_frame passed).2.2.2.2.2] at paused
      split at paused <;> cases paused
  | paused caller found inProgress games =>
      cases games.symm.trans stored
      have nobody := (sound.settled room _ (GameEngine.find_eq_some.mp found).2).present
        inProgress
      simp only [nobody, insert_empty_eq, Finset.mem_singleton] at absent
      subst absent
      exact timer_created step executed found inProgress
  | forfeited due found absentee games =>
      cases games.symm.trans stored
      cases paused
  | @resumed returning game after found games =>
      cases games.symm.trans stored
      have known := (GameEngine.find_eq_some.mp found).2
      have pausedBefore : game.status = .paused := by
        unfold ActiveGame.handlePlayerReconnect at paused
        dsimp only at paused
        split at paused
        · exact ‹_ ∧ _›.1
        · exact paused
      exact sound.waits step known pausedBefore (Finset.mem_of_mem_erase absent) stored paused

theorem GamesSound.step (sound : GamesSound before) (registered : Registered before)
    (step : (server settings).step choice before = some after) : GamesSound after where
  settled room game stored := by
    rcases game_before_step step stored with ⟨known, same, rfl | steps⟩ | ⟨pair, -, rfl⟩
    · exact sound.settled room _ same
    · exact (sound.settled room known same).step steps
    · exact ActiveGame.create_settled room pair.playerIds pair.playerElos _
  closed := sound.closed.step registered sound.settled step
  timed _ _ _ stored paused absent := sound.timed_step step stored paused absent

theorem gamesSound_of_reaches {redis : Redis} {roomIds : List RoomId}
    {guard : ServerChoice → ServerConfig → Prop} {config : ServerConfig}
    (reached : (server settings).Reaches (booted redis roomIds) guard config) :
    GamesSound config := by
  induction reached with
  | start =>
      refine ⟨?_, ⟨?_, ?_, ?_⟩, ?_⟩ <;> simp [booted, Config.pending]
  | step reached allowed step ih => exact ih.step (registered_of_reaches reached) step

/-- In every game that has been registered it is somebody's turn. -/
theorem hasTurn_of_reaches {redis : Redis} {roomIds : List RoomId}
    {guard : ServerChoice → ServerConfig → Prop} {config : ServerConfig}
    (reached : (server settings).Reaches (booted redis roomIds) guard config)
    (stored : config.state.engine.games room = some game) : game.HasTurn := by
  induction reached generalizing game with
  | start => cases stored
  | step reached allowed step ih =>
      rcases game_before_step step stored with ⟨known, same, rfl | steps⟩ | ⟨pair, -, rfl⟩
      · exact ih same
      · exact (ih same).step steps
      · exact Nat.zero_lt_succ 1

section Turns

variable {world : World}
  (turns : ∀ room game, world.engine.games room = some game → game.HasTurn)

include turns

/-- The game of a room can be shown in a message. -/
theorem World.withGame_showing (room : RoomId) (player : PlayerId)
    (content : ActiveGame → PlayerId → ClientState → Message) :
    (world.withGame room fun game => world.showing game fun current state =>
        [.sendPersonal player (content game current state) .publish]) = world.goOn ∨
      ∃ game current, (world.withGame room fun game => world.showing game fun current state =>
        [.sendPersonal player (content game current state) .publish]) =
          world.goOn [.sendPersonal player (content game current game.toClientState)
            .publish] := by
  unfold World.withGame
  split
  · rename_i game stored
    obtain ⟨current, currentEq⟩ := (turns room game stored).exists_current
    exact .inr ⟨game, current, by simp [World.showing, currentEq]⟩
  · exact .inl rfl

theorem World.sendStateUpdate_cases {settings : Settings} {room : RoomId} {player : PlayerId}
    {action data : Json} {block : Block World Instr}
    (effect : world.sendStateUpdate settings room player action data = some block) :
    block = world.goOn ∨
      ∃ message, message.depth = max 5 (max action.depth data.depth + 3) ∧
        block = world.goOn [.sendPersonal player message .publish] := by
  rw [World.sendStateUpdate_eq_some effect]
  rcases World.withGame_showing turns room player _ with nothing | ⟨game, current, sends⟩
  · exact .inl nothing
  · exact .inr ⟨_, rfl, sends⟩

theorem World.sendGameOver_cases (room : RoomId) (player : PlayerId) (settled : ActiveGame) :
    world.sendGameOver room player settled = world.goOn ∨
      ∃ message, message.depth = 5 ∧ world.sendGameOver room player settled =
        world.goOn [.sendPersonal player message .publish] := by
  rcases World.withGame_showing turns room player _ with nothing | ⟨game, current, sends⟩
  · exact .inl nothing
  · exact .inr ⟨_, rfl, sends⟩

theorem World.saveSnapshot_cases (settings : Settings) (room : RoomId) :
    world.saveSnapshot settings room = some world.goOn ∨
      ∃ game state, world.engine.find room = some game ∧
        game.toRedisState world.clock = .ok state ∧
        world.saveSnapshot settings room =
          if state.serialize.depth ≤ settings.nesting.write then
            some (world.goOn [.setSnapshot room state.serialize])
          else none := by
  unfold World.saveSnapshot GameEngine.saveSnapshot
  cases found : world.engine.find room with
  | none => exact .inl rfl
  | some game =>
      obtain ⟨current, currentEq⟩ :=
        (turns room game (GameEngine.find_eq_some.mp found).2).exists_current
      obtain ⟨state, taken⟩ : ∃ state, game.toRedisState world.clock = .ok state := by
        simp [ActiveGame.toRedisState, currentEq]
      simp only [taken, Except.map]
      exact .inr ⟨game, state, rfl, taken, rfl⟩

theorem World.saveSnapshot_eq_some {block : Block World Instr}
    (effect : world.saveSnapshot settings room = some block) :
    block = world.goOn ∨ ∃ game state, world.engine.find room = some game ∧
      game.toRedisState world.clock = .ok state ∧
      block = world.goOn [.setSnapshot room state.serialize] := by
  rcases World.saveSnapshot_cases turns settings room with
    nothing | ⟨game, state, found, taken, saves⟩
  · cases nothing.symm.trans effect
    exact .inl rfl
  · rw [saves] at effect
    split at effect
    · cases effect
      exact .inr ⟨game, state, found, taken, rfl⟩
    · cases effect

end Turns

/-- Only players of a game are counted as absent. -/
theorem absent_plays {redis : Redis} {roomIds : List RoomId} {config : ServerConfig}
    (reached : (server settings).Reaches (booted redis roomIds) DisconnectsPlayers config)
    (stored : config.state.engine.games room = some game)
    (absent : player ∈ game.disconnectedPlayers) : player ∈ game.playerIds := by
  induction reached generalizing game with
  | start => cases stored
  | step reached allowed step ih =>
      rcases gameChange_of_step step room with ⟨games, -⟩ | ⟨instruction, executed, change⟩
      · exact ih (games ▸ stored) absent
      cases change with
      | unchanged _ games | popped _ games => exact ih (games ▸ stored) absent
      | created pair games =>
          cases games.symm.trans stored
          simp [ActiveGame.create] at absent
      | acted found passed games =>
          cases games.symm.trans stored
          obtain ⟨-, players, -, same, -⟩ := ActiveGame.processAction_frame passed
          rw [players]
          exact ih (GameEngine.find_eq_some.mp found).2 (same ▸ absent)
      | paused caller found inProgress games =>
          cases games.symm.trans stored
          have known := (GameEngine.find_eq_some.mp found).2
          rcases Finset.mem_insert.mp absent with rfl | earlier
          · have plays := allowed room player caller _ executed known
            exact plays
          · have plays := ih known earlier
            exact plays
      | forfeited due found absentee games =>
          cases games.symm.trans stored
          have plays := ih (GameEngine.find_eq_some.mp found).2 absent
          exact plays
      | resumed found games =>
          cases games.symm.trans stored
          have plays := ih (GameEngine.find_eq_some.mp found).2 (Finset.mem_of_mem_erase absent)
          exact plays

/-- A result does not change any more. -/
theorem result_kept {guard : ServerChoice → ServerConfig → Prop} {config later : ServerConfig}
    (sound : GamesSound config) (registered : Registered config)
    (stored : config.state.engine.games room = some game) (finished : game.status = .finished)
    (reached : (server settings).Reaches config guard later) :
    ∃ last, later.state.engine.games room = some last ∧ SameResult game last := by
  have kept : (GamesSound later ∧ Registered later) ∧
      ∃ last, later.state.engine.games room = some last ∧ SameResult game last := by
    induction reached with
    | start => exact ⟨⟨sound, registered⟩, game, stored, ⟨rfl, rfl, rfl, rfl, rfl, rfl⟩⟩
    | step reached allowed step ih =>
        obtain ⟨⟨sound, registered⟩, last, storedLast, same⟩ := ih
        refine ⟨⟨sound.step registered step, registered.step step⟩, ?_⟩
        obtain ⟨next, storedNext, rfl | steps⟩ := game_after_step registered step storedLast
        · exact ⟨next, storedNext, same⟩
        · have frozen := (sound.settled room last storedLast).frozen
            (same.status.trans finished) steps
          refine ⟨next, storedNext, ?_⟩
          rw [frozen]
          exact ⟨same.status, same.winner, same.board, same.scores, same.turnNumber, same.history⟩
  exact kept.2

/-- Main result: whatever the server does, the status of its games is sound. -/
theorem statusesSound_of_disconnectsPlayers (settings : Settings) (redis : Redis)
    (roomIds : List RoomId) :
    StatusesSound settings (booted redis roomIds) DisconnectsPlayers := by
  intro config reached room game stored
  have sound := gamesSound_of_reaches reached
  have settled := sound.settled room game stored
  refine ⟨settled.present, ?_, ?_, fun finished later reaches => result_kept sound
    (registered_of_reaches reached) stored finished reaches⟩
  · intro paused
    obtain ⟨player, only⟩ := settled.absent paused
    have absent : player ∈ game.disconnectedPlayers := by simp [only]
    exact ⟨player, absent_plays reached stored absent, only,
      sound.timed room game player stored paused absent, sound.forfeits stored paused absent⟩
  · intro player action data now gameOver accepted
    rcases GameEngine.processAction_cases config.state.engine room player action data now with
      ⟨-, refused⟩ | ⟨found, result, foundEq, passed, -⟩
    · exact absurd accepted (refused gameOver)
    · cases stored.symm.trans (GameEngine.find_eq_some.mp foundEq).2
      exact (ActiveGame.processAction_passed passed).1

end TerritoryBackend

import TerritoryBackend.ServerSteps

/-!
# The grace period before a forfeit

A timer is never cancelled and only looks at `disconnected_players` when it
wakes, so a timer left over from one absence can end a later one early.  In
runs where no player is lost again while a timer of theirs sleeps, every
forfeit comes after a full grace period of uninterrupted absence.
-/

namespace TerritoryBackend

open EventLoop

def World.absent (world : World) (room : RoomId) (player : PlayerId) : Bool :=
  (world.engine.find room).any fun game => decide (player ∈ game.disconnectedPlayers)

/-- Going back in a history, most recent first, the player was absent all the
time back to a configuration that lies the given time before `now`. -/
def AbsentFor (room : RoomId) (player : PlayerId) (seconds : Time)
    (history : List ServerConfig) (now : Time) : Prop :=
  ∃ config ∈ history.takeWhile fun config => config.state.absent room player,
    config.state.clock + seconds ≤ now

instance (room : RoomId) (player : PlayerId) (seconds : Time) (history : List ServerConfig)
    (now : Time) : Decidable (AbsentFor room player seconds history now) :=
  inferInstanceAs (Decidable (∃ config ∈ history.takeWhile _, _))

/-- Whenever a timer declares its player the loser, the player has been absent
for a full grace period. -/
def GracePeriodKept (settings : Settings) (start : ServerConfig)
    (guard : ServerChoice → ServerConfig → Prop) : Prop :=
  ∀ before earlier choice after room player deadline,
    (server settings).History start guard (before :: earlier) →
    guard choice before →
    (server settings).step choice before = some after →
    before.executed choice = some (.disconnectTimerWakes room player deadline) →
    before.state.engine.disconnectTimer room player ≠ none →
    AbsentFor room player settings.reconnectGracePeriodSec (before :: earlier)
      before.state.clock

/-- A disconnect that pauses a game finds no timer of the same player and game
asleep. -/
def NoTimerAsleep (choice : ServerChoice) (config : ServerConfig) : Prop :=
  ∀ room player caller,
    config.executed choice = some (.handlePlayerDisconnect room player caller) →
    config.state.engine.handlePlayerDisconnect room player ≠ none →
    ∀ deadline, .disconnectTimerWakes room player deadline ∉ config.pending

theorem World.absent_eq_true {world : World} {room : RoomId} {player : PlayerId} :
    world.absent room player = true ↔
      ∃ game, world.engine.find room = some game ∧ player ∈ game.disconnectedPlayers := by
  unfold absent
  cases world.engine.find room <;> simp

theorem World.absent_of_games {world : World} {room : RoomId} {player : PlayerId}
    {game : ActiveGame} (absent : world.absent room player = true)
    (stored : world.engine.games room = some game) : player ∈ game.disconnectedPlayers := by
  obtain ⟨found, foundEq, member⟩ := World.absent_eq_true.mp absent
  rw [(GameEngine.find_eq_some.mp foundEq).2] at stored
  cases stored
  exact member

variable {settings : Settings} {choice : ServerChoice} {before after : ServerConfig}

theorem absence_begins (step : (server settings).step choice before = some after)
    {room : RoomId} {player : PlayerId} (absent : after.state.absent room player = true) :
    before.state.absent room player = true ∨
      ∃ caller, before.executed choice = some (.handlePlayerDisconnect room player caller) ∧
        before.state.engine.handlePlayerDisconnect room player ≠ none := by
  have stays {game : ActiveGame} (found : before.state.engine.find room = some game)
      (member : player ∈ game.disconnectedPlayers) :
      before.state.absent room player = true :=
    World.absent_eq_true.mpr ⟨game, found, member⟩
  rcases gameChange_of_step step room with ⟨games, live⟩ | ⟨instruction, executed, change⟩
  · obtain ⟨game, found, member⟩ := World.absent_eq_true.mp absent
    exact .inl (stays ((GameEngine.find_congr games live).symm.trans found) member)
  cases change with
  | unchanged instruction games live =>
      obtain ⟨game, found, member⟩ := World.absent_eq_true.mp absent
      exact .inl (stays ((GameEngine.find_congr games live).symm.trans found) member)
  | created pair games live =>
      have member := World.absent_of_games absent games
      simp [ActiveGame.create] at member
  | acted found passed games live =>
      have member := World.absent_of_games absent games
      rw [(ActiveGame.processAction_frame passed).2.2.2.1] at member
      exact .inl (stays found member)
  | @paused lost caller game _ found inProgress games live =>
      have member := World.absent_of_games absent games
      by_cases same : player = lost
      · subst same
        right
        refine ⟨caller, executed, ?_⟩
        simp [GameEngine.handlePlayerDisconnect, found, ActiveGame.handlePlayerDisconnect,
          inProgress]
      · exact .inl (stays found (Finset.mem_of_mem_insert_of_ne member same))
  | forfeited due found lost games live =>
      have member := World.absent_of_games absent games
      exact .inl (stays found member)
  | resumed found games live =>
      have member := World.absent_of_games absent games
      exact .inl (stays found (Finset.mem_of_mem_erase member))
  | popped found games gone =>
      obtain ⟨game, foundAfter, -⟩ := World.absent_eq_true.mp absent
      exact absurd (GameEngine.find_eq_some.mp foundAfter).1 gone

/-- Every sleeping timer whose player is absent covers a part of the absence
that will have lasted a grace period when the timer is due. -/
def TimersCovered (settings : Settings) : List ServerConfig → Prop
  | [] => True
  | config :: earlier =>
      ∀ room player deadline,
        .disconnectTimerWakes room player deadline ∈ config.pending →
        config.state.absent room player = true →
        AbsentFor room player settings.reconnectGracePeriodSec (config :: earlier) deadline

theorem AbsentFor.cons {room : RoomId} {player : PlayerId} {seconds deadline : Time}
    {history : List ServerConfig} {config : ServerConfig}
    (absent : config.state.absent room player = true)
    (covered : AbsentFor room player seconds history deadline) :
    AbsentFor room player seconds (config :: history) deadline := by
  obtain ⟨since, sinceMem, due⟩ := covered
  exact ⟨since, by simp [absent, sinceMem], due⟩

theorem timersCovered_step {earlier : List ServerConfig}
    (allowed : NoTimerAsleep choice before)
    (covered : TimersCovered settings (before :: earlier))
    (step : (server settings).step choice before = some after) :
    TimersCovered settings (after :: before :: earlier) := by
  intro room player deadline asleep absent
  cases origin_of_step step asleep with
  | pending _ member =>
      rcases absence_begins step absent with absentBefore | ⟨caller, executed, pauses⟩
      · exact (covered room player deadline member absentBefore).cons absent
      · exact absurd member (allowed room player caller executed pauses deadline)
  | quiet _ isQuiet => cases isQuiet
  | @yielded _ answer instruction _ block executed effect member yields =>
      cases yields with
      | quiet _ isQuiet => cases isQuiet
      | started =>
          have sameClock := clock_of_executed step executed
          cases effect
          simp [World.disconnectTimer] at member
          exact ⟨after, by simp [absent], by rw [sameClock, member]⟩

variable {redis : Redis} {roomIds : List RoomId} {guard : ServerChoice → ServerConfig → Prop}
  {earlier : List ServerConfig} {room : RoomId} {player : PlayerId} {deadline : Time}

/-- A timer that wakes is due. -/
theorem due_of_executed (step : (server settings).step choice before = some after)
    (executed : before.executed choice = some (.disconnectTimerWakes room player deadline)) :
    deadline ≤ before.state.clock := by
  obtain ⟨answer, block, effect, -⟩ := Machine.block_of_executed step executed
  by_contra early
  simp [server, Instr.block, World.disconnectTimerWakes, not_le.mp early] at effect

theorem absentFor_of_forfeit
    (calm : ∀ choice config, guard choice config → NoTimerAsleep choice config)
    (past : (server settings).History (booted redis roomIds) guard (before :: earlier))
    (step : (server settings).step choice before = some after)
    (executed : before.executed choice = some (.disconnectTimerWakes room player deadline))
    (forfeits : before.state.engine.disconnectTimer room player ≠ none) :
    AbsentFor room player settings.reconnectGracePeriodSec (before :: earlier)
      before.state.clock := by
  have covered : TimersCovered settings (before :: earlier) := by
    refine past.invariant ?_ fun choice before after earlier allowed _ covered step =>
      timersCovered_step (calm choice before allowed) covered step
    intro room player deadline asleep
    simp [booted, Config.pending] at asleep
  obtain ⟨engine, forfeited⟩ := Option.ne_none_iff_exists'.mp forfeits
  obtain ⟨game, found, member, -⟩ := GameEngine.disconnectTimer_eq_some forfeited
  have absent : before.state.absent room player = true :=
    World.absent_eq_true.mpr ⟨game, found, member⟩
  obtain ⟨since, sinceMem, due⟩ := covered room player deadline
    (Config.mem_pending_of_executed executed) absent
  exact ⟨since, sinceMem, due.trans (due_of_executed step executed)⟩

/-- Main result: every forfeit comes after a full grace period. -/
theorem gracePeriodKept_of_noTimerAsleep (settings : Settings) (redis : Redis)
    (roomIds : List RoomId) :
    GracePeriodKept settings (booted redis roomIds) NoTimerAsleep := by
  intro before earlier choice after room player deadline past _ step executed forfeits
  exact absentFor_of_forfeit (fun _ _ calm => calm) past step executed forfeits

/-- Ada's connection is lost at 0 s, restored at 10 s and lost again at 29 s. -/
def twoAbsences : List ServerChoice :=
  openConnection "ada" "conn-1" 2 7 ++ formMatch "room-1" 19 ++
    .resume 2 .closed :: proceed 2 7 ++ proceed 3 1 ++
    .event (.advance 10) :: openConnection "ada" "conn-2" 4 12 ++
    .event (.advance 19) :: .resume 4 .closed :: proceed 4 7 ++
    [.event (.advance 1)]

def Instr.wakingTimer : Instr → Option (RoomId × PlayerId × Time)
  | .disconnectTimerWakes room player deadline => some (room, player, deadline)
  | _ => none

theorem Instr.eq_of_wakingTimer {instruction : Instr} {room : RoomId} {player : PlayerId}
    {deadline : Time} (waking : instruction.wakingTimer = some (room, player, deadline)) :
    instruction = .disconnectTimerWakes room player deadline := by
  unfold wakingTimer at waking
  split at waking <;> cases waking
  rfl

/-- The timer of the first absence ends the second one after a second. -/
theorem twoAbsences_grace_not_kept :
    ¬ GracePeriodKept { instanceId := "inst-1" } (booted waitingRookies []) unguarded := by
  intro kept
  let machine := server { instanceId := "inst-1" }
  let choice : ServerChoice := .resume 3 .done
  have early : (machine.trace twoAbsences (booted waitingRookies []) []).any (fun history =>
      match history with
      | before :: earlier =>
          (machine.step choice before).isSome &&
            decide ((before.executed choice).bind Instr.wakingTimer =
              some ("room-1", "ada", 30)) &&
            (before.state.engine.disconnectTimer "room-1" "ada").isSome &&
            !decide (AbsentFor "room-1" "ada" 30 (before :: earlier) before.state.clock)
      | [] => false) = true := by decide +kernel
  obtain ⟨history, traced, holds⟩ := Option.any_eq_true _ _ |>.mp early
  have past := Machine.history_of_trace .start traced
  match history, past, holds with
  | before :: earlier, past, holds =>
      simp only [Bool.and_eq_true, Bool.not_eq_true', decide_eq_true_eq,
        decide_eq_false_iff_not, Option.isSome_iff_exists, Option.bind_eq_some_iff] at holds
      obtain ⟨⟨⟨⟨after, step⟩, instruction, executed, waking⟩, engine, forfeited⟩, notAbsent⟩ :=
        holds
      rw [Instr.eq_of_wakingTimer waking] at executed
      exact notAbsent (kept before earlier choice after "room-1" "ada" 30 past trivial step
        executed (by simp [forfeited]))

end TerritoryBackend

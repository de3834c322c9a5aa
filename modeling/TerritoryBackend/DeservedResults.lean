import TerritoryBackend.FairPlay
import TerritoryBackend.FinalResults
import TerritoryBackend.GracePeriod

/-!
# Every result has its reason

A game ends because its board is full, or because a forfeit timer finds its player
absent.  In every run of the server a player who is told to have won owns more
cells of a full board, or the opponent was the one player the paused game waited
for, and absent at a moment a grace period before the end: from that moment on if
no timer was left over from an earlier absence, but perhaps not if one was.
-/

namespace TerritoryBackend

open EventLoop

/-- The number of cells a player owns on the board shown. -/
def ClientState.territory (state : ClientState) (player : PlayerId) : Nat :=
  state.board.count (state.playerIds.idxOf player + 1)

/-- Which absences of a player count against them, given a history and the time. -/
abbrev Loss := List ServerConfig → RoomId → PlayerId → Time → Prop

/-- The player was absent at a moment that lies a grace period before the given time. -/
def LostBy (settings : Settings) : Loss := fun history room player time =>
  ∃ lost ∈ history, lost.state.absent room player = true ∧
    lost.state.clock + settings.reconnectGracePeriodSec ≤ time

/-- The player has been absent ever since such a moment. -/
def LostSince (settings : Settings) : Loss := fun history room player time =>
  AbsentFor room player settings.reconnectGracePeriodSec history time

/-- The last configuration of a history in which a game could have gone on: it
waits for this player only, whose absence counts, and the state shown is the one
of this game but for the result. -/
structure GivenUpAt (counts : Loss) (moment : ServerConfig) (earlier : List ServerConfig)
    (room : RoomId) (player : PlayerId) (state : ClientState) : Prop where
  waiting : ∃ game, moment.state.engine.games room = some game ∧ game.status = .paused ∧
    game.disconnectedPlayers = {player} ∧ game.board.hasEmpty = true ∧
    state = { game.toClientState with status := .finished, winnerId := state.winnerId }
  left : counts (moment :: earlier) room player moment.state.clock

/-- The player left the game for good. -/
def Abandoned (counts : Loss) (history : List ServerConfig) (room : RoomId)
    (player : PlayerId) (state : ClientState) : Prop :=
  ∃ moment earlier, moment :: earlier <:+ history ∧
    GivenUpAt counts moment earlier room player state

/-- The reason for the result a player is told. -/
inductive Deserved (counts : Loss) (history : List ServerConfig) (room : RoomId)
    (player opponent : PlayerId) (state : ClientState) : String → Prop where
  | moreTerritory (full : state.board.hasEmpty = false)
      (more : state.territory opponent < state.territory player) :
      Deserved counts history room player opponent state "win"
  | lessTerritory (full : state.board.hasEmpty = false)
      (less : state.territory player < state.territory opponent) :
      Deserved counts history room player opponent state "loss"
  | sameTerritory (full : state.board.hasEmpty = false)
      (same : state.territory player = state.territory opponent) :
      Deserved counts history room player opponent state "draw"
  | opponentLeft (abandoned : Abandoned counts history room opponent state) :
      Deserved counts history room player opponent state "win"
  | left (abandoned : Abandoned counts history room player state) :
      Deserved counts history room player opponent state "loss"

/-- A result has its reason, and the rating changes accordingly. -/
structure JustifiedResult (counts : Loss) (history : List ServerConfig) (room : RoomId)
    (player : PlayerId) (result : String) (settled : ActiveGame) (state : ClientState) :
    Prop where
  deserved : ∃ opponent, player ≠ opponent ∧
    (state.playerIds = [player, opponent] ∨ state.playerIds = [opponent, player]) ∧
    Deserved counts history room player opponent state result
  gains : result = "win" → 0 ≤ settled.eloChange player
  loses : result = "loss" → settled.eloChange player ≤ 0

/-- Every result a player is told and every result that is recorded is justified by
what has happened before. -/
def ResultsJustified (counts : Loss) (settings : Settings) (start : ServerConfig)
    (guard : ServerChoice → ServerConfig → Prop) : Prop :=
  ∀ config earlier, (server settings).History start guard (config :: earlier) →
    (∀ player room winner result settled state,
      (player, .gameOver room winner result settled state) ∈
          config.state.journal.sent ++ config.state.journal.published →
        JustifiedResult counts (config :: earlier) room player result settled state) ∧
      ∀ record ∈ config.state.journal.matchRecords, ∀ player ∈ record.final.playerIds,
        JustifiedResult counts (config :: earlier) record.roomId player
          (resultOf record.final.winnerId player) record.settled record.final.toClientState

/-- Direct calls of the engine report only players of the room. -/
def ReportsPlayers (choice : ServerChoice) (config : ServerConfig) : Prop :=
  ∀ room player, choice = .event (.callHandlePlayerDisconnect room player) ∨
      choice = .event (.callHandlePlayerReconnect room player) →
    ∃ game, config.state.engine.games room = some game ∧ player ∈ game.playerIds

variable {settings : Settings} {choice : ServerChoice} {before after : ServerConfig}
  {counts : Loss} {guard : ServerChoice → ServerConfig → Prop}
  {earlier history : List ServerConfig} {room : RoomId} {player opponent : PlayerId}
  {game : ActiveGame} {state : ClientState} {redis : Redis} {roomIds : List RoomId}

/-- The player an instruction reports absent, and the room. -/
def Instr.leaves : Instr → Option (PlayerId × RoomId)
  | .markDisconnectedWrite player _ (some room) | .handlePlayerDisconnect room player _ =>
      some (player, room)
  | _ => none

def LeavesOwnRooms (config : ServerConfig) : Prop :=
  ∀ instruction ∈ config.pending, ∀ player room,
    instruction.leaves = some (player, room) → Belongs config player room

theorem leaves_quiet {instruction : Instr} (isQuiet : instruction.quiet = true) :
    instruction.leaves = none := by
  cases instruction with
  | markDisconnectedWrite | handlePlayerDisconnect => cases isQuiet
  | _ => rfl

theorem leaves_markDisconnectedWrite (player : PlayerId) (connection : ConnectionId)
    (room : Option RoomId) :
    (Instr.markDisconnectedWrite player connection room).leaves =
      room.map fun named => (player, named) := by
  cases room <;> rfl

theorem LeavesOwnRooms.step (leaving : LeavesOwnRooms before) (own : NamesOwnRooms before)
    (registered : Registered before) (reports : ReportsPlayers choice before)
    (step : (server settings).step choice before = some after) : LeavesOwnRooms after := by
  intro instruction pending player room leaves
  cases origin_of_step step pending with
  | pending _ member =>
      exact belongs_step (leaving instruction member player room leaves) step
  | quiet _ isQuiet => simp [leaves_quiet isQuiet] at leaves
  | yielded executed effect member yields =>
      cases yields with
      | quiet _ isQuiet => simp [leaves_quiet isQuiet] at leaves
      | marked named =>
          cases effect
          unfold World.markDisconnectedRead at member
          split at member
          · simp at member
          · rename_i session read
            simp at member
            subst member
            rw [leaves_markDisconnectedWrite, SessionManager.getSession_roomId read] at leaves
            obtain ⟨stored, storedEq, same⟩ := Option.map_eq_some_iff.mp leaves
            cases same
            exact belongs_step (own.stored _ _ storedEq) step
          · simp at member
      | leaving =>
          cases leaves
          have known := Config.mem_pending_of_executed executed
          exact belongs_step (leaving _ known player room rfl) step
      | _ => cases leaves
  | calledDisconnect called reported =>
      cases leaves
      obtain ⟨game, stored, plays⟩ := reports room player (.inl rfl)
      exact belongs_step (belongs_of_stored registered stored plays) step
  | _ => cases leaves

/-- What the server itself reports absent plays the game it is absent from. -/
theorem disconnectsPlayers_of_reportsPlayers
    (taken : ∀ player room,
      SessionManager.storedRoom (redis.sessions player) = some room → room ∈ roomIds)
    {config : ServerConfig}
    (reached : (server settings).Reaches (booted redis roomIds) ReportsPlayers config) :
    (server settings).Reaches (booted redis roomIds) DisconnectsPlayers config ∧
      LeavesOwnRooms config := by
  induction reached with
  | start =>
      refine ⟨.start, ?_⟩
      intro instruction pending player room leaves
      rcases List.mem_pair.mp pending with rfl | rfl <;> cases leaves
  | @step choice before after reached allowed step ih =>
      obtain ⟨reaches, leaving⟩ := ih
      constructor
      · refine .step reaches ?_ step
        intro room player caller game executed stored
        have known := Config.mem_pending_of_executed executed
        exact (leaving _ known player room rfl).plays game stored
      · have own := namesOwnRooms_of_reaches
          (fun _ _ (reports : ReportsPlayers _ _) room player called =>
            reports room player (.inr called)) taken reached
        exact leaving.step own (registered_of_reaches reached) allowed step

/-- When a forfeit timer is due at the earliest. -/
def Instr.due (settings : Settings) (now : Time) : Instr → Time
  | .disconnectTimerWakes _ _ deadline => deadline
  | _ => now + settings.reconnectGracePeriodSec

/-- Every forfeit timer was set for a player who had lost the connection. -/
def TimersEarned (settings : Settings) : List ServerConfig → Prop
  | [] => True
  | config :: earlier =>
      ∀ instruction ∈ config.pending, ∀ room player,
        instruction.timerOf = some (room, player) →
        LostBy settings (config :: earlier) room player
          (instruction.due settings config.state.clock)

theorem LostBy.mono {time later : Time} (lost : LostBy settings history room player time)
    (ordered : time ≤ later) : LostBy settings history room player later := by
  obtain ⟨since, member, absent, due⟩ := lost
  exact ⟨since, member, absent, due.trans ordered⟩

theorem LostBy.cons {time later : Time} (lost : LostBy settings history room player time)
    (config : ServerConfig) (ordered : time ≤ later) :
    LostBy settings (config :: history) room player later := by
  obtain ⟨since, member, absent, due⟩ := lost.mono ordered
  exact ⟨since, List.mem_cons_of_mem _ member, absent, due⟩

theorem due_mono (instruction : Instr) {now later : Time} (ordered : now ≤ later) :
    instruction.due settings now ≤ instruction.due settings later := by
  unfold Instr.due
  split
  · exact le_rfl
  · linarith

theorem timerOf_quiet {instruction : Instr} (isQuiet : instruction.quiet = true) :
    instruction.timerOf = none := by
  cases instruction with
  | createDisconnectTimer | disconnectTimer | disconnectTimerWakes => cases isQuiet
  | _ => rfl

theorem timersEarned_step (earned : TimersEarned settings (before :: earlier))
    (step : (server settings).step choice before = some after) :
    TimersEarned settings (after :: before :: earlier) := by
  intro instruction pending room player isTimer
  have forward := clock_mono step
  cases origin_of_step step pending with
  | pending _ member =>
      have lost := earned instruction member room player isTimer
      exact lost.cons after (due_mono instruction forward)
  | quiet _ isQuiet => simp [timerOf_quiet isQuiet] at isTimer
  | @yielded _ answer executing _ block executed effect member yields =>
      have known := Config.mem_pending_of_executed executed
      cases yields with
      | quiet _ isQuiet => simp [timerOf_quiet isQuiet] at isTimer
      | timing =>
          cases isTimer
          obtain ⟨_, _, happened, same⟩ := Machine.block_of_executed step executed
          cases effect
          cases happened
          refine ⟨after, List.mem_cons_self, ?_, le_rfl⟩
          rw [same]
          rcases before.state.handlePlayerDisconnect_cases settings room player _ with
            ⟨-, ignored⟩ | ⟨game, messages, found, -, -, paused⟩
          · rw [ignored] at member
            simp at member
          · rw [paused, World.absent_eq_true]
            obtain ⟨live, -⟩ := GameEngine.find_eq_some.mp found
            refine ⟨_, (GameEngine.find_write live _ room).trans (if_pos rfl), ?_⟩
            exact Finset.mem_insert_self player game.disconnectedPlayers
      | timed =>
          cases isTimer
          have lost := earned _ known room player rfl
          exact lost.cons after (by simpa [Instr.due] using forward)
      | started deadline =>
          cases isTimer
          have lost := earned _ known room player rfl
          cases effect
          simp [World.disconnectTimer] at member
          exact lost.cons after (by simp [Instr.due, member])
      | _ => cases isTimer
  | _ => cases isTimer

/-- Whenever a timer declares its player the loser, the absence counts. -/
def ForfeitsCount (counts : Loss) (settings : Settings) (start : ServerConfig)
    (guard : ServerChoice → ServerConfig → Prop) : Prop :=
  ∀ before earlier choice after room player deadline,
    (server settings).History start guard (before :: earlier) →
    guard choice before →
    (server settings).step choice before = some after →
    before.executed choice = some (.disconnectTimerWakes room player deadline) →
    before.state.engine.disconnectTimer room player ≠ none →
    counts (before :: earlier) room player before.state.clock

theorem forfeitsCount_lostBy (settings : Settings) (redis : Redis) (roomIds : List RoomId)
    (guard : ServerChoice → ServerConfig → Prop) :
    ForfeitsCount (LostBy settings) settings (booted redis roomIds) guard := by
  intro before earlier choice after room player deadline past allowed step executed forfeits
  have earned : TimersEarned settings (before :: earlier) := by
    refine past.invariant ?_ fun choice before after earlier _ _ earned step =>
      timersEarned_step earned step
    intro instruction pending room player isTimer
    rcases List.mem_pair.mp pending with rfl | rfl <;> cases isTimer
  have lost := earned _ (Config.mem_pending_of_executed executed) room player rfl
  exact lost.mono (due_of_executed step executed)

theorem forfeitsCount_lostSince (redis : Redis) (roomIds : List RoomId)
    (calm : ∀ choice config, guard choice config → NoTimerAsleep choice config) :
    ForfeitsCount (LostSince settings) settings (booted redis roomIds) guard := by
  intro before earlier choice after room player deadline past allowed step executed forfeits
  exact absentFor_of_forfeit calm past step executed forfeits

/-- A finished game has been played to a full board, or one of its players left it. -/
inductive Ended (counts : Loss) (history : List ServerConfig) (room : RoomId)
    (game : ActiveGame) : Prop where
  | full {first second : PlayerId} (different : first ≠ second)
      (players : game.playerIds = [first, second]) (isFull : game.board.hasEmpty = false)
      (won : game.WonByTerritory first second)
  | givenUp {winner loser : PlayerId} (plays : game.Plays winner loser)
      (won : game.winnerId = some winner)
      (abandoned : Abandoned counts history room loser game.toClientState)

/-- Every finished game of the last configuration has its reason. -/
def EndsWithReason (counts : Loss) : List ServerConfig → Prop
  | [] => True
  | config :: earlier =>
      ∀ room game, config.state.engine.games room = some game → game.status = .finished →
        Ended counts (config :: earlier) room game

theorem Abandoned.cons (abandoned : Abandoned counts history room player state)
    (config : ServerConfig) : Abandoned counts (config :: history) room player state := by
  obtain ⟨moment, earlier, passed, given⟩ := abandoned
  exact ⟨moment, earlier, passed.trans (List.suffix_cons config history), given⟩

/-- What has happened stays so, and who is counted as absent later does not matter. -/
theorem Ended.cons (ended : Ended counts history room game) (config : ServerConfig)
    (absent : Finset PlayerId) :
    Ended counts (config :: history) room { game with disconnectedPlayers := absent } := by
  cases ended with
  | full different players isFull won => exact .full different players isFull won
  | givenUp plays won abandoned =>
      exact .givenUp ⟨plays.players, plays.distinct⟩ won (abandoned.cons config)

/-- A finished game has changed only in who is counted as absent. -/
theorem Ended.of_step {next : ActiveGame} (ended : Ended counts history room game)
    (settled : game.Settled) (finished : game.status = .finished) (step : game.Step next)
    (config : ServerConfig) : Ended counts (config :: history) room next := by
  rw [settled.frozen finished step]
  exact ended.cons config _

theorem fair_of_reaches {guard : ServerChoice → ServerConfig → Prop} {config : ServerConfig}
    (reached : (server settings).Reaches (booted redis roomIds) guard config)
    (stored : config.state.engine.games room = some game) :
    ∃ first second, first ≠ second ∧ game.Fair first second := by
  obtain ⟨pair, now, _, distinct, born, -, -⟩ := passed_of_reaches reached stored
  exact ⟨pair.playerA, pair.playerB, distinct, born.fair distinct⟩

/-- The opponent of the player a game waits for wins when the timer is due. -/
theorem Ended.of_forfeit (fair : ∃ first second, first ≠ second ∧ game.Fair first second)
    (stored : before.state.engine.games room = some game) (paused : game.status = .paused)
    (absent : player ∈ game.disconnectedPlayers) (plays : player ∈ game.playerIds)
    (lost : counts (before :: earlier) room player before.state.clock) :
    Ended counts (before :: earlier) room
      { game with
        winnerId := (game.playerIds.find? (· ≠ player)).or game.winnerId
        status := .finished } := by
  obtain ⟨first, second, different, fair⟩ := fair
  obtain ⟨only, alone⟩ := fair.settled.absent paused
  have same : player = only := by simpa [alone] using absent
  subst same
  have notOver : game.isOver = false := by
    cases atEnd : game.isOver with
    | false => rfl
    | true =>
        have finished := (fair.settled.ended atEnd).1
        rw [paused] at finished
        cases finished
  have hasRoom : game.board.hasEmpty = true := by
    simp only [ActiveGame.isOver, Bool.or_eq_false_iff, Bool.not_eq_false'] at notOver
    exact notOver.2
  have players := fair.territorial.players
  have opponent : ∃ winner, game.playerIds.find? (· ≠ player) = some winner ∧
      game.Plays winner player := by
    rw [players] at plays ⊢
    rcases List.mem_pair.mp plays with rfl | rfl
    · exact ⟨second, by simp [different.symm], .inr players, different.symm⟩
    · exact ⟨first, by simp [different], .inl players, different⟩
  obtain ⟨winner, found, against⟩ := opponent
  refine .givenUp ⟨against.players, against.distinct⟩ ?_
    ⟨before, earlier, List.suffix_refl _, ?_, lost⟩
  · exact Option.or_eq_some_iff.mpr (.inl found)
  · exact ⟨game, stored, paused, alone, hasRoom, rfl⟩

theorem endsWithReason_step
    (reached : (server settings).Reaches (booted redis roomIds) DisconnectsPlayers before)
    (forfeit : ∀ room player deadline,
      before.executed choice = some (.disconnectTimerWakes room player deadline) →
      before.state.engine.disconnectTimer room player ≠ none →
      counts (before :: earlier) room player before.state.clock)
    (ends : EndsWithReason counts (before :: earlier))
    (step : (server settings).step choice before = some after) :
    EndsWithReason counts (after :: before :: earlier) := by
  intro room game stored finished
  have sound := gamesSound_of_reaches reached
  rcases gameChange_of_step step room with ⟨games, -⟩ | ⟨instruction, executed, change⟩
  · rw [games] at stored
    exact (ends room game stored finished).cons after _
  cases change with
  | unchanged _ games | popped _ games =>
      rw [games] at stored
      exact (ends room game stored finished).cons after _
  | created pair games =>
      cases games.symm.trans stored
      cases finished
  | acted found passed games =>
      cases games.symm.trans stored
      obtain ⟨-, known⟩ := GameEngine.find_eq_some.mp found
      obtain ⟨first, second, different, fair⟩ := fair_of_reaches reached known
      have fairEnd := fair.endsFairly different passed
      have gameOver := fairEnd.finished.mp finished
      have players := (fair.step different (.acted passed)).territorial.players
      exact .full different players (fairEnd.full.mp gameOver) (fairEnd.won gameOver)
  | paused caller found inProgress games =>
      cases games.symm.trans stored
      cases finished
  | @forfeited player deadline last _ due found absent games =>
      cases games.symm.trans stored
      obtain ⟨-, known⟩ := GameEngine.find_eq_some.mp found
      have settled := sound.settled room last known
      rcases settled.known with inProgress | paused | ended
      · rw [settled.present inProgress] at absent
        cases absent
      · have lost := forfeit room player deadline executed
          (by simp [GameEngine.disconnectTimer, found, ActiveGame.disconnectTimer, absent])
        have ended := Ended.of_forfeit (fair_of_reaches reached known) known paused absent
          (absent_plays reached known absent) lost
        exact ended.cons after _
      · exact (ends room last known ended).of_step settled ended (.forfeited absent) after
  | @resumed player last _ found games =>
      cases games.symm.trans stored
      obtain ⟨-, known⟩ := GameEngine.find_eq_some.mp found
      have settled := sound.settled room last known
      have ended : last.status = .finished := by
        unfold ActiveGame.handlePlayerReconnect at finished
        simp only at finished
        split at finished
        · cases finished
        · exact finished
      exact (ends room last known ended).of_step settled ended (.resumed player) after

theorem endsWithReason_of_history
    (taken : ∀ player room,
      SessionManager.storedRoom (redis.sessions player) = some room → room ∈ roomIds)
    (reports : ∀ choice config, guard choice config → ReportsPlayers choice config)
    (counted : ForfeitsCount counts settings (booted redis roomIds) guard)
    (past : (server settings).History (booted redis roomIds) guard history) :
    EndsWithReason counts history := by
  apply past.invariant
  · intro room game stored
    cases stored
  · intro choice before after earlier allowed past ends step
    obtain ⟨reached, -⟩ :=
      disconnectsPlayers_of_reportsPlayers taken (past.reaches.weaken reports)
    refine endsWithReason_step reached ?_ ends step
    intro room player deadline executed forfeits
    exact counted before earlier choice after room player deadline past allowed step executed
      forfeits

theorem territory_of_players {first second : PlayerId} (different : first ≠ second)
    (players : state.playerIds = [first, second]) :
    state.territory first = state.board.count 1 ∧
      state.territory second = state.board.count 2 := by
  constructor
  · simp [ClientState.territory, players]
  · simp [ClientState.territory, players, different]

/-- The winner of a full board owns more of it. -/
theorem Deserved.of_territory {winner : Option PlayerId} (different : player ≠ opponent)
    (isFull : state.board.hasEmpty = false)
    (wins : winner = some player ↔ state.territory opponent < state.territory player)
    (loses : winner = some opponent ↔ state.territory player < state.territory opponent)
    (draws : winner = none ↔ state.territory player = state.territory opponent) :
    Deserved counts history room player opponent state (resultOf winner player) := by
  rcases lt_trichotomy (state.territory player) (state.territory opponent) with
    less | same | more
  · rw [loses.mpr less, resultOf_loser different.symm]
    exact .lessTerritory isFull less
  · rw [draws.mpr same]
    exact .sameTerritory isFull same
  · rw [wins.mpr more, resultOf_winner]
    exact .moreTerritory isFull more

theorem Ended.deserved (ended : Ended counts history room game)
    (plays : player ∈ game.playerIds) :
    ∃ opponent, game.Plays player opponent ∧
      Deserved counts history room player opponent game.toClientState
        (resultOf game.winnerId player) := by
  cases ended with
  | @full first second different players isFull won =>
      obtain ⟨firstWon, secondWon, nobodyWon⟩ := won
      obtain ⟨firstCells, secondCells⟩ :=
        @territory_of_players game.toClientState first second different players
      have shown : game.toClientState.board = game.board := rfl
      rw [← shown, ← firstCells, ← secondCells] at firstWon secondWon nobodyWon
      rw [players] at plays
      rcases List.mem_pair.mp plays with rfl | rfl
      · exact ⟨second, ⟨.inl players, different⟩,
          .of_territory different isFull firstWon secondWon nobodyWon⟩
      · refine ⟨first, ⟨.inr players, different.symm⟩,
          .of_territory different.symm isFull secondWon firstWon ?_⟩
        rw [nobodyWon, eq_comm]
  | @givenUp winner loser against won abandoned =>
      rw [won]
      rcases against.eq_or_eq plays with rfl | rfl
      · refine ⟨loser, against, ?_⟩
        rw [resultOf_winner]
        exact .opponentLeft abandoned
      · refine ⟨winner, against.symm, ?_⟩
        rw [resultOf_loser against.distinct]
        exact .left abandoned

/-- Winners do not lose rating points, and losers do not gain any. -/
theorem eloChange_of_result (plays : game.Plays player opponent)
    (wins : ∀ victor, game.winnerId = some victor → victor ∈ game.playerIds) :
    (resultOf game.winnerId player = "win" → 0 ≤ game.eloChange player) ∧
      (resultOf game.winnerId player = "loss" → game.eloChange player ≤ 0) := by
  have gains {winner loser : PlayerId} (plays : game.Plays winner loser)
      (won : game.winnerId = some winner) : 0 ≤ game.eloChange winner := by
    rw [plays.eloChange_of_won won]
    exact eloDelta_win_nonneg _ _
  cases winner : game.winnerId with
  | none => simp [resultOf]
  | some victor =>
      rcases plays.eq_or_eq (wins victor winner) with rfl | rfl
      · refine ⟨fun _ => gains plays winner, ?_⟩
        intro told
        simp [resultOf_winner] at told
      · constructor
        · intro told
          simp [resultOf_loser plays.distinct.symm] at told
        · intro _
          have gained := gains plays.symm winner
          have balanced := plays.eloChange_add
          omega

theorem Ended.justified {config : ServerConfig}
    (ended : Ended counts history room game)
    (reached : (server settings).Reaches (booted redis roomIds) guard config)
    (stored : config.state.engine.games room = some game) (plays : player ∈ game.playerIds)
    (absent : Finset PlayerId) :
    JustifiedResult counts history room player (resultOf game.winnerId player)
      { game with disconnectedPlayers := absent } game.toClientState := by
  obtain ⟨opponent, against, deserved⟩ := ended.deserved plays
  obtain ⟨gains, loses⟩ := eloChange_of_result against (winner_plays_of_reaches reached stored)
  exact ⟨⟨opponent, against.distinct, against.players, deserved⟩, gains, loses⟩

theorem resultsJustified_of_forfeitsCount
    (taken : ∀ player room,
      SessionManager.storedRoom (redis.sessions player) = some room → room ∈ roomIds)
    (reports : ∀ choice config, guard choice config → ReportsPlayers choice config)
    (counted : ForfeitsCount counts settings (booted redis roomIds) guard) :
    ResultsJustified counts settings (booted redis roomIds) guard := by
  intro config earlier past
  have reached := past.reaches
  have final := resultsFinal_of_reaches reached
  have ends := endsWithReason_of_history taken reports counted past
  constructor
  · intro player room winner result settled state member
    obtain ⟨finalSettled, last, finalLast, plays, -, rfl, rfl⟩ :=
      final.issued player room winner result settled state (issued_of_mem member)
    obtain ⟨game, stored, finished, settledEq⟩ := finalSettled
    obtain ⟨-, lastEq⟩ := finalLast.eq stored
    rw [lastEq] at plays ⊢
    rw [settledEq]
    exact (ends room game stored finished).justified reached stored plays _
  · intro record member player plays
    obtain ⟨⟨game, stored, finished, settledEq⟩, finalLast⟩ := final.recorded record member
    obtain ⟨-, lastEq⟩ := finalLast.eq stored
    rw [lastEq] at plays ⊢
    rw [settledEq]
    exact (ends record.roomId game stored finished).justified reached stored plays _

/-- Direct calls report only players of the room, and nobody is lost while a timer of
theirs sleeps. -/
def ReportsCalmly (choice : ServerChoice) (config : ServerConfig) : Prop :=
  ReportsPlayers choice config ∧ NoTimerAsleep choice config

/-- Main result: as long as direct calls report only players of the room, every
result that is announced or recorded has its reason; and as long as no timer is left
over from an earlier absence, nobody loses a game for an absence that was interrupted. -/
theorem resultsJustified_of_reportsPlayers (settings : Settings) (redis : Redis)
    (roomIds : List RoomId)
    (taken : ∀ player room,
      SessionManager.storedRoom (redis.sessions player) = some room → room ∈ roomIds) :
    ResultsJustified (LostBy settings) settings (booted redis roomIds) ReportsPlayers ∧
      ResultsJustified (LostSince settings) settings (booted redis roomIds) ReportsCalmly := by
  constructor
  · exact resultsJustified_of_forfeitsCount taken (fun _ _ reports => reports)
      (forfeitsCount_lostBy settings redis roomIds ReportsPlayers)
  · exact resultsJustified_of_forfeitsCount taken (fun _ _ calmly => calmly.1)
      (forfeitsCount_lostSince redis roomIds fun _ _ calmly => calmly.2)

/-- Ada's connection is lost, and her timer wakes. -/
def adaStaysAway : List ServerChoice :=
  openConnection "ada" "conn-1" 2 7 ++ formMatch "room-1" 19 ++
    .resume 2 .closed :: proceed 2 7 ++ proceed 3 1 ++ .event (.advance 30) :: proceed 3 8

def Message.result : Message → Option String
  | .gameOver _ _ result _ _ => some result
  | _ => none

theorem Message.result_eq_some {message : Message} {result : String}
    (told : message.result = some result) :
    ∃ room winner settled state, message = .gameOver room winner result settled state := by
  cases message with
  | gameOver room winner other settled state =>
      cases told
      exact ⟨room, winner, settled, state, rfl⟩
  | _ => cases told

/-- The engine is not called directly, and no timer of a player who is reported absent
sleeps. -/
def reportsCalmly (choice : ServerChoice) (config : ServerConfig) : Bool :=
  match choice, config.executed choice with
  | .event (.callHandlePlayerDisconnect ..), _ | .event (.callHandlePlayerReconnect ..), _ => false
  | _, some (.handlePlayerDisconnect room player _) =>
      config.pending.all fun instruction =>
        instruction.wakingTimer.all fun timer => decide (timer.1 ≠ room ∨ timer.2.1 ≠ player)
  | _, _ => true

theorem reportsCalmly_sound (choice : ServerChoice) (config : ServerConfig)
    (calmly : reportsCalmly choice config = true) : ReportsCalmly choice config := by
  constructor
  · rintro room player (rfl | rfl) <;> cases calmly
  · intro room player caller executed _ deadline asleep
    cases choice with
    | resume task answer =>
        simp only [reportsCalmly, executed] at calmly
        have other := List.all_eq_true.mp calmly _ asleep
        simp [Instr.wakingTimer] at other
    | fail task => cases executed
    | event event => cases executed

/-- Bob is told that he has won, and he deserves it. -/
theorem resultsJustified_of_reportsPlayers_adaStaysAway :
    ∃ config earlier room winner settled state,
    (server { instanceId := "inst-1" }).History (booted waitingRookies []) ReportsCalmly
        (config :: earlier) ∧
      ("bob", .gameOver room winner "win" settled state) ∈ config.state.journal.published ∧
      JustifiedResult (LostBy { instanceId := "inst-1" }) (config :: earlier) room "bob" "win"
        settled state ∧
      JustifiedResult (LostSince { instanceId := "inst-1" }) (config :: earlier) room "bob" "win"
        settled state := by
  have told : ((server { instanceId := "inst-1" }).runChecked reportsCalmly adaStaysAway
      (booted waitingRookies [])).any (fun config =>
        config.state.journal.published.any fun entry =>
          entry.1 == "bob" && entry.2.result == some "win") = true := by
    decide +kernel
  obtain ⟨config, executed, holds⟩ := Option.any_eq_true _ _ |>.mp told
  obtain ⟨⟨player, message⟩, published, holds⟩ := List.any_eq_true.mp holds
  obtain ⟨isBob, wins⟩ := Bool.and_eq_true_iff.mp holds
  cases eq_of_beq isBob
  obtain ⟨room, winner, settled, state, rfl⟩ := Message.result_eq_some (eq_of_beq wins)
  have reached : (server { instanceId := "inst-1" }).Reaches (booted waitingRookies [])
      ReportsCalmly config :=
    Machine.reaches_of_runChecked reportsCalmly_sound .start executed
  obtain ⟨earlier, past⟩ := reached.exists_history
  have justified := resultsJustified_of_reportsPlayers { instanceId := "inst-1" } waitingRookies []
    (fun player room names => by cases names)
  refine ⟨config, earlier, room, winner, settled, state, past, published, ?_, ?_⟩
  · exact (justified.1 config earlier (past.weaken fun _ _ calmly => calmly.1)).1 _ _ _ _ _ _
      (List.mem_append_right _ published)
  · exact (justified.2 config earlier past).1 _ _ _ _ _ _ (List.mem_append_right _ published)

end TerritoryBackend

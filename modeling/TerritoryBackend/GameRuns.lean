import TerritoryBackend.AbsenceTracking
import Mathlib.Logic.Relation

/-!
# The life of a game

The calls an engine receives for one room, in any number and any order, and
the four ways in which they change the game.  A call that is refused, raises or
returns early leaves the game as it is, and so does the completion of the game,
which only takes it out of the table.
-/

namespace TerritoryBackend

/-- What may happen to a room: a call for its game, a timer that wakes, or the
clean-up after its end. -/
inductive RoomCall where
  | event (event : GameEvent)
  | disconnectTimer (player : PlayerId)
  | cleanupGame

namespace ActiveGame

inductive Step (game : ActiveGame) : ActiveGame → Prop where
  | acted {player : PlayerId} {action data : Json} {now : Time} {result : ActiveGame × Bool}
      (passed : game.processAction player action data now = .ok (.passed result)) :
      Step game result.1
  | paused (player : PlayerId) (inProgress : game.status = .inProgress) :
      Step game
        { game with
          disconnectedPlayers := insert player game.disconnectedPlayers
          status := .paused }
  | forfeited {player : PlayerId} (absent : player ∈ game.disconnectedPlayers) :
      Step game
        { game with
          winnerId := (game.playerIds.find? (· ≠ player)).or game.winnerId
          status := .finished }
  | resumed (player : PlayerId) : Step game (game.handlePlayerReconnect player)

/-- One game has become another by any number of steps. -/
abbrev Lives : ActiveGame → ActiveGame → Prop := Relation.ReflTransGen Step

/-- What every step preserves holds all the life of a game. -/
theorem Lives.invariant {invariant : ActiveGame → Prop}
    (preserved : ∀ game next, invariant game → Step game next → invariant next)
    {initial game : ActiveGame} (lives : Lives initial game) (holds : invariant initial) :
    invariant game := by
  induction lives with
  | refl => exact holds
  | tail _ step ih => exact preserved _ _ ih step

theorem apply_cases (game : ActiveGame) (event : GameEvent) :
    game.apply event = game ∨ game.Step (game.apply event) := by
  cases event with
  | disconnect player =>
      simp only [apply, handlePlayerDisconnect]
      split
      · exact .inl rfl
      · exact .inr (.paused player (not_not.mp ‹_›))
  | reconnect player => exact .inr (.resumed player)
  | action player action data now =>
      simp only [apply]
      split
      · exact .inr (.acted ‹_›)
      · exact .inl rfl

end ActiveGame

namespace GameEngine

def perform (engine : GameEngine) (room : RoomId) : RoomCall → GameEngine
  | .event event => engine.call room event
  | .disconnectTimer player => (engine.disconnectTimer room player).getD engine
  | .cleanupGame => engine.pop room

def performAll (engine : GameEngine) (room : RoomId) (calls : List RoomCall) : GameEngine :=
  calls.foldl (fun engine call => engine.perform room call) engine

theorem call_of_not_found {engine : GameEngine} {room : RoomId}
    (absent : engine.find room = none) (event : GameEvent) : engine.call room event = engine := by
  cases event <;>
    simp [call, handlePlayerDisconnect, handlePlayerReconnect, processAction, absent]

/-- A call leaves the game object alone or makes it take a step. -/
theorem perform_cases {engine : GameEngine} {room : RoomId} {game : ActiveGame}
    (stored : engine.games room = some game) (call : RoomCall) :
    ∃ next, (engine.perform room call).games room = some next ∧
      (next = game ∨ game.Step next) := by
  cases call with
  | event event =>
      cases found : engine.find room with
      | none => exact ⟨game, by rw [perform, call_of_not_found found, stored], .inl rfl⟩
      | some present =>
          obtain ⟨-, same⟩ := find_eq_some.mp found
          rw [stored] at same
          cases same
          exact ⟨_, (find_eq_some.mp (find_call found event)).2, game.apply_cases event⟩
  | disconnectTimer player =>
      simp only [perform]
      cases called : engine.disconnectTimer room player with
      | none => exact ⟨game, stored, .inl rfl⟩
      | some after =>
          obtain ⟨present, found, absent, rfl⟩ := disconnectTimer_eq_some called
          obtain ⟨-, same⟩ := find_eq_some.mp found
          rw [stored] at same
          cases same
          exact ⟨_, by simp, .inr (.forfeited absent)⟩
  | cleanupGame => exact ⟨game, stored, .inl rfl⟩

/-- After any calls the game object is a later stage of the one there was. -/
theorem performAll_lives {engine : GameEngine} {room : RoomId} {game : ActiveGame}
    (stored : engine.games room = some game) (calls : List RoomCall) :
    ∃ last, (engine.performAll room calls).games room = some last ∧ game.Lives last := by
  induction calls generalizing engine game with
  | nil => exact ⟨game, stored, .refl⟩
  | cons call calls ih =>
      obtain ⟨next, storedNext, same | step⟩ := perform_cases stored call
      · exact ih (same ▸ storedNext)
      · obtain ⟨last, storedLast, lives⟩ := ih storedNext
        exact ⟨last, storedLast, .head step lives⟩

/-- The player whose action a call is, if it is accepted. -/
def accepts (engine : GameEngine) (room : RoomId) : RoomCall → Option PlayerId
  | .event (.action player action data now) =>
      match (engine.processAction room player action data now).2 with
      | .accepted _ => some player
      | _ => none
  | _ => none

def acceptedPlayers (engine : GameEngine) (room : RoomId) : List RoomCall → List PlayerId
  | [] => []
  | call :: calls =>
      (engine.accepts room call).toList ++ (engine.perform room call).acceptedPlayers room calls

/-- The history grows by the accepted actions, and by nothing else. -/
theorem perform_history {engine : GameEngine} {room : RoomId} {game next : ActiveGame}
    (stored : engine.games room = some game) (call : RoomCall)
    (storedNext : (engine.perform room call).games room = some next) :
    next.actionHistory.map ActionRecord.playerId =
      game.actionHistory.map ActionRecord.playerId ++ (engine.accepts room call).toList := by
  have written {found : ActiveGame} (foundEq : engine.find room = some found) : found = game :=
    Option.some.inj ((find_eq_some.mp foundEq).2.symm.trans stored)
  have unchanged (same : engine.perform room call = engine) : next = game := by
    rw [same, stored] at storedNext
    exact (Option.some.inj storedNext).symm
  match call with
  | .event (.disconnect player) =>
      cases called : engine.handlePlayerDisconnect room player with
      | none =>
          obtain rfl := unchanged (by simp [perform, GameEngine.call, called])
          simp [accepts]
      | some after =>
          obtain ⟨found, foundEq, -, rfl⟩ := handlePlayerDisconnect_eq_some called
          obtain rfl := written foundEq
          simp only [perform, GameEngine.call, called, Option.getD_some, write_games, if_true,
            Option.some.injEq] at storedNext
          simp [accepts, ← storedNext]
  | .event (.reconnect player) =>
      cases called : engine.handlePlayerReconnect room player with
      | none =>
          obtain rfl := unchanged (by simp [perform, GameEngine.call, called])
          simp [accepts]
      | some result =>
          obtain ⟨found, foundEq, resumed, after⟩ := handlePlayerReconnect_eq_some called
          obtain rfl := written foundEq
          simp only [perform, GameEngine.call, called, Option.map_some, Option.getD_some, after,
            resumed, write_games, if_true, Option.some.injEq] at storedNext
          simp [accepts, ← storedNext, ActiveGame.handlePlayerReconnect]
  | .event (.action player action data now) =>
      rcases processAction_cases engine room player action data now with
        ⟨same, refused⟩ | ⟨found, result, foundEq, passed, equation⟩
      · obtain rfl := unchanged same
        simp only [accepts, Option.toList_none, List.append_nil]
      · obtain rfl := written foundEq
        obtain ⟨-, -, -, x, -, y, -, -, resultEq⟩ := ActiveGame.processAction_passed passed
        simp only [perform, GameEngine.call, equation, write_games, if_true,
          Option.some.injEq] at storedNext
        simp only [accepts, equation, ← storedNext, resultEq]
        rw [ActiveGame.finishTurn_frame]
        simp [ActiveGame.recordAction, ActiveGame.place]
  | .disconnectTimer player =>
      cases called : engine.disconnectTimer room player with
      | none =>
          obtain rfl := unchanged (by simp [perform, called])
          simp [accepts]
      | some after =>
          obtain ⟨found, foundEq, -, rfl⟩ := disconnectTimer_eq_some called
          obtain rfl := written foundEq
          simp only [perform, called, Option.getD_some, write_games, if_true,
            Option.some.injEq] at storedNext
          simp [accepts, ← storedNext]
  | .cleanupGame =>
      have same := stored.symm.trans storedNext
      cases same
      simp [accepts]

theorem performAll_history {engine : GameEngine} {room : RoomId} {game last : ActiveGame}
    (stored : engine.games room = some game) (calls : List RoomCall)
    (storedLast : (engine.performAll room calls).games room = some last) :
    last.actionHistory.map ActionRecord.playerId =
      game.actionHistory.map ActionRecord.playerId ++ engine.acceptedPlayers room calls := by
  induction calls generalizing engine game with
  | nil =>
      have same := stored.symm.trans storedLast
      cases same
      simp [acceptedPlayers]
  | cons call calls ih =>
      obtain ⟨next, storedNext, -⟩ := perform_cases stored call
      rw [ih storedNext storedLast, perform_history stored call storedNext, acceptedPlayers,
        List.append_assoc]

end GameEngine

namespace ActiveGame

/-- It is somebody's turn, so `current_player_id` does not raise. -/
def HasTurn (game : ActiveGame) : Prop := game.currentPlayerIdx < game.playerIds.length

theorem HasTurn.exists_current {game : ActiveGame} (hasTurn : game.HasTurn) :
    ∃ player, game.currentPlayerId = some player :=
  ⟨_, List.getElem?_eq_getElem hasTurn⟩

theorem HasTurn.step {game next : ActiveGame} (hasTurn : game.HasTurn) (step : game.Step next) :
    next.HasTurn := by
  cases step with
  | acted passed =>
      obtain ⟨-, -, -, x, -, y, -, -, rfl⟩ := processAction_passed passed
      generalize acted : (game.place _ x y).recordAction _ _ _ _ = last
      have turn : last.HasTurn := by
        rw [← acted]
        exact hasTurn
      cases ended : last.isOver with
      | false =>
          rw [finishTurn_of_not_isOver ended]
          exact Nat.mod_lt _ (Nat.zero_lt_of_lt turn)
      | true =>
          rw [finishTurn_of_isOver ended, determineWinner_eq]
          exact turn
  | paused | forfeited | resumed => exact hasTurn

/-- How the status, the absent players and the result of a game fit together. -/
structure Settled (game : ActiveGame) : Prop where
  known : game.status = .inProgress ∨ game.status = .paused ∨ game.status = .finished
  present : game.status = .inProgress → game.disconnectedPlayers = ∅
  absent : game.status = .paused → ∃ player, game.disconnectedPlayers = {player}
  ended : game.isOver = true → game.status = .finished ∧ game.disconnectedPlayers = ∅
  undecided : game.status ≠ .finished → game.winnerId = none
  /-- a player still counted as absent has already lost -/
  decided : game.status = .finished → ∀ player ∈ game.disconnectedPlayers,
    (game.playerIds.find? (· ≠ player)).or game.winnerId = game.winnerId

theorem create_settled (room : RoomId) (playerIds : List PlayerId)
    (playerElos : Dict PlayerId Int) (now : Time) :
    (create room playerIds playerElos now).Settled where
  known := .inl rfl
  present _ := rfl
  absent paused := by cases paused
  ended atEnd := absurd atEnd (show ¬ (create room playerIds playerElos now).isOver = true by
    simp [isOver, create, maxTurns, show Board.empty.hasEmpty = true by decide])
  undecided _ := rfl
  decided finished := by cases finished

theorem processAction_isOver {game : ActiveGame} {player : PlayerId} {action data : Json}
    {now : Time} {result : ActiveGame × Bool}
    (accepted : game.processAction player action data now = .ok (.passed result)) :
    result.1.isOver = result.2 := by
  obtain ⟨-, -, -, x, -, y, -, -, rfl⟩ := processAction_passed accepted
  rw [finishTurn_gameOver, finishTurn_frame]
  rfl

theorem Settled.handlePlayerReconnect {game : ActiveGame} (settled : game.Settled)
    (player : PlayerId) : (game.handlePlayerReconnect player).Settled := by
  unfold ActiveGame.handlePlayerReconnect
  by_cases last : game.status = .paused ∧ game.disconnectedPlayers.erase player = ∅
  · simp only [if_pos last]
    refine ⟨.inl rfl, fun _ => last.2, (by rintro ⟨⟩), ?_, fun _ => settled.undecided
      (by rw [last.1]; rintro ⟨⟩), (by rintro ⟨⟩)⟩
    intro atEnd
    have finished := (settled.ended atEnd).1
    rw [last.1] at finished
    cases finished
  · simp only [if_neg last]
    refine ⟨settled.known, ?_, ?_, ?_, settled.undecided, fun finished other member =>
      settled.decided finished other (Finset.mem_of_mem_erase member)⟩
    · intro running
      simp [settled.present running]
    · intro paused
      obtain ⟨only, same⟩ := settled.absent paused
      refine ⟨only, ?_⟩
      have stays : ({only} : Finset PlayerId).erase player ≠ ∅ :=
        fun nobody => last ⟨paused, by rw [same, nobody]⟩
      rw [same, Finset.erase_eq_of_notMem]
      rintro member
      exact stays (by simp [Finset.mem_singleton.mp member])
    · intro atEnd
      obtain ⟨finished, nobody⟩ := settled.ended atEnd
      exact ⟨finished, by simp [nobody]⟩

theorem Settled.step {game next : ActiveGame} (settled : game.Settled) (step : game.Step next) :
    next.Settled := by
  cases step with
  | @acted player action data now result passed =>
      obtain ⟨-, -, -, absent, -, status⟩ := processAction_frame passed
      have nobody := absent.trans (settled.present (processAction_passed passed).1)
      refine ⟨?_, fun _ => nobody, ?_, fun atEnd => ⟨?_, nobody⟩, ?_, ?_⟩
      · rw [status]
        cases result.2 <;> simp
      · intro paused
        rw [status] at paused
        split at paused <;> cases paused
      · rw [status, ← processAction_isOver passed, atEnd]
        rfl
      · intro unfinished
        obtain ⟨inProgress, -, -, x, -, y, -, -, rfl⟩ := processAction_passed passed
        rw [status, finishTurn_gameOver] at unfinished
        rw [finishTurn_of_not_isOver (by simpa using unfinished)]
        exact settled.undecided (by rw [inProgress]; rintro ⟨⟩)
      · simp [nobody]
  | paused player inProgress =>
      refine ⟨.inr (.inl rfl), (by rintro ⟨⟩),
        fun _ => ⟨player, by simp [settled.present inProgress]⟩, fun atEnd => ?_,
        fun _ => settled.undecided (by rw [inProgress]; rintro ⟨⟩), (by rintro ⟨⟩)⟩
      have finished := (settled.ended atEnd).1
      rw [inProgress] at finished
      cases finished
  | @forfeited player absent =>
      refine ⟨.inr (.inr rfl), (by rintro ⟨⟩), (by rintro ⟨⟩), fun atEnd =>
        ⟨rfl, (settled.ended atEnd).2⟩, fun unfinished => absurd rfl unfinished, ?_⟩
      intro _ other member
      rcases settled.known with running | paused | finished
      · simp [settled.present running] at absent
      · obtain ⟨only, same⟩ := settled.absent paused
        simp only [same, Finset.mem_singleton] at absent member
        subst absent member
        simp [← Option.or_assoc]
      · simp only [settled.decided finished player absent]
        exact settled.decided finished other member
  | resumed player => exact settled.handlePlayerReconnect player

/-- A finished game is not changed any more, but for who is counted as absent. -/
theorem Settled.frozen {game next : ActiveGame} (settled : game.Settled)
    (finished : game.status = .finished) (step : game.Step next) :
    next = { game with disconnectedPlayers := next.disconnectedPlayers } := by
  cases step with
  | acted passed =>
      have running := (processAction_passed passed).1
      rw [finished] at running
      cases running
  | paused player inProgress =>
      rw [finished] at inProgress
      cases inProgress
  | forfeited absent =>
      rw [settled.decided finished _ absent, ← finished]
  | resumed player => simp [ActiveGame.handlePlayerReconnect, finished]

end ActiveGame

end TerritoryBackend

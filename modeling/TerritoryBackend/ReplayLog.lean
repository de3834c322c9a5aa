import TerritoryBackend.GameRuns
import TerritoryBackend.Playability

/-!
# Replaying the history of a game

`action_history` records every accepted action.  What else happens to a game
(refused actions, absences, forfeits) leaves no trace in the board or the turn,
so the entries, called again on a fresh game of the same players, are accepted
and rebuild it.
-/

namespace TerritoryBackend

namespace GameEngine

theorem playAll_append (engine : GameEngine) (room : RoomId) (calls others : List ActionCall) :
    engine.playAll room (calls ++ others) =
      (((engine.playAll room calls).1.playAll room others).1,
        (engine.playAll room calls).2 ++
          ((engine.playAll room calls).1.playAll room others).2) := by
  induction calls generalizing engine with
  | nil => rfl
  | cons call calls ih => simp [playAll, ih]

end GameEngine

/-- The entries of a history as calls, the clock showing the given times. -/
def replayCalls (history : List ActionRecord) (clock : Nat → Time) : List ActionCall :=
  history.mapIdx fun position record =>
    ⟨record.playerId, record.action, record.data, clock position⟩

/-- A history as a replay records it, with times of its own. -/
def retimed (history : List ActionRecord) (clock : Nat → Time) : List ActionRecord :=
  history.mapIdx fun position record => { record with timestamp := clock position }

/-- Two games agree on what an accepted action reads and writes. -/
structure SamePosition (game other : ActiveGame) : Prop where
  players : game.playerIds = other.playerIds
  board : game.board = other.board
  scores : game.scores = other.scores
  turnNumber : game.turnNumber = other.turnNumber
  turn : game.currentPlayerIdx = other.currentPlayerIdx

namespace SamePosition

variable {game other : ActiveGame}

theorem currentPlayerId (same : SamePosition game other) :
    game.currentPlayerId = other.currentPlayerId := by
  simp [ActiveGame.currentPlayerId, same.players, same.turn]

theorem isOver (same : SamePosition game other) : game.isOver = other.isOver := by
  simp [ActiveGame.isOver, same.turnNumber, same.board]

theorem act (same : SamePosition game other) (player : PlayerId) (x y : Nat)
    (action data : Json) (now later : Time) :
    SamePosition ((game.place player x y).recordAction player action data now)
      ((other.place player x y).recordAction player action data later) := by
  have territory : game.placeTerritory player x y = other.placeTerritory player x y := by
    simp [ActiveGame.placeTerritory, same.players, same.board, same.scores]
  exact ⟨same.players, congrArg Prod.fst territory, congrArg Prod.snd territory,
    congrArg (· + 1) same.turnNumber, same.turn⟩

theorem determineWinner (same : SamePosition game other)
    (winner : game.winnerId = other.winnerId) :
    game.determineWinner.winnerId = other.determineWinner.winnerId := by
  simp only [ActiveGame.determineWinner, same.players, same.scores]
  split
  · rfl
  · exact winner

theorem finishTurn (same : SamePosition game other) :
    SamePosition game.finishTurn.1 other.finishTurn.1 := by
  have turn : game.finishTurn.1.currentPlayerIdx = other.finishTurn.1.currentPlayerIdx := by
    cases gameOver : game.isOver with
    | true =>
        rw [ActiveGame.finishTurn_of_isOver gameOver,
          ActiveGame.finishTurn_of_isOver (same.isOver ▸ gameOver),
          ActiveGame.determineWinner_eq,
          ActiveGame.determineWinner_eq { other with status := .finished }]
        exact same.turn
    | false =>
        rw [ActiveGame.finishTurn_of_not_isOver gameOver,
          ActiveGame.finishTurn_of_not_isOver (same.isOver ▸ gameOver)]
        show (_ + 1) % _ = (_ + 1) % _
        rw [same.turn, same.players]
  rw [ActiveGame.finishTurn_frame] at turn ⊢
  rw [ActiveGame.finishTurn_frame other] at turn ⊢
  exact ⟨same.players, same.board, same.scores, same.turnNumber, turn⟩

/-- An action accepted in one game is accepted in the other, at any time. -/
theorem processAction (same : SamePosition game other) (running : other.status = .inProgress)
    {player : PlayerId} {action data : Json} {now : Time} {result : ActiveGame × Bool}
    (passed : game.processAction player action data now = .ok (.passed result))
    (later : Time) :
    ∃ x y, result = ((game.place player x y).recordAction player action data now).finishTurn ∧
      other.processAction player action data later =
        .ok (.passed
          ((other.place player x y).recordAction player action data later).finishTurn) := by
  obtain ⟨inProgress, current, isPlace, -⟩ := ActiveGame.processAction_passed passed
  have otherCurrent := same.currentPlayerId.symm.trans current
  simp only [ActiveGame.processAction, inProgress, running, current, otherCurrent, isPlace,
    ne_eq, not_true_eq_false, if_false, Bool.not_true, Bool.false_eq_true, bind, Except.bind,
    pure, Except.pure] at passed ⊢
  rcases ActiveGame.applyPlaceAction_congr same.board player data with
    ⟨error, raised, -⟩ | ⟨error, refused, -⟩ | ⟨x, y, applied, otherApplied⟩
  · simp [raised] at passed
  · simp [refused] at passed
  · simp only [applied, Except.ok.injEq, ActiveGame.Checked.passed.injEq] at passed
    exact ⟨x, y, passed.symm, by rw [otherApplied]⟩

end SamePosition

/-- A replay has come as far as the game: it is at the same position and has
ended if the game was ended by an action. -/
structure Replayed (clock : Nat → Time) (game last : ActiveGame) : Prop where
  position : SamePosition game last
  history : last.actionHistory = retimed game.actionHistory clock
  running : game.isOver = false → last.status = .inProgress ∧ last.winnerId = none
  ended : game.isOver = true → last.status = .finished ∧ last.winnerId = game.winnerId

theorem create_replayed (clock : Nat → Time) (room replayRoom : RoomId)
    (playerIds : List PlayerId) (playerElos replayElos : Dict PlayerId Int)
    (now replayNow : Time) :
    Replayed clock (ActiveGame.create room playerIds playerElos now)
      (ActiveGame.create replayRoom playerIds replayElos replayNow) where
  position := ⟨rfl, rfl, rfl, rfl, rfl⟩
  history := rfl
  running _ := ⟨rfl, rfl⟩
  ended atEnd := by
    have finished := ((ActiveGame.create_settled room playerIds playerElos now).ended atEnd).1
    cases finished

variable {clock : Nat → Time} {game last : ActiveGame}

/-- Steps that are no actions leave no trace in what is replayed. -/
theorem Replayed.unmoved (replayed : Replayed clock game last) {next : ActiveGame}
    (players : next.playerIds = game.playerIds) (board : next.board = game.board)
    (scores : next.scores = game.scores) (turnNumber : next.turnNumber = game.turnNumber)
    (turn : next.currentPlayerIdx = game.currentPlayerIdx)
    (history : next.actionHistory = game.actionHistory)
    (winner : game.isOver = true → next.winnerId = game.winnerId) :
    Replayed clock next last := by
  have atEnd : next.isOver = game.isOver := by simp [ActiveGame.isOver, board, turnNumber]
  obtain ⟨samePlayers, sameBoard, sameScores, sameTurnNumber, sameTurn⟩ := replayed.position
  refine ⟨⟨players.trans samePlayers, board.trans sameBoard, scores.trans sameScores,
    turnNumber.trans sameTurnNumber, turn.trans sameTurn⟩, by rw [replayed.history, history], ?_,
    ?_⟩
  · rw [atEnd]
    exact replayed.running
  · rw [atEnd]
    intro ended
    exact ⟨(replayed.ended ended).1, (replayed.ended ended).2.trans (winner ended).symm⟩

/-- The next accepted action is accepted by the replay as well. -/
theorem Replayed.acted (replayed : Replayed clock game last) (settled : game.Settled)
    {player : PlayerId} {action data : Json} {now : Time} {result : ActiveGame × Bool}
    (passed : game.processAction player action data now = .ok (.passed result)) :
    result.1.actionHistory =
        game.actionHistory ++ [⟨player, action, data, game.turnNumber, now⟩] ∧
      ∃ further, last.processAction player action data (clock game.actionHistory.length) =
          .ok (.passed further) ∧ Replayed clock result.1 further.1 := by
  have inProgress := (ActiveGame.processAction_passed passed).1
  have unfinished : game.status ≠ .finished := by rw [inProgress]; rintro ⟨⟩
  have notOver : game.isOver = false := by
    cases atEnd : game.isOver with
    | false => rfl
    | true => exact absurd (settled.ended atEnd).1 unfinished
  obtain ⟨running, noWinner⟩ := replayed.running notOver
  have atEnd := ActiveGame.processAction_isOver passed
  obtain ⟨x, y, rfl, otherPassed⟩ := replayed.position.processAction running passed
    (clock game.actionHistory.length)
  have moved := replayed.position.act player x y action data now
    (clock game.actionHistory.length)
  have history := ActiveGame.processAction_history passed
  refine ⟨history, _, otherPassed, moved.finishTurn, ?_, ?_, ?_⟩
  · rw [history, ActiveGame.finishTurn_frame]
    simp [ActiveGame.recordAction, ActiveGame.place, retimed, replayed.history,
      replayed.position.turnNumber]
  · rw [atEnd, ActiveGame.finishTurn_gameOver, moved.isOver]
    intro notEnded
    rw [ActiveGame.finishTurn_of_not_isOver notEnded]
    exact ⟨running, noWinner⟩
  · rw [atEnd, ActiveGame.finishTurn_gameOver]
    intro ended
    rw [ActiveGame.finishTurn_of_isOver ended,
      ActiveGame.finishTurn_of_isOver (moved.isOver ▸ ended)]
    have closed : SamePosition
        { (game.place player x y).recordAction player action data now with status := .finished }
        { (last.place player x y).recordAction player action data
            (clock game.actionHistory.length) with status := .finished } :=
      ⟨moved.players, moved.board, moved.scores, moved.turnNumber, moved.turn⟩
    refine ⟨by rw [ActiveGame.determineWinner_eq], (closed.determineWinner ?_).symm⟩
    show game.winnerId = last.winnerId
    rw [settled.undecided unfinished, noWinner]

/-- The calls made for a history are accepted and bring a fresh game as far as
the game has come. -/
def ReplaysTo (fresh : GameEngine) (room : RoomId) (clock : Nat → Time) (game : ActiveGame) :
    Prop :=
  ∃ last, (fresh.playAll room (replayCalls game.actionHistory clock)).1.find room = some last ∧
    (∀ reply ∈ (fresh.playAll room (replayCalls game.actionHistory clock)).2,
      ∃ gameOver, reply = .accepted gameOver) ∧
    Replayed clock game last

theorem ReplaysTo.step {fresh : GameEngine} {room : RoomId} {next : ActiveGame}
    (replays : ReplaysTo fresh room clock game) (settled : game.Settled)
    (step : game.Step next) : ReplaysTo fresh room clock next := by
  obtain ⟨last, found, accepted, replayed⟩ := replays
  cases step with
  | @acted player action data now result passed =>
      obtain ⟨history, further, replyPassed, later⟩ := replayed.acted settled passed
      have present := (GameEngine.find_eq_some.mp found).1
      have calls : replayCalls result.1.actionHistory clock =
          replayCalls game.actionHistory clock ++
            [⟨player, action, data, clock game.actionHistory.length⟩] := by
        simp [replayCalls, history]
      refine ⟨further.1, ?_, ?_, later⟩
      · simp [calls, GameEngine.playAll_append, GameEngine.playAll, GameEngine.processAction,
          found, replyPassed, GameEngine.find_write present]
      · simp only [calls, GameEngine.playAll_append, GameEngine.playAll,
          GameEngine.processAction, found, replyPassed, List.mem_append, List.mem_singleton]
        rintro reply (earlier | rfl)
        · exact accepted reply earlier
        · exact ⟨further.2, rfl⟩
  | paused player inProgress =>
      exact ⟨last, found, accepted, replayed.unmoved rfl rfl rfl rfl rfl rfl fun _ => rfl⟩
  | forfeited absent =>
      refine ⟨last, found, accepted, replayed.unmoved rfl rfl rfl rfl rfl rfl ?_⟩
      intro atEnd
      exact settled.decided (settled.ended atEnd).1 _ absent
  | resumed player =>
      exact ⟨last, found, accepted, replayed.unmoved rfl rfl rfl rfl rfl rfl fun _ => rfl⟩

theorem replaysTo_of_lives (replaying : GameEngine) (replayRoom : RoomId)
    (replayElos : Dict PlayerId Int) (replayNow : Time) (clock : Nat → Time) {room : RoomId}
    {playerIds : List PlayerId} {playerElos : Dict PlayerId Int} {now : Time}
    (lives : (ActiveGame.create room playerIds playerElos now).Lives game) :
    ReplaysTo (replaying.createGame replayRoom playerIds replayElos replayNow) replayRoom clock
      game := by
  have both := lives.invariant
    (fun current _ (holds : current.Settled ∧
        ReplaysTo (replaying.createGame replayRoom playerIds replayElos replayNow) replayRoom
          clock current) step => ⟨holds.1.step step, holds.2.step holds.1 step⟩)
    ⟨ActiveGame.create_settled room playerIds playerElos now, _,
      find_createGame replaying replayRoom playerIds replayElos replayNow, by
        simp [replayCalls, ActiveGame.create, GameEngine.playAll],
      create_replayed clock room replayRoom playerIds playerElos replayElos now replayNow⟩
  exact both.2

/-- One of the calls was an accepted action that ended the game. -/
def EndedByAction (engine : GameEngine) (room : RoomId) (calls : List RoomCall) : Prop :=
  ∃ before player action data now after,
    calls = before ++ .event (.action player action data now) :: after ∧
      ((engine.performAll room before).processAction room player action data now).2 =
        .accepted true

/-- The game a replay leads to is the replayed one, but for the times. -/
structure FaithfulReplay (clock : Nat → Time) (game last : ActiveGame) : Prop where
  board : last.board = game.board
  scores : last.scores = game.scores
  turnNumber : last.turnNumber = game.turnNumber
  currentPlayer : last.currentPlayerId = game.currentPlayerId
  history : last.actionHistory = retimed game.actionHistory clock

/-- Once the board is full or the turns are used up, they stay so. -/
theorem ActiveGame.Settled.isOver_of_lives {game last : ActiveGame} (settled : game.Settled)
    (full : game.isOver = true) (lives : game.Lives last) : last.isOver = true := by
  have both := lives.invariant
    (fun current next (holds : current.Settled ∧ current.isOver = true) step => by
      refine ⟨holds.1.step step, ?_⟩
      rw [holds.1.frozen (holds.1.ended holds.2).1 step]
      exact holds.2)
    ⟨settled, full⟩
  exact both.2

/-- A game ended by an action stays as the action left it. -/
theorem isOver_of_endedByAction {engine : GameEngine} {room : RoomId} {initial game : ActiveGame}
    {calls : List RoomCall} (stored : engine.games room = some initial)
    (settled : initial.Settled)
    (storedLast : (engine.performAll room calls).games room = some game)
    (ended : EndedByAction engine room calls) : game.isOver = true := by
  obtain ⟨before, player, action, data, time, after, rfl, accepted⟩ := ended
  obtain ⟨current, storedCurrent, earlier⟩ := GameEngine.performAll_lives stored before
  rcases GameEngine.processAction_cases (engine.performAll room before) room player action data
    time with ⟨-, refused⟩ | ⟨found, result, foundEq, passed, equation⟩
  · exact absurd accepted (refused true)
  · have same := (GameEngine.find_eq_some.mp foundEq).2
    rw [storedCurrent] at same
    cases same
    simp only [equation, ActionReply.accepted.injEq] at accepted
    have settledNext : result.1.Settled :=
      (earlier.invariant (fun _ _ settled step => settled.step step) settled).step (.acted passed)
    have storedNext : ((engine.performAll room before).perform room
        (.event (.action player action data time))).games room = some result.1 := by
      simp [GameEngine.perform, GameEngine.call, equation]
    obtain ⟨last, storedHere, later⟩ := GameEngine.performAll_lives storedNext after
    have split : engine.performAll room
        (before ++ .event (.action player action data time) :: after) =
          ((engine.performAll room before).perform room
            (.event (.action player action data time))).performAll room after := by
      simp [GameEngine.performAll]
    rw [split, storedHere] at storedLast
    cases storedLast
    exact settledNext.isOver_of_lives ((ActiveGame.processAction_isOver passed).trans accepted)
      later

/-- Main result: the history of a game, called again on a fresh game of the
same players, is accepted entry by entry and rebuilds the game. -/
theorem faithfulReplay_of_performAll (engine replaying : GameEngine) (room replayRoom : RoomId)
    (playerIds : List PlayerId) (playerElos replayElos : Dict PlayerId Int)
    (now replayNow : Time) (calls : List RoomCall) (clock : Nat → Time) :
    let created := engine.createGame room playerIds playerElos now
    let fresh := replaying.createGame replayRoom playerIds replayElos replayNow
    ∃ game, (created.performAll room calls).games room = some game ∧
      let replay := fresh.playAll replayRoom (replayCalls game.actionHistory clock)
      (∀ reply ∈ replay.2, ∃ gameOver, reply = .accepted gameOver) ∧
        ∃ last, replay.1.find replayRoom = some last ∧ FaithfulReplay clock game last ∧
          (EndedByAction created room calls →
            last.status = game.status ∧ last.winnerId = game.winnerId) := by
  intro created fresh
  have stored := (GameEngine.find_eq_some.mp
    (find_createGame engine room playerIds playerElos now)).2
  obtain ⟨game, storedGame, lives⟩ := GameEngine.performAll_lives stored calls
  obtain ⟨last, found, accepted, replayed⟩ :=
    replaysTo_of_lives replaying replayRoom replayElos replayNow clock lives
  have same := replayed.position
  refine ⟨game, storedGame, accepted, last, found,
    ⟨same.board.symm, same.scores.symm, same.turnNumber.symm, same.currentPlayerId.symm,
    replayed.history⟩, ?_⟩
  intro ended
  have fresh := ActiveGame.create_settled room playerIds playerElos now
  have settled := lives.invariant (fun _ _ settled step => settled.step step) fresh
  have full := isOver_of_endedByAction stored fresh storedGame ended
  obtain ⟨finished, winner⟩ := replayed.ended full
  exact ⟨finished.trans (settled.ended full).1.symm, winner⟩

end TerritoryBackend

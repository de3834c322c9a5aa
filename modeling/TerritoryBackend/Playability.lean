import TerritoryBackend.GameEngine

/-!
# A running game can be played on

The invariant of two-player games in progress: somebody is to move, turns are
left, and the board has an empty cell.  An accepted action keeps it or ends
the game, and since the current player may place on any empty cell, every
running game can be played to its end.
-/

namespace TerritoryBackend

structure ActionCall where
  player : PlayerId
  action : Json
  data : Json
  now : Time

namespace GameEngine

/-- A sequence of calls for one room, with the replies they are given. -/
def playAll (engine : GameEngine) (room : RoomId) :
    List ActionCall → GameEngine × List ActionReply
  | [] => (engine, [])
  | call :: calls =>
      let answered := engine.processAction room call.player call.action call.data call.now
      let later := answered.1.playAll room calls
      (later.1, answered.2 :: later.2)

theorem find_processAction {engine : GameEngine} {room : RoomId} {game : ActiveGame}
    (found : engine.find room = some game) (player : PlayerId) (action data : Json)
    (now : Time) :
    ∃ next, (engine.processAction room player action data now).1.find room = some next ∧
      (next = game ∨
        ∃ gameOver,
          game.processAction player action data now = .ok (.passed (next, gameOver))) := by
  rcases processAction_cases engine room player action data now with
    ⟨unchanged, -⟩ | ⟨current, result, foundCurrent, passed, equation⟩
  · exact ⟨game, by rw [unchanged, found], .inl rfl⟩
  · rw [found] at foundCurrent
    cases foundCurrent
    refine ⟨result.1, ?_, .inr ⟨result.2, passed⟩⟩
    rw [equation, find_write (find_eq_some.mp found).1, if_pos rfl]

/-- What every accepted action preserves holds after a sequence of calls. -/
theorem playAll_invariant (invariant : ActiveGame → Prop) {room : RoomId}
    (preserved : ∀ game player action data now next gameOver, invariant game →
      game.processAction player action data now = .ok (.passed (next, gameOver)) →
      invariant next)
    {engine : GameEngine} {game : ActiveGame} (found : engine.find room = some game)
    (initial : invariant game) (calls : List ActionCall) :
    ∃ last, (engine.playAll room calls).1.find room = some last ∧ invariant last := by
  induction calls generalizing engine game with
  | nil => exact ⟨game, found, initial⟩
  | cons call calls ih =>
      obtain ⟨next, foundNext, same | ⟨gameOver, passed⟩⟩ :=
        find_processAction found call.player call.action call.data call.now
      · exact ih foundNext (same ▸ initial)
      · exact ih foundNext (preserved _ _ _ _ _ _ _ initial passed)

theorem playAll_players {engine : GameEngine} {room : RoomId} {game : ActiveGame}
    (found : engine.find room = some game) (calls : List ActionCall) :
    ∃ last, (engine.playAll room calls).1.find room = some last ∧
      last.playerIds = game.playerIds ∧ last.playerElos = game.playerElos := by
  refine playAll_invariant
    (fun last => last.playerIds = game.playerIds ∧ last.playerElos = game.playerElos)
    ?_ found ⟨rfl, rfl⟩ calls
  intro before player action data now next gameOver fixed accepted
  obtain ⟨-, players, elos, -⟩ := ActiveGame.processAction_frame accepted
  exact ⟨players.trans fixed.1, elos.trans fixed.2⟩

end GameEngine

namespace ActiveGame

/-- A neighbour is claimed if it is an empty cell of the board. -/
theorem claimNeighbour_cases (number : Nat) (player : PlayerId) (x y : Nat)
    (territory : Territory) (offset : Int × Int) :
    claimNeighbour number player x y territory offset = territory ∨
      ∃ column < boardSize, ∃ line < boardSize,
        (column : Int) = x + offset.1 ∧ (line : Int) = y + offset.2 ∧
          territory.1.cell column line = 0 ∧
          (claimNeighbour number player x y territory offset).1 =
            territory.1.put column line number := by
  unfold claimNeighbour
  dsimp only
  split
  · rename_i within
    obtain ⟨xLow, xHigh, yLow, yHigh, cellEmpty⟩ := within
    exact .inr ⟨_, by omega, _, by omega, by omega, by omega, cellEmpty, rfl⟩
  · exact .inl rfl

theorem claimNeighbour_wellFormed {territory : Territory} (wellFormed : territory.1.WellFormed)
    (number : Nat) (player : PlayerId) (x y : Nat) (offset : Int × Int) :
    (claimNeighbour number player x y territory offset).1.WellFormed := by
  rcases claimNeighbour_cases number player x y territory offset with
    same | ⟨column, -, line, -, -, -, -, claimed⟩
  · rw [same]
    exact wellFormed
  · rw [claimed]
    exact Board.put_wellFormed wellFormed column line number

theorem placeTerritory_wellFormed {game : ActiveGame} (wellFormed : game.board.WellFormed)
    (player : PlayerId) (x y : Nat) : (game.placeTerritory player x y).1.WellFormed := by
  have claims (number : Nat) (offsets : List (Int × Int)) (territory : Territory)
      (shaped : territory.1.WellFormed) :
      (offsets.foldl (claimNeighbour number player x y) territory).1.WellFormed := by
    induction offsets generalizing territory with
    | nil => exact shaped
    | cons offset offsets ih =>
        exact ih _ (claimNeighbour_wellFormed shaped number player x y offset)
  exact claims _ _ _ (Board.put_wellFormed wellFormed _ _ _)

/-- The running games of two players. -/
structure Playable (game : ActiveGame) (first second : PlayerId) : Prop where
  players : game.playerIds = [first, second]
  inProgress : game.status = .inProgress
  turn : game.currentPlayerIdx < 2
  turnsLeft : game.turnNumber < maxTurns
  wellFormed : game.board.WellFormed
  hasEmpty : game.board.hasEmpty = true

theorem create_playable (room : RoomId) (first second : PlayerId)
    (playerElos : Dict PlayerId Int) (now : Time) :
    (create room [first, second] playerElos now).Playable first second where
  players := rfl
  inProgress := rfl
  turn := Nat.zero_lt_two
  turnsLeft := by simp [create, maxTurns]
  wellFormed := Board.empty_wellFormed
  hasEmpty := show Board.empty.hasEmpty = true by decide

/-- An accepted action ends the game or leaves it running, one turn later. -/
theorem Playable.processAction {game next : ActiveGame} {first second player : PlayerId}
    {action data : Json} {now : Time} {gameOver : Bool} (playable : game.Playable first second)
    (accepted : game.processAction player action data now = .ok (.passed (next, gameOver))) :
    next.playerIds = [first, second] ∧
      ((next.status = .finished ∧ gameOver = true) ∨
        (next.Playable first second ∧ gameOver = false)) := by
  obtain ⟨inProgress, -, -, x, -, y, -, -, resultEq⟩ := processAction_passed accepted
  obtain ⟨-, players, -, -, turnNumber, status⟩ := processAction_frame accepted
  refine ⟨players.trans playable.players, ?_⟩
  cases gameOver : ((game.place player x y).recordAction player action data now).isOver with
  | true =>
      rw [finishTurn_of_isOver gameOver] at resultEq
      cases resultEq
      exact .inl ⟨status, rfl⟩
  | false =>
      rw [finishTurn_of_not_isOver gameOver] at resultEq
      simp only [isOver, Bool.or_eq_false_iff, decide_eq_false_iff_not, not_le,
        Bool.not_eq_false'] at gameOver
      cases resultEq
      right
      refine ⟨⟨players.trans playable.players, status, ?_, gameOver.1, ?_, gameOver.2⟩, rfl⟩
      · show (game.currentPlayerIdx + 1) % game.playerIds.length < 2
        rw [playable.players]
        exact Nat.mod_lt _ Nat.zero_lt_two
      · exact placeTerritory_wellFormed playable.wellFormed player x y

theorem Playable.exists_move {game : ActiveGame} {first second : PlayerId}
    (playable : game.Playable first second) (now : Time) :
    ∃ player data result,
      game.processAction player (.str "place") data now = .ok (.passed result) := by
  obtain ⟨y, yBound, x, xBound, cellEmpty⟩ := (Board.hasEmpty_iff _).mp playable.hasEmpty
  have present : game.currentPlayerIdx < game.playerIds.length := by
    rw [playable.players]
    exact playable.turn
  exact ⟨_, _, _, processAction_place playable.inProgress
    (List.getElem?_eq_getElem present) xBound yBound cellEmpty⟩

end ActiveGame

namespace GameEngine

/-- Every running game can be played to its end. -/
theorem exists_finishing_calls {engine : GameEngine} {room : RoomId} {game : ActiveGame}
    {first second : PlayerId} (found : engine.find room = some game)
    (playable : game.Playable first second) :
    ∃ calls last, (engine.playAll room calls).1.find room = some last ∧
      last.status = .finished := by
  generalize remaining : maxTurns - game.turnNumber = turns
  induction turns generalizing engine game with
  | zero =>
      have turnsLeft := playable.turnsLeft
      omega
  | succ turns ih =>
      obtain ⟨player, data, ⟨next, gameOver⟩, passed⟩ := playable.exists_move 0
      have foundNext : (engine.processAction room player (.str "place") data 0).1.find room =
          some next := by
        simp [processAction, found, passed, find_write (find_eq_some.mp found).1]
      obtain ⟨-, finished | ⟨running, -⟩⟩ := playable.processAction passed
      · exact ⟨[⟨player, .str "place", data, 0⟩], next, foundNext, finished.1⟩
      · have turnNumber := (ActiveGame.processAction_frame passed).2.2.2.2.1
        obtain ⟨calls, last, foundLast, finished⟩ :=
          ih foundNext running (by rw [turnNumber]; omega)
        exact ⟨⟨player, .str "place", data, 0⟩ :: calls, last, foundLast, finished⟩

end GameEngine

end TerritoryBackend

import TerritoryBackend.Playability
import TerritoryBackend.Territory

/-!
# A game is played to a fair end

Every accepted action fills a cell, and the first one fills three, so a board
of a hundred cells is full before the cap on the turns is reached.  The turns
alternate, and the player with more cells wins.
-/

namespace TerritoryBackend

namespace ActiveGame

variable {first second player : PlayerId} {number : Nat} {territory : Territory}

theorem wellFormed_of_step {game next : ActiveGame} (wellFormed : game.board.WellFormed)
    (step : game.Step next) : next.board.WellFormed := by
  cases step with
  | acted passed =>
      obtain ⟨-, -, -, x, -, y, -, -, rfl⟩ := processAction_passed passed
      rw [finishTurn_frame]
      exact placeTerritory_wellFormed wellFormed _ x y
  | _ => exact wellFormed

theorem empties_put {board : Board} (wellFormed : board.WellFormed) {x y : Nat}
    (xBound : x < boardSize) (yBound : y < boardSize) (cellEmpty : board.cell x y = 0)
    (positive : number ≠ 0) : (board.put x y number).count 0 + 1 = board.count 0 := by
  have counted := Board.count_put wellFormed xBound yBound number 0
  simpa [cellEmpty, positive] using counted

theorem empties_claimNeighbour_le (wellFormed : territory.1.WellFormed) (positive : number ≠ 0)
    (player : PlayerId) (x y : Nat) (offset : Int × Int) :
    (claimNeighbour number player x y territory offset).1.count 0 ≤ territory.1.count 0 := by
  rcases claimNeighbour_cases number player x y territory offset with
    same | ⟨column, xBound, line, yBound, -, -, cellEmpty, claimed⟩
  · rw [same]
  · have emptied := empties_put wellFormed xBound yBound cellEmpty positive
    rw [claimed]
    omega

theorem empties_claimNeighbour {column line x y : Nat} {offset : Int × Int}
    (wellFormed : territory.1.WellFormed) (positive : number ≠ 0) (player : PlayerId)
    (xBound : column < boardSize) (yBound : line < boardSize)
    (columnEq : (column : Int) = x + offset.1) (lineEq : (line : Int) = y + offset.2)
    (cellEmpty : territory.1.cell column line = 0) :
    (claimNeighbour number player x y territory offset).1.count 0 + 1 =
      territory.1.count 0 := by
  rw [← empties_put wellFormed xBound yBound cellEmpty positive]
  unfold claimNeighbour
  simp only [← columnEq, ← lineEq, Int.toNat_natCast]
  rw [if_pos ⟨by omega, by omega, by omega, by omega, cellEmpty⟩]

theorem cell_claimNeighbour {column line x y : Nat} {offset : Int × Int}
    (wellFormed : territory.1.WellFormed) (number : Nat) (player : PlayerId)
    (elsewhere : (column : Int) ≠ x + offset.1 ∨ (line : Int) ≠ y + offset.2) :
    (claimNeighbour number player x y territory offset).1.cell column line =
      territory.1.cell column line := by
  rcases claimNeighbour_cases number player x y territory offset with
    same | ⟨claimedColumn, xBound, claimedLine, yBound, columnEq, lineEq, -, claimed⟩
  · rw [same]
  · rw [claimed, Board.cell_put wellFormed xBound yBound, if_neg]
    rintro ⟨rfl, rfl⟩
    omega

theorem empties_claimAll_le (territory : Territory) (wellFormed : territory.1.WellFormed)
    (positive : number ≠ 0) (player : PlayerId) (x y : Nat) (offsets : List (Int × Int)) :
    (offsets.foldl (claimNeighbour number player x y) territory).1.count 0 ≤
      territory.1.count 0 := by
  induction offsets generalizing territory with
  | nil => exact le_rfl
  | cons offset offsets ih =>
      exact (ih _ (claimNeighbour_wellFormed wellFormed number player x y offset)).trans
        (empties_claimNeighbour_le wellFormed positive player x y offset)

/-- Of two neighbours one that is an empty cell of the board is claimed. -/
theorem empties_claim_either {column line : Nat} (wellFormed : territory.1.WellFormed)
    (positive : number ≠ 0) (player : PlayerId) (x y : Nat) (offset other : Int × Int)
    (xBound : column < boardSize) (yBound : line < boardSize)
    (cellEmpty : territory.1.cell column line = 0)
    (position : (column : Int) = x + offset.1 ∧ (line : Int) = y + offset.2 ∨
      (column : Int) = x + other.1 ∧ (line : Int) = y + other.2) :
    (claimNeighbour number player x y (claimNeighbour number player x y territory offset)
      other).1.count 0 + 1 ≤ territory.1.count 0 := by
  have shaped := claimNeighbour_wellFormed wellFormed number player x y offset
  have never := empties_claimNeighbour_le wellFormed positive player x y offset
  by_cases isFirst : (column : Int) = x + offset.1 ∧ (line : Int) = y + offset.2
  · have claimed := empties_claimNeighbour wellFormed positive player xBound yBound
      isFirst.1 isFirst.2 cellEmpty
    have later := empties_claimNeighbour_le shaped positive player x y other
    omega
  · have isSecond := position.resolve_left isFirst
    have stillEmpty := cell_claimNeighbour (x := x) (y := y) wellFormed number player
      (not_and_or.mp isFirst)
    have claimed := empties_claimNeighbour shaped positive player xBound yBound
      isSecond.1 isSecond.2 (stillEmpty.trans cellEmpty)
    omega

/-- A placement fills the cell it hits. -/
theorem empties_place {game : ActiveGame} (wellFormed : game.board.WellFormed)
    (player : PlayerId) {x y : Nat} (xBound : x < boardSize) (yBound : y < boardSize)
    (cellEmpty : game.board.cell x y = 0) :
    (game.place player x y).board.count 0 + 1 ≤ game.board.count 0 := by
  have positive : game.playerIds.idxOf player + 1 ≠ 0 := by omega
  have hit := empties_put wellFormed xBound yBound cellEmpty positive
  have claimed := empties_claimAll_le (game.board.put x y (game.playerIds.idxOf player + 1),
      game.scores.insert player (game.scores.getD player 0 + 1))
    (Board.put_wellFormed wellFormed x y _) positive player x y neighbourOffsets
  exact (Nat.add_le_add_right claimed 1).trans hit.le

theorem exists_step {coordinate : Nat} (bound : coordinate < boardSize) :
    ∃ next < boardSize, next ≠ coordinate ∧
      ((next : Int) = coordinate + (-1) ∨ (next : Int) = coordinate + 1) := by
  unfold boardSize at bound ⊢
  by_cases atStart : coordinate = 0
  · exact ⟨1, by omega, by omega, by omega⟩
  · exact ⟨coordinate - 1, by omega, by omega, by omega⟩

/-- The first placement claims a neighbour on either axis as well. -/
theorem empties_place_opening {game : ActiveGame} (opening : game.board = Board.empty)
    (player : PlayerId) {x y : Nat} (xBound : x < boardSize) (yBound : y < boardSize) :
    (game.place player x y).board.count 0 + 3 ≤ game.board.count 0 := by
  have wellFormed : game.board.WellFormed := opening ▸ Board.empty_wellFormed
  have blank (column line : Nat) : game.board.cell column line = 0 := by
    rw [opening, Board.cell_empty]
  simp only [place, placeTerritory]
  generalize numbered : game.playerIds.idxOf player + 1 = number
  have positive : number ≠ 0 := by omega
  have hit := empties_put wellFormed xBound yBound (blank x y) positive
  have untouched {column line : Nat} (elsewhere : column ≠ x ∨ line ≠ y) :
      (game.board.put x y number).cell column line = 0 := by
    rw [Board.cell_put wellFormed xBound yBound, if_neg (not_and_or.mpr elsewhere), blank]
  generalize placed : (game.board.put x y number,
    game.scores.insert player (game.scores.getD player 0 + 1)) = territory
  have board : territory.1 = game.board.put x y number := by rw [← placed]
  have shaped : territory.1.WellFormed := board ▸ Board.put_wellFormed wellFormed x y number
  rw [← board] at hit untouched
  obtain ⟨column, columnBound, columnNe, columnEq⟩ := exists_step xBound
  obtain ⟨line, lineBound, lineNe, lineEq⟩ := exists_step yBound
  have sideways := empties_claim_either shaped positive player x y (-1, 0) (1, 0) columnBound
    yBound (untouched (.inl columnNe))
    (columnEq.imp (fun same => ⟨same, by simp⟩) (fun same => ⟨same, by simp⟩))
  have shapedLeft := claimNeighbour_wellFormed shaped number player x y (-1, 0)
  have shapedRight := claimNeighbour_wellFormed shapedLeft number player x y (1, 0)
  have stillBlank : (claimNeighbour number player x y
      (claimNeighbour number player x y territory (-1, 0)) (1, 0)).1.cell x line = 0 := by
    rw [cell_claimNeighbour shapedLeft number player (.inl (by simp)),
      cell_claimNeighbour shaped number player (.inl (by simp)), untouched (.inr lineNe)]
  have upright := empties_claim_either shapedRight positive player x y (0, -1) (0, 1) xBound
    lineBound stillBlank
    (lineEq.imp (fun same => ⟨by simp, same⟩) (fun same => ⟨by simp, same⟩))
  simp only [neighbourOffsets, List.foldl_cons, List.foldl_nil]
  omega

/-- The player whose turn a number of accepted actions leads to. -/
def playerOnTurn (first second : PlayerId) (turn : Nat) : PlayerId :=
  if turn % 2 = 0 then first else second

/-- A game of two players that has been played by turns. -/
structure Fair (first second : PlayerId) (game : ActiveGame) : Prop where
  territorial : Territorial first second game
  settled : game.Settled
  recorded : game.actionHistory.length = game.turnNumber
  alternate : ∀ position record, game.actionHistory[position]? = some record →
    record.playerId = playerOnTurn first second position
  turn : game.isOver = false → game.currentPlayerIdx = game.turnNumber % 2
  opening : game.turnNumber = 0 → game.board = Board.empty
  progress : game.turnNumber ≠ 0 →
    game.turnNumber + 2 + game.board.count 0 ≤ boardSize * boardSize

theorem create_fair (room : RoomId) (different : first ≠ second)
    (playerElos : Dict PlayerId Int) (now : Time) :
    Fair first second (create room [first, second] playerElos now) where
  territorial := create_territorial room different playerElos now
  settled := create_settled room [first, second] playerElos now
  recorded := rfl
  alternate := by simp [create]
  turn _ := rfl
  opening _ := rfl
  progress started := absurd rfl started

theorem Fair.wellFormed {game : ActiveGame} (fair : Fair first second game) :
    game.board.WellFormed :=
  fair.territorial.counted.wellFormed

theorem Fair.onTurn {game : ActiveGame} (fair : Fair first second game)
    (running : game.isOver = false) (current : game.currentPlayerId = some player) :
    player = playerOnTurn first second game.turnNumber := by
  unfold currentPlayerId at current
  rw [fair.territorial.players, fair.turn running] at current
  unfold playerOnTurn
  rcases Nat.mod_two_eq_zero_or_one game.turnNumber with even | odd
  · simpa [even] using current.symm
  · simpa [odd] using current.symm

/-- The board is never full before the cap on the turns. -/
theorem Fair.turnNumber_lt {game : ActiveGame} (fair : Fair first second game) :
    game.turnNumber < maxTurns := by
  by_cases started : game.turnNumber = 0
  · simp [started, maxTurns]
  · have progress := fair.progress started
    simp only [boardSize, maxTurns] at progress ⊢
    omega

theorem Fair.running {game : ActiveGame} (fair : Fair first second game)
    (inProgress : game.status = .inProgress) : game.isOver = false := by
  cases gameOver : game.isOver with
  | false => rfl
  | true =>
      have finished := (fair.settled.ended gameOver).1
      rw [inProgress] at finished
      cases finished

theorem Fair.acted (different : first ≠ second) {game : ActiveGame}
    (fair : Fair first second game) {action data : Json} {now : Time}
    {result : ActiveGame × Bool}
    (passed : game.processAction player action data now = .ok (.passed result)) :
    Fair first second result.1 := by
  have step : game.Step result.1 := .acted passed
  have territorial := fair.territorial.step different step
  have settled := fair.settled.step step
  have atEnd := processAction_isOver passed
  obtain ⟨inProgress, current, -, x, xBound, y, yBound, cellEmpty, rfl⟩ :=
    processAction_passed passed
  have running := fair.running inProgress
  have onTurn := fair.onTurn running current
  have filled := empties_place fair.wellFormed player xBound yBound cellEmpty
  constructor
  · exact territorial
  · exact settled
  · rw [finishTurn_frame]
    simp [recordAction, place, fair.recorded]
  · intro position record recorded
    rw [finishTurn_frame] at recorded
    simp only [recordAction, place, List.getElem?_append] at recorded
    split at recorded
    · exact fair.alternate position record recorded
    · rename_i beyond
      obtain ⟨bound, last⟩ := List.getElem?_eq_some_iff.mp recorded
      simp only [List.length_singleton, Nat.lt_one_iff] at bound
      rw [← fair.recorded] at onTurn
      simp only [bound, List.getElem_cons_zero] at last
      rw [← last, show position = game.actionHistory.length by omega]
      exact onTurn
  · intro notOver
    rw [atEnd, finishTurn_gameOver] at notOver
    rw [finishTurn_of_not_isOver notOver]
    show (game.currentPlayerIdx + 1) % game.playerIds.length = (game.turnNumber + 1) % 2
    rw [fair.turn running, fair.territorial.players]
    simp
  · rw [finishTurn_frame]
    intro none
    exact absurd none (Nat.succ_ne_zero _)
  · intro _
    rw [finishTurn_frame]
    show game.turnNumber + 1 + 2 + (game.place player x y).board.count 0 ≤ _
    by_cases started : game.turnNumber = 0
    · have opened := empties_place_opening (fair.opening started) player xBound yBound
      have blank : game.board.count 0 = boardSize * boardSize := by
        rw [fair.opening started]
        decide +kernel
      omega
    · have progress := fair.progress started
      omega

theorem Fair.step (different : first ≠ second) {game next : ActiveGame}
    (fair : Fair first second game) (step : game.Step next) : Fair first second next := by
  have territorial := fair.territorial.step different step
  have settled := fair.settled.step step
  cases step with
  | acted passed => exact fair.acted different passed
  | _ =>
      exact ⟨territorial, settled, fair.recorded, fair.alternate, fair.turn, fair.opening,
        fair.progress⟩

theorem Lives.fair {room : RoomId} (different : first ≠ second)
    {playerElos : Dict PlayerId Int} {now : Time} {game : ActiveGame}
    (lives : (create room [first, second] playerElos now).Lives game) :
    Fair first second game := by
  apply lives.invariant
  · intro stage next fair step
    exact fair.step different step
  · exact create_fair room different playerElos now

/-- The winner is the player who owns more cells, and nobody when both own the
same number. -/
def WonByTerritory (first second : PlayerId) (game : ActiveGame) : Prop :=
  (game.winnerId = some first ↔ game.board.count 2 < game.board.count 1) ∧
    (game.winnerId = some second ↔ game.board.count 1 < game.board.count 2) ∧
    (game.winnerId = none ↔ game.board.count 1 = game.board.count 2)

theorem Territorial.determineWinner (different : first ≠ second) {game : ActiveGame}
    (territorial : Territorial first second game) :
    WonByTerritory first second game.determineWinner := by
  obtain ⟨-, -, firstScore, secondScore⟩ := territorial.counted
  have winner : game.determineWinner.winnerId =
      if game.board.count 2 < game.board.count 1 then some first
      else if game.board.count 1 < game.board.count 2 then some second else none := by
    simp [ActiveGame.determineWinner, territorial.players, Dict.getD, firstScore, secondScore]
  have board : game.determineWinner.board = game.board := by rw [determineWinner_eq]
  unfold WonByTerritory
  rw [winner, board]
  rcases lt_trichotomy (game.board.count 1) (game.board.count 2) with less | same | more
  · simp [less, less.not_gt, less.ne, different.symm]
  · simp [same]
  · simp [more, more.not_gt, more.ne', different]

/-- What an accepted action makes of a game: it ends the game exactly when it
fills the board, which happens before the cap on the turns is reached. -/
structure EndsFairly (first second : PlayerId) (next : ActiveGame) (gameOver : Bool) :
    Prop where
  uncapped : next.turnNumber < maxTurns
  finished : next.status = .finished ↔ gameOver = true
  full : gameOver = true ↔ next.board.hasEmpty = false
  won : gameOver = true → WonByTerritory first second next

theorem Fair.endsFairly (different : first ≠ second) {game next : ActiveGame}
    (fair : Fair first second game) {action data : Json} {now : Time} {gameOver : Bool}
    (passed : game.processAction player action data now = .ok (.passed (next, gameOver))) :
    EndsFairly first second next gameOver := by
  have later : Fair first second next := fair.acted different passed
  have uncapped := later.turnNumber_lt
  have atEnd : next.isOver = gameOver := processAction_isOver passed
  obtain ⟨-, -, -, -, -, status⟩ := processAction_frame passed
  constructor
  · exact uncapped
  · rw [status]
    cases gameOver <;> simp
  · rw [← atEnd]
    simp [isOver, uncapped.not_ge]
  · intro isOver
    subst isOver
    obtain ⟨-, -, -, x, -, y, -, -, resultEq⟩ := processAction_passed passed
    have ended : ((game.place player x y).recordAction player action data now).isOver = true := by
      rw [← finishTurn_gameOver, ← resultEq]
    rw [finishTurn_of_isOver ended, Prod.mk.injEq] at resultEq
    have territorial : Territorial first second
        { (game.place player x y).recordAction player action data now with
          status := .finished } := by
      have kept := later.territorial
      rw [resultEq.1, determineWinner_eq] at kept
      exact ⟨kept.players, kept.counted⟩
    rw [resultEq.1]
    exact territorial.determineWinner different

/-- The course of a game whose accepted actions were made by the given players. -/
structure FairlyPlayed (first second : PlayerId) (players : List PlayerId) (game : ActiveGame) :
    Prop where
  alternate : ∀ position player, players[position]? = some player →
    player = playerOnTurn first second position
  progress : players ≠ [] →
    players.length + 2 ≤ game.board.flatten.countP (fun value => value != 0)
  uncapped : game.turnNumber = players.length ∧ game.turnNumber < maxTurns
  movable : game.status = .inProgress → game.board.hasEmpty = true ∧
    ∃ player data, game.currentPlayerId = some player ∧ ∀ now, ∃ result,
      game.processAction player (.str "place") data now = .ok (.passed result)
  ends : ∀ player action data now next gameOver,
    game.processAction player action data now = .ok (.passed (next, gameOver)) →
    EndsFairly first second next gameOver

theorem Fair.movable {game : ActiveGame} (fair : Fair first second game)
    (inProgress : game.status = .inProgress) : game.board.hasEmpty = true ∧
      ∃ player data, game.currentPlayerId = some player ∧ ∀ now, ∃ result,
        game.processAction player (.str "place") data now = .ok (.passed result) := by
  have running := fair.running inProgress
  simp only [isOver, Bool.or_eq_false_iff, Bool.not_eq_false'] at running
  refine ⟨running.2, ?_⟩
  obtain ⟨y, yBound, x, xBound, cellEmpty⟩ := (Board.hasEmpty_iff _).mp running.2
  have present : game.currentPlayerIdx < game.playerIds.length := by
    rw [fair.turn (fair.running inProgress), fair.territorial.players]
    exact Nat.mod_lt _ Nat.zero_lt_two
  have current := List.getElem?_eq_getElem present
  exact ⟨_, _, current, fun now => ⟨_, processAction_place inProgress current xBound yBound
    cellEmpty⟩⟩

theorem Fair.fairlyPlayed (different : first ≠ second) {game : ActiveGame}
    (fair : Fair first second game) :
    FairlyPlayed first second (game.actionHistory.map ActionRecord.playerId) game where
  alternate position player played := by
    rw [List.getElem?_map, Option.map_eq_some_iff] at played
    obtain ⟨record, recorded, rfl⟩ := played
    exact fair.alternate position record recorded
  progress started := by
    have total := Board.filled_add_count fair.wellFormed
    have moved : game.turnNumber ≠ 0 := by
      rintro none
      exact started (by rw [List.map_eq_nil_iff, ← List.length_eq_zero_iff, fair.recorded, none])
    have progress := fair.progress moved
    rw [List.length_map, fair.recorded]
    omega
  uncapped := ⟨by simp [fair.recorded], fair.turnNumber_lt⟩
  movable := fair.movable
  ends _ _ _ _ _ _ passed := fair.endsFairly different passed

end ActiveGame

/-- Main result: every game of two players can be played on while it is in
progress, and it ends with a full board and the winner with more territory. -/
theorem fairlyPlayed_of_performAll (engine : GameEngine) (room : RoomId)
    {first second : PlayerId} (different : first ≠ second) (playerElos : Dict PlayerId Int)
    (now : Time) (calls : List RoomCall) :
    let created := engine.createGame room [first, second] playerElos now
    ∃ game, (created.performAll room calls).games room = some game ∧
      game.FairlyPlayed first second (created.acceptedPlayers room calls) := by
  have stored := (GameEngine.find_eq_some.mp
    (find_createGame engine room [first, second] playerElos now)).2
  obtain ⟨game, storedGame, lives⟩ := GameEngine.performAll_lives stored calls
  have fair := lives.fair different
  refine ⟨game, storedGame, ?_⟩
  have players := GameEngine.performAll_history stored calls storedGame
  simp only [ActiveGame.create, List.map_nil, List.nil_append] at players
  rw [← players]
  exact fair.fairlyPlayed different

theorem fairlyPlayed_of_performAll_rookies :
    let created := ({} : GameEngine).createGame "room-1" ["ada", "bob"] ∅ 0
    let calls := [.event (.action "ada" (.str "place") (.obj [("x", .int 4), ("y", .int 4)]) 1),
      .event (.disconnect "bob"), .event (.reconnect "bob")]
    ∃ game, (created.performAll "room-1" calls).games "room-1" = some game ∧
      game.FairlyPlayed "ada" "bob" (created.acceptedPlayers "room-1" calls) :=
  fairlyPlayed_of_performAll {} "room-1" (by decide) ∅ 0 _

end TerritoryBackend

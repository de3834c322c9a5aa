import TerritoryBackend.GameRuns

/-!
# Scores are the territory

The scores are counted up whenever a cell is claimed, while the board is
written in place.  Both agree all the life of a game: a score is the number of
cells on the board that carry the player's number.
-/

namespace TerritoryBackend

namespace Board

theorem mem_flatten_put {board : Board} (wellFormed : board.WellFormed) {x y : Nat}
    (xBound : x < boardSize) (yBound : y < boardSize) {written value : Nat}
    (member : value ∈ (board.put x y written).flatten) :
    value = written ∨ value ∈ board.flatten := by
  have counted := count_put wellFormed xBound yBound written value
  have positive : 0 < (board.put x y written).count value := List.count_pos_iff.mpr member
  by_cases same : written = value
  · exact .inl same.symm
  · rw [if_neg same] at counted
    exact .inr (List.count_pos_iff.mp (show 0 < board.count value by omega))

theorem count_total {board : Board} (wellFormed : board.WellFormed)
    (owned : ∀ value ∈ board.flatten, value ≤ 2) :
    board.count 0 + board.count 1 + board.count 2 = boardSize * boardSize := by
  have total (cells : List Nat) (owned : ∀ value ∈ cells, value ≤ 2) :
      cells.count 0 + cells.count 1 + cells.count 2 = cells.length := by
    induction cells with
    | nil => rfl
    | cons value cells ih =>
        have others := ih fun value member => owned value (List.mem_cons_of_mem _ member)
        have bound := owned value List.mem_cons_self
        rcases (by omega : value = 0 ∨ value = 1 ∨ value = 2) with rfl | rfl | rfl <;>
          simp <;> omega
  rw [← length_flatten wellFormed]
  exact total board.flatten owned

end Board

namespace ActiveGame

/-- The board carries the numbers of two players, who score what they own. -/
structure Counted (first second : PlayerId) (territory : Territory) : Prop where
  wellFormed : territory.1.WellFormed
  owned : ∀ value ∈ territory.1.flatten, value ≤ 2
  firstScore : territory.2.lookup first = some (territory.1.count 1 : Int)
  secondScore : territory.2.lookup second = some (territory.1.count 2 : Int)

variable {first second player : PlayerId} {number : Nat} {territory : Territory}

/-- The number a player writes on the board. -/
def PlaysAs (first second player : PlayerId) (number : Nat) : Prop :=
  player = first ∧ number = 1 ∨ player = second ∧ number = 2

theorem playsAs_of_mem (different : first ≠ second) {game : ActiveGame}
    (players : game.playerIds = [first, second]) (member : player ∈ game.playerIds) :
    PlaysAs first second player (game.playerIds.idxOf player + 1) := by
  rw [players] at member ⊢
  simp only [List.mem_cons, List.not_mem_nil, or_false] at member
  rcases member with rfl | rfl
  · exact .inl ⟨rfl, by simp⟩
  · exact .inr ⟨rfl, by simp [different]⟩

theorem Counted.claim (counted : Counted first second territory) (different : first ≠ second)
    (plays : PlaysAs first second player number) {x y : Nat} (xBound : x < boardSize)
    (yBound : y < boardSize) (cellEmpty : territory.1.cell x y = 0) :
    Counted first second
      (territory.1.put x y number,
        territory.2.insert player (territory.2.getD player 0 + 1)) := by
  have recount (value : Nat) :=
    Board.count_put counted.wellFormed xBound yBound number value
  simp only [cellEmpty] at recount
  have ones := recount 1
  have twos := recount 2
  constructor
  · exact Board.put_wellFormed counted.wellFormed x y number
  · intro value member
    rcases Board.mem_flatten_put counted.wellFormed xBound yBound member with rfl | old
    · rcases plays with ⟨-, rfl⟩ | ⟨-, rfl⟩ <;> omega
    · exact counted.owned value old
  · rcases plays with ⟨rfl, rfl⟩ | ⟨rfl, rfl⟩ <;> simp at ones
    · simp [Dict.getD, counted.firstScore, ones]
    · simp [different, counted.firstScore, ones]
  · rcases plays with ⟨rfl, rfl⟩ | ⟨rfl, rfl⟩ <;> simp at twos
    · simp [different.symm, counted.secondScore, twos]
    · simp [Dict.getD, counted.secondScore, twos]

theorem Counted.claimNeighbour (counted : Counted first second territory)
    (different : first ≠ second) (plays : PlaysAs first second player number) (x y : Nat)
    (offset : Int × Int) :
    Counted first second (claimNeighbour number player x y territory offset) := by
  unfold ActiveGame.claimNeighbour
  dsimp only
  split
  · rename_i within
    obtain ⟨xLow, xHigh, yLow, yHigh, cellEmpty⟩ := within
    exact counted.claim different plays (by omega) (by omega) cellEmpty
  · exact counted

theorem Counted.claimAll (counted : Counted first second territory)
    (different : first ≠ second) (plays : PlaysAs first second player number) (x y : Nat)
    (offsets : List (Int × Int)) :
    Counted first second
      (offsets.foldl (ActiveGame.claimNeighbour number player x y) territory) := by
  induction offsets generalizing territory with
  | nil => exact counted
  | cons offset offsets ih => exact ih (counted.claimNeighbour different plays x y offset)

/-- A placement on an empty cell keeps the scores and the board in step. -/
theorem Counted.place {game : ActiveGame} (counted : Counted first second (game.board, game.scores))
    (different : first ≠ second) (players : game.playerIds = [first, second])
    (member : player ∈ game.playerIds) {x y : Nat} (xBound : x < boardSize)
    (yBound : y < boardSize) (cellEmpty : game.board.cell x y = 0) :
    Counted first second (game.placeTerritory player x y) := by
  have plays := playsAs_of_mem different players member
  exact (counted.claim different plays xBound yBound cellEmpty).claimAll different plays x y _

/-- The scores of a game of two players are their cells on the board. -/
structure Territorial (first second : PlayerId) (game : ActiveGame) : Prop where
  players : game.playerIds = [first, second]
  counted : Counted first second (game.board, game.scores)

theorem create_territorial (room : RoomId) (different : first ≠ second)
    (playerElos : Dict PlayerId Int) (now : Time) :
    Territorial first second (create room [first, second] playerElos now) where
  players := rfl
  counted :=
    { wellFormed := Board.empty_wellFormed
      owned := show ∀ value ∈ Board.empty.flatten, value ≤ 2 by decide
      firstScore := by
        show AList.lookup first (AList.insert second 0 (AList.insert first 0 ∅)) = some 0
        rw [Dict.lookup_insert, if_neg different, Dict.lookup_insert, if_pos rfl]
      secondScore := by
        show AList.lookup second (AList.insert second 0 (AList.insert first 0 ∅)) = some 0
        rw [Dict.lookup_insert, if_pos rfl] }

theorem Territorial.step (different : first ≠ second) {game next : ActiveGame}
    (territorial : Territorial first second game) (step : game.Step next) :
    Territorial first second next := by
  cases step with
  | acted passed =>
      obtain ⟨-, current, -, x, xBound, y, yBound, cellEmpty, rfl⟩ := processAction_passed passed
      have member := List.mem_of_getElem? current
      rw [finishTurn_frame]
      exact ⟨territorial.players, territorial.counted.place different territorial.players member
        xBound yBound cellEmpty⟩
  | _ => exact ⟨territorial.players, territorial.counted⟩

/-- The board is full size with cells of 0, 1 and 2, a player's score is the
number of cells with the player's number, and the scores and the empty cells
make up the board. -/
structure ScoresAreTerritory (first second : PlayerId) (game : ActiveGame) : Prop where
  board : game.board.length = 10 ∧
    ∀ row ∈ game.board, row.length = 10 ∧ ∀ value ∈ row, value ∈ [0, 1, 2]
  firstScore : game.scores.lookup first = some (game.board.count 1 : Int)
  secondScore : game.scores.lookup second = some (game.board.count 2 : Int)
  total : game.scores.getD first 0 + game.scores.getD second 0 + game.board.count 0 = 100

theorem Territorial.scores {game : ActiveGame} (territorial : Territorial first second game) :
    ScoresAreTerritory first second game := by
  obtain ⟨wellFormed, owned, firstScore, secondScore⟩ := territorial.counted
  have total := Board.count_total wellFormed owned
  refine ⟨⟨wellFormed.1, fun row rowMem => ⟨wellFormed.2 row rowMem, ?_⟩⟩, firstScore, secondScore,
    ?_⟩
  · intro value member
    have bound := owned value (List.mem_flatten.mpr ⟨row, rowMem, member⟩)
    simp only [List.mem_cons, List.not_mem_nil, or_false]
    omega
  · simp only [boardSize] at total
    simp only [Dict.getD, firstScore, secondScore, Option.getD_some]
    omega

end ActiveGame

/-- Main result: whatever happens to a game of two players, its scores are
their territory. -/
theorem scoresAreTerritory_of_performAll (engine : GameEngine) (room : RoomId)
    {first second : PlayerId} (different : first ≠ second) (playerElos : Dict PlayerId Int)
    (now : Time) (calls : List RoomCall) :
    ∃ game, ((engine.createGame room [first, second] playerElos now).performAll room calls).games
        room = some game ∧ game.ScoresAreTerritory first second := by
  obtain ⟨game, stored, lives⟩ := GameEngine.performAll_lives (GameEngine.find_eq_some.mp
    (find_createGame engine room [first, second] playerElos now)).2 calls
  have territorial := lives.invariant (fun _ _ territorial step => territorial.step different step)
    (ActiveGame.create_territorial room different playerElos now)
  exact ⟨game, stored, territorial.scores⟩

theorem scoresAreTerritory_of_performAll_rookies :
    ∃ game, ((({} : GameEngine).createGame "room-1" ["ada", "bob"] ∅ 0).performAll "room-1"
        [.event (.action "ada" (.str "place") (.obj [("x", .int 4), ("y", .int 4)]) 1),
          .event (.disconnect "bob"), .disconnectTimer "bob", .cleanupGame]).games
        "room-1" = some game ∧ game.ScoresAreTerritory "ada" "bob" :=
  scoresAreTerritory_of_performAll {} "room-1" (by decide) ∅ 0 _

end TerritoryBackend

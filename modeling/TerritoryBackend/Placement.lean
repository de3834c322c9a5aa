import TerritoryBackend.FairPlay
import Mathlib.Data.Finset.Card

/-!
# What a placement claims

A placement claims the cell it hits and the empty cells next to it, and nothing
else; what is claimed once is never claimed again.  So a placement that was
accepted is not accepted a second time.
-/

namespace TerritoryBackend

namespace ActiveGame

variable {player other : PlayerId} {number : Nat} {before middle after : Territory}
  {cells others : Finset (Nat × Nat)}

/-- The player claims empty cells of the board with a number, and scores one
point for each; nothing else changes. -/
structure Claims (player : PlayerId) (number : Nat) (before after : Territory)
    (cells : Finset (Nat × Nat)) : Prop where
  empty : ∀ cell ∈ cells,
    cell.1 < boardSize ∧ cell.2 < boardSize ∧ before.1.cell cell.1 cell.2 = 0
  board : ∀ column line, after.1.cell column line =
    if (column, line) ∈ cells then number else before.1.cell column line
  score : after.2.getD player 0 = before.2.getD player 0 + cells.card
  opponents : ∀ other, other ≠ player → after.2.lookup other = before.2.lookup other

namespace Claims

theorem refl (player : PlayerId) (number : Nat) (territory : Territory) :
    Claims player number territory territory ∅ where
  empty := by simp
  board := by simp
  score := by simp
  opponents _ _ := rfl

theorem trans (first : Claims player number before middle cells)
    (second : Claims player number middle after others) (positive : number ≠ 0) :
    Claims player number before after (cells ∪ others) := by
  -- A claimed cell is not empty any more.
  have fresh : ∀ cell ∈ others, cell ∉ cells := by
    intro cell member already
    have occupied := (second.empty cell member).2.2
    rw [first.board, if_pos already] at occupied
    exact positive occupied
  have disjoint : Disjoint cells others :=
    Finset.disjoint_right.mpr fresh
  constructor
  · intro cell member
    rcases Finset.mem_union.mp member with old | new
    · exact first.empty cell old
    · obtain ⟨xBound, yBound, cellEmpty⟩ := second.empty cell new
      rw [first.board, if_neg (fresh cell new)] at cellEmpty
      exact ⟨xBound, yBound, cellEmpty⟩
  · intro column line
    rw [second.board, first.board]
    by_cases new : (column, line) ∈ others <;> by_cases old : (column, line) ∈ cells <;>
      simp [new, old]
  · rw [second.score, first.score, Finset.card_union_of_disjoint disjoint]
    push_cast
    ring
  · intro other different
    rw [second.opponents other different, first.opponents other different]

theorem single {territory : Territory} (wellFormed : territory.1.WellFormed) {x y : Nat}
    (xBound : x < boardSize) (yBound : y < boardSize) (cellEmpty : territory.1.cell x y = 0)
    (player : PlayerId) (number : Nat) :
    Claims player number territory
      (territory.1.put x y number, territory.2.insert player (territory.2.getD player 0 + 1))
      {(x, y)} where
  empty := by simp [xBound, yBound, cellEmpty]
  board column line := by
    rw [Board.cell_put wellFormed xBound yBound]
    simp
  score := by simp [Dict.getD]
  opponents other different := by simp [different]

end Claims

/-- The cell is the one an offset leads to. -/
def Reaches (x y : Nat) (offset : Int × Int) (cell : Nat × Nat) : Prop :=
  (cell.1 : Int) = x + offset.1 ∧ (cell.2 : Int) = y + offset.2

/-- A neighbour is claimed if it is an empty cell of the board. -/
theorem claimNeighbour_claims {territory : Territory} (wellFormed : territory.1.WellFormed)
    (number : Nat) (player : PlayerId) (x y : Nat) (offset : Int × Int) :
    ∃ cells, Claims player number territory
        (claimNeighbour number player x y territory offset) cells ∧
      ∀ cell, cell ∈ cells ↔ Reaches x y offset cell ∧ cell.1 < boardSize ∧
        cell.2 < boardSize ∧ territory.1.cell cell.1 cell.2 = 0 := by
  unfold claimNeighbour
  dsimp only
  split
  · rename_i within
    obtain ⟨xLow, xHigh, yLow, yHigh, cellEmpty⟩ := within
    refine ⟨_, Claims.single wellFormed (by omega) (by omega) cellEmpty player number, ?_⟩
    intro cell
    rw [Finset.mem_singleton]
    constructor
    · rintro rfl
      exact ⟨⟨Int.toNat_of_nonneg xLow, Int.toNat_of_nonneg yLow⟩, by omega, by omega, cellEmpty⟩
    · rintro ⟨⟨columnEq, lineEq⟩, -⟩
      exact Prod.ext (by omega) (by omega)
  · rename_i outside
    refine ⟨∅, Claims.refl player number territory, ?_⟩
    intro cell
    simp only [Finset.notMem_empty, false_iff]
    rintro ⟨⟨columnEq, lineEq⟩, xBound, yBound, cellEmpty⟩
    rw [← columnEq, ← lineEq] at outside
    simp [xBound, yBound, cellEmpty] at outside

theorem claimNeighbours_claims (territory : Territory) (wellFormed : territory.1.WellFormed)
    (positive : number ≠ 0) (player : PlayerId) (x y : Nat) (offsets : List (Int × Int)) :
    ∃ cells, Claims player number territory
        (offsets.foldl (claimNeighbour number player x y) territory) cells ∧
      ∀ cell, cell ∈ cells ↔ (∃ offset ∈ offsets, Reaches x y offset cell) ∧
        cell.1 < boardSize ∧ cell.2 < boardSize ∧ territory.1.cell cell.1 cell.2 = 0 := by
  induction offsets generalizing territory with
  | nil => exact ⟨∅, Claims.refl player number territory, by simp⟩
  | cons offset offsets ih =>
      obtain ⟨cells, claims, mem_cells⟩ :=
        claimNeighbour_claims wellFormed number player x y offset
      obtain ⟨others, othersClaims, mem_others⟩ :=
        ih _ (claimNeighbour_wellFormed wellFormed number player x y offset)
      refine ⟨cells ∪ others, claims.trans othersClaims positive, ?_⟩
      intro cell
      rw [Finset.mem_union, mem_others, claims.board]
      by_cases claimed : cell ∈ cells
      · have known := (mem_cells cell).mp claimed
        simp only [claimed, true_or, true_iff]
        exact ⟨⟨offset, List.mem_cons_self, known.1⟩, known.2⟩
      · have unreached : ¬ (Reaches x y offset cell ∧ cell.1 < boardSize ∧
            cell.2 < boardSize ∧ territory.1.cell cell.1 cell.2 = 0) :=
          fun known => claimed ((mem_cells cell).mpr known)
        simp only [claimed, false_or, if_false, List.mem_cons, exists_eq_or_imp]
        tauto

/-- The four orthogonal neighbours. -/
def Adjacent (cell other : Nat × Nat) : Prop :=
  cell.2 = other.2 ∧ (cell.1 + 1 = other.1 ∨ cell.1 = other.1 + 1) ∨
    cell.1 = other.1 ∧ (cell.2 + 1 = other.2 ∨ cell.2 = other.2 + 1)

theorem reaches_neighbour_iff (x y : Nat) (cell : Nat × Nat) :
    (∃ offset ∈ neighbourOffsets, Reaches x y offset cell) ↔ Adjacent cell (x, y) := by
  simp only [neighbourOffsets, List.mem_cons, List.not_mem_nil, or_false, exists_eq_or_imp,
    exists_eq_left, Reaches, Adjacent]
  omega

/-- The cells a placement claims. -/
def Placed (board : Board) (x y : Nat) (cell : Nat × Nat) : Prop :=
  (cell = (x, y) ∨ Adjacent cell (x, y)) ∧ cell.1 < boardSize ∧ cell.2 < boardSize ∧
    board.cell cell.1 cell.2 = 0

theorem place_claims {game : ActiveGame} (wellFormed : game.board.WellFormed) {x y : Nat}
    (xBound : x < boardSize) (yBound : y < boardSize) (cellEmpty : game.board.cell x y = 0)
    (player : PlayerId) :
    ∃ cells, Claims player (game.playerIds.idxOf player + 1) (game.board, game.scores)
        (game.placeTerritory player x y) cells ∧
      ∀ cell, cell ∈ cells ↔ Placed game.board x y cell := by
  generalize numbered : game.playerIds.idxOf player + 1 = number
  have positive : number ≠ 0 := by omega
  have hit : Claims player number (game.board, game.scores) _ _ :=
    Claims.single wellFormed xBound yBound cellEmpty player number
  obtain ⟨others, claims, mem_others⟩ := claimNeighbours_claims
    (game.board.put x y number, game.scores.insert player (game.scores.getD player 0 + 1))
    (Board.put_wellFormed wellFormed x y number) positive player x y neighbourOffsets
  refine ⟨{(x, y)} ∪ others, ?_, ?_⟩
  · unfold placeTerritory
    rw [numbered]
    exact hit.trans claims positive
  · intro cell
    simp only [Finset.mem_union, mem_others, reaches_neighbour_iff, hit.board,
      Finset.mem_singleton, Placed]
    by_cases same : cell = (x, y)
    · simp [same, xBound, yBound, cellEmpty]
    · simp [same]

/-- Between one and five cells are claimed. -/
theorem card_placed {board : Board} {x y : Nat} {cells : Finset (Nat × Nat)}
    (mem_cells : ∀ cell, cell ∈ cells ↔ Placed board x y cell) (xBound : x < boardSize)
    (yBound : y < boardSize) (cellEmpty : board.cell x y = 0) :
    1 ≤ cells.card ∧ cells.card ≤ 5 := by
  refine ⟨Finset.card_pos.mpr ⟨(x, y), (mem_cells _).mpr ⟨.inl rfl, xBound, yBound, cellEmpty⟩⟩,
    ?_⟩
  have listed : cells ⊆ {(x, y), (x - 1, y), (x + 1, y), (x, y - 1), (x, y + 1)} := by
    intro cell member
    have near := ((mem_cells cell).mp member).1
    simp only [Finset.mem_insert, Finset.mem_singleton, Prod.ext_iff, Adjacent] at near ⊢
    omega
  exact (Finset.card_le_card listed).trans Finset.card_le_five

/-- What the accepted placement at a cell did to the game. -/
structure LocalEffect (game next : ActiveGame) (player : PlayerId) (number x y : Nat) : Prop where
  changed : ∀ column line, next.board.cell column line ≠ game.board.cell column line ↔
    Placed game.board x y (column, line)
  values : ∀ column line, Placed game.board x y (column, line) →
    game.board.cell column line = 0 ∧ next.board.cell column line = number
  score : ∃ cells : Finset (Nat × Nat), (∀ cell, cell ∈ cells ↔ Placed game.board x y cell) ∧
    1 ≤ cells.card ∧ cells.card ≤ 5 ∧
    next.scores.getD player 0 = game.scores.getD player 0 + cells.card
  opponent : ∀ other, other ≠ player → next.scores.lookup other = game.scores.lookup other

theorem localEffect_of_passed {game : ActiveGame} (wellFormed : game.board.WellFormed)
    {player : PlayerId} {action data : Json} {now : Time} {result : ActiveGame × Bool}
    (accepted : game.processAction player action data now = .ok (.passed result)) :
    ∃ x y : Nat, data.position = .ok ((x : Int), (y : Int)) ∧
      LocalEffect game result.1 player (game.playerIds.idxOf player + 1) x y ∧
      result.1.board.cell x y ≠ 0 := by
  obtain ⟨-, -, -, x, xBound, y, yBound, positionEq, cellEmpty, rfl⟩ :=
    processAction_passed_at accepted
  obtain ⟨cells, claims, mem_cells⟩ := place_claims wellFormed xBound yBound cellEmpty player
  have card := card_placed mem_cells xBound yBound cellEmpty
  have board (column line : Nat) : ((game.place player x y).recordAction player action data
      now).finishTurn.1.board.cell column line =
        if (column, line) ∈ cells then game.playerIds.idxOf player + 1
        else game.board.cell column line := by
    rw [finishTurn_frame]
    exact claims.board column line
  refine ⟨x, y, positionEq, ⟨?_, ?_, ⟨cells, mem_cells, card.1, card.2, ?_⟩, ?_⟩, ?_⟩
  · intro column line
    rw [board, ← mem_cells]
    by_cases claimed : (column, line) ∈ cells
    · simp [claimed, (claims.empty _ claimed).2.2]
    · simp [claimed]
  · intro column line placed
    rw [board, if_pos ((mem_cells _).mpr placed)]
    exact ⟨placed.2.2.2, rfl⟩
  · rw [finishTurn_frame]
    exact claims.score
  · intro other different
    rw [finishTurn_frame]
    exact claims.opponents other different
  · rw [board, if_pos ((mem_cells _).mpr ⟨.inl rfl, xBound, yBound, cellEmpty⟩)]
    exact Nat.succ_ne_zero _

/-- No step of a game takes a cell from its owner. -/
theorem cell_of_step {game next : ActiveGame} (wellFormed : game.board.WellFormed)
    (step : game.Step next) {column line : Nat} (claimed : game.board.cell column line ≠ 0) :
    next.board.cell column line = game.board.cell column line := by
  cases step with
  | acted passed =>
      obtain ⟨x, y, -, effect, -⟩ := localEffect_of_passed wellFormed passed
      by_contra different
      exact claimed ((effect.changed column line).mp different).2.2.2
  | _ => rfl

theorem cell_of_lives {game last : ActiveGame} (wellFormed : game.board.WellFormed)
    (lives : game.Lives last) {column line : Nat} (claimed : game.board.cell column line ≠ 0) :
    last.board.cell column line = game.board.cell column line := by
  have preserved (middle next : ActiveGame)
      (holds : middle.board.WellFormed ∧
        middle.board.cell column line = game.board.cell column line) (step : middle.Step next) :
      next.board.WellFormed ∧ next.board.cell column line = game.board.cell column line := by
    refine ⟨wellFormed_of_step holds.1 step, ?_⟩
    rw [cell_of_step holds.1 step (by rwa [holds.2]), holds.2]
  exact (lives.invariant preserved ⟨wellFormed, rfl⟩).2

end ActiveGame

open ActiveGame

/-- What a run of a game of two players makes of accepted placements. -/
structure PlacesForGood (engine : GameEngine) (room : RoomId) (first second : PlayerId) :
    Prop where
  effect : ∀ player action data now after gameOver,
    engine.processAction room player action data now = (after, .accepted gameOver) →
    ∃ game next number, ∃ x y : Nat, engine.find room = some game ∧
      after.games room = some next ∧ data.position = .ok ((x : Int), (y : Int)) ∧
      PlaysAs first second player number ∧ LocalEffect game next player number x y
  permanent : ∀ later game last, engine.games room = some game →
    (engine.performAll room later).games room = some last → ∀ column line,
    game.board.cell column line ≠ 0 →
    last.board.cell column line = game.board.cell column line
  once : ∀ player action data now after gameOver,
    engine.processAction room player action data now = (after, .accepted gameOver) →
    ∀ later caller again repeated clock ended, Json.position repeated = data.position →
    ((after.performAll room later).processAction room caller again repeated clock).2 ≠
      .accepted ended

theorem GameEngine.processAction_accepted {engine : GameEngine} {room : RoomId}
    {player : PlayerId} {action data : Json} {now : Time} {gameOver : Bool}
    (accepted : (engine.processAction room player action data now).2 = .accepted gameOver) :
    ∃ game next, engine.find room = some game ∧
      game.processAction player action data now = .ok (.passed (next, gameOver)) ∧
      (engine.processAction room player action data now).1 = engine.write room next := by
  rcases engine.processAction_cases room player action data now with
    ⟨-, refused⟩ | ⟨game, ⟨next, ended⟩, found, passed, equation⟩
  · exact absurd accepted (refused gameOver)
  · rw [equation] at accepted ⊢
    cases accepted
    exact ⟨game, next, found, passed, rfl⟩

/-- An accepted action has its local effect on the stored game, and is the action
of one of the two players. -/
theorem localEffect_of_accepted {engine : GameEngine} {room : RoomId} {game : ActiveGame}
    {first second : PlayerId} (different : first ≠ second)
    (stored : engine.games room = some game) (territorial : Territorial first second game)
    {player : PlayerId} {action data : Json} {now : Time} {gameOver : Bool}
    (accepted : (engine.processAction room player action data now).2 = .accepted gameOver) :
    ∃ next number, ∃ x y : Nat, engine.find room = some game ∧
      (engine.processAction room player action data now).1.games room = some next ∧
      data.position = .ok ((x : Int), (y : Int)) ∧ PlaysAs first second player number ∧
      LocalEffect game next player number x y ∧ next.board.WellFormed ∧
      next.board.cell x y ≠ 0 := by
  obtain ⟨present, next, found, passed, written⟩ := GameEngine.processAction_accepted accepted
  obtain ⟨-, same⟩ := GameEngine.find_eq_some.mp found
  rw [stored] at same
  cases same
  have wellFormed := territorial.counted.wellFormed
  obtain ⟨x, y, position, effect, claimed⟩ := localEffect_of_passed wellFormed passed
  have member := List.mem_of_getElem? (processAction_passed passed).2.1
  exact ⟨next, _, x, y, found, by rw [written]; simp, position,
    playsAs_of_mem different territorial.players member, effect,
    wellFormed_of_step wellFormed (.acted passed), claimed⟩

/-- A cell that is claimed takes no further placement. -/
theorem not_accepted_of_claimed {engine : GameEngine} {room : RoomId} {game : ActiveGame}
    (stored : engine.games room = some game) {x y : Nat} (claimed : game.board.cell x y ≠ 0)
    {data : Json} (position : data.position = .ok ((x : Int), (y : Int))) (player : PlayerId)
    (action : Json) (now : Time) (gameOver : Bool) :
    (engine.processAction room player action data now).2 ≠ .accepted gameOver := by
  intro accepted
  obtain ⟨present, next, found, passed, -⟩ := GameEngine.processAction_accepted accepted
  obtain ⟨-, same⟩ := GameEngine.find_eq_some.mp found
  rw [stored] at same
  cases same
  obtain ⟨-, -, -, column, -, line, -, other, cellEmpty, -⟩ :=
    ActiveGame.processAction_passed_at passed
  rw [position] at other
  simp only [Except.ok.injEq, Prod.mk.injEq, Nat.cast_inj] at other
  exact claimed (by rw [other.1, other.2, cellEmpty])

/-- Main result: in every run of a game of two players, placements have exactly
their local effect, for good. -/
theorem placesForGood_of_performAll (engine : GameEngine) (room : RoomId)
    {first second : PlayerId} (different : first ≠ second) (playerElos : Dict PlayerId Int)
    (now : Time) (calls : List RoomCall) :
    PlacesForGood ((engine.createGame room [first, second] playerElos now).performAll room calls)
      room first second := by
  obtain ⟨game, stored, lives⟩ := GameEngine.performAll_lives (GameEngine.find_eq_some.mp
    (find_createGame engine room [first, second] playerElos now)).2 calls
  have territorial := lives.invariant
    (fun _ _ territorial step => Territorial.step different territorial step)
    (create_territorial room different playerElos now)
  have wellFormed := territorial.counted.wellFormed
  generalize (engine.createGame room [first, second] playerElos now).performAll room calls =
    reached at *
  constructor
  · intro player action data time after gameOver accepted
    obtain ⟨next, number, x, y, found, isNext, position, plays, effect, -⟩ :=
      localEffect_of_accepted different stored territorial (congrArg Prod.snd accepted)
    rw [accepted] at isNext
    exact ⟨game, next, number, x, y, found, isNext, position, plays, effect⟩
  · intro later present last isGame isLast column line claimed
    rw [stored] at isGame
    cases isGame
    obtain ⟨final, isFinal, lived⟩ := GameEngine.performAll_lives stored later
    rw [isLast] at isFinal
    cases isFinal
    exact cell_of_lives wellFormed lived claimed
  · intro player action data time after gameOver accepted later caller again repeated clock ended
      same
    obtain ⟨next, number, x, y, -, isNext, position, -, -, shaped, claimed⟩ :=
      localEffect_of_accepted different stored territorial (congrArg Prod.snd accepted)
    rw [accepted] at isNext
    obtain ⟨final, isFinal, lived⟩ := GameEngine.performAll_lives isNext later
    exact not_accepted_of_claimed isFinal (by rwa [cell_of_lives shaped lived claimed])
      (same.trans position) caller again clock ended

theorem placesForGood_of_performAll_rookies :
    PlacesForGood
      ((({} : GameEngine).createGame "room-1" ["ada", "bob"] ∅ 0).performAll "room-1"
        [.event (.action "ada" (.str "place") (.obj [("x", .int 0), ("y", .int 4)]) 1)])
      "room-1" "ada" "bob" :=
  placesForGood_of_performAll {} "room-1" (by decide) ∅ 0 _

end TerritoryBackend

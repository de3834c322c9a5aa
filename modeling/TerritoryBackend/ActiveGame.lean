import TerritoryBackend.Board
import TerritoryBackend.Dict
import TerritoryBackend.PythonValues
import Mathlib.Data.Finset.Basic

/-!
# The in-memory game

`ActiveGame` of `app/core/game_engine.py` with the synchronous part of every
operation on it: validation and application of a placement, the end-of-game
test, and the effects of a disconnect, a reconnect and an expired grace
period.  Each of these runs between two awaits, so it is one atomic step of
the game.
-/

namespace TerritoryBackend

/-- The text of an error message; the f-strings keep their arguments. -/
inductive ErrorText where
  | text (text : String)
  /-- `f"Unknown action: {action}"` -/
  | unknownAction (action : Json)
  /-- `f"Coordinates ({x},{y}) out of bounds (0-{BOARD_SIZE - 1})"` -/
  | outOfBounds (x y : Json)
  /-- `f"Cell ({x},{y}) is already occupied"` -/
  | cellOccupied (x y : Json)
  /-- `f"Unknown message type: {msg_type}"` -/
  | unknownType (messageType : Json)

/-- The deepest of the values an f-string formats. -/
def ErrorText.depth : ErrorText → Nat
  | .text _ => 0
  | .unknownAction value | .unknownType value => value.depth
  | .outOfBounds x y | .cellOccupied x y => max x.depth y.depth

structure ErrorResponse where
  code : String
  message : ErrorText

structure ActionRecord where
  playerId : PlayerId
  action : Json
  data : Json
  turn : Nat
  timestamp : Time

structure ActiveGame where
  roomId : RoomId
  playerIds : List PlayerId := []
  playerElos : Dict PlayerId Int := ∅
  currentPlayerIdx : Nat := 0
  board : Board := Board.empty
  scores : Dict PlayerId Int := ∅
  turnNumber : Nat := 0
  status : GameStatus := .waiting
  winnerId : Option PlayerId := none
  actionHistory : List ActionRecord := []
  startedAt : Time
  lastActionTime : Time
  disconnectedPlayers : Finset PlayerId := ∅

/-- The dictionary built by `to_client_state`. -/
structure ClientState where
  board : Board
  scores : Dict PlayerId Int
  turnNumber : Nat
  currentPlayerId : Option PlayerId
  status : GameStatus
  winnerId : Option PlayerId
  playerIds : List PlayerId

namespace ActiveGame

/-- `current_player_id`, `none` where the index is out of range. -/
def currentPlayerId (game : ActiveGame) : Option PlayerId :=
  game.playerIds[game.currentPlayerIdx]?

def toClientState (game : ActiveGame) : ClientState where
  board := game.board
  scores := game.scores
  turnNumber := game.turnNumber
  currentPlayerId := game.currentPlayerId
  status := game.status
  winnerId := game.winnerId
  playerIds := game.playerIds

/-- The game object built by `create_game`. -/
def create (roomId : RoomId) (playerIds : List PlayerId) (playerElos : Dict PlayerId Int)
    (now : Time) : ActiveGame where
  roomId := roomId
  playerIds := playerIds
  playerElos := playerElos
  scores := playerIds.foldl (fun scores player => scores.insert player 0) ∅
  status := .inProgress
  startedAt := now
  lastActionTime := now

/-- The board and the scores, the part of the game a placement writes. -/
abbrev Territory := Board × Dict PlayerId Int

/-- One iteration of the loop that claims adjacent empty cells. -/
def claimNeighbour (playerNum : Nat) (player : PlayerId) (x y : Nat)
    (territory : Territory) (offset : Int × Int) : Territory :=
  let nx : Int := x + offset.1
  let ny : Int := y + offset.2
  if 0 ≤ nx ∧ nx < boardSize ∧ 0 ≤ ny ∧ ny < boardSize ∧
      territory.1.cell nx.toNat ny.toNat = 0 then
    (territory.1.put nx.toNat ny.toNat playerNum,
      territory.2.insert player (territory.2.getD player 0 + 1))
  else
    territory

def neighbourOffsets : List (Int × Int) := [(-1, 0), (1, 0), (0, -1), (0, 1)]

/-- The board and scores after a valid placement at column `x` of row `y`. -/
def placeTerritory (game : ActiveGame) (player : PlayerId) (x y : Nat) : Territory :=
  let playerNum := game.playerIds.idxOf player + 1
  neighbourOffsets.foldl (claimNeighbour playerNum player x y)
    (game.board.put x y playerNum,
      game.scores.insert player (game.scores.getD player 0 + 1))

def place (game : ActiveGame) (player : PlayerId) (x y : Nat) : ActiveGame :=
  { game with
    board := (game.placeTerritory player x y).1
    scores := (game.placeTerritory player x y).2 }

/-- What a validated operation answers: an error sent to the player, or the
result. -/
inductive Checked (β : Type) where
  | refused (error : ErrorResponse)
  | passed (result : β)

/-- `0 <= x < BOARD_SIZE and 0 <= y < BOARD_SIZE`, the second comparison only
being made when the first holds. -/
def withinBoard (x y : Json) : Except PythonError Bool := do
  if ← x.inRange boardSize then y.inRange boardSize else pure false

def applyPlaceAction (game : ActiveGame) (player : PlayerId) (data : Json) :
    Except PythonError (Checked ActiveGame) := do
  let x ← data.get "x"
  let y ← data.get "y"
  if x.isNone || y.isNone then
    pure (.refused ⟨"MISSING_COORDS", .text "Missing x or y coordinate"⟩)
  else
    let within ← withinBoard x y
    if !within then
      pure (.refused ⟨"OUT_OF_BOUNDS", .outOfBounds x y⟩)
    else
      let row ← y.index
      let column ← x.index
      if game.board.cell column.toNat row.toNat ≠ 0 then
        pure (.refused ⟨"CELL_OCCUPIED", .cellOccupied x y⟩)
      else
        pure (.passed (game.place player column.toNat row.toNat))

def determineWinner (game : ActiveGame) : ActiveGame :=
  match game.playerIds with
  | first :: second :: _ =>
      let firstScore := game.scores.getD first 0
      let secondScore := game.scores.getD second 0
      { game with
        winnerId :=
          if secondScore < firstScore then some first
          else if firstScore < secondScore then some second
          else none }
  | _ => game

def checkGameOver (game : ActiveGame) : ActiveGame × Bool :=
  if maxTurns ≤ game.turnNumber then
    (determineWinner { game with status := .finished }, true)
  else if !game.board.hasEmpty then
    (determineWinner { game with status := .finished }, true)
  else
    (game, false)

/-- The history entry, the clock and the turn counter after a valid action. -/
def recordAction (game : ActiveGame) (player : PlayerId) (action data : Json) (now : Time) :
    ActiveGame :=
  { game with
    actionHistory := game.actionHistory ++ [⟨player, action, data, game.turnNumber, now⟩]
    lastActionTime := now
    turnNumber := game.turnNumber + 1 }

/-- The end-of-game test, and the next player's turn unless the game is over. -/
def finishTurn (game : ActiveGame) : ActiveGame × Bool :=
  let (checked, gameOver) := game.checkGameOver
  if gameOver then
    (checked, true)
  else
    ({ checked with
        currentPlayerIdx := (checked.currentPlayerIdx + 1) % checked.playerIds.length }, false)

/-- The synchronous part of `process_action` for a registered game: the game
with the action applied, and whether the action ended it. -/
def processAction (game : ActiveGame) (player : PlayerId) (action data : Json) (now : Time) :
    Except PythonError (Checked (ActiveGame × Bool)) :=
  if game.status ≠ .inProgress then
    pure (.refused ⟨"GAME_NOT_ACTIVE", .text "Game is not active"⟩)
  else
    match game.currentPlayerId with
    | none => throw .indexError
    | some current =>
        if player ≠ current then
          pure (.refused ⟨"NOT_YOUR_TURN", .text "It's not your turn"⟩)
        else if !action.isString "place" then
          pure (.refused ⟨"UNKNOWN_ACTION", .unknownAction action⟩)
        else do
          match ← game.applyPlaceAction player data with
          | .refused error => pure (.refused error)
          | .passed placed =>
              pure (.passed (placed.recordAction player action data now).finishTurn)

/-- The synchronous part of `handle_player_disconnect`, `none` when it returns
early. -/
def handlePlayerDisconnect (game : ActiveGame) (player : PlayerId) : Option ActiveGame :=
  if game.status ≠ .inProgress then
    none
  else
    some { game with
      disconnectedPlayers := insert player game.disconnectedPlayers
      status := .paused }

/-- What `_disconnect_timer` does when it wakes, `none` when the player is not
absent. -/
def disconnectTimer (game : ActiveGame) (player : PlayerId) : Option ActiveGame :=
  if player ∈ game.disconnectedPlayers then
    some { game with
      winnerId := (game.playerIds.find? (· ≠ player)).or game.winnerId
      status := .finished }
  else
    none

/-- The state change of `handle_player_reconnect`. -/
def handlePlayerReconnect (game : ActiveGame) (player : PlayerId) : ActiveGame :=
  let disconnected := game.disconnectedPlayers.erase player
  { game with
    disconnectedPlayers := disconnected
    status :=
      if game.status = .paused ∧ disconnected = ∅ then .inProgress else game.status }

def isOver (game : ActiveGame) : Bool :=
  decide (maxTurns ≤ game.turnNumber) || !game.board.hasEmpty

theorem determineWinner_eq (game : ActiveGame) :
    game.determineWinner = { game with winnerId := game.determineWinner.winnerId } := by
  unfold determineWinner
  split <;> rfl

theorem finishTurn_of_isOver {game : ActiveGame} (gameOver : game.isOver = true) :
    game.finishTurn = (determineWinner { game with status := .finished }, true) := by
  unfold finishTurn checkGameOver
  by_cases capped : maxTurns ≤ game.turnNumber
  · simp [capped]
  · have full : game.board.hasEmpty = false := by simpa [isOver, capped] using gameOver
    simp [capped, full]

theorem finishTurn_of_not_isOver {game : ActiveGame} (running : game.isOver = false) :
    game.finishTurn =
      ({ game with
          currentPlayerIdx := (game.currentPlayerIdx + 1) % game.playerIds.length }, false) := by
  simp only [isOver, Bool.or_eq_false_iff, decide_eq_false_iff_not, Bool.not_eq_false'] at running
  simp [finishTurn, checkGameOver, running.1, running.2]

@[simp]
theorem finishTurn_gameOver (game : ActiveGame) : game.finishTurn.2 = game.isOver := by
  cases gameOver : game.isOver
  · rw [finishTurn_of_not_isOver gameOver]
  · rw [finishTurn_of_isOver gameOver]

/-- The end of a turn touches only the status, the winner and the turn. -/
theorem finishTurn_frame (game : ActiveGame) :
    game.finishTurn.1 =
      { game with
        status := if game.isOver then .finished else game.status
        winnerId := game.finishTurn.1.winnerId
        currentPlayerIdx := game.finishTurn.1.currentPlayerIdx } := by
  cases gameOver : game.isOver
  · rw [finishTurn_of_not_isOver gameOver]
    rfl
  · rw [finishTurn_of_isOver gameOver, determineWinner_eq]
    rfl

/-- The validation of a placement looks at nothing but the board. -/
theorem applyPlaceAction_congr {game other : ActiveGame} (board : game.board = other.board)
    (player : PlayerId) (data : Json) :
    (∃ error, game.applyPlaceAction player data = .error error ∧
        other.applyPlaceAction player data = .error error) ∨
      (∃ error, game.applyPlaceAction player data = .ok (.refused error) ∧
        other.applyPlaceAction player data = .ok (.refused error)) ∨
      ∃ x y, game.applyPlaceAction player data = .ok (.passed (game.place player x y)) ∧
        other.applyPlaceAction player data = .ok (.passed (other.place player x y)) := by
  simp only [applyPlaceAction, board, bind, Except.bind, pure, Except.pure]
  split
  · exact .inl ⟨_, rfl, rfl⟩
  split
  · exact .inl ⟨_, rfl, rfl⟩
  split
  · exact .inr (.inl ⟨_, rfl, rfl⟩)
  split
  · exact .inl ⟨_, rfl, rfl⟩
  split
  · exact .inr (.inl ⟨_, rfl, rfl⟩)
  split
  · exact .inl ⟨_, rfl, rfl⟩
  split
  · exact .inl ⟨_, rfl, rfl⟩
  split
  · exact .inr (.inl ⟨_, rfl, rfl⟩)
  · exact .inr (.inr ⟨_, _, rfl, rfl⟩)

/-- Coordinates that pass the comparisons and are indices are on the board. -/
theorem bounds_of_withinBoard {x y : Json} {column row : Int}
    (within : withinBoard x y = .ok true) (columnEq : x.index = .ok column)
    (rowEq : y.index = .ok row) :
    (0 ≤ column ∧ column < boardSize) ∧ 0 ≤ row ∧ row < boardSize := by
  simp only [withinBoard, bind, Except.bind, pure, Except.pure] at within
  split at within
  · cases within
  rename_i xWithin xRanged
  split at within
  · rename_i xTrue
    subst xTrue
    exact ⟨Json.index_of_inRange xRanged columnEq, Json.index_of_inRange within rowEq⟩
  · cases within

/-- A placement that was not refused hit an empty cell of the board, the one its
data name. -/
theorem applyPlaceAction_passed_at {game placed : ActiveGame} {player : PlayerId} {data : Json}
    (applied : game.applyPlaceAction player data = .ok (.passed placed)) :
    ∃ x < boardSize, ∃ y < boardSize, data.position = .ok ((x : Int), (y : Int)) ∧
      game.board.cell x y = 0 ∧ placed = game.place player x y := by
  simp only [applyPlaceAction, bind, Except.bind, pure, Except.pure] at applied
  split at applied
  · cases applied
  rename_i x xEq
  split at applied
  · cases applied
  rename_i y yEq
  split at applied
  · cases applied
  split at applied
  · cases applied
  rename_i within withinEq
  split at applied
  · cases applied
  rename_i isWithin
  split at applied
  · cases applied
  rename_i row rowEq
  split at applied
  · cases applied
  rename_i column columnEq
  split at applied
  · cases applied
  rename_i cellEmpty
  cases applied
  have ranged : withinBoard x y = .ok true := by
    rw [withinEq]
    simpa using isWithin
  obtain ⟨xBound, yBound⟩ := bounds_of_withinBoard ranged columnEq rowEq
  refine ⟨column.toNat, by omega, row.toNat, by omega, ?_, not_not.mp cellEmpty, rfl⟩
  rw [Int.toNat_of_nonneg xBound.1, Int.toNat_of_nonneg yBound.1]
  simp [Json.position, xEq, yEq, columnEq, rowEq, bind, Except.bind, pure, Except.pure]

/-- Everything an accepted action can do: it was the current player's, it hit
the empty cell its data name, and the turn was recorded and finished. -/
theorem processAction_passed_at {game : ActiveGame} {player : PlayerId} {action data : Json}
    {now : Time} {result : ActiveGame × Bool}
    (accepted : game.processAction player action data now = .ok (.passed result)) :
    game.status = .inProgress ∧ game.currentPlayerId = some player ∧
      action.isString "place" = true ∧
      ∃ x < boardSize, ∃ y < boardSize, data.position = .ok ((x : Int), (y : Int)) ∧
        game.board.cell x y = 0 ∧
        result = ((game.place player x y).recordAction player action data now).finishTurn := by
  simp only [processAction, bind, Except.bind, pure, Except.pure, throw, throwThe,
    MonadExceptOf.throw] at accepted
  split at accepted
  · cases accepted
  rename_i inProgress
  split at accepted
  · cases accepted
  rename_i current currentEq
  split at accepted
  · cases accepted
  rename_i same
  split at accepted
  · cases accepted
  rename_i isPlace
  split at accepted
  · cases accepted
  rename_i applied
  split at accepted
  · cases accepted
  cases accepted
  obtain ⟨x, xBound, y, yBound, positionEq, cellEmpty, rfl⟩ :=
    applyPlaceAction_passed_at applied
  refine ⟨not_not.mp inProgress, ?_, by simpa using isPlace,
    x, xBound, y, yBound, positionEq, cellEmpty, rfl⟩
  rw [currentEq, not_not.mp same]

theorem processAction_passed {game : ActiveGame} {player : PlayerId} {action data : Json}
    {now : Time} {result : ActiveGame × Bool}
    (accepted : game.processAction player action data now = .ok (.passed result)) :
    game.status = .inProgress ∧ game.currentPlayerId = some player ∧
      action.isString "place" = true ∧
      ∃ x < boardSize, ∃ y < boardSize, game.board.cell x y = 0 ∧
        result = ((game.place player x y).recordAction player action data now).finishTurn := by
  obtain ⟨inProgress, current, isPlace, x, xBound, y, yBound, -, cellEmpty, resultEq⟩ :=
    processAction_passed_at accepted
  exact ⟨inProgress, current, isPlace, x, xBound, y, yBound, cellEmpty, resultEq⟩

theorem processAction_place {game : ActiveGame} {player : PlayerId} {now : Time} {x y : Nat}
    (inProgress : game.status = .inProgress) (current : game.currentPlayerId = some player)
    (xBound : x < boardSize) (yBound : y < boardSize) (cellEmpty : game.board.cell x y = 0) :
    game.processAction player (.str "place") (.obj [("x", .int x), ("y", .int y)]) now =
      .ok (.passed ((game.place player x y).recordAction player (.str "place")
        (.obj [("x", .int x), ("y", .int y)]) now).finishTurn) := by
  have xLookup : Json.get (.obj [("x", .int x), ("y", .int y)]) "x" = .ok (.int x) := by
    simp [Json.get]
  have yLookup : Json.get (.obj [("x", .int x), ("y", .int y)]) "y" = .ok (.int y) := by
    simp [Json.get, List.lookup_cons]
  have inRange {number : Nat} (bound : number < boardSize) :
      Json.inRange (.int number) boardSize = .ok true := by
    simp [Json.inRange, Json.number?, bound]
  simp [processAction, inProgress, current, applyPlaceAction, withinBoard, xLookup, yLookup,
    inRange xBound, inRange yBound, Json.isString, Json.isNone, Json.index, cellEmpty, bind,
    Except.bind, pure, Except.pure]

theorem processAction_frame {game : ActiveGame} {player : PlayerId} {action data : Json}
    {now : Time} {result : ActiveGame × Bool}
    (accepted : game.processAction player action data now = .ok (.passed result)) :
    result.1.roomId = game.roomId ∧ result.1.playerIds = game.playerIds ∧
      result.1.playerElos = game.playerElos ∧
      result.1.disconnectedPlayers = game.disconnectedPlayers ∧
      result.1.turnNumber = game.turnNumber + 1 ∧
      (result.1.status = if result.2 then .finished else .inProgress) := by
  obtain ⟨inProgress, -, -, x, -, y, -, -, rfl⟩ := processAction_passed accepted
  rw [finishTurn_frame, finishTurn_gameOver]
  exact ⟨rfl, rfl, rfl, rfl, rfl, by rw [← inProgress]; rfl⟩

theorem processAction_history {game : ActiveGame} {player : PlayerId} {action data : Json}
    {now : Time} {result : ActiveGame × Bool}
    (accepted : game.processAction player action data now = .ok (.passed result)) :
    result.1.actionHistory =
      game.actionHistory ++ [⟨player, action, data, game.turnNumber, now⟩] := by
  obtain ⟨-, -, -, x, -, y, -, -, rfl⟩ := processAction_passed accepted
  rw [finishTurn_frame]
  rfl

end ActiveGame

end TerritoryBackend

import TerritoryBackend.FairPlay

/-!
# Actions in place

`process_action` and `_apply_place_action` statement by statement, without the
error messages they send.  Every assignment takes effect at once on the shared
objects and stays in effect when a later statement raises, so it matters that
the assignments come after all checks.
-/

namespace TerritoryBackend

/-- Statements on the game objects and the table of an engine.  An exception
ends them, but undoes nothing. -/
abbrev InPlace := ExceptT PythonError (StateM GameEngine)

namespace InPlace

variable {α β : Type}

def execute (statement : InPlace α) (engine : GameEngine) : Except PythonError α × GameEngine :=
  (ExceptT.run statement).run engine

/-- The value of an expression that may raise. -/
def evaluate : Except PythonError α → InPlace α
  | .ok value => pure value
  | .error error => throw error

/-- What a reference to the game of a room refers to. -/
def object (room : RoomId) : InPlace ActiveGame := do
  match (← get).games room with
  | some game => pure game
  | none => throw .keyError

/-- An assignment to fields of the game. -/
def assign (room : RoomId) (change : ActiveGame → ActiveGame) : InPlace Unit := do
  let game ← object room
  modify fun engine => engine.write room (change game)

/-- `game.board[y][x]` -/
def readCell (room : RoomId) (x y : Nat) : InPlace Nat := do
  let game ← object room
  match game.board[y]? with
  | none => throw .indexError
  | some row =>
      match row[x]? with
      | none => throw .indexError
      | some value => pure value

/-- `game.board[y][x] = value` -/
def writeCell (room : RoomId) (x y value : Nat) : InPlace Unit :=
  assign room fun game => { game with board := game.board.put x y value }

def writeScore (room : RoomId) (player : PlayerId) (score : Int) : InPlace Unit :=
  assign room fun game => { game with scores := game.scores.insert player score }

/-- One iteration of the loop over the neighbours. -/
def claimNeighbour (room : RoomId) (player : PlayerId) (playerNum x y : Nat)
    (offset : Int × Int) : InPlace Unit := do
  let nx : Int := x + offset.1
  let ny : Int := y + offset.2
  if 0 ≤ nx ∧ nx < boardSize ∧ 0 ≤ ny ∧ ny < boardSize then
    if (← readCell room nx.toNat ny.toNat) = 0 then
      writeCell room nx.toNat ny.toNat playerNum
      match (← object room).scores.lookup player with
      | none => throw .keyError
      | some score => writeScore room player (score + 1)

/-- `_apply_place_action` -/
def applyPlaceAction (room : RoomId) (player : PlayerId) (data : Json) : InPlace Bool := do
  let x ← evaluate (data.get "x")
  let y ← evaluate (data.get "y")
  if x.isNone || y.isNone then
    return false
  if !(← evaluate (ActiveGame.withinBoard x y)) then
    return false
  let row ← evaluate y.index
  let column ← evaluate x.index
  if (← readCell room column.toNat row.toNat) ≠ 0 then
    return false
  let game ← object room
  if player ∉ game.playerIds then
    throw .valueError
  let playerNum := game.playerIds.idxOf player + 1
  writeCell room column.toNat row.toNat playerNum
  writeScore room player (game.scores.getD player 0 + 1)
  ActiveGame.neighbourOffsets.forM
    (claimNeighbour room player playerNum column.toNat row.toNat)
  return true

/-- `_check_game_over` -/
def checkGameOver (room : RoomId) : InPlace Bool := do
  let game ← object room
  if maxTurns ≤ game.turnNumber then
    assign room fun game => { game with status := .finished }
    assign room ActiveGame.determineWinner
    return true
  if !game.board.hasEmpty then
    assign room fun game => { game with status := .finished }
    assign room ActiveGame.determineWinner
    return true
  return false

/-- The entry, the clock and the turn counter. -/
def recordAction (room : RoomId) (player : PlayerId) (action data : Json) (now : Time) :
    InPlace Unit := do
  assign room fun game =>
    { game with
      actionHistory := game.actionHistory ++ [⟨player, action, data, game.turnNumber, now⟩] }
  assign room fun game => { game with lastActionTime := now }
  assign room fun game => { game with turnNumber := game.turnNumber + 1 }

/-- The end-of-game test, and the next player's turn unless the game is over. -/
def finishTurn (room : RoomId) : InPlace Bool := do
  let gameOver ← checkGameOver room
  if !gameOver then
    assign room fun game =>
      { game with currentPlayerIdx := (game.currentPlayerIdx + 1) % game.playerIds.length }
  return gameOver

/-- `process_action`.  The broadcast and the completion of the game send and
store, which may raise; they assign nothing, except that the completion ends by
taking the game out of the table. -/
def processAction (room : RoomId) (player : PlayerId) (action data : Json) (now : Time)
    (broadcast completion : Except PythonError Unit) : InPlace Bool := do
  match (← get).find room with
  | none => return false
  | some game =>
      if game.status ≠ .inProgress then
        return false
      match game.currentPlayerId with
      | none => throw .indexError
      | some current =>
          if player ≠ current then
            return false
          if !action.isString "place" then
            return false
          let valid ← applyPlaceAction room player data
          if !valid then
            return false
          recordAction room player action data now
          let gameOver ← finishTurn room
          evaluate broadcast
          if gameOver then
            evaluate completion
            modify fun engine => engine.pop room
          return true

section Execute

variable {engine after : GameEngine} {room : RoomId} {game : ActiveGame}

theorem execute_bind_ok {statement : InPlace α} {value : α}
    (executed : execute statement engine = (.ok value, after)) (rest : α → InPlace β) :
    execute (statement >>= rest) engine = execute (rest value) after := by
  unfold execute at executed ⊢
  rw [ExceptT.run_bind, StateT.run_bind, executed]
  rfl

theorem execute_bind_error {statement : InPlace α} {error : PythonError}
    (executed : execute statement engine = (.error error, after)) (rest : α → InPlace β) :
    execute (statement >>= rest) engine = (.error error, after) := by
  unfold execute at executed ⊢
  rw [ExceptT.run_bind, StateT.run_bind, executed]
  rfl

theorem execute_evaluate (result : Except PythonError α) (engine : GameEngine) :
    execute (evaluate result) engine = (result, engine) := by
  cases result <;> rfl

theorem execute_object (stored : engine.games room = some game) :
    execute (object room) engine = (.ok game, engine) := by
  unfold object
  rw [execute_bind_ok (show execute get engine = (.ok engine, engine) from rfl), stored]
  rfl

theorem execute_assign (stored : engine.games room = some game)
    (change : ActiveGame → ActiveGame) :
    execute (assign room change) engine = (.ok (), engine.write room (change game)) := by
  unfold assign
  rw [execute_bind_ok (execute_object stored)]
  rfl

theorem execute_readCell (stored : engine.games room = some game)
    (wellFormed : game.board.WellFormed) {x y : Nat} (xBound : x < boardSize)
    (yBound : y < boardSize) :
    execute (readCell room x y) engine = (.ok (game.board.cell x y), engine) := by
  obtain ⟨row, present, length⟩ := Board.exists_row wellFormed yBound
  have within : x < row.length := by rw [length]; exact xBound
  unfold readCell
  rw [execute_bind_ok (execute_object stored), present, Board.cell_eq present within]
  simp only [List.getElem?_eq_getElem within]
  rfl

/-- The game with another board and other scores. -/
def withTerritory (game : ActiveGame) (territory : ActiveGame.Territory) : ActiveGame :=
  { game with board := territory.1, scores := territory.2 }

theorem write_write (engine : GameEngine) (room : RoomId) (game next : ActiveGame) :
    (engine.write room game).write room next = engine.write room next := by
  simp [GameEngine.write]

theorem write_self (stored : engine.games room = some game) : engine.write room game = engine := by
  simp [GameEngine.write, ← stored]

theorem stored_write (engine : GameEngine) (room : RoomId) (next : ActiveGame) :
    (engine.write room next).games room = some next := by
  simp

theorem execute_writeCell {territory : ActiveGame.Territory}
    (stored : engine.games room = some (withTerritory game territory)) (x y value : Nat) :
    execute (writeCell room x y value) engine =
      (.ok (), engine.write room (withTerritory game (territory.1.put x y value, territory.2))) :=
  execute_assign stored _

theorem execute_writeScore {territory : ActiveGame.Territory}
    (stored : engine.games room = some (withTerritory game territory)) (player : PlayerId)
    (score : Int) :
    execute (writeScore room player score) engine =
      (.ok (), engine.write room
        (withTerritory game (territory.1, territory.2.insert player score))) :=
  execute_assign stored _

theorem execute_claimNeighbour {territory : ActiveGame.Territory}
    (stored : engine.games room = some (withTerritory game territory))
    (wellFormed : territory.1.WellFormed) {player : PlayerId}
    (scored : (territory.2.lookup player).isSome) (playerNum x y : Nat) (offset : Int × Int) :
    execute (claimNeighbour room player playerNum x y offset) engine =
      (.ok (), engine.write room (withTerritory game
        (ActiveGame.claimNeighbour playerNum player x y territory offset))) := by
  obtain ⟨score, scoreEq⟩ := Option.isSome_iff_exists.mp scored
  have unchanged := write_self stored
  unfold claimNeighbour ActiveGame.claimNeighbour
  dsimp only
  by_cases within : 0 ≤ (x : Int) + offset.1 ∧ (x : Int) + offset.1 < boardSize ∧
      0 ≤ (y : Int) + offset.2 ∧ (y : Int) + offset.2 < boardSize
  · generalize columnEq : ((x : Int) + offset.1).toNat = column at *
    generalize lineEq : ((y : Int) + offset.2).toNat = line at *
    have read : execute (readCell room column line) engine =
        (.ok (territory.1.cell column line), engine) :=
      execute_readCell stored wellFormed (by omega) (by omega)
    rw [if_pos within, execute_bind_ok read]
    by_cases cellEmpty : territory.1.cell column line = 0
    · rw [if_pos cellEmpty, if_pos (by tauto), execute_bind_ok (execute_writeCell stored _ _ _),
        execute_bind_ok (execute_object (stored_write engine room _))]
      simp only [withTerritory, scoreEq]
      rw [writeScore, execute_assign (stored_write engine room _), write_write]
      simp [Dict.getD, scoreEq]
    · rw [if_neg cellEmpty, if_neg (by tauto), unchanged]
      rfl
  · rw [if_neg within, if_neg (by tauto), unchanged]
    rfl

theorem scored_claimNeighbour {territory : ActiveGame.Territory} {player : PlayerId}
    (scored : (territory.2.lookup player).isSome) (playerNum x y : Nat) (offset : Int × Int) :
    ((ActiveGame.claimNeighbour playerNum player x y territory offset).2.lookup player).isSome := by
  unfold ActiveGame.claimNeighbour
  dsimp only
  split
  · simp
  · exact scored

theorem execute_claimNeighbours {territory : ActiveGame.Territory}
    (stored : engine.games room = some (withTerritory game territory))
    (wellFormed : territory.1.WellFormed) {player : PlayerId}
    (scored : (territory.2.lookup player).isSome) (playerNum x y : Nat)
    (offsets : List (Int × Int)) :
    execute (offsets.forM (claimNeighbour room player playerNum x y)) engine =
      (.ok (), engine.write room (withTerritory game
        (offsets.foldl (ActiveGame.claimNeighbour playerNum player x y) territory))) := by
  induction offsets generalizing engine territory with
  | nil => rw [List.foldl_nil, write_self stored]; rfl
  | cons offset offsets ih =>
      show execute (claimNeighbour room player playerNum x y offset >>= fun _ =>
        offsets.forM (claimNeighbour room player playerNum x y)) engine = _
      rw [execute_bind_ok (execute_claimNeighbour stored wellFormed scored playerNum x y offset),
        ih (stored_write engine room _)
          (ActiveGame.claimNeighbour_wellFormed wellFormed playerNum player x y offset)
          (scored_claimNeighbour scored playerNum x y offset), write_write, List.foldl_cons]

/-- Carried out statement by statement, a placement is refused or raises without
a trace, or writes what it writes as a whole. -/
theorem execute_applyPlaceAction (stored : engine.games room = some game)
    (wellFormed : game.board.WellFormed) {player : PlayerId} (member : player ∈ game.playerIds)
    (data : Json) :
    execute (applyPlaceAction room player data) engine =
      match game.applyPlaceAction player data with
      | .error error => (.error error, engine)
      | .ok (.refused _) => (.ok false, engine)
      | .ok (.passed placed) => (.ok true, engine.write room placed) := by
  unfold applyPlaceAction
  cases xEq : data.get "x" with
  | error error =>
      rw [execute_bind_error (execute_evaluate _ _)]
      simp [ActiveGame.applyPlaceAction, xEq, bind, Except.bind]
  | ok x =>
  rw [execute_bind_ok (execute_evaluate _ _)]
  cases yEq : data.get "y" with
  | error error =>
      rw [execute_bind_error (execute_evaluate _ _)]
      simp [ActiveGame.applyPlaceAction, xEq, yEq, bind, Except.bind]
  | ok y =>
  rw [execute_bind_ok (execute_evaluate _ _)]
  by_cases missing : (x.isNone || y.isNone) = true
  · rw [if_pos missing]
    simp [ActiveGame.applyPlaceAction, xEq, yEq, missing, bind, Except.bind]
    rfl
  rw [if_neg missing]
  cases withinEq : ActiveGame.withinBoard x y with
  | error error =>
      rw [execute_bind_error (execute_evaluate _ _)]
      simp [ActiveGame.applyPlaceAction, xEq, yEq, missing, withinEq, bind, Except.bind]
  | ok within =>
  rw [execute_bind_ok (execute_evaluate _ _)]
  cases within with
  | false =>
      simp [ActiveGame.applyPlaceAction, xEq, yEq, missing, withinEq, bind, Except.bind]
      rfl
  | true =>
  cases rowEq : y.index with
  | error error =>
      simp only [Bool.not_true, Bool.false_eq_true, if_false]
      rw [execute_bind_error (execute_evaluate _ _)]
      simp [ActiveGame.applyPlaceAction, xEq, yEq, missing, withinEq, rowEq, bind, Except.bind]
  | ok row =>
  simp only [Bool.not_true, Bool.false_eq_true, if_false]
  rw [execute_bind_ok (execute_evaluate _ _)]
  cases columnEq : x.index with
  | error error =>
      rw [execute_bind_error (execute_evaluate _ _)]
      simp [ActiveGame.applyPlaceAction, xEq, yEq, missing, withinEq, rowEq, columnEq, bind,
        Except.bind]
  | ok column =>
  obtain ⟨xBound, yBound⟩ := ActiveGame.bounds_of_withinBoard withinEq columnEq rowEq
  rw [execute_bind_ok (execute_evaluate _ _),
    execute_bind_ok (execute_readCell stored wellFormed (by omega) (by omega))]
  by_cases occupied : game.board.cell column.toNat row.toNat ≠ 0
  · rw [if_pos occupied]
    simp [ActiveGame.applyPlaceAction, xEq, yEq, missing, withinEq, rowEq, columnEq, occupied,
      bind, Except.bind]
    rfl
  -- From here on nothing is refused and nothing raises.
  have placed : game.applyPlaceAction player data =
      .ok (.passed (game.place player column.toNat row.toNat)) := by
    simp [ActiveGame.applyPlaceAction, xEq, yEq, missing, withinEq, rowEq, columnEq, occupied,
      bind, Except.bind, pure, Except.pure]
  have asWritten : engine.games room = some (withTerritory game (game.board, game.scores)) :=
    stored
  rw [placed, if_neg occupied, execute_bind_ok (execute_object stored),
    if_neg (not_not.mpr member), execute_bind_ok (execute_writeCell asWritten _ _ _),
    execute_bind_ok (execute_writeScore (stored_write engine room _) _ _),
    execute_bind_ok (execute_claimNeighbours (stored_write _ room _)
      (Board.put_wellFormed wellFormed _ _ _) (by simp) _ _ _ _)]
  simp only [write_write]
  rfl

theorem execute_checkGameOver (stored : engine.games room = some game) :
    execute (checkGameOver room) engine =
      (.ok game.checkGameOver.2, engine.write room game.checkGameOver.1) := by
  have finish : execute (do
      assign room fun game => { game with status := .finished }
      assign room ActiveGame.determineWinner
      pure true) engine =
        (.ok true, engine.write room
          (ActiveGame.determineWinner { game with status := .finished })) := by
    rw [execute_bind_ok (execute_assign stored _),
      execute_bind_ok (execute_assign (stored_write engine room _) _), write_write]
    rfl
  unfold checkGameOver ActiveGame.checkGameOver
  rw [execute_bind_ok (execute_object stored)]
  by_cases capped : maxTurns ≤ game.turnNumber
  · rw [if_pos capped, if_pos capped]
    exact finish
  rw [if_neg capped, if_neg capped]
  by_cases full : (!game.board.hasEmpty) = true
  · rw [if_pos full, if_pos full]
    exact finish
  · rw [if_neg full, if_neg full, write_self stored]
    rfl

theorem execute_recordAction (stored : engine.games room = some game) (player : PlayerId)
    (action data : Json) (now : Time) :
    execute (recordAction room player action data now) engine =
      (.ok (), engine.write room (game.recordAction player action data now)) := by
  unfold recordAction
  rw [execute_bind_ok (execute_assign stored _),
    execute_bind_ok (execute_assign (stored_write engine room _) _), write_write,
    execute_assign (stored_write engine room _), write_write]
  rfl

theorem execute_finishTurn (stored : engine.games room = some game) :
    execute (finishTurn room) engine =
      (.ok game.finishTurn.2, engine.write room game.finishTurn.1) := by
  unfold finishTurn ActiveGame.finishTurn
  rw [execute_bind_ok (execute_checkGameOver stored)]
  obtain ⟨checked, gameOver⟩ := game.checkGameOver
  cases gameOver with
  | true => rfl
  | false =>
      simp only [Bool.not_false, if_true]
      rw [execute_bind_ok (execute_assign (stored_write engine room _) _), write_write]
      rfl

/-- How `process_action` goes on after the turn is finished. -/
def afterwards (room : RoomId) (gameOver : Bool) (broadcast completion : Except PythonError Unit)
    (engine : GameEngine) : Except PythonError Bool × GameEngine :=
  match broadcast with
  | .error error => (.error error, engine)
  | .ok () =>
      if gameOver then
        match completion with
        | .error error => (.error error, engine)
        | .ok () => (.ok true, engine.pop room)
      else (.ok true, engine)

/-- Carried out statement by statement, an action does what the atomic action
does. -/
theorem execute_processAction
    (wellFormed : ∀ game, engine.find room = some game → game.board.WellFormed)
    (player : PlayerId) (action data : Json) (now : Time)
    (broadcast completion : Except PythonError Unit) :
    execute (processAction room player action data now broadcast completion) engine =
      match engine.processAction room player action data now with
      | (next, .refused _) => (.ok false, next)
      | (next, .raised error) => (.error error, next)
      | (next, .accepted gameOver) => afterwards room gameOver broadcast completion next := by
  unfold processAction
  rw [execute_bind_ok (show execute get engine = (.ok engine, engine) from rfl)]
  cases found : engine.find room with
  | none =>
      simp only [GameEngine.processAction, found]
      rfl
  | some game =>
  have stored := (GameEngine.find_eq_some.mp found).2
  simp only
  by_cases inactive : game.status ≠ .inProgress
  · rw [if_pos inactive]
    simp [GameEngine.processAction, found, ActiveGame.processAction, inactive]
    rfl
  rw [if_neg inactive]
  cases currentEq : game.currentPlayerId with
  | none =>
      simp [GameEngine.processAction, found, ActiveGame.processAction, inactive, currentEq]
      rfl
  | some current =>
  simp only
  by_cases notTurn : player ≠ current
  · rw [if_pos notTurn]
    simp [GameEngine.processAction, found, ActiveGame.processAction, inactive, currentEq, notTurn]
    rfl
  obtain rfl := not_not.mp notTurn
  rw [if_neg notTurn]
  by_cases unknown : (!action.isString "place") = true
  · rw [if_pos unknown]
    simp [GameEngine.processAction, found, ActiveGame.processAction, inactive, currentEq, unknown]
    rfl
  rw [if_neg unknown]
  have member : player ∈ game.playerIds := List.mem_of_getElem? currentEq
  have applied := execute_applyPlaceAction stored (wellFormed game found) member data
  cases placedEq : game.applyPlaceAction player data with
  | error error =>
      rw [placedEq] at applied
      rw [execute_bind_error applied]
      simp [GameEngine.processAction, found, ActiveGame.processAction, inactive, currentEq,
        unknown, placedEq, bind, Except.bind]
  | ok checked =>
  rw [placedEq] at applied
  cases checked with
  | refused error =>
      rw [execute_bind_ok applied]
      simp [GameEngine.processAction, found, ActiveGame.processAction, inactive, currentEq,
        unknown, placedEq, bind, Except.bind]
      rfl
  | passed placed =>
  have accepted : engine.processAction room player action data now =
      (engine.write room (placed.recordAction player action data now).finishTurn.1,
        .accepted (placed.recordAction player action data now).finishTurn.2) := by
    simp [GameEngine.processAction, found, ActiveGame.processAction, inactive, currentEq,
      unknown, placedEq, bind, Except.bind, pure, Except.pure]
  rw [accepted, execute_bind_ok applied]
  simp only [Bool.not_true, Bool.false_eq_true, if_false]
  rw [execute_bind_ok (execute_recordAction (stored_write engine room _) _ _ _ _), write_write,
    execute_bind_ok (execute_finishTurn (stored_write engine room _)), write_write]
  generalize (placed.recordAction player action data now).finishTurn = result
  unfold afterwards
  cases broadcast with
  | error error => rfl
  | ok =>
      cases result.2 with
      | false => rfl
      | true => cases completion <;> rfl

end Execute

/-- A refused action leaves no trace, and neither does one that raises before it
is in the history; an accepted one is recorded once. -/
structure AllOrNothing (engine : GameEngine) (room : RoomId)
    (outcome : Except PythonError Bool × GameEngine) : Prop where
  refused : outcome.1 = .ok false → outcome.2 = engine
  raised : ∀ error, outcome.1 = .error error →
    (outcome.2.games room).map ActiveGame.actionHistory =
      (engine.games room).map ActiveGame.actionHistory → outcome.2 = engine
  accepted : outcome.1 = .ok true → ∃ game next entry, engine.find room = some game ∧
    outcome.2.games room = some next ∧ next.actionHistory = game.actionHistory ++ [entry] ∧
    next.turnNumber = game.turnNumber + 1

/-- The game became what it is by what may happen to a room since it was
created. -/
def Reachable (room : RoomId) (game : ActiveGame) : Prop :=
  ∃ playerIds playerElos started,
    (ActiveGame.create room playerIds playerElos started).Lives game

theorem Reachable.wellFormed {room : RoomId} {game : ActiveGame} (reachable : Reachable room game) :
    game.board.WellFormed := by
  obtain ⟨playerIds, playerElos, started, lives⟩ := reachable
  exact lives.invariant (fun _ _ wellFormed step => ActiveGame.wellFormed_of_step wellFormed step)
    Board.empty_wellFormed

theorem history_of_accepted {game : ActiveGame} {player : PlayerId} {action data : Json}
    {now : Time} {result : ActiveGame × Bool}
    (accepted : game.processAction player action data now = .ok (.passed result)) :
    result.1.actionHistory =
      game.actionHistory ++ [⟨player, action, data, game.turnNumber, now⟩] := by
  obtain ⟨-, -, -, x, -, y, -, -, rfl⟩ := ActiveGame.processAction_passed accepted
  rw [ActiveGame.finishTurn_frame]
  rfl

theorem games_afterwards (room : RoomId) (gameOver : Bool)
    (broadcast completion : Except PythonError Unit) (engine : GameEngine) :
    (afterwards room gameOver broadcast completion engine).2.games = engine.games ∧
      (afterwards room gameOver broadcast completion engine).1 ≠ .ok false := by
  unfold afterwards
  cases broadcast <;> cases gameOver <;> cases completion <;> simp

/-- Main result: whoever calls with whatever data, an action on a reachable game
is carried out or leaves no trace. -/
theorem allOrNothing_of_reachable {engine : GameEngine} {room : RoomId}
    (reachable : ∀ game, engine.find room = some game → Reachable room game)
    (player : PlayerId) (action data : Json) (now : Time)
    (broadcast completion : Except PythonError Unit) :
    AllOrNothing engine room
      (execute (processAction room player action data now broadcast completion) engine) := by
  rw [execute_processAction fun game found => (reachable game found).wellFormed]
  rcases engine.processAction_cases room player action data now with
    ⟨unchanged, notAccepted⟩ | ⟨game, result, found, passed, equation⟩
  · generalize engine.processAction room player action data now = reply at *
    obtain ⟨next, reply⟩ := reply
    obtain rfl : next = engine := unchanged
    cases reply with
    | accepted gameOver => exact absurd rfl (notAccepted gameOver)
    | _ => exact ⟨by simp, by simp, by simp⟩
  · rw [equation]
    obtain ⟨games, notRefused⟩ := games_afterwards room result.2 broadcast completion
      (engine.write room result.1)
    have stored := (GameEngine.find_eq_some.mp found).2
    have history := history_of_accepted passed
    constructor
    · intro refused
      exact absurd refused notRefused
    · intro error _ unrecorded
      rw [games, stored_write, stored, Option.map_some, Option.map_some, Option.some.injEq,
        history] at unrecorded
      simp at unrecorded
    · intro _
      exact ⟨game, result.1, _, found, by rw [games, stored_write], history,
        (ActiveGame.processAction_frame passed).2.2.2.2.1⟩

theorem allOrNothing_of_fraction :
    AllOrNothing (({} : GameEngine).createGame "room-1" ["ada", "bob"] ∅ 0) "room-1"
      (execute (processAction "room-1" "ada" (.str "place")
          (.obj [("x", .float 0.5), ("y", .int 3)]) 1 (.ok ()) (.ok ()))
        (({} : GameEngine).createGame "room-1" ["ada", "bob"] ∅ 0)) :=
  allOrNothing_of_reachable (fun game found =>
    ⟨["ada", "bob"], ∅, 0, by cases (find_createGame _ _ _ _ _).symm.trans found; exact .refl⟩)
    _ _ _ _ _ _

end InPlace

end TerritoryBackend

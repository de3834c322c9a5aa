import TerritoryBackend.Overlays
import TerritoryBackend.World

/-!
# The browser client

What `frontend/app.js` does with the messages of the server, and what it sends
when a cell of the grid is clicked.  The grid is not there before the first
`game_started`; colouring a cell that is not there throws and ends the handler,
which keeps what it has changed so far.
-/

namespace TerritoryBackend

/-- The class and the text of the element `turn-indicator`. -/
structure TurnIndicator where
  className : String := "orb waiting"
  text : String := "Waiting..."

/-- The text of the element `turn-text`; a rating change is kept as the game it is
computed from. -/
inductive TurnText where
  | text (text : String)
  /-- `ELO Delta: ${msg.elo_delta > 0 ? '+' : ''}${msg.elo_delta}` -/
  | eloDelta (settled : ActiveGame)

/-- The variables of the script and the elements of the page it writes.  The grid
holds the number in the class `grid-cell p{number}-owned`, or 0 without it. -/
structure Client where
  myPlayerId : PlayerId
  /-- `ws.readyState === WebSocket.OPEN` -/
  isOpen : Bool := true
  isMyTurn : Bool := false
  myPlayerIdx : Int := -1
  seqNum : Nat := 1
  infoPlayerId : String := "N/A"
  infoRoomId : String := "None"
  mmStatus : String := ""
  myColorAvatar : Option Int := none
  oppColorAvatar : Option Int := none
  scoreSelf : Int := 0
  scoreOpp : Int := 0
  turnIndicator : TurnIndicator := {}
  turnText : TurnText := .text "Queue for match"
  grid : Board := []

/-- The grid while it is being coloured, and whether an element was missing. -/
structure Colouring where
  grid : Board
  thrown : Bool := false

namespace Client

/-- The cells `initBoard(size)` creates. -/
def initBoard (size : Nat) : Board := List.replicate size (List.replicate size 0)

/-- `document.querySelector` finds the cell. -/
def hasCell (grid : Board) (x y : Nat) : Bool := decide (x < (grid.getD y []).length)

/-- The iterations of the two loops over a board. -/
def positions (board : Board) : List (Nat × Nat) :=
  (List.range board.length).flatMap fun y =>
    (List.range (board.getD y []).length).map fun x => (x, y)

/-- One iteration of the loops of `updateArena`. -/
def syncCell (board : Board) (colouring : Colouring) (position : Nat × Nat) : Colouring :=
  if colouring.thrown then colouring
  else if board.cell position.1 position.2 = 0 then colouring
  else if hasCell colouring.grid position.1 position.2 then
    { colouring with
      grid := colouring.grid.put position.1 position.2 (board.cell position.1 position.2) }
  else { colouring with thrown := true }

def syncBoard (grid board : Board) : Colouring :=
  (positions board).foldl (syncCell board) { grid := grid }

/-- `updateArena`; the flag tells whether it throws. -/
def updateArena (client : Client) (state : ClientState) (yourTurn : Bool) : Client × Bool :=
  let colouring := syncBoard client.grid state.board
  ({ client with
      isMyTurn := yourTurn
      scoreSelf := state.scores.getD client.myPlayerId 0
      scoreOpp :=
        ((state.playerIds.find? (· ≠ client.myPlayerId)).map fun oppId =>
          state.scores.getD oppId 0).getD 0
      turnIndicator :=
        if yourTurn then ⟨"orb my-turn", "ACTION REQUIRED"⟩ else ⟨"orb opp-turn", "STANDBY"⟩
      turnText :=
        .text (if yourTurn then "It is your turn to place territory."
          else "Awaiting opponent action...")
      grid := colouring.grid },
    colouring.thrown)

/-- `pIds.indexOf(myPlayerId) + 1` -/
def indexIn (client : Client) (playerIds : List PlayerId) : Int :=
  if client.myPlayerId ∈ playerIds then playerIds.idxOf client.myPlayerId + 1 else 0

def setupArena (client : Client) (initialState : ClientState) (yourTurn : Bool) :
    Client × Bool :=
  let myPlayerIdx := client.indexIn initialState.playerIds
  { client with
    myPlayerIdx := myPlayerIdx
    myColorAvatar := some myPlayerIdx
    oppColorAvatar := some (if myPlayerIdx = 1 then 2 else 1)
    grid := initBoard 10 }.updateArena initialState yourTurn

def handleGameOver (client : Client) (winner : Option PlayerId) (result : String)
    (settled : ActiveGame) : Client :=
  { client with
    isMyTurn := false
    turnIndicator :=
      if winner = some client.myPlayerId then ⟨"orb my-turn", "VICTORY"⟩
      else if (winner.getD "" = "") ∨ result = "draw" then ⟨"orb waiting", "DRAW"⟩
      else ⟨"orb disconnected", "DEFEAT"⟩
    turnText := .eloDelta settled }

/-- `handleServerMessage`; the flag tells whether it throws. -/
def handleServerMessage (client : Client) (message : Message) : Client × Bool :=
  match message with
  | .connected player _ => ({ client with infoPlayerId := player }, false)
  | .matchmakingQueued _ estimatedWaitSec =>
      ({ client with
          mmStatus := "Queued (Est Wait: " ++ toString estimatedWaitSec ++ "s)" }, false)
  | .matchFound room _ _ _ =>
      ({ client with infoRoomId := room, mmStatus := "Match found! Booting arena..." }, false)
  | .gameStarted _ initialState yourTurn => client.setupArena initialState yourTurn
  | .gameStateUpdate _ state _ yourTurn _ _ => client.updateArena state yourTurn
  | .gameOver _ winner result settled _ => (client.handleGameOver winner result settled, false)
  | _ => (client, false)

/-- Handle messages one after another, whether or not a handler throws. -/
def handleAll (client : Client) (messages : List Message) : Client :=
  messages.foldl (fun client message => (client.handleServerMessage message).1) client

/-- Some handler throws. -/
def throwsOn : Client → List Message → Bool
  | _, [] => false
  | client, message :: messages =>
      (client.handleServerMessage message).2 ||
        (client.handleServerMessage message).1.throwsOn messages

/-- `{ type, ...payload }` as `sendWsMessage` encodes it for a click. -/
def placeFrame (x y sequenceNumber : Nat) : Json :=
  .obj [("type", .str "game_action"), ("action", .str "place"),
    ("data", .obj [("x", .int x), ("y", .int y)]), ("sequence_number", .int sequenceNumber)]

/-- The handler of a click on a cell, and the frame it sends; the sequence number is
used up even when nothing is sent. -/
def click (client : Client) (x y : Nat) : Client × Option Json :=
  if !client.isMyTurn || client.grid.cell x y == 1 || client.grid.cell x y == 2 then
    (client, none)
  else
    ({ client with seqNum := client.seqNum + 1 },
      if client.isOpen then some (placeFrame x y client.seqNum) else none)

end Client

/-- A board as a picture of its cells. -/
def Board.picture (board : Board) (position : Nat × Nat) : Nat :=
  board.cell position.1 position.2

theorem Board.picture_outside {board : Board} (wellFormed : board.WellFormed)
    {position : Nat × Nat} (outside : ¬ (position.1 < boardSize ∧ position.2 < boardSize)) :
    board.picture position = 0 := by
  unfold picture cell
  by_cases bound : position.2 < boardSize
  · obtain ⟨row, present, rowLength⟩ := exists_row wellFormed bound
    have beyond : row.length ≤ position.1 := by omega
    simp [List.getD_eq_getElem?_getD, present, beyond]
  · have beyond : board.length ≤ position.2 := by
      rw [wellFormed.1]
      omega
    simp [List.getD_eq_getElem?_getD, beyond]

namespace Client

variable {grid board : Board}

theorem hasCell_of_wellFormed (wellFormed : grid.WellFormed) {x y : Nat} (xBound : x < boardSize)
    (yBound : y < boardSize) : hasCell grid x y = true := by
  obtain ⟨row, present, rowLength⟩ := Board.exists_row wellFormed yBound
  simp [hasCell, List.getD_eq_getElem?_getD, present, rowLength, xBound]

theorem mem_positions (wellFormed : board.WellFormed) (position : Nat × Nat) :
    position ∈ positions board ↔ position.1 < boardSize ∧ position.2 < boardSize := by
  obtain ⟨x, y⟩ := position
  simp only [positions, List.mem_flatMap, List.mem_range, List.mem_map, Prod.mk.injEq]
  constructor
  · rintro ⟨line, bound, column, columnBound, rfl, rfl⟩
    rw [wellFormed.1] at bound
    obtain ⟨row, present, rowLength⟩ := Board.exists_row wellFormed bound
    rw [List.getD_eq_getElem?_getD, present, Option.getD_some, rowLength] at columnBound
    exact ⟨columnBound, bound⟩
  · rintro ⟨xBound, yBound⟩
    obtain ⟨row, present, rowLength⟩ := Board.exists_row wellFormed yBound
    refine ⟨y, wellFormed.1 ▸ yBound, x, ?_, rfl, rfl⟩
    rw [List.getD_eq_getElem?_getD, present, Option.getD_some, rowLength]
    exact xBound

/-- Part of a board has been coloured on a grid that has all its cells. -/
structure Coloured (grid board : Board) (done : List (Nat × Nat)) (colouring : Colouring) :
    Prop where
  returns : colouring.thrown = false
  wellFormed : colouring.grid.WellFormed
  cells : ∀ position, colouring.grid.picture position =
    if position ∈ done ∧ board.picture position ≠ 0 then board.picture position
    else grid.picture position

theorem Coloured.next {done : List (Nat × Nat)} {colouring : Colouring} {position : Nat × Nat}
    (coloured : Coloured grid board done colouring)
    (within : position.1 < boardSize ∧ position.2 < boardSize) :
    Coloured grid board (done ++ [position]) (syncCell board colouring position) := by
  unfold syncCell
  rw [if_neg (by simp [coloured.returns])]
  split
  · rename_i blank
    refine ⟨coloured.returns, coloured.wellFormed, ?_⟩
    intro other
    rw [coloured.cells]
    by_cases same : other = position
    · subst same
      simp [Board.picture, blank]
    · simp [same]
  · rename_i filled
    rw [if_pos (hasCell_of_wellFormed coloured.wellFormed within.1 within.2)]
    refine ⟨coloured.returns, Board.put_wellFormed coloured.wellFormed _ _ _, ?_⟩
    intro other
    have put := Board.cell_put coloured.wellFormed within.1 within.2
      (board.cell position.1 position.2) other.1 other.2
    by_cases same : other = position
    · subst same
      simp [Board.picture, filled, put]
    · have elsewhere : ¬ (other.1 = position.1 ∧ other.2 = position.2) :=
        fun both => same (Prod.ext both.1 both.2)
      rw [if_neg elsewhere] at put
      have before := coloured.cells other
      simp only [Board.picture, put, List.mem_append, List.mem_singleton, same, or_false]
      exact before

theorem Coloured.all {done rest : List (Nat × Nat)} {colouring : Colouring}
    (coloured : Coloured grid board done colouring)
    (within : ∀ position ∈ rest, position.1 < boardSize ∧ position.2 < boardSize) :
    Coloured grid board (done ++ rest) (rest.foldl (syncCell board) colouring) := by
  induction rest generalizing done colouring with
  | nil => simpa using coloured
  | cons position rest ih =>
      have next := coloured.next (within position List.mem_cons_self)
      have others := ih next fun other member => within other (List.mem_cons_of_mem _ member)
      simpa using others

/-- On a grid with all its cells a board is laid over what is shown. -/
theorem syncBoard_spec (gridFormed : grid.WellFormed) (boardFormed : board.WellFormed) :
    (syncBoard grid board).thrown = false ∧ (syncBoard grid board).grid.WellFormed ∧
      (syncBoard grid board).grid.picture = Overlays.overlay grid.picture board.picture := by
  have started : Coloured grid board [] { grid := grid } := ⟨rfl, gridFormed, by simp⟩
  have within : ∀ position ∈ positions board, position.1 < boardSize ∧ position.2 < boardSize :=
    fun position => (mem_positions boardFormed position).mp
  obtain ⟨returns, wellFormed, cells⟩ := started.all within
  refine ⟨returns, wellFormed, ?_⟩
  funext position
  rw [show (syncBoard grid board).grid.picture position = _ from cells position]
  unfold Overlays.overlay
  by_cases within : position ∈ positions board
  · by_cases blank : board.picture position = 0 <;> simp [within, blank]
  · have blank : board.picture position = 0 := by
      rw [mem_positions boardFormed] at within
      exact Board.picture_outside boardFormed within
    simp [blank]

end Client

end TerritoryBackend

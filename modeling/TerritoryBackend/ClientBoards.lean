import TerritoryBackend.AuthenticMessages
import TerritoryBackend.Frontend
import TerritoryBackend.BrokenConnections
import TerritoryBackend.RecoveryPoints
import TerritoryBackend.ReplayLog

/-!
# What a player sees

The grid of a client is never cleared during a game.  As the server only fills
blank cells, a client shows the latest of the boards it has received, whatever
messages are lost, repeated or overtaken by others.
-/

namespace TerritoryBackend

open EventLoop Overlays

variable {config : ServerConfig} {room : RoomId} {player : PlayerId} {message : Message}
  {game stage later : ActiveGame}

def Message.startedRoom : Message → Option RoomId
  | .gameStarted room _ _ => some room
  | _ => none

/-- The states of the arena a client is handed, by `game_started` and
`game_state_update`; the one in `game_over` is not drawn. -/
def arenaStates (messages : List Message) : List ClientState :=
  messages.filterMap fun message => message.announcedTurn.map fun announced => announced.2.1

/-- The messages a client handles during a game: the arena is set up, and then
some of the messages for the player arrive, in any order and any number of times,
with others that do not show a game between them. -/
structure Follows (world : World) (room : RoomId) (player : PlayerId)
    (messages : List Message) : Prop where
  setUp : ∃ opening rest, messages = opening :: rest ∧ opening.startedRoom = some room ∧
    ∀ later ∈ rest, later.startedRoom = none
  issued : ∀ message ∈ messages, ∀ other state, message.shows = some (other, state) →
    other = room ∧ (player, message) ∈ world.journal.sent ++ world.journal.published

/-- What a client shows of a game. -/
structure ShowsGame (game : ActiveGame) (messages : List Message) (client shown : Client) :
    Prop where
  returns : client.throwsOn messages = false
  latest : ∀ state ∈ arenaStates messages,
    (∀ other ∈ arenaStates messages, other.turnNumber ≤ state.turnNumber) →
    shown.grid = state.board
  owned : GrowsInto shown.grid.picture game.board.picture
  number : shown.myPlayerIdx = game.playerIds.idxOf client.myPlayerId + 1

/-- Every client shows the latest of the boards it has received. -/
def ClientsShowGames (settings : Settings) (start : ServerConfig)
    (guard : ServerChoice → ServerConfig → Prop) : Prop :=
  ∀ config, (server settings).Reaches start guard config →
    ∀ room messages (client : Client), Follows config.state room client.myPlayerId messages →
      ∃ game, config.state.engine.games room = some game ∧
        ShowsGame game messages client (client.handleAll messages)

theorem GameEngine.playAll_lives {engine : GameEngine} (stored : engine.games room = some game)
    (calls : List ActionCall) :
    ∃ last, (engine.playAll room calls).1.games room = some last ∧ game.Lives last := by
  induction calls generalizing engine game with
  | nil => exact ⟨game, stored, .refl⟩
  | cons call calls ih =>
      rcases processAction_cases engine room call.player call.action call.data call.now with
        ⟨same, -⟩ | ⟨found, result, foundEq, passed, equation⟩
      · simp only [playAll, same]
        exact ih stored
      · cases stored.symm.trans (find_eq_some.mp foundEq).2
        have written : (engine.write room result.1).games room = some result.1 := by simp
        obtain ⟨last, storedLast, lives⟩ := ih written
        refine ⟨last, ?_, .head (.acted passed) lives⟩
        simpa only [playAll, equation] using storedLast

/-- Of two stages of one game the one with fewer turns has grown into the other. -/
theorem Passed.growsInto (first : Passed config.state room stage)
    (second : Passed config.state room later) (turns : stage.turnNumber ≤ later.turnNumber) :
    GrowsInto stage.board.picture later.board.picture := by
  obtain ⟨pair, now, game, distinct, born, stored, lives⟩ := first
  obtain ⟨otherPair, otherNow, _, -, otherBorn, sameGame, otherLives⟩ := second
  cases stored.symm.trans sameGame
  have players : otherPair.playerIds = pair.playerIds :=
    otherBorn.playerIds.symm.trans (otherLives.playerIds.symm.trans
      (lives.playerIds.trans born.playerIds))
  rw [players] at otherBorn
  have counted {stage : ActiveGame} {elos : Dict PlayerId Int} {now : Time}
      (born : (ActiveGame.create room pair.playerIds elos now).Lives stage) :
      stage.turnNumber = stage.actionHistory.length :=
    born.invariant (fun _ _ holds step => step.turnNumber_eq holds) rfl
  obtain ⟨more, history⟩ : stage.actionHistory <+: later.actionHistory :=
    List.prefix_of_prefix_length_le lives.history_prefix otherLives.history_prefix
      (by rw [← counted born, ← counted otherBorn]; exact turns)
  -- both stages are replayed from the same fresh game, the later one going further
  obtain ⟨last, found, -, replayed⟩ := replaysTo_of_lives {} room ∅ 0 (fun _ => 0) born
  obtain ⟨otherLast, otherFound, -, otherReplayed⟩ :=
    replaysTo_of_lives {} room ∅ 0 (fun _ => 0) otherBorn
  have calls : replayCalls later.actionHistory (fun _ => 0) =
      replayCalls stage.actionHistory (fun _ => 0) ++ replayCalls more (fun _ => 0) := by
    simp [replayCalls, ← history, List.mapIdx_append]
  rw [calls, GameEngine.playAll_append] at otherFound
  obtain ⟨further, storedFurther, grows⟩ := GameEngine.playAll_lives
    (GameEngine.find_eq_some.mp found).2 (replayCalls more (fun _ => 0))
  cases storedFurther.symm.trans (GameEngine.find_eq_some.mp otherFound).2
  rintro ⟨x, y⟩ filled
  have wellFormed : last.board.WellFormed := by
    rw [← replayed.position.board]
    exact born.invariant (fun _ _ holds step => ActiveGame.wellFormed_of_step holds step)
      Board.empty_wellFormed
  have kept (claimed : last.board.cell x y ≠ 0) :
      otherLast.board.cell x y = last.board.cell x y :=
    ActiveGame.cell_of_lives wellFormed grows claimed
  rw [← replayed.position.board, ← otherReplayed.position.board] at kept
  exact kept filled

theorem Passed.wellFormed (passed : Passed config.state room stage) :
    stage.board.WellFormed := by
  obtain ⟨_, _, _, -, born, -, -⟩ := passed
  exact born.invariant (fun _ _ holds step => ActiveGame.wellFormed_of_step holds step)
    Board.empty_wellFormed

theorem Board.eq_of_picture_eq {board other : Board} (wellFormed : board.WellFormed)
    (otherFormed : other.WellFormed) (same : board.picture = other.picture) : board = other := by
  apply List.ext_getElem (wellFormed.1.trans otherFormed.1.symm)
  intro y bound otherBound
  have rowLength := wellFormed.2 _ (List.getElem_mem bound)
  have otherLength := otherFormed.2 _ (List.getElem_mem otherBound)
  apply List.ext_getElem (rowLength.trans otherLength.symm)
  intro x inRow inOther
  have cells : board.cell x y = other.cell x y := congrFun same (x, y)
  rwa [cell_eq (List.getElem?_eq_getElem bound) inRow,
    cell_eq (List.getElem?_eq_getElem otherBound) inOther] at cells

namespace Client

/-- What a client makes of messages: their boards are laid over a picture. -/
structure Handled (client : Client) (picture : Nat × Nat → Nat) (number : Int)
    (messages : List Message) (shown : Client) : Prop where
  returns : client.throwsOn messages = false
  wellFormed : shown.grid.WellFormed
  picture : shown.grid.picture =
    ((arenaStates messages).map fun state => state.board.picture).foldl overlay picture
  number : shown.myPlayerIdx = number
  player : shown.myPlayerId = client.myPlayerId

theorem handled_all (client : Client) (wellFormed : client.grid.WellFormed)
    (messages : List Message)
    (boards : ∀ state ∈ arenaStates messages, state.board.WellFormed)
    (noStart : ∀ message ∈ messages, message.startedRoom = none) :
    Handled client client.grid.picture client.myPlayerIdx messages
      (client.handleAll messages) := by
  induction messages generalizing client with
  | nil => exact ⟨rfl, wellFormed, rfl, rfl, rfl⟩
  | cons message messages ih =>
      have later : ∀ message ∈ messages, message.startedRoom = none :=
        fun other member => noStart other (List.mem_cons_of_mem _ member)
      have rest := ih (client.handleServerMessage message).1
      cases message with
      | gameStarted => cases noStart _ List.mem_cons_self
      | gameStateUpdate room state lastAction yourTurn turnNumber timestamp =>
          have whole : state.board.WellFormed := boards state (by
            simp [arenaStates, Message.announcedTurn])
          obtain ⟨returns, gridFormed, painted⟩ := syncBoard_spec wellFormed whole
          have rest := rest gridFormed
            (fun other member => boards other (by
              simp only [arenaStates, List.filterMap_cons, Message.announcedTurn,
                Option.map_some, List.mem_cons]
              exact .inr member)) later
          refine ⟨Bool.or_eq_false_iff.mpr ⟨returns, rest.returns⟩, rest.wellFormed, ?_,
            rest.number, rest.player⟩
          rw [show arenaStates _ = state :: arenaStates messages from rfl, List.map_cons,
            List.foldl_cons, ← painted]
          exact rest.picture
      | _ =>
          have rest := rest wellFormed boards later
          exact ⟨rest.returns, rest.wellFormed, rest.picture, rest.number, rest.player⟩

theorem handled_of_started (client : Client) {room : RoomId} {state : ClientState}
    {yourTurn : Bool} {rest : List Message}
    (boards : ∀ shown ∈ arenaStates (.gameStarted room state yourTurn :: rest),
      shown.board.WellFormed)
    (noStart : ∀ later ∈ rest, later.startedRoom = none) :
    Handled client 0 (client.indexIn state.playerIds)
      (.gameStarted room state yourTurn :: rest)
      (client.handleAll (.gameStarted room state yourTurn :: rest)) := by
  have states : arenaStates (.gameStarted room state yourTurn :: rest) =
      state :: arenaStates rest := rfl
  rw [states] at boards
  have blank : Board.empty.picture = 0 :=
    funext fun position => Board.cell_empty position.1 position.2
  obtain ⟨returns, gridFormed, painted⟩ :=
    syncBoard_spec Board.empty_wellFormed (boards state List.mem_cons_self)
  have handled := handled_all (client.setupArena state yourTurn).1 gridFormed rest
    (fun other member => boards other (List.mem_cons_of_mem _ member)) noStart
  refine ⟨Bool.or_eq_false_iff.mpr ⟨returns, handled.returns⟩, handled.wellFormed, ?_,
    handled.number, handled.player⟩
  rw [states, List.map_cons, List.foldl_cons, ← blank, ← painted]
  exact handled.picture

end Client

theorem mem_arenaStates {messages : List Message} {state : ClientState} :
    state ∈ arenaStates messages ↔ ∃ message ∈ messages, ∃ room yourTurn,
      message.announcedTurn = some (room, state, yourTurn) := by
  simp [arenaStates]

theorem Message.startedRoom_eq_some {message : Message}
    (starts : message.startedRoom = some room) :
    ∃ state yourTurn, message = .gameStarted room state yourTurn := by
  cases message <;> cases starts
  exact ⟨_, _, rfl⟩

theorem Message.shows_of_announcedTurn {message : Message} {state : ClientState}
    {yourTurn : Bool} (announced : message.announcedTurn = some (room, state, yourTurn)) :
    message.shows = some (room, state) := by
  cases message <;> cases announced <;> rfl

/-- The arena is set up and shown from stages the game has passed. -/
theorem Follows.passed {messages : List Message}
    (follows : Follows config.state room player messages)
    (authentic : ∀ message other state,
      (player, message) ∈ config.state.journal.sent ++ config.state.journal.published →
        message.shows = some (other, state) →
        Authentic config.state player message other state)
    {state : ClientState} (member : state ∈ arenaStates messages) :
    player ∈ state.playerIds ∧
      ∃ stage, Passed config.state room stage ∧ stage.toClientState = state := by
  obtain ⟨message, handed, other, yourTurn, announced⟩ := mem_arenaStates.mp member
  have shows := Message.shows_of_announcedTurn announced
  obtain ⟨rfl, issued⟩ := follows.issued message handed other state shows
  have told := authentic message other state issued shows
  exact ⟨told.recipient, told.passed⟩

theorem showsGame_of_follows {client : Client} {messages : List Message}
    (follows : Follows config.state room client.myPlayerId messages)
    (passed : ∀ state ∈ arenaStates messages, client.myPlayerId ∈ state.playerIds ∧
      ∃ stage, Passed config.state room stage ∧ stage.toClientState = state) :
    ∃ game, config.state.engine.games room = some game ∧
      ShowsGame game messages client (client.handleAll messages) := by
  have whole : ∀ state ∈ arenaStates messages, state.board.WellFormed := by
    intro state member
    obtain ⟨-, stage, known, rfl⟩ := passed state member
    exact known.wellFormed
  obtain ⟨opening, rest, rfl, starts, noStart⟩ := follows.setUp
  obtain ⟨first, yourTurn, rfl⟩ := Message.startedRoom_eq_some starts
  have handled := Client.handled_of_started client whole noStart
  obtain ⟨plays, opening, known, openingEq⟩ := passed first List.mem_cons_self
  obtain ⟨_, _, game, -, -, stored, lives⟩ := known
  refine ⟨game, stored, handled.returns, ?_, ?_, ?_⟩
  · intro state member latest
    refine Board.eq_of_picture_eq handled.wellFormed (whole state member) ?_
    rw [handled.picture]
    refine foldl_overlay_eq (.blank _) (List.mem_map_of_mem member) ?_
    intro other shown
    obtain ⟨earlier, earlierMember, rfl⟩ := List.mem_map.mp shown
    have turns := latest earlier earlierMember
    obtain ⟨-, last, lastPassed, rfl⟩ := passed state member
    obtain ⟨-, stage, stagePassed, rfl⟩ := passed earlier earlierMember
    exact stagePassed.growsInto lastPassed turns
  · rw [handled.picture]
    refine foldl_overlay_growsInto (.blank _) ?_
    intro picture shown
    obtain ⟨state, member, rfl⟩ := List.mem_map.mp shown
    obtain ⟨-, stage, stagePassed, rfl⟩ := passed state member
    intro position filled
    exact ActiveGame.cell_of_lives stagePassed.wellFormed (stagePassed.lives stored) filled
  · rw [handled.number, Client.indexIn, if_pos plays, ← openingEq, lives.playerIds]
    rfl

/-- After Ada and Bob have been matched, each of them makes a move. -/
def bothMove : List ServerChoice :=
  adaToMove ++
    .event (.callProcessAction "room-1" "ada" (.str "place")
      (.obj [("x", .int 0), ("y", .int 0)])) :: proceed 3 7 ++
    .event (.callProcessAction "room-1" "bob" (.str "place")
      (.obj [("x", .int 5), ("y", .int 5)])) :: proceed 4 7

/-- The update about the second move overtakes the one about the first, and arrives
once more. -/
def adaHears : List (PlayerId × Message) → List Message
  | [_, _, opening, first, second] => [opening.2, second.2, first.2, second.2]
  | _ => []

theorem mem_of_adaHears {entries : List (PlayerId × Message)}
    (heard : message ∈ adaHears entries) : ∃ entry ∈ entries, entry.2 = message := by
  unfold adaHears at heard
  split at heard
  · rename_i opening first second
    simp only [List.mem_cons, List.not_mem_nil, or_false] at heard
    rcases heard with rfl | rfl | rfl | rfl
    · exact ⟨opening, by simp, rfl⟩
    · exact ⟨second, by simp, rfl⟩
    · exact ⟨first, by simp, rfl⟩
    · exact ⟨second, by simp, rfl⟩
  · cases heard

/-- Ada's client is up to date and holds back a click on a cell it has coloured. -/
theorem exists_follows_ada : ∃ config messages,
    (server { instanceId := "inst-1" }).Reaches (booted waitingRookies []) ReconnectsPlayers
        config ∧
      Follows config.state "room-1" "ada" messages ∧
      (arenaStates messages).map ClientState.turnNumber = [0, 2, 1, 2] ∧
      (({ myPlayerId := "ada" } : Client).handleAll messages).isMyTurn = true ∧
      ((({ myPlayerId := "ada" } : Client).handleAll messages).click 5 5).2.isNone = true := by
  have started : ((server { instanceId := "inst-1" }).run bothMove
      (booted waitingRookies [])).any (fun config =>
        let messages := adaHears config.state.journal.sent
        let shown := ({ myPlayerId := "ada" } : Client).handleAll messages
        config.state.journal.sent.all (fun entry => entry.1 == "ada") &&
          decide (messages.map Message.startedRoom = [some "room-1", none, none, none]) &&
          messages.all (fun message => message.shows.all fun shown => shown.1 == "room-1") &&
          decide ((arenaStates messages).map ClientState.turnNumber = [0, 2, 1, 2]) &&
          shown.isMyTurn && (shown.click 5 5).2.isNone) = true := by
    decide +kernel
  obtain ⟨config, executed, holds⟩ := Option.any_eq_true _ _ |>.mp started
  simp only [Bool.and_eq_true, decide_eq_true_eq, List.all_eq_true, Option.all_eq_true,
    beq_iff_eq] at holds
  obtain ⟨⟨⟨⟨⟨ada, starts⟩, inRoom⟩, turns⟩, myTurn⟩, heldBack⟩ := holds
  refine ⟨config, adaHears config.state.journal.sent, Machine.reaches_of_run_guarded .start ?_
    executed, ⟨?_, ?_⟩, turns, myTurn, heldBack⟩
  · intro choice member config room player reconnects
    subst reconnects
    simp [bothMove, adaToMove, openConnection, formMatch, proceed] at member
  · obtain ⟨opening, rest, heard, opens, others⟩ := List.map_eq_cons_iff.mp starts
    refine ⟨opening, rest, heard, opens, ?_⟩
    intro later member
    have started := List.mem_map_of_mem (f := Message.startedRoom) member
    rw [others] at started
    simpa using started
  · intro message heard other state shows
    obtain ⟨⟨player, _⟩, issued, rfl⟩ := mem_of_adaHears heard
    cases ada _ issued
    exact ⟨inRoom _ heard _ shows, List.mem_append_left _ issued⟩

end TerritoryBackend

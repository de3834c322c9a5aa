import TerritoryBackend.ClientBoards
import TerritoryBackend.FairPlay
import TerritoryBackend.FinalResults

/-!
# Clicks are moves

The script sends a click on a cell only if it believes that the player is to move
and that the cell is free.  What it holds back the engine would refuse, and as
long as the game it shows is up to date, what it sends the engine accepts.
-/

namespace TerritoryBackend

open EventLoop

/-- The frame, once the rate limiter lets it pass, is a move the engine accepts. -/
def Accepts (settings : Settings) (world : World) (room : RoomId) (player : PlayerId)
    (frame : Json) (now : Time) : Prop :=
  ∃ parsed messageType action data gameOver,
    world.checkRateLimit player (some frame) .done = some parsed ∧
      .routeMessage player messageType frame ∈ parsed.next ∧
      .getPlayerRoom player action data ∈
        (world.routeMessage settings player messageType frame).next ∧
      (world.engine.processAction room player action data now).2 = .accepted gameOver

/-- The arena was updated last from the game as it is. -/
def UpToDate (game : ActiveGame) (messages : List Message) : Prop :=
  ∃ room state yourTurn,
    (messages.filterMap Message.announcedTurn).getLast? = some (room, state, yourTurn) ∧
      state.turnNumber = game.turnNumber

/-- The clicks of a client agree with the rules of the game. -/
structure ClicksAgree (settings : Settings) (world : World) (room : RoomId)
    (game : ActiveGame) (messages : List Message) (shown : Client) : Prop where
  heldBack : ∀ x y, shown.isMyTurn = true → (shown.click x y).2 = none →
    ∀ sequenceNumber now,
      ¬ Accepts settings world room shown.myPlayerId (Client.placeFrame x y sequenceNumber) now
  upToDate : game.status = .inProgress → UpToDate game messages →
    ∀ x < boardSize, ∀ y < boardSize, ∀ now,
      ((shown.click x y).2 = some (Client.placeFrame x y shown.seqNum) ∧
          Accepts settings world room shown.myPlayerId (Client.placeFrame x y shown.seqNum) now) ∨
        ((shown.click x y).2 = none ∧ ∀ sequenceNumber,
          ¬ Accepts settings world room shown.myPlayerId
            (Client.placeFrame x y sequenceNumber) now)

/-- The clicks of every connected client agree with the rules of the game. -/
def ClicksAreMoves (settings : Settings) (start : ServerConfig)
    (guard : ServerChoice → ServerConfig → Prop) : Prop :=
  ∀ config, (server settings).Reaches start guard config →
    ∀ room messages (client : Client), client.isOpen = true →
      Follows config.state room client.myPlayerId messages →
      ∃ game, config.state.engine.games room = some game ∧
        ClicksAgree settings config.state room game messages (client.handleAll messages)

variable {settings : Settings} {config : ServerConfig} {world : World} {room : RoomId}
  {player : PlayerId} {game stage : ActiveGame} {messages : List Message}

theorem checkRateLimit_placeFrame (world : World) (player : PlayerId)
    (x y sequenceNumber : Nat) :
    world.checkRateLimit player (some (Client.placeFrame x y sequenceNumber)) .done =
      some (world.goOn [.updateActivity player,
        .routeMessage player (.str "game_action") (Client.placeFrame x y sequenceNumber)]) :=
  world.checkRateLimit_typed player rfl rfl

theorem routeMessage_placeFrame (settings : Settings) (world : World) (player : PlayerId)
    (x y sequenceNumber : Nat) :
    world.routeMessage settings player (.str "game_action") (Client.placeFrame x y sequenceNumber) =
      world.goOn [.getPlayerRoom player (.str "place")
        (.obj [("x", .int x), ("y", .int y)])] :=
  world.routeMessage_action settings player rfl rfl

/-- An accepted frame is a placement on a free cell in the player's turn. -/
theorem Accepts.move {x y sequenceNumber : Nat} {now : Time}
    (accepts : Accepts settings world room player (Client.placeFrame x y sequenceNumber) now) :
    ∃ game, world.engine.find room = some game ∧ game.status = .inProgress ∧
      game.currentPlayerId = some player ∧ game.board.cell x y = 0 := by
  obtain ⟨parsed, messageType, action, data, gameOver, parses, routes, reads, accepted⟩ := accepts
  rw [checkRateLimit_placeFrame] at parses
  cases parses
  simp only [World.goOn, List.mem_cons, reduceCtorEq, Instr.routeMessage.injEq, true_and,
    and_true, List.not_mem_nil, or_false, false_or] at routes
  subst routes
  rw [routeMessage_placeFrame] at reads
  cases List.mem_singleton.mp reads
  rcases world.engine.processAction_cases room player (.str "place")
      (.obj [("x", .int x), ("y", .int y)]) now with
    ⟨-, refused⟩ | ⟨game, result, found, passed, -⟩
  · exact absurd accepted (refused gameOver)
  · obtain ⟨inProgress, current, -, column, -, line, -, position, cellEmpty, -⟩ :=
      ActiveGame.processAction_passed_at passed
    have given : Json.position (.obj [("x", .int x), ("y", .int y)]) =
        .ok ((x : Int), (y : Int)) := by
      simp [Json.position, Json.get, List.lookup_cons, Json.index, bind, Except.bind, pure,
        Except.pure]
    cases given.symm.trans position
    exact ⟨game, found, inProgress, current, cellEmpty⟩

theorem accepts_of_free (found : world.engine.find room = some game)
    (inProgress : game.status = .inProgress) (current : game.currentPlayerId = some player)
    {x y : Nat} (xBound : x < boardSize) (yBound : y < boardSize)
    (free : game.board.cell x y = 0) (sequenceNumber : Nat) (now : Time) :
    Accepts settings world room player (Client.placeFrame x y sequenceNumber) now := by
  obtain ⟨gameOver, accepted⟩ : ∃ gameOver,
      (world.engine.processAction room player (.str "place")
        (.obj [("x", .int x), ("y", .int y)]) now).2 = .accepted gameOver := by
    unfold GameEngine.processAction
    simp only [found, ActiveGame.processAction_place inProgress current xBound yBound free]
    exact ⟨_, rfl⟩
  refine ⟨_, _, _, _, gameOver, checkRateLimit_placeFrame world player x y sequenceNumber,
    List.mem_cons_of_mem _ List.mem_cons_self, ?_, accepted⟩
  rw [routeMessage_placeFrame]
  exact List.mem_singleton_self _

namespace Client

theorem frame_handleAll (client : Client) (messages : List Message) :
    (client.handleAll messages).isOpen = client.isOpen ∧
      (client.handleAll messages).myPlayerId = client.myPlayerId := by
  induction messages generalizing client with
  | nil => exact ⟨rfl, rfl⟩
  | cons message messages ih =>
      obtain ⟨isOpen, player⟩ := ih (client.handleServerMessage message).1
      refine ⟨isOpen.trans ?_, player.trans ?_⟩ <;> cases message <;> rfl

/-- As long as the game is not over the flag of the last update holds. -/
theorem isMyTurn_handleAll (client : Client) (messages : List Message)
    (goesOn : ∀ message ∈ messages, message.gameOverRoom = none) :
    (client.handleAll messages).isMyTurn =
      ((messages.filterMap Message.announcedTurn).getLast?.map
        fun announced => announced.2.2).getD client.isMyTurn := by
  induction messages generalizing client with
  | nil => rfl
  | cons message messages ih =>
      have rest := ih (client.handleServerMessage message).1
        fun other member => goesOn other (List.mem_cons_of_mem _ member)
      rw [show client.handleAll (message :: messages) =
        (client.handleServerMessage message).1.handleAll messages from rfl, rest]
      have continues := goesOn message List.mem_cons_self
      cases message with
      | gameOver => cases continues
      | gameStarted room state yourTurn | gameStateUpdate room state _ yourTurn =>
          simp only [List.filterMap_cons, Message.announcedTurn, List.getLast?_cons]
          cases (messages.filterMap Message.announcedTurn).getLast? <;> rfl
      | _ => rfl

end Client

/-- The turn number tells whether somebody has moved. -/
theorem ActiveGame.Lives.moved (lives : stage.Lives game) :
    stage.turnNumber < game.turnNumber ∨
      stage.turnNumber = game.turnNumber ∧ game.board = stage.board ∧
        game.currentPlayerIdx = stage.currentPlayerIdx := by
  induction lives with
  | refl => exact .inr ⟨rfl, rfl, rfl⟩
  | tail _ step ih =>
      cases step with
      | acted passed =>
          obtain ⟨-, -, -, x, -, y, -, -, rfl⟩ := processAction_passed passed
          left
          rw [finishTurn_frame]
          rcases ih with fewer | ⟨same, -⟩
          · exact Nat.lt_succ_of_lt fewer
          · exact Nat.lt_succ_of_le same.le
      | _ => exact ih

/-- A cell that is taken has the number of one of two players. -/
theorem cell_le_two {redis : Redis} {roomIds : List RoomId}
    {guard : ServerChoice → ServerConfig → Prop}
    (reached : (server settings).Reaches (booted redis roomIds) guard config)
    (stored : config.state.engine.games room = some game) (x y : Nat) :
    game.board.cell x y ≤ 2 := by
  obtain ⟨pair, now, _, distinct, born, -, -⟩ := passed_of_reaches reached stored
  have territorial : ActiveGame.Territorial pair.playerA pair.playerB game :=
    born.invariant (fun _ _ holds step => holds.step distinct step)
      (ActiveGame.create_territorial room distinct pair.playerElos now)
  by_cases within : x < boardSize ∧ y < boardSize
  · obtain ⟨row, present, rowLength⟩ :=
      Board.exists_row territorial.counted.wellFormed within.2
    rw [Board.cell_eq present (rowLength ▸ within.1)]
    exact territorial.counted.owned _ (List.mem_flatten.mpr
      ⟨row, List.mem_of_getElem? present, List.getElem_mem _⟩)
  · have wellFormed : game.board.WellFormed := territorial.counted.wellFormed
    have blank : game.board.picture (x, y) = 0 := Board.picture_outside wellFormed within
    exact blank.le.trans (Nat.zero_le 2)

variable {client : Client}

theorem Client.click_eq_none {x y : Nat} (isOpen : client.isOpen = true) :
    (client.click x y).2 = none ↔
      client.isMyTurn = false ∨ client.grid.cell x y = 1 ∨ client.grid.cell x y = 2 := by
  unfold click
  split
  · rename_i holdsBack
    simpa [or_assoc] using holdsBack
  · rename_i sends
    simpa [isOpen, or_assoc] using sends

theorem Client.click_eq_some {x y : Nat} (isOpen : client.isOpen = true)
    (sends : (client.click x y).2 ≠ none) :
    (client.click x y).2 = some (placeFrame x y client.seqNum) := by
  unfold click at sends ⊢
  split at sends
  · exact absurd rfl sends
  · rename_i free
    rw [if_neg free]
    simp [isOpen]

/-- While the game goes on, an update that is up to date makes the client show it. -/
theorem shown_of_upToDate {redis : Redis} {roomIds : List RoomId}
    {guard : ServerChoice → ServerConfig → Prop}
    (reached : (server settings).Reaches (booted redis roomIds) guard config)
    (follows : Follows config.state room client.myPlayerId messages)
    (authentic : ∀ message other state,
      (client.myPlayerId, message) ∈
          config.state.journal.sent ++ config.state.journal.published →
        message.shows = some (other, state) →
        Authentic config.state client.myPlayerId message other state)
    (stored : config.state.engine.games room = some game)
    (shows : ShowsGame game messages client (client.handleAll messages))
    (inProgress : game.status = .inProgress) (upToDate : UpToDate game messages) :
    (client.handleAll messages).grid = game.board ∧
      ((client.handleAll messages).isMyTurn = true ↔
        game.currentPlayerId = some client.myPlayerId) := by
  obtain ⟨other, state, yourTurn, last, turns⟩ := upToDate
  obtain ⟨message, handed, announced⟩ := List.mem_filterMap.mp (List.mem_of_getLast? last)
  have displays := Message.shows_of_announcedTurn announced
  obtain ⟨rfl, issued⟩ := follows.issued message handed other state displays
  have told := authentic message other state issued displays
  obtain ⟨stage, passed, rfl⟩ := told.passed
  obtain ⟨-, sameBoard, sameIdx⟩ := (passed.lives stored).moved.resolve_left turns.not_lt
  constructor
  · rw [sameBoard]
    refine shows.latest stage.toClientState
      (mem_arenaStates.mpr ⟨message, handed, other, yourTurn, announced⟩) ?_
    intro earlier member
    obtain ⟨-, early, earlyPassed, rfl⟩ := follows.passed authentic member
    rw [turns]
    rcases (earlyPassed.lives stored).moved with fewer | ⟨same, -⟩
    · exact fewer.le
    · exact same.le
  · have goesOn : ∀ message ∈ messages, message.gameOverRoom = none := by
      intro message handed
      cases message with
      | gameOver ended winner result settled final =>
          obtain ⟨rfl, issued⟩ := follows.issued _ handed ended final rfl
          obtain ⟨-, known, ⟨_, same, finished, -⟩, -⟩ :=
            (resultsFinal_of_reaches reached).issued _ _ _ _ _ _ (issued_of_mem issued)
          cases stored.symm.trans same
          rw [inProgress] at finished
          cases finished
      | _ => rfl
    rw [client.isMyTurn_handleAll messages goesOn, last]
    have current : game.currentPlayerId = stage.toClientState.currentPlayerId := by
      unfold ActiveGame.currentPlayerId
      rw [sameIdx, (passed.lives stored).playerIds]
      rfl
    rw [current]
    exact told.turn yourTurn announced

/-- Main result: whatever a client has received, no colour of a cell holds back a move,
and while the client is up to date it makes exactly the moves the engine accepts. -/
theorem clicksAreMoves (settings : Settings) (redis : Redis) (roomIds : List RoomId)
    (taken : ∀ player room,
      SessionManager.storedRoom (redis.sessions player) = some room → room ∈ roomIds) :
    ClicksAreMoves settings (booted redis roomIds) ReconnectsPlayers := by
  intro config reached room messages client isOpen follows
  have authentic message other state
      (issued : (client.myPlayerId, message) ∈
        config.state.journal.sent ++ config.state.journal.published)
      (shows : message.shows = some (other, state)) :
      Authentic config.state client.myPlayerId message other state :=
    authentic_of_reaches taken reached (issued_of_mem issued) shows
  obtain ⟨game, stored, shows⟩ :=
    showsGame_of_follows follows fun state member => follows.passed authentic member
  obtain ⟨open', player⟩ := client.frame_handleAll messages
  rw [isOpen] at open'
  refine ⟨game, stored, ?_, ?_⟩
  · intro x y myTurn holdsBack sequenceNumber now accepts
    obtain ⟨_, found, -, -, free⟩ := accepts.move
    cases stored.symm.trans (GameEngine.find_eq_some.mp found).2
    have coloured : (client.handleAll messages).grid.cell x y ≠ 0 := by
      rcases (Client.click_eq_none open').mp holdsBack with notMine | one | two
      · rw [myTurn] at notMine
        cases notMine
      · omega
      · omega
    have kept : game.board.cell x y = (client.handleAll messages).grid.cell x y :=
      shows.owned (x, y) coloured
    exact coloured (kept.symm.trans free)
  · intro inProgress upToDate x xBound y yBound now
    obtain ⟨grid, myTurn⟩ :=
      shown_of_upToDate reached follows authentic stored shows inProgress upToDate
    by_cases sends : (client.handleAll messages).isMyTurn = true ∧ game.board.cell x y = 0
    · left
      refine ⟨Client.click_eq_some open' ?_, ?_⟩
      · intro holdsBack
        rw [Client.click_eq_none open', grid, sends.1, sends.2] at holdsBack
        simp at holdsBack
      · have live : room ∈ config.state.engine.live := by
          by_contra gone
          have finished := (gamesSound_of_reaches reached).closed.gone room game stored gone
          rw [inProgress] at finished
          cases finished
        rw [player]
        exact accepts_of_free (GameEngine.find_eq_some.mpr ⟨live, stored⟩) inProgress
          (myTurn.mp sends.1) xBound yBound sends.2 _ now
    · right
      refine ⟨(Client.click_eq_none open').mpr ?_, ?_⟩
      · have bound := cell_le_two reached stored x y
        rw [grid]
        by_cases mine : (client.handleAll messages).isMyTurn = true
        · have taken : game.board.cell x y ≠ 0 := fun free => sends ⟨mine, free⟩
          exact .inr (by omega)
        · exact .inl (Bool.eq_false_iff.mpr mine)
      · intro sequenceNumber accepts
        obtain ⟨_, found, -, current, free⟩ := accepts.move
        cases stored.symm.trans (GameEngine.find_eq_some.mp found).2
        rw [player] at current
        exact sends ⟨myTurn.mpr current, free⟩

theorem clicksAreMoves_ada : ∃ config messages game,
    (server { instanceId := "inst-1" }).Reaches (booted waitingRookies []) ReconnectsPlayers
        config ∧
      Follows config.state "room-1" "ada" messages ∧
      (({ myPlayerId := "ada" } : Client).handleAll messages).isMyTurn = true ∧
      ((({ myPlayerId := "ada" } : Client).handleAll messages).click 5 5).2.isNone = true ∧
      ClicksAgree { instanceId := "inst-1" } config.state "room-1" game messages
        (({ myPlayerId := "ada" } : Client).handleAll messages) := by
  obtain ⟨config, messages, reached, follows, -, myTurn, heldBack⟩ := exists_follows_ada
  obtain ⟨game, -, agrees⟩ := clicksAreMoves _ waitingRookies []
    (fun player room names => by cases names) config reached "room-1" messages
    { myPlayerId := "ada" } rfl follows
  exact ⟨config, messages, game, reached, follows, myTurn, heldBack, agrees⟩

end TerritoryBackend

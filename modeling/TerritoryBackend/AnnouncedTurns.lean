import TerritoryBackend.Announcements

/-!
# Announced and enforced turns

Three messages tell a player whether it is his turn.  They go by the index of the
current player, while `process_action` checks the status of the game first.  So
they agree as long as the game that is shown is in progress, and a player whose
turn a paused or finished game stopped at is told to move in vain.
-/

namespace TerritoryBackend

open EventLoop

namespace ActiveGame

/-- The checks `process_action` makes of the status and of the turn. -/
def checkTurn (game : ActiveGame) (player : PlayerId) : Except PythonError (Checked Unit) :=
  if game.status ≠ .inProgress then
    pure (.refused ⟨"GAME_NOT_ACTIVE", .text "Game is not active"⟩)
  else
    match game.currentPlayerId with
    | none => throw .indexError
    | some current =>
        if player ≠ current then
          pure (.refused ⟨"NOT_YOUR_TURN", .text "It's not your turn"⟩)
        else pure (.passed ())

/-- What `process_action` does once these checks are passed. -/
def performAction (game : ActiveGame) (player : PlayerId) (action data : Json) (now : Time) :
    Except PythonError (Checked (ActiveGame × Bool)) :=
  if !action.isString "place" then
    pure (.refused ⟨"UNKNOWN_ACTION", .unknownAction action⟩)
  else do
    match ← game.applyPlaceAction player data with
    | .refused error => pure (.refused error)
    | .passed placed => pure (.passed (placed.recordAction player action data now).finishTurn)

theorem processAction_eq_checkTurn (game : ActiveGame) (player : PlayerId) (action data : Json)
    (now : Time) :
    game.processAction player action data now =
      game.checkTurn player >>= fun
        | .refused error => pure (.refused error)
        | .passed () => game.performAction player action data now := by
  unfold processAction checkTurn
  by_cases inProgress : game.status = .inProgress
  · rw [if_neg (not_not.mpr inProgress), if_neg (not_not.mpr inProgress)]
    cases game.currentPlayerId with
    | none => rfl
    | some current =>
        by_cases same : player = current
        · simp only [same, ne_eq, not_true_eq_false, if_false]
          rfl
        · simp only [ne_eq, same, not_false_eq_true, if_true]
          rfl
  · rw [if_pos inProgress, if_pos inProgress]
    rfl

theorem checkTurn_passed_iff (game : ActiveGame) (player : PlayerId) :
    game.checkTurn player = .ok (.passed ()) ↔
      game.status = .inProgress ∧ game.currentPlayerId = some player := by
  unfold checkTurn
  split
  · rename_i stopped
    simp [stopped, pure, Except.pure]
  rename_i inProgress
  rw [not_not] at inProgress
  split
  · rename_i nobody
    simp [nobody, throw, throwThe, MonadExceptOf.throw]
  · rename_i current isCurrent
    split
    · rename_i different
      simp [isCurrent, Ne.symm different, pure, Except.pure]
    · rename_i same
      simp [isCurrent, inProgress, not_not.mp same, pure, Except.pure]

end ActiveGame

/-- The game a message shows and the flag `your_turn` beside it. -/
def Message.announcedTurn : Message → Option (RoomId × ClientState × Bool)
  | .gameStarted room state yourTurn | .gameStateUpdate room state _ yourTurn _ _ =>
      some (room, state, yourTurn)
  | _ => none

def Instr.toSend : Instr → Option (PlayerId × Message)
  | .sendPersonal player message _ => some (player, message)
  | _ => none

/-- The messages a step leaves to be sent. -/
def builtMessages (settings : Settings) (choice : ServerChoice) (config : ServerConfig) :
    List (PlayerId × Message) :=
  match choice, config.executed choice with
  | .resume _ answer, some instruction =>
      ((instruction.block settings answer config.state).map fun block =>
        block.next.filterMap Instr.toSend).getD []
  | _, _ => []

/-- Whenever a message tells a player whether it is his turn, `process_action`
called for him in the state the message shows would go by the same. -/
def TurnsEnforced (settings : Settings) (start : ServerConfig)
    (guard : ServerChoice → ServerConfig → Prop) : Prop :=
  ∀ choice before after, (server settings).Reaches start guard before → guard choice before →
    (server settings).step choice before = some after →
    ∀ player message room state yourTurn, (player, message) ∈ builtMessages settings choice before →
      message.announcedTurn = some (room, state, yourTurn) →
      ∃ game, after.state.engine.games room = some game ∧ game.toClientState = state ∧
        (yourTurn = true ↔ game.checkTurn player = .ok (.passed ()))

/-- The game goes on, or it has not stopped at the turn of the player. -/
def ActiveGame.OpenTo (game : ActiveGame) (player : PlayerId) : Prop :=
  game.status = .inProgress ∨ game.currentPlayerId ≠ some player

/-- The game a message is about to show is open to the player who receives it; a
reconnection first lets the game go on if nobody else is absent. -/
def Instr.ShowsOpenGame (world : World) : Instr → Prop
  | .sendGameStarted room player _ | .sendStateUpdate room player _ _ =>
      ∀ game, world.engine.games room = some game → game.OpenTo player
  | .handlePlayerReconnect room player =>
      ∀ game, world.engine.find room = some game →
        game.status = .paused ∧ game.disconnectedPlayers ⊆ {player} ∨ game.OpenTo player
  | _ => True

def ShowsOpenGames (choice : ServerChoice) (config : ServerConfig) : Prop :=
  ∀ instruction, config.executed choice = some instruction →
    instruction.ShowsOpenGame config.state

variable {settings : Settings} {choice : ServerChoice} {before after : ServerConfig}
  {room : RoomId} {player : PlayerId} {game next : ActiveGame}

theorem ActiveGame.Step.playerIds (step : game.Step next) : next.playerIds = game.playerIds := by
  cases step with
  | acted passed => exact (processAction_frame passed).2.1
  | paused | forfeited | resumed => rfl

theorem ActiveGame.openTo_handlePlayerReconnect (game : ActiveGame) (player : PlayerId) :
    (game.handlePlayerReconnect player).OpenTo player ↔
      game.status = .paused ∧ game.disconnectedPlayers ⊆ {player} ∨ game.OpenTo player := by
  have nobodyElse : game.disconnectedPlayers.erase player = ∅ ↔
      game.disconnectedPlayers ⊆ {player} := by
    rw [Finset.erase_eq_empty_iff, Finset.subset_singleton_iff]
  have current : (game.handlePlayerReconnect player).currentPlayerId = game.currentPlayerId := rfl
  unfold OpenTo
  rw [current]
  unfold handlePlayerReconnect
  by_cases resumes : game.status = .paused ∧ game.disconnectedPlayers.erase player = ∅
  · simp [resumes, nobodyElse.mp resumes.2]
  · rw [← nobodyElse]
    simp [resumes]

/-- The messages of `create_game` go to the players in their order. -/
def StartsInOrder (config : ServerConfig) : Prop :=
  ∀ room player position, .sendGameStarted room player position ∈ config.pending →
    ∃ game, config.state.engine.games room = some game ∧ game.playerIds[position]? = some player

theorem StartsInOrder.step (inOrder : StartsInOrder before) (registered : Registered before)
    (step : (server settings).step choice before = some after) : StartsInOrder after := by
  intro room player position pending
  rcases announced_of_step step pending with
    old | isPlain | ⟨-, instruction, answer, block, -, -, effect, state, announces⟩
  · obtain ⟨game, stored, plays⟩ := inOrder room player position old
    obtain ⟨next, storedNext, rfl | steps⟩ := game_after_step registered step stored
    · exact ⟨next, storedNext, plays⟩
    · exact ⟨next, storedNext, by rw [steps.playerIds, plays]⟩
  · cases isPlain
  · rw [state]
    cases announces with
    | plain _ isPlain => cases isPlain
    | @starting _ pair _ _ plays =>
        cases effect
        exact ⟨_, by simp [World.createGame, GameEngine.createMatchedGame]; rfl, plays⟩
    | @handingOn _ _ _ _ afterSend sender sent goesOn =>
        cases afterSend <;> simp [AfterSend.next] at goesOn

theorem startsInOrder_of_reaches {redis : Redis} {roomIds : List RoomId}
    {guard : ServerChoice → ServerConfig → Prop} {config : ServerConfig}
    (reached : (server settings).Reaches (booted redis roomIds) guard config) :
    StartsInOrder config := by
  induction reached with
  | start => simp [StartsInOrder, booted, Config.pending]
  | step reached _ step ih => exact ih.step (registered_of_reaches reached) step

theorem mem_builtMessages {message : Message}
    (step : (server settings).step choice before = some after)
    (built : (player, message) ∈ builtMessages settings choice before) :
    ∃ instruction answer block afterSend, before.executed choice = some instruction ∧
      instruction.block settings answer before.state = some block ∧
      after.state = block.state ∧ .sendPersonal player message afterSend ∈ block.next := by
  cases Machine.step_cases step with
  | @resumed task answer instruction rest block running current effect =>
      have effect : instruction.block settings answer before.state = some block := effect
      simp only [builtMessages, Config.executed_of_current current, effect, Option.map_some,
        Option.getD_some, List.mem_filterMap] at built
      obtain ⟨next, member, sends⟩ := built
      cases next with
      | sendPersonal recipient content afterSend =>
          cases sends
          exact ⟨_, answer, block, afterSend, Config.executed_of_current current, effect, rfl,
            member⟩
      | _ => cases sends
  | failed current fallible => simp [builtMessages] at built
  | happened effect => simp [builtMessages] at built

theorem builtMessages_of_block {task : Nat} {answer : Answer} {instruction : Instr}
    {block : Block World Instr} {message : Message} {afterSend : AfterSend}
    (executed : before.executed (.resume task answer : ServerChoice) = some instruction)
    (effect : instruction.block settings answer before.state = some block)
    (member : .sendPersonal player message afterSend ∈ block.next) :
    (player, message) ∈ builtMessages settings (.resume task answer) before := by
  simp only [builtMessages, executed, effect, Option.map_some, Option.getD_some,
    List.mem_filterMap]
  exact ⟨_, member, rfl⟩

theorem exists_block_of_resumed {task : Nat} {answer : Answer} {instruction : Instr}
    (step : (server settings).step (.resume task answer) before = some after)
    (executed : before.executed (.resume task answer : ServerChoice) = some instruction) :
    ∃ block, instruction.block settings answer before.state = some block := by
  cases Machine.step_cases step with
  | resumed current effect =>
      cases executed.symm.trans (Config.executed_of_current current)
      exact ⟨_, effect⟩

/-- A message tells a player that it is his turn if the index says so. -/
theorem announcedTurn_by_index (inOrder : StartsInOrder before) (registered : Registered before)
    (step : (server settings).step choice before = some after) {message : Message}
    {state : ClientState} {yourTurn : Bool}
    (built : (player, message) ∈ builtMessages settings choice before)
    (announced : message.announcedTurn = some (room, state, yourTurn)) :
    ∃ game, after.state.engine.games room = some game ∧ game.toClientState = state ∧
      (yourTurn = true ↔ game.currentPlayerId = some player) ∧
      (ShowsOpenGames choice before ↔ game.OpenTo player) := by
  obtain ⟨instruction, answer, block, afterSend, executed, effect, changed, member⟩ :=
    mem_builtMessages step built
  have opens : ShowsOpenGames choice before ↔ instruction.ShowsOpenGame before.state :=
    ⟨fun opens => opens instruction executed, fun opens other same => by
      rw [executed] at same
      exact Option.some.inj same ▸ opens⟩
  rw [opens, changed]
  cases Instr.block_announces effect (.inl member) with
  | plain _ isPlain =>
      simp only [Instr.plain, Bool.and_eq_true] at isPlain
      cases message <;> simp [Message.plain, Message.announcedTurn] at isPlain announced
  | offering tossed =>
      unfold MatchedPair.matchFound at announced
      split at announced <;> cases announced
  | @handingOn _ _ _ _ later sender sent goesOn =>
      cases later <;> simp [AfterSend.next] at goesOn
      obtain ⟨rfl, rfl, rfl⟩ := goesOn
      unfold MatchedPair.matchFound at announced
      split at announced <;> cases announced
  | @started shown _ position game stored =>
      cases announced
      cases effect
      obtain ⟨known, same, plays⟩ := inOrder _ _ _ (Config.mem_pending_of_executed executed)
      cases stored.symm.trans same
      refine ⟨game, by simp [World.sendGameStarted, World.withGame, stored], rfl, ?_,
        by simp [Instr.ShowsOpenGame, stored]⟩
      -- No player is at two positions.
      obtain ⟨bound, -⟩ := List.getElem?_eq_some_iff.mp plays
      rw [decide_eq_true_iff, ← List.getElem?_inj bound (registered.playerIds_nodup stored), plays]
      exact eq_comm
  | @updated shown _ current action data game stored isCurrent =>
      cases announced
      cases World.sendStateUpdate_eq_some effect
      refine ⟨game, by simp [World.withGame, stored], rfl, ?_,
        by simp [Instr.ShowsOpenGame, stored]⟩
      rw [decide_eq_true_iff, isCurrent, Option.some.injEq, eq_comm]
  | @resumed shown _ current game found isCurrent =>
      cases announced
      cases effect
      refine ⟨game.handlePlayerReconnect player, ?_, rfl, ?_, ?_⟩
      · simp [World.handlePlayerReconnect, GameEngine.handlePlayerReconnect, found]
      · rw [decide_eq_true_iff, eq_comm]
        exact isCurrent ▸ Option.some_inj.symm
      · simp [Instr.ShowsOpenGame, found, ActiveGame.openTo_handlePlayerReconnect]

/-- The announced turn is the enforced one exactly if the game is open to the
player who is told. -/
theorem turn_enforced_iff (game : ActiveGame) {yourTurn : Bool}
    (byIndex : yourTurn = true ↔ game.currentPlayerId = some player) :
    (yourTurn = true ↔ game.checkTurn player = .ok (.passed ())) ↔ game.OpenTo player := by
  rw [byIndex, game.checkTurn_passed_iff, ActiveGame.OpenTo]
  tauto

/-- A player at whose turn a game has stopped is told about his turn. -/
theorem exists_announced_of_closed
    (step : (server settings).step choice before = some after)
    (closed : ¬ ShowsOpenGames choice before) :
    ∃ player message room state yourTurn,
      (player, message) ∈ builtMessages settings choice before ∧
      message.announcedTurn = some (room, state, yourTurn) := by
  simp only [ShowsOpenGames, not_forall] at closed
  obtain ⟨instruction, executed, closed⟩ := closed
  cases choice with
  | fail task => cases executed
  | event event => cases executed
  | resume task answer =>
      cases instruction with
      | sendGameStarted room player position =>
          simp only [Instr.ShowsOpenGame, ActiveGame.OpenTo, not_forall, not_or, not_not] at closed
          obtain ⟨game, stored, -, isCurrent⟩ := closed
          have member : Instr.sendPersonal player
              (.gameStarted room game.toClientState (decide (position = game.currentPlayerIdx)))
              .publish ∈ (before.state.sendGameStarted room player position).next := by
            simp [World.sendGameStarted, World.withGame, World.showing, stored, isCurrent]
          exact ⟨_, _, _, _, _, builtMessages_of_block executed rfl member, rfl⟩
      | sendStateUpdate room player action data =>
          simp only [Instr.ShowsOpenGame, ActiveGame.OpenTo, not_forall, not_or, not_not] at closed
          obtain ⟨game, stored, -, isCurrent⟩ := closed
          obtain ⟨block, effect⟩ := exists_block_of_resumed step executed
          have member : Instr.sendPersonal player
              (.gameStateUpdate room game.toClientState (some (action, data)) true
                game.turnNumber before.state.clock) .publish ∈ block.next := by
            cases World.sendStateUpdate_eq_some effect
            simp [World.withGame, World.showing, stored, isCurrent]
          exact ⟨_, _, _, _, _, builtMessages_of_block executed effect member, rfl⟩
      | handlePlayerReconnect room player =>
          simp only [Instr.ShowsOpenGame, ActiveGame.OpenTo, not_forall, not_or, not_not] at closed
          obtain ⟨game, found, -, -, isCurrent⟩ := closed
          have current : (game.handlePlayerReconnect player).currentPlayerId = some player :=
            isCurrent
          have member : Instr.sendPersonal player
              (.gameStateUpdate room (game.handlePlayerReconnect player).toClientState none true
                (game.handlePlayerReconnect player).turnNumber before.state.clock) .ignore ∈
              (before.state.handlePlayerReconnect room player).next := by
            simp [World.handlePlayerReconnect, GameEngine.handlePlayerReconnect, World.showing,
              found, current]
          exact ⟨_, _, _, _, _, builtMessages_of_block executed rfl member, rfl⟩
      | _ => exact absurd trivial closed

/-- Main result: announced turns are enforced in all runs of a kind exactly if games
are shown only to players they are open to. -/
theorem turnsEnforced_iff_showsOpenGames (settings : Settings) (redis : Redis)
    (roomIds : List RoomId) (guard : ServerChoice → ServerConfig → Prop) :
    TurnsEnforced settings (booted redis roomIds) guard ↔
      ∀ choice before after, (server settings).Reaches (booted redis roomIds) guard before →
        guard choice before → (server settings).step choice before = some after →
        ShowsOpenGames choice before := by
  constructor
  · intro enforced choice before after reached allowed step
    by_contra closed
    obtain ⟨player, message, room, state, yourTurn, built, announced⟩ :=
      exists_announced_of_closed step closed
    obtain ⟨game, stored, -, byIndex, opens⟩ := announcedTurn_by_index
      (startsInOrder_of_reaches reached) (registered_of_reaches reached) step built announced
    obtain ⟨shown, storedShown, -, agrees⟩ :=
      enforced choice before after reached allowed step player message room state yourTurn built
        announced
    cases stored.symm.trans storedShown
    exact closed (opens.mpr ((turn_enforced_iff game byIndex).mp agrees))
  · intro opensAll choice before after reached allowed step player message room state yourTurn
      built announced
    obtain ⟨game, stored, shows, byIndex, opens⟩ := announcedTurn_by_index
      (startsInOrder_of_reaches reached) (registered_of_reaches reached) step built announced
    exact ⟨game, stored, shows, (turn_enforced_iff game byIndex).mpr
      (opens.mp (opensAll choice before after reached allowed step))⟩

/-- Both players of a game that has just begun drop out, the second one first, and
the first one is about to come back. -/
def backAlone : List ServerChoice :=
  formMatch "room-1" 19 ++
    .event (.callHandlePlayerDisconnect "room-1" "bob") :: proceed 2 3 ++
    .event (.callHandlePlayerDisconnect "room-1" "ada") :: proceed 4 1 ++
    [.event (.callHandlePlayerReconnect "room-1" "ada")]

/-- A message that calls on a player to move in a paused game. -/
def Message.callsInPause (message : Message) : Bool :=
  message.announcedTurn.any fun announced =>
    announced.2.2 && decide (announced.2.1.status = .paused)

/-- The returning player is told to move while the game waits for the other one. -/
theorem backAlone_not_enforced :
    ¬ TurnsEnforced { instanceId := "inst-1" } (booted waitingRookies []) unguarded := by
  intro enforced
  have called : ((server { instanceId := "inst-1" }).run backAlone
      (booted waitingRookies [])).any (fun config =>
        ((server { instanceId := "inst-1" }).step (.resume 5 .done) config).isSome &&
          (builtMessages { instanceId := "inst-1" } (.resume 5 .done) config).any
            fun entry => entry.2.callsInPause) = true := by
    decide +kernel
  obtain ⟨config, executed, called⟩ := Option.any_eq_true _ _ |>.mp called
  obtain ⟨steps, called⟩ := Bool.and_eq_true_iff.mp called
  obtain ⟨after, step⟩ := Option.isSome_iff_exists.mp steps
  obtain ⟨⟨player, message⟩, built, calls⟩ := List.any_eq_true.mp called
  obtain ⟨⟨room, state, yourTurn⟩, announced, calls⟩ := Option.any_eq_true _ _ |>.mp calls
  obtain ⟨isTurn, paused⟩ := Bool.and_eq_true_iff.mp calls
  obtain ⟨game, -, rfl, agrees⟩ := enforced _ config after
    (Machine.reaches_of_run .start executed) trivial step player message room _ yourTurn built
    announced
  have inProgress : game.status = .inProgress :=
    ((game.checkTurn_passed_iff player).mp (agrees.mp isTurn)).1
  have paused : game.status = .paused := of_decide_eq_true paused
  rw [inProgress] at paused
  cases paused

end TerritoryBackend

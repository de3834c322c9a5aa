import TerritoryBackend.MessageOrigins
import TerritoryBackend.SingleCompletion

/-!
# Messages tell the truth

A message that shows a game shows a stage this game really has passed, from its
registration on; it goes to one of the two players only, and its flag `your_turn`
says whether the shown turn is the recipient's.
-/

namespace TerritoryBackend

open EventLoop

/-- What a player may conclude about the game from a message that shows it. -/
structure Authentic (world : World) (player : PlayerId) (message : Message) (room : RoomId)
    (state : ClientState) : Prop where
  passed : ∃ stage, Passed world room stage ∧ stage.toClientState = state
  recipient : player ∈ state.playerIds
  turn : ∀ yourTurn, message.announcedTurn = some (room, state, yourTurn) →
    (yourTurn = true ↔ state.currentPlayerId = some player)

/-- Announcements of a game are prepared for its players. -/
def Instr.Addressed (world : World) : Instr → Prop
  | .sendGameStarted room player position =>
      ∃ game, world.engine.games room = some game ∧ game.playerIds[position]? = some player
  | .sendStateUpdate room player _ _ | .sendGameOver room player _ =>
      ∃ game, world.engine.games room = some game ∧ player ∈ game.playerIds
  | _ => True

variable {settings : Settings} {choice : ServerChoice} {before after : ServerConfig}
  {room : RoomId} {player : PlayerId} {message : Message} {state : ClientState}
  {game stage : ActiveGame}

theorem Instr.Addressed.step {instruction : Instr} (addressed : instruction.Addressed before.state)
    (registered : Registered before)
    (step : (server settings).step choice before = some after) :
    instruction.Addressed after.state := by
  have kept {room : RoomId} {game : ActiveGame}
      (stored : before.state.engine.games room = some game) :
      ∃ next, after.state.engine.games room = some next ∧ next.playerIds = game.playerIds := by
    obtain ⟨next, storedNext, rfl | steps⟩ := game_after_step registered step stored
    · exact ⟨next, storedNext, rfl⟩
    · exact ⟨next, storedNext, steps.playerIds⟩
  unfold Instr.Addressed at addressed ⊢
  split
  · obtain ⟨game, stored, position⟩ := addressed
    obtain ⟨next, storedNext, same⟩ := kept stored
    exact ⟨next, storedNext, same ▸ position⟩
  · obtain ⟨game, stored, plays⟩ := addressed
    obtain ⟨next, storedNext, same⟩ := kept stored
    exact ⟨next, storedNext, same ▸ plays⟩
  · obtain ⟨game, stored, plays⟩ := addressed
    obtain ⟨next, storedNext, same⟩ := kept stored
    exact ⟨next, storedNext, same ▸ plays⟩
  · trivial

theorem Instr.addressed_of_goesOn {later : AfterSend} {sender : PlayerId} {handed : Message}
    {sent : Bool} {next : Instr} (goesOn : next ∈ later.next sender handed sent)
    (world : World) : next.Addressed world := by
  have carries : next.carries ≠ none := by
    rcases AfterSend.next_cases goesOn with carries | ⟨_, _, _, _, carries⟩ <;> simp [carries]
  unfold Instr.Addressed
  split
  · exact absurd rfl carries
  · exact absurd rfl carries
  · exact absurd rfl carries
  · trivial

theorem addressed_of_block {instruction next : Instr} {answer : Answer} {world : World}
    {block : Block World Instr} (effect : instruction.block settings answer world = some block)
    (member : next ∈ block.next ∨ next ∈ block.spawned.flatten) :
    next.Addressed block.state := by
  cases Instr.block_leaves effect member with
  | @starting _ pair _ position plays =>
      cases effect
      exact ⟨_, by simp [World.createGame, GameEngine.createMatchedGame]; rfl, plays⟩
  | @updating acted actor action data recipient =>
      cases effect
      rcases world.processAction_cases settings acted actor action data with
        ⟨error, refused⟩ | raised | ⟨game, result, found, passed, accepted⟩
      · simp [refused, sendError] at member
      · simp [raised] at member
      · simp only [accepted, World.goOn_next, World.goOn_spawned, List.flatten_nil,
          List.not_mem_nil, or_false, List.mem_append, List.mem_map] at member
        rw [accepted]
        rcases member with ⟨_, plays, same⟩ | closing
        · cases same
          exact ⟨result.1, by simp, plays⟩
        · split at closing <;> simp at closing
  | @announcing closing recipient settled =>
      cases effect
      rcases handleGameOver_cases world closing with
        nothing | ⟨game, stored, -, spawned, goesOn, journal⟩
      · simp [nothing] at member
      · simp only [goesOn, spawned, List.flatten_nil, List.not_mem_nil, or_false,
          List.mem_append, List.mem_map, List.mem_cons] at member
        rcases member with ⟨_, plays, same⟩ | other | other | other
        · cases same
          refine ⟨settled, ?_, plays⟩
          simp [World.handleGameOver, World.withGame, stored]
        · cases other
        · cases other
        · cases other
  | unsendable goesOn => exact Instr.addressed_of_goesOn goesOn _
  | handingOn sent goesOn => exact Instr.addressed_of_goesOn goesOn _
  | _ => trivial

theorem addressed_of_reaches {redis : Redis} {roomIds : List RoomId}
    {guard : ServerChoice → ServerConfig → Prop} {config : ServerConfig}
    (reached : (server settings).Reaches (booted redis roomIds) guard config) :
    ∀ instruction ∈ config.pending, instruction.Addressed config.state := by
  induction reached with
  | start =>
      intro instruction pending
      rcases List.mem_pair.mp pending with rfl | rfl <;> trivial
  | step reached allowed step ih =>
      intro instruction pending
      rcases Machine.left_of_step step pending with
        member | ⟨_, _, _, -, effect, state, member⟩ | ⟨task, -, member⟩ |
          ⟨event, _, _, -, effect, member⟩
      · exact (ih instruction member).step (registered_of_reaches reached) step
      · exact state ▸ addressed_of_block effect member
      · rcases Instr.unwind_cases member with
          ⟨_, _, -, rfl⟩ | ⟨loop, seconds, -, rfl | rfl, rfl | rfl⟩ <;> trivial
      · cases ServerEvent.happens effect <;> simp at member <;> subst member <;> trivial

theorem Authentic.step (authentic : Authentic before.state player message room state)
    (registered : Registered before)
    (step : (server settings).step choice before = some after) :
    Authentic after.state player message room state := by
  obtain ⟨stage, passed, shown⟩ := authentic.passed
  exact { authentic with passed := ⟨stage, passed.step registered step, shown⟩ }

/-- A message that shows the registered game of a room to one of its players. -/
theorem authentic_of_stored {redis : Redis} {roomIds : List RoomId}
    {guard : ServerChoice → ServerConfig → Prop} {config : ServerConfig}
    (reached : (server settings).Reaches (booted redis roomIds) guard config)
    (stored : config.state.engine.games room = some game) (plays : player ∈ game.playerIds)
    (turn : ∀ yourTurn, message.announcedTurn = some (room, game.toClientState, yourTurn) →
      (yourTurn = true ↔ game.currentPlayerId = some player)) :
    Authentic config.state player message room game.toClientState :=
  ⟨⟨game, passed_of_reaches reached stored, rfl⟩, plays, turn⟩

/-- The flag that goes by the position of a player. -/
theorem position_iff_current (nodup : game.playerIds.Nodup) {position : Nat}
    (plays : game.playerIds[position]? = some player) :
    position = game.currentPlayerIdx ↔ game.currentPlayerId = some player := by
  unfold ActiveGame.currentPlayerId
  refine ⟨fun same => same ▸ plays, ?_⟩
  intro current
  obtain ⟨bound, there⟩ := List.getElem?_eq_some_iff.mp plays
  obtain ⟨otherBound, otherThere⟩ := List.getElem?_eq_some_iff.mp current
  exact nodup.getElem_inj_iff.mp (there.trans otherThere.symm)

theorem authentic_of_builds {redis : Redis} {roomIds : List RoomId}
    {guard : ServerChoice → ServerConfig → Prop}
    (reached : (server settings).Reaches (booted redis roomIds) guard before)
    (own : NamesOwnRooms before) (allowed : guard choice before)
    (step : (server settings).step choice before = some after) {instruction : Instr}
    (executed : before.executed choice = some instruction)
    (built : instruction.Builds before.state player message)
    (shows : message.shows = some (room, state)) :
    Authentic after.state player message room state := by
  have registered := registered_of_reaches reached
  have pending := Config.mem_pending_of_executed executed
  have addressed := addressed_of_reaches reached instruction pending
  cases built with
  | notice _ _ isNotice =>
      cases message with
      | gameStarted | gameStateUpdate | gameOver => cases isNotice
      | _ => cases shows
  | offered =>
      unfold MatchedPair.matchFound at shows
      split at shows <;> cases shows
  | started stored =>
      cases shows
      obtain ⟨_, same, position⟩ := addressed
      cases stored.symm.trans same
      refine (authentic_of_stored reached stored (List.mem_of_getElem? position) ?_).step registered
        step
      intro yourTurn announced
      cases announced
      rw [decide_eq_true_iff]
      exact position_iff_current (registered.playerIds_nodup stored) position
  | updated stored isCurrent =>
      cases shows
      obtain ⟨_, same, plays⟩ := addressed
      cases stored.symm.trans same
      refine (authentic_of_stored reached stored plays ?_).step registered step
      intro yourTurn announced
      cases announced
      simp [isCurrent, eq_comm]
  | ended stored =>
      cases shows
      obtain ⟨_, same, plays⟩ := addressed
      cases stored.symm.trans same
      exact (authentic_of_stored reached stored plays fun yourTurn announced => by
        cases announced).step registered step
  | @resumed _ _ current game found isCurrent =>
      cases shows
      obtain ⟨live, stored⟩ := GameEngine.find_eq_some.mp found
      obtain ⟨_, block, effect, same⟩ := Machine.block_of_executed step executed
      cases effect
      have storedNext : after.state.engine.games room =
          some (game.handlePlayerReconnect player) := by
        rw [same]
        simp [World.handlePlayerReconnect, GameEngine.handlePlayerReconnect, found]
      refine authentic_of_stored (reached.step allowed step) storedNext
        ((own.pending _ pending player room rfl).plays game stored) ?_
      intro yourTurn announced
      cases announced
      have unmoved : (game.handlePlayerReconnect player).currentPlayerId = some current :=
        isCurrent
      simp [unmoved, eq_comm]

/-- Whatever has been issued and shows a game is authentic. -/
theorem authentic_of_reaches {redis : Redis} {roomIds : List RoomId}
    (taken : ∀ player room,
      SessionManager.storedRoom (redis.sessions player) = some room → room ∈ roomIds)
    {config : ServerConfig}
    (reached : (server settings).Reaches (booted redis roomIds) ReconnectsPlayers config)
    (issued : Issued config player message) (shows : message.shows = some (room, state)) :
    Authentic config.state player message room state := by
  induction reached generalizing player message room state with
  | start =>
      cases issued with
      | sent member => cases member
      | published member => cases member
      | carried instruction pending carries =>
          rcases List.mem_pair.mp pending with rfl | rfl <;> cases carries
  | step reached allowed step ih =>
      rcases issued_of_step step issued with old | ⟨instruction, executed, built⟩
      · exact (ih old shows).step (registered_of_reaches reached) step
      · exact authentic_of_builds reached
          (namesOwnRooms_of_reaches (fun _ _ calls => calls) taken reached) allowed step
          executed built shows

theorem issued_of_mem {config : ServerConfig}
    (member : (player, message) ∈ config.state.journal.sent ++ config.state.journal.published) :
    Issued config player message := by
  rcases List.mem_append.mp member with sent | published
  · exact .sent sent
  · exact .published published

end TerritoryBackend

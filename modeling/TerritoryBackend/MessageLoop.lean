import TerritoryBackend.Completion
import TerritoryBackend.FrameAnswers
import TerritoryBackend.SessionCompleteness
import TerritoryBackend.StatusMachine

/-!
# Frames the message loop survives

One iteration of the message loop takes a text the client chose through the
parser, `_route_message`, `process_action` and `_apply_place_action`.  It comes
back to `receive_text` on every server exactly when the text is not JSON or is
an object the server has an answer to: one whose type and action can be formatted
if they are unknown, and whose data has coordinates of the right types if it asks
to place a piece, and can be published and stored if the piece is placed.
-/

namespace TerritoryBackend

open EventLoop

/-- The player's session can be decoded. -/
def SessionComplete (player : PlayerId) (world : World) : Prop :=
  KeyComplete (world.redis.sessions player)

/-- The move a frame asks for. -/
def ActionRecord.OfFrame (frame : Option Json) (record : ActionRecord) : Prop :=
  ∃ fields, frame = some (.obj fields) ∧
    record.action = (fields.lookup "action").getD (.str "") ∧
    record.data = (fields.lookup "data").getD (.obj [])

/-- The states in which the commands to Redis can succeed: the player's session is
complete, and the moves of other frames can be stored. -/
structure WellKept (limits : NestingLimits) (player : PlayerId) (frame : Option Json)
    (world : World) : Prop where
  session : SessionComplete player world
  moves : ∀ room game, world.engine.find room = some game → ∀ record ∈ game.actionHistory,
    record.OfFrame frame ∨ record.depth + 3 ≤ limits.write

/-- The iteration of the message loop that has received this frame comes to the
next one, on every server with these limits and in every state it can be in. -/
def KeepsConnection (limits : NestingLimits) (frame : Option Json) : Prop :=
  ∀ settings redis roomIds config player connection task,
    settings.nesting = limits →
    (server settings).Reaches (booted redis roomIds) unguarded config →
    config.tasks[task]? = some [.checkRateLimit player frame, .receive player connection] →
    (server settings).Returns (WellKept limits player frame) task [.receive player connection]
      config

/-- Only a move, a message or a state that nests too deep is bound to fail. -/
def Instr.writesMoves : Instr → Bool
  | .publish .. | .saveSnapshot .. | .sendStateUpdate .. => true
  | _ => false

theorem not_onlyFails {settings : Settings} {instruction : Instr}
    (harmless : instruction.writesMoves = false) (world : World) :
    ¬ (server settings).OnlyFails instruction world := by
  rintro ⟨fallible, never⟩
  have fallible : instruction.fallible settings world = true := fallible
  have never : ∀ answer, instruction.block settings answer world = none := never
  cases instruction with
  | publish | saveSnapshot | sendStateUpdate => cases harmless
  | checkRateLimit player raw => cases never .limited
  | matchingLoop => cases never .timedOut
  | acceptConnection | receive | awaitSend | createMatch | offerMatch | disconnectTimerWakes
  | wake => simp [Instr.fallible, Instr.kind] at fallible
  | _ => cases never .done

theorem World.processAction_returns {settings : Settings} {world : World}
    (turns : ∀ room game, world.engine.games room = some game → game.HasTurn) {action data : Json}
    (answerable : AnswerableAction settings.nesting action data) (room : RoomId)
    (player : PlayerId) :
    (world.processAction settings room player action data).raises = false := by
  unfold World.processAction GameEngine.processAction
  cases found : world.engine.find room with
  | none => exact congrArg Block.raises (if_pos (Nat.zero_le _))
  | some game =>
      have hasTurn := turns room game (GameEngine.find_eq_some.mp found).2
      have answers := ActiveGame.processAction_answers player hasTurn answerable world.clock
      cases called : game.processAction player action data world.clock with
      | error error => simp [called, Answers] at answers
      | ok checked =>
          rw [called] at answers
          cases checked with
          | refused error =>
              have formats : error.message.depth ≤ settings.nesting.format := answers
              simp [called, formats]
          | passed result => simp [called, World.withGame]

/-- The blocks that return and have nothing after them. -/
def Instr.last : Instr → Bool
  | .forceClose .. | .updateActivity .. | .updateSessionState .. | .createPersistTask ..
  | .setSnapshot .. | .deleteRoomKeys .. => true
  | _ => false

section Finishing

variable {settings : Settings} {allowed : World → Prop} {room : RoomId} {player : PlayerId}
  {message : Message} {after : AfterSend} {action data : Json}

theorem finishes_single {instruction : Instr} (harmless : instruction.writesMoves = false)
    (returns : ∀ answer world block, allowed world →
      instruction.block settings answer world = some block →
      block.raises = false ∧ (server settings).Finishes allowed block.next) :
    (server settings).Finishes allowed [instruction] :=
  .single (fun world _ => not_onlyFails harmless world) returns

theorem finishes_last {instruction : Instr} (isLast : instruction.last = true) :
    (server settings).Finishes allowed [instruction] := by
  have harmless : instruction.writesMoves = false := by
    cases instruction with
    | publish | saveSnapshot | sendStateUpdate => cases isLast
    | _ => rfl
  apply finishes_single harmless
  intro answer world block permitted effect
  unfold Instr.last at isLast
  split at isLast <;> cases isLast <;> cases effect <;> exact ⟨rfl, .nil⟩

theorem finishes_publish (player : PlayerId) (fits : message.depth ≤ settings.nesting.write) :
    (server settings).Finishes allowed [.publish player message] := by
  apply Machine.Finishes.single
  · rintro world - ⟨-, never⟩
    have never : world.publish settings player message = none := never .done
    simp [World.publish, fits] at never
  · intro answer world block permitted effect
    cases World.publish_eq_some effect
    exact ⟨rfl, .nil⟩

/-- The uses of `send_personal` in the iteration. -/
def AfterSend.Simple (settings : Settings) (message : Message) (after : AfterSend) : Prop :=
  after = .ignore ∨ after = .publish ∧ message.depth ≤ settings.nesting.write

theorem finishes_afterSend (simple : after.Simple settings message) (sent : Bool) :
    (server settings).Finishes allowed (after.next player message sent) := by
  rcases simple with rfl | ⟨rfl, fits⟩
  · exact .nil
  · cases sent
    · exact finishes_publish player fits
    · exact .nil

theorem finishes_sendPersonal (player : PlayerId) (message : Message)
    (simple : after.Simple settings message) :
    (server settings).Finishes allowed [.sendPersonal player message after] := by
  have awaits connection : (server settings).Finishes allowed
      [.awaitSend player connection message after] := by
    apply finishes_single rfl
    intro answer world block permitted effect
    have effect : world.awaitSend player connection message after answer = some block := effect
    unfold World.awaitSend at effect
    split at effect <;> cases effect
    · exact ⟨rfl, finishes_afterSend simple true⟩
    · have closes : (server settings).Finishes allowed [.forceClose connection] :=
        finishes_last rfl
      exact ⟨rfl, closes.append (finishes_afterSend simple false)⟩
    · exact ⟨rfl, finishes_afterSend simple false⟩
  apply finishes_single rfl
  intro answer world block permitted effect
  cases effect
  unfold World.sendPersonal
  split
  · exact ⟨rfl, awaits _⟩
  · exact ⟨rfl, finishes_afterSend simple false⟩

theorem finishes_sendError (player : PlayerId) (error : ErrorResponse) :
    (server settings).Finishes allowed [sendError player error] :=
  finishes_sendPersonal player (.error error) (.inl rfl)

theorem finishes_enqueuePlayer (player : PlayerId) (eloRating : Int) :
    (server settings).Finishes allowed [.enqueuePlayer player eloRating] := by
  have size rank : (server settings).Finishes allowed [.queueSize player rank] := by
    apply finishes_single rfl
    intro answer world block permitted effect
    cases effect
    exact ⟨rfl, finishes_sendPersonal player _ (.inl rfl)⟩
  have rank : (server settings).Finishes allowed [.queueRank player] := by
    apply finishes_single rfl
    intro answer world block permitted effect
    cases effect
    exact ⟨rfl, size _⟩
  apply finishes_single rfl
  intro answer world block permitted effect
  cases effect
  exact ⟨rfl, rank⟩

theorem finishes_dequeuePlayer (player : PlayerId) (caller : Option ConnectionId) :
    (server settings).Finishes allowed [.dequeuePlayer player caller] := by
  apply finishes_single rfl
  intro answer world block permitted effect
  cases effect
  refine ⟨rfl, ?_⟩
  unfold World.dequeuePlayer
  simp only [World.goOn]
  split
  · exact finishes_sendPersonal player .matchCancelled (.inl rfl)
  · exact .nil

theorem finishes_getSessionElo
    (complete : ∀ world, allowed world → SessionComplete player world) :
    (server settings).Finishes allowed [.getSessionElo player] := by
  apply finishes_single rfl
  intro answer world block permitted effect
  cases effect
  obtain ⟨-, session, read⟩ := (complete world permitted).sound
  have stores state : (server settings).Finishes allowed
      [.updateSessionState player state none] :=
    finishes_last rfl
  simp only [World.getSessionElo, read]
  exact ⟨rfl, (stores _).append (finishes_enqueuePlayer player _)⟩

theorem finishes_wake (deadline : Time) :
    (server settings).Finishes allowed [.wake deadline] := by
  apply finishes_single rfl
  intro answer world block permitted effect
  have effect : world.wake deadline = some block := effect
  unfold World.wake at effect
  split at effect <;> cases effect
  exact ⟨rfl, .nil⟩

theorem finishes_cleanupGame (room : RoomId) :
    (server settings).Finishes allowed [.cleanupGame room] := by
  have sleeps : (server settings).Finishes allowed [.sleep 5] := by
    apply finishes_single rfl
    intro answer world block permitted effect
    cases effect
    exact ⟨rfl, finishes_wake _⟩
  have deletes playerIds : (server settings).Finishes allowed [.deleteRoomKeys room playerIds] :=
    finishes_last rfl
  apply finishes_single rfl
  intro answer world block permitted effect
  cases effect
  unfold World.cleanupGame
  split
  · exact ⟨rfl, .nil⟩
  · exact ⟨rfl, sleeps.append (deletes _)⟩

variable (turns : ∀ world, allowed world →
  ∀ room game, world.engine.games room = some game → game.HasTurn)

include turns

theorem finishes_sendStateUpdate (room : RoomId) (player : PlayerId)
    (formats : action.depth + 3 ≤ settings.nesting.write)
    (writes : data.depth + 3 ≤ settings.nesting.write) :
    (server settings).Finishes allowed [.sendStateUpdate room player action data] := by
  apply Machine.Finishes.single
  · rintro world - ⟨-, never⟩
    have never : world.sendStateUpdate settings room player action data = none := never .done
    have dumps := settings.nesting.dumps
    have shallow : max action.depth data.depth + 3 ≤ settings.nesting.dump := by omega
    simp [World.sendStateUpdate, shallow] at never
  · intro answer world block permitted effect
    rcases World.sendStateUpdate_cases (turns world permitted) effect with
      rfl | ⟨message, depth, rfl⟩
    · exact ⟨rfl, .nil⟩
    · have flat := settings.nesting.flat
      have fits : message.depth ≤ settings.nesting.write := by omega
      exact ⟨rfl, finishes_sendPersonal player message (.inr ⟨rfl, fits⟩)⟩

theorem finishes_sendGameOver (room : RoomId) (player : PlayerId) (settled : ActiveGame) :
    (server settings).Finishes allowed [.sendGameOver room player settled] := by
  apply finishes_single rfl
  intro answer world block permitted effect
  cases effect
  rcases World.sendGameOver_cases (turns world permitted) room player settled with
    nothing | ⟨message, depth, sends⟩
  · rw [nothing]
    exact ⟨rfl, .nil⟩
  · have fits : message.depth ≤ settings.nesting.write := depth.le.trans settings.nesting.flat
    rw [sends]
    exact ⟨rfl, finishes_sendPersonal player message (.inr ⟨rfl, fits⟩)⟩

/-- The moves recorded in a game can be stored. -/
def Storable (limits : NestingLimits) (world : World) : Prop :=
  ∀ room game, world.engine.find room = some game →
    ∀ record ∈ game.actionHistory, record.depth + 3 ≤ limits.write

theorem finishes_saveSnapshot
    (storable : ∀ world, allowed world → Storable settings.nesting world) (room : RoomId) :
    (server settings).Finishes allowed [.saveSnapshot room] := by
  apply Machine.Finishes.single
  · rintro world permitted ⟨-, never⟩
    have never : world.saveSnapshot settings room = none := never .done
    rcases World.saveSnapshot_cases (turns world permitted) settings room with
      nothing | ⟨game, state, found, taken, saves⟩
    · cases nothing.symm.trans never
    · rw [saves, if_pos (ActiveGame.depth_toRedisState taken
        (storable world permitted room game found))] at never
      cases never
  · intro answer world block permitted effect
    rcases World.saveSnapshot_eq_some (turns world permitted) effect with rfl | ⟨_, _, -, -, rfl⟩
    · exact ⟨rfl, .nil⟩
    · exact ⟨rfl, finishes_last rfl⟩

theorem finishes_handleGameOver
    (storable : ∀ world, allowed world → Storable settings.nesting world) (room : RoomId) :
    (server settings).Finishes allowed [.handleGameOver room] := by
  apply finishes_single rfl
  intro answer world block permitted effect
  cases effect
  unfold World.handleGameOver World.withGame
  split
  · rename_i game stored
    have announces : (server settings).Finishes allowed
        (game.playerIds.map fun player => Instr.sendGameOver room player game) :=
      .of_forall (List.forall_mem_map.mpr fun player _ =>
        finishes_sendGameOver turns room player game)
    have persists : (server settings).Finishes allowed [.createPersistTask room game] :=
      finishes_last rfl
    exact ⟨rfl, announces.append (persists.append
      ((finishes_saveSnapshot turns storable room).append (finishes_cleanupGame room)))⟩
  · exact ⟨rfl, .nil⟩

theorem finishes_processAction
    (moves : ∀ world, allowed world → ∀ room game, world.engine.find room = some game →
      ∀ record ∈ game.actionHistory, record.action = action ∧ record.data = data ∨
        record.depth + 3 ≤ settings.nesting.write)
    (answerable : AnswerableAction settings.nesting action data) (room : RoomId)
    (player : PlayerId) :
    (server settings).Finishes allowed [.processAction room player action data] := by
  apply finishes_single rfl
  intro answer world block permitted effect
  cases effect
  have returns := World.processAction_returns (turns world permitted) answerable room player
  refine ⟨returns, ?_⟩
  rcases world.processAction_cases settings room player action data with
    ⟨error, refused⟩ | raised | ⟨game, result, found, passed, accepted⟩
  · rw [refused]
    exact finishes_sendError player error
  · rw [raised] at returns
    cases returns
  · rw [accepted]
    have hasTurn := turns world permitted room game (GameEngine.find_eq_some.mp found).2
    have writes := ActiveGame.processAction_answers player hasTurn answerable world.clock
    rw [passed] at writes
    have writes : data.depth + 3 ≤ settings.nesting.write := writes
    have formats : action.depth + 3 ≤ settings.nesting.write := by
      have flat := settings.nesting.flat
      have named := Json.depth_of_isString (ActiveGame.processAction_passed passed).2.2.1
      omega
    have storable world (permitted : allowed world) : Storable settings.nesting world := by
      intro other known foundOther record member
      rcases moves world permitted other known foundOther record member with
        ⟨sameAction, sameData⟩ | stored
      · rw [ActionRecord.depth, sameAction, sameData]
        omega
      · exact stored
    have updates : (server settings).Finishes allowed (result.1.playerIds.map fun recipient =>
        Instr.sendStateUpdate room recipient action data) :=
      .of_forall (List.forall_mem_map.mpr fun recipient _ =>
        finishes_sendStateUpdate turns room recipient formats writes)
    apply updates.append
    split
    · exact finishes_handleGameOver turns storable room
    · exact .nil

theorem finishes_getPlayerRoom
    (moves : ∀ world, allowed world → ∀ room game, world.engine.find room = some game →
      ∀ record ∈ game.actionHistory, record.action = action ∧ record.data = data ∨
        record.depth + 3 ≤ settings.nesting.write)
    (answerable : AnswerableAction settings.nesting action data) (player : PlayerId) :
    (server settings).Finishes allowed [.getPlayerRoom player action data] := by
  apply finishes_single rfl
  intro answer world block permitted effect
  cases effect
  unfold World.getPlayerRoom
  split
  · exact ⟨rfl, finishes_processAction turns moves answerable _ player⟩
  · exact ⟨rfl, finishes_sendError player _⟩

variable {fields : List (String × Json)}
  (kept : ∀ world, allowed world → WellKept settings.nesting player (some (.obj fields)) world)
  (answerable : AnswerableMessage settings.nesting fields)

include kept answerable

theorem finishes_routeMessage {messageType : Json}
    (typeEq : (fields.lookup "type").getD .null = messageType)
    (truthy : messageType.truthy = true) :
    (server settings).Finishes allowed [.routeMessage player messageType (.obj fields)] := by
  apply finishes_single rfl
  intro answer world block permitted effect
  cases effect
  unfold World.routeMessage
  split
  · exact ⟨rfl, finishes_getSessionElo fun world permitted => (kept world permitted).session⟩
  split
  · exact ⟨rfl, (finishes_dequeuePlayer player none).append (finishes_last rfl)⟩
  split
  · rename_i isAction
    refine ⟨rfl, finishes_getPlayerRoom turns ?_ (answerable.action (typeEq ▸ isAction)) player⟩
    intro world permitted room game found record member
    rcases (kept world permitted).moves room game found record member with
      ⟨_, same, recorded⟩ | stored
    · cases same
      exact .inl recorded
    · exact .inr stored
  split
  · exact ⟨rfl, finishes_sendPersonal player _ (.inl rfl)⟩
  · rw [if_pos (typeEq ▸ answerable.formats (typeEq ▸ truthy))]
    exact ⟨rfl, finishes_sendError player _⟩

theorem finishes_checkRateLimit :
    (server settings).Finishes allowed [.checkRateLimit player (some (.obj fields))] := by
  apply finishes_single rfl
  intro answer world block permitted effect
  have effect : world.checkRateLimit player (some (.obj fields)) answer = some block := effect
  unfold World.checkRateLimit at effect
  split at effect
  · cases effect
    exact ⟨rfl, finishes_sendError player _⟩
  · simp only [Json.get] at effect
    split at effect <;> cases effect
    · rename_i truthy
      have active : (server settings).Finishes allowed [.updateActivity player] :=
        finishes_last rfl
      exact ⟨rfl, active.append (finishes_routeMessage turns kept answerable rfl truthy)⟩
    · exact ⟨rfl, finishes_sendError player _⟩
  · cases effect

end Finishing

theorem finishes_invalidJson {settings : Settings} {allowed : World → Prop} (player : PlayerId) :
    (server settings).Finishes allowed [.checkRateLimit player none] := by
  apply finishes_single rfl
  intro answer world block permitted effect
  have effect : world.checkRateLimit player none answer = some block := effect
  unfold World.checkRateLimit at effect
  split at effect <;> cases effect <;> exact ⟨rfl, finishes_sendError player _⟩

theorem keepsConnection_of_answerable {limits : NestingLimits} {frame : Option Json}
    (answerable : Answerable limits frame) : KeepsConnection limits frame := by
  rintro settings redis roomIds config player connection task rfl reached present
  have finishes : (server settings).Finishes
      (fun world => WellKept settings.nesting player frame world ∧
        ∀ room game, world.engine.games room = some game → game.HasTurn)
      [.checkRateLimit player frame] := by
    cases frame with
    | none => exact finishes_invalidJson player
    | some message =>
        obtain ⟨fields, rfl, routed⟩ := answerable message rfl
        exact finishes_checkRateLimit (fun world sound => sound.2) (fun world sound => sound.1)
          routed
  exact finishes.returns reached (fun later reachedLater kept =>
    ⟨kept, fun room game stored => hasTurn_of_reaches reachedLater stored⟩) present

end TerritoryBackend

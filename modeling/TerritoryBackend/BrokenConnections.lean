import TerritoryBackend.MessageLoop

/-!
# Frames that end their own connection

The player who has the first move of a match may send any frame.  One the server has no
answer to raises in `_route_message` or in the engine, or is recorded as a move that
cannot be published to an opponent who is connected elsewhere; and the exception leaves
the message loop.
-/

namespace TerritoryBackend

open EventLoop

/-- The first move of a match is the player's, against an opponent who is not
connected to this server. -/
structure ToMove (player : PlayerId) (room : RoomId) (game : ActiveGame) (world : World) :
    Prop where
  session : ∃ hash, world.redis.sessions player = some hash ∧ SessionManager.Complete hash
  inRoom : world.redis.getPlayerRoom player = some room
  found : world.engine.find room = some game
  inProgress : game.status = .inProgress
  current : game.currentPlayerId = some player
  blank : game.board = Board.empty
  elsewhere : ∃ opponent ∈ game.playerIds, world.connections.connectionOf opponent = none
  unplayed : ∀ other known, world.engine.find other = some known → known.actionHistory = []

namespace ToMove

variable {player : PlayerId} {room : RoomId} {game : ActiveGame} {world : World}

theorem wellKept (toMove : ToMove player room game world) (limits : NestingLimits)
    (frame : Option Json) : WellKept limits player frame world := by
  refine ⟨KeyComplete.of_result toMove.session, ?_⟩
  intro other known found record member
  rw [toMove.unplayed other known found] at member
  cases member

theorem updateActivity (toMove : ToMove player room game world) (settings : Settings) :
    ToMove player room game (world.updateActivity settings player).state := by
  obtain ⟨hash, stored, whole⟩ := toMove.session
  obtain ⟨updated, activity, wholeUpdated⟩ :=
    SessionManager.updateActivity_complete whole settings world.clock
  refine { toMove with session := ⟨updated, ?_, wholeUpdated⟩ }
  rw [← activity, ← stored]
  exact Function.update_self ..

end ToMove

section Breaking

variable {settings : Settings} {config : ServerConfig} {player : PlayerId} {room : RoomId}
  {connection : ConnectionId} {task : Nat} {frame : Option Json} {instruction : Instr}
  {ahead : List Instr} {action data : Json}

/-- An exception in the iteration ends the connection. -/
theorem unwind_receive (plain : ∀ instruction ∈ ahead, Instr.handler settings instruction = none) :
    (server settings).unwind (ahead ++ [.receive player connection]) =
      [.handleDisconnect player connection] := by
  show ((ahead ++ [Instr.receive player connection]).findSome? (Instr.handler settings)).getD [] = _
  rw [List.findSome?_append, List.findSome?_eq_none_iff.mpr plain]
  rfl

theorem unwind_ne (plain : ∀ instruction ∈ ahead, Instr.handler settings instruction = none)
    (others : List Instr) :
    (server settings).unwind (ahead ++ [.receive player connection]) ≠
      others ++ [.receive player connection] := by
  intro same
  rw [unwind_receive plain] at same
  have last := congrArg List.getLast? same
  simp at last

theorem not_returns_of_raises {answer : Answer} {block : Block World Instr}
    (kept : WellKept settings.nesting player frame config.state) (free : config.mayRun task = true)
    (current : config.tasks[task]? = some [instruction, .receive player connection])
    (effect : (server settings).block instruction answer config.state = some block)
    (raises : block.raises = true) (plain : Instr.handler settings instruction = none) :
    ¬ (server settings).Returns (WellKept settings.nesting player frame) task
      [.receive player connection] config := by
  intro returns
  obtain ⟨others, same⟩ := returns.unwind [] kept current free effect raises
  have plain : ∀ first ∈ [instruction], Instr.handler settings first = none := by
    simpa using plain
  exact unwind_ne plain others same

theorem not_returns_of_onlyFails
    (fails : (server settings).OnlyFails instruction config.state)
    (kept : WellKept settings.nesting player frame config.state) (free : config.mayRun task = true)
    (plain : ∀ next ∈ instruction :: ahead, Instr.handler settings next = none)
    (current : config.tasks[task]? =
      some (instruction :: ahead ++ [.receive player connection])) :
    ¬ (server settings).Returns (WellKept settings.nesting player frame) task
      [.receive player connection] config := by
  intro returns
  obtain ⟨others, same⟩ := returns.unwind_of_onlyFails ahead kept current free fails
  exact unwind_ne plain others same

/-- A message for a player who is not here has to be published. -/
theorem not_returns_of_sendPersonal {recipient : PlayerId} {message : Message}
    (deep : ¬ message.depth ≤ settings.nesting.write)
    (kept : WellKept settings.nesting player frame config.state) (free : config.mayRun task = true)
    (elsewhere : config.state.connections.connectionOf recipient = none)
    (plain : ∀ next ∈ ahead, Instr.handler settings next = none)
    (current : config.tasks[task]? = some
      (.sendPersonal recipient message .publish :: ahead ++ [.receive player connection])) :
    ¬ (server settings).Returns (WellKept settings.nesting player frame) task
      [.receive player connection] config := by
  intro returns
  have hands : (server settings).block (.sendPersonal recipient message .publish) .done
      config.state = some (config.state.goOn [.publish recipient message]) := by
    simp [server, Instr.block, World.sendPersonal, elsewhere, AfterSend.next]
  obtain ⟨publishing, returns, state, current, free⟩ :=
    returns.advance ahead kept current free hands rfl
  rw [World.goOn_state] at state
  have fails : (server settings).OnlyFails (.publish recipient message) publishing.state :=
    ⟨rfl, fun answer => if_neg deep⟩
  exact not_returns_of_onlyFails fails (state ▸ kept) free (List.forall_mem_cons.mpr ⟨rfl, plain⟩)
    current returns

/-- A message for a player who is here may just be sent. -/
theorem exists_sent {recipient : PlayerId} {message : Message} {socket : ConnectionId}
    (kept : WellKept settings.nesting player frame config.state) (free : config.mayRun task = true)
    (connected : config.state.connections.connectionOf recipient = some socket)
    (current : config.tasks[task]? = some
      (.sendPersonal recipient message .publish :: ahead ++ [.receive player connection]))
    (returns : (server settings).Returns (WellKept settings.nesting player frame) task
      [.receive player connection] config) :
    ∃ sent journal, (server settings).Returns (WellKept settings.nesting player frame) task
        [.receive player connection] sent ∧
      sent.state = { config.state with journal := journal } ∧ sent.mayRun task = true ∧
      sent.tasks[task]? = some (ahead ++ [.receive player connection]) := by
  have hands : (server settings).block (.sendPersonal recipient message .publish) .done
      config.state = some (config.state.goOn [.awaitSend recipient socket message .publish]) := by
    simp [server, Instr.block, World.sendPersonal, connected]
  obtain ⟨awaiting, returns, awaitingState, current, free⟩ :=
    returns.advance ahead kept current free hands rfl
  rw [World.goOn_state] at awaitingState
  have sends : (server settings).block (.awaitSend recipient socket message .publish) .done
      awaiting.state = awaiting.state.awaitSend recipient socket message .publish .done := rfl
  obtain ⟨sent, returns, state, current, free⟩ :=
    returns.advance ahead (awaitingState ▸ kept) current free sends rfl
  rw [awaitingState] at state
  exact ⟨sent, _, returns, state, free, current⟩

/-- A move that cannot be published to one of its recipients ends the connection. -/
theorem not_returns_of_unpublishable {game : ActiveGame} {mover opponent : PlayerId}
    {recipients : List PlayerId} (deep : settings.nesting.write < data.depth + 3)
    (kept : WellKept settings.nesting player frame config.state) (free : config.mayRun task = true)
    (stored : config.state.engine.games room = some game)
    (mine : game.currentPlayerId = some mover) (member : opponent ∈ recipients)
    (elsewhere : config.state.connections.connectionOf opponent = none)
    (plain : ∀ instruction ∈ ahead, Instr.handler settings instruction = none)
    (current : config.tasks[task]? = some
      (recipients.map (fun recipient => Instr.sendStateUpdate room recipient action data) ++
        ahead ++ [.receive player connection])) :
    ¬ (server settings).Returns (WellKept settings.nesting player frame) task
      [.receive player connection] config := by
  intro returns
  induction recipients generalizing config with
  | nil => cases member
  | cons recipient others ih =>
      generalize messageEq : Message.gameStateUpdate room game.toClientState (some (action, data))
        (decide (recipient = mover)) game.turnNumber config.state.clock = message
      have plainAhead : ∀ instruction ∈
          others.map (fun other => Instr.sendStateUpdate room other action data) ++ ahead,
          Instr.handler settings instruction = none := by
        intro instruction mentioned
        rcases List.mem_append.mp mentioned with update | last
        · obtain ⟨other, -, rfl⟩ := List.mem_map.mp update
          rfl
        · exact plain instruction last
      by_cases shallow : max action.depth data.depth + 3 ≤ settings.nesting.dump
      case neg =>
        -- not even the first message can be built
        have never : config.state.sendStateUpdate settings room recipient action data = none :=
          if_neg shallow
        have fails : (server settings).OnlyFails (.sendStateUpdate room recipient action data)
            config.state :=
          ⟨congrArg Option.isNone never, fun answer => never⟩
        exact not_returns_of_onlyFails fails kept free
          (List.forall_mem_cons.mpr ⟨rfl, plainAhead⟩) current returns
      have updates : (server settings).block (.sendStateUpdate room recipient action data) .done
          config.state = some (config.state.goOn [.sendPersonal recipient message .publish]) := by
        show World.sendStateUpdate settings config.state room recipient action data = _
        rw [World.sendStateUpdate, if_pos shallow]
        simp [World.withGame, World.showing, stored, mine, messageEq]
      obtain ⟨sending, returns, state, current, free⟩ :=
        returns.advance (_ ++ ahead) kept current free updates rfl
      rw [World.goOn_state] at state
      cases connected : config.state.connections.connectionOf recipient with
      | none =>
          have tooDeep : ¬ message.depth ≤ settings.nesting.write := by
            rw [← messageEq, Message.depth]
            omega
          exact not_returns_of_sendPersonal tooDeep (state ▸ kept) free (state ▸ connected)
            plainAhead current returns
      | some socket =>
          have different : opponent ≠ recipient := by
            rintro rfl
            cases connected.symm.trans elsewhere
          obtain ⟨sent, journal, returns, sentState, free, current⟩ :=
            exists_sent (state ▸ kept) free (state ▸ connected) current returns
          rw [state] at sentState
          refine ih ?_ free ?_ (List.mem_of_ne_of_mem different member) ?_ current returns <;>
            rw [sentState]
          · exact ⟨kept.session, kept.moves⟩
          · exact stored
          · exact elsewhere

theorem World.checkRateLimit_typed (world : World) (player : PlayerId)
    {fields : List (String × Json)} {messageType : Json}
    (typeEq : (fields.lookup "type").getD .null = messageType)
    (truthy : messageType.truthy = true) :
    world.checkRateLimit player (some (.obj fields)) .done =
      some (world.goOn [.updateActivity player,
        .routeMessage player messageType (.obj fields)]) := by
  simp [World.checkRateLimit, Json.get, typeEq, truthy]

theorem World.routeMessage_action (settings : Settings) (world : World) (player : PlayerId)
    {fields : List (String × Json)} {action data : Json}
    (actionEq : (fields.lookup "action").getD (.str "") = action)
    (dataEq : (fields.lookup "data").getD (.obj []) = data) :
    world.routeMessage settings player (.str "game_action") (.obj fields) =
      world.goOn [.getPlayerRoom player action data] := by
  simp [World.routeMessage, Json.get, Json.isString, actionEq, dataEq]

variable {game : ActiveGame} {fields : List (String × Json)}

/-- The iteration hands a frame with a type to `_route_message`. -/
theorem exists_routing (toMove : ToMove player room game config.state)
    (free : config.mayRun task = true)
    (current : config.tasks[task]? =
      some [.checkRateLimit player (some (.obj fields)), .receive player connection])
    (truthy : ((fields.lookup "type").getD .null).truthy = true)
    (returns : (server settings).Returns (WellKept settings.nesting player frame) task
      [.receive player connection] config) :
    ∃ routing, (server settings).Returns (WellKept settings.nesting player frame) task
        [.receive player connection] routing ∧
      ToMove player room game routing.state ∧ routing.mayRun task = true ∧
      routing.tasks[task]? = some [.routeMessage player ((fields.lookup "type").getD .null)
        (.obj fields), .receive player connection] := by
  have parses : (server settings).block (.checkRateLimit player (some (.obj fields))) .done
      config.state = some (config.state.goOn [.updateActivity player,
        .routeMessage player ((fields.lookup "type").getD .null) (.obj fields)]) :=
    config.state.checkRateLimit_typed player rfl truthy
  obtain ⟨parsed, returns, parsedState, current, free⟩ :=
    returns.advance [] (toMove.wellKept ..) current free parses rfl
  rw [World.goOn_state] at parsedState
  have stores : (server settings).block (.updateActivity player) .done parsed.state =
      some (parsed.state.updateActivity settings player) := rfl
  obtain ⟨routing, returns, routingState, current, free⟩ :=
    returns.advance [_] (parsedState ▸ toMove.wellKept ..) current free stores rfl
  rw [parsedState] at routingState
  exact ⟨routing, returns, routingState ▸ toMove.updateActivity settings, free, current⟩

/-- An unknown type that cannot be formatted ends the connection. -/
theorem formats_of_returns (toMove : ToMove player room game config.state)
    (free : config.mayRun task = true)
    (current : config.tasks[task]? =
      some [.checkRateLimit player (some (.obj fields)), .receive player connection])
    (truthy : ((fields.lookup "type").getD .null).truthy = true)
    (returns : (server settings).Returns (WellKept settings.nesting player frame) task
      [.receive player connection] config) :
    ((fields.lookup "type").getD .null).depth ≤ settings.nesting.format := by
  by_contra deep
  obtain ⟨routing, returns, toMove, free, current⟩ :=
    exists_routing toMove free current truthy returns
  generalize (fields.lookup "type").getD .null = messageType at current deep
  have unknown text : messageType.isString text = false := by
    rw [Bool.eq_false_iff]
    intro known
    rw [Json.depth_of_isString known] at deep
    exact deep (Nat.zero_le _)
  have raises : (server settings).block (.routeMessage player messageType (.obj fields)) .done
      routing.state = some routing.state.raise := by
    simp [server, Instr.block, World.routeMessage, unknown, deep]
  exact not_returns_of_raises (toMove.wellKept ..) free current raises rfl rfl returns

/-- The iteration hands a move to the engine. -/
theorem exists_acting (toMove : ToMove player room game config.state)
    (free : config.mayRun task = true)
    (current : config.tasks[task]? =
      some [.checkRateLimit player (some (.obj fields)), .receive player connection])
    (isAction : ((fields.lookup "type").getD .null).isString "game_action" = true)
    (actionEq : (fields.lookup "action").getD (.str "") = action)
    (dataEq : (fields.lookup "data").getD (.obj []) = data)
    (returns : (server settings).Returns (WellKept settings.nesting player frame) task
      [.receive player connection] config) :
    ∃ acting, (server settings).Returns (WellKept settings.nesting player frame) task
        [.receive player connection] acting ∧
      ToMove player room game acting.state ∧ acting.mayRun task = true ∧
      acting.tasks[task]? =
        some [.processAction room player action data, .receive player connection] := by
  have typeEq := Json.eq_of_isString isAction
  obtain ⟨routing, returns, toMove, free, current⟩ :=
    exists_routing toMove free current (by rw [typeEq]; rfl) returns
  rw [typeEq] at current
  have routes : (server settings).block
      (.routeMessage player (.str "game_action") (.obj fields)) .done routing.state =
      some (routing.state.goOn [.getPlayerRoom player action data]) :=
    congrArg some (routing.state.routeMessage_action settings player actionEq dataEq)
  obtain ⟨routed, returns, routedState, current, free⟩ :=
    returns.advance [] (toMove.wellKept ..) current free routes rfl
  rw [World.goOn_state] at routedState
  have reads : (server settings).block (.getPlayerRoom player action data) .done routed.state =
      some (routed.state.goOn [.processAction room player action data]) := by
    simp [server, Instr.block, World.getPlayerRoom, routedState, toMove.inRoom]
  obtain ⟨acting, returns, actingState, current, free⟩ :=
    returns.advance [] (routedState ▸ toMove.wellKept ..) current free reads rfl
  rw [World.goOn_state, routedState] at actingState
  exact ⟨acting, returns, actingState ▸ toMove, free, current⟩

variable (ofFrame : ∀ record : ActionRecord, record.action = action → record.data = data →
  record.OfFrame frame)

include ofFrame

/-- The move is recorded, and published to an opponent who is not here. -/
theorem not_returns_of_passed (toMove : ToMove player room game config.state)
    (free : config.mayRun task = true)
    (current : config.tasks[task]? =
      some [.processAction room player action data, .receive player connection])
    {result : ActiveGame × Bool}
    (passed : game.processAction player action data config.state.clock = .ok (.passed result))
    (deep : settings.nesting.write < data.depth + 3) :
    ¬ (server settings).Returns (WellKept settings.nesting player frame) task
      [.receive player connection] config := by
  intro returns
  obtain ⟨live, -⟩ := GameEngine.find_eq_some.mp toMove.found
  have accepts : (server settings).block (.processAction room player action data) .done
      config.state = some
        (({ config.state with engine := config.state.engine.write room result.1 } : World).goOn
          (result.1.playerIds.map (fun recipient =>
              Instr.sendStateUpdate room recipient action data) ++
            if result.2 then [Instr.handleGameOver room] else [])) := by
    simp [server, Instr.block, World.processAction, GameEngine.processAction, toMove.found, passed,
      World.withGame]
  obtain ⟨acted, returns, actedState, current, free⟩ :=
    returns.advance [] (toMove.wellKept ..) current free accepts rfl
  rw [World.goOn_state] at actedState
  have turn : result.1.HasTurn := by
    have turn : game.HasTurn := (List.getElem?_eq_some_iff.mp toMove.current).1
    exact turn.step (.acted passed)
  obtain ⟨mover, mine⟩ := turn.exists_current
  obtain ⟨opponent, plays, elsewhere⟩ := toMove.elsewhere
  refine not_returns_of_unpublishable deep ?_ free ?_ mine
    ((ActiveGame.processAction_frame passed).2.1 ▸ plays) ?_ ?_ (by simpa using current) returns
  · -- the only recorded move is the one of the frame
    refine ⟨actedState ▸ KeyComplete.of_result toMove.session, ?_⟩
    intro other known found record member
    rw [actedState, GameEngine.find_write live] at found
    split at found
    · cases found
      rw [ActiveGame.processAction_history passed, toMove.unplayed room game toMove.found,
        List.nil_append, List.mem_singleton] at member
      exact .inl (ofFrame record (by rw [member]) (by rw [member]))
    · rw [toMove.unplayed other known found] at member
      cases member
  · simp [actedState]
  · rw [actedState]
    exact elsewhere
  · intro instruction mentioned
    split at mentioned
    · rw [List.mem_singleton.mp mentioned]
      rfl
    · cases mentioned

/-- So does a move the engine has no answer to, or whose answer cannot be written. -/
theorem answers_of_returns (toMove : ToMove player room game config.state)
    (free : config.mayRun task = true)
    (current : config.tasks[task]? =
      some [.processAction room player action data, .receive player connection])
    (returns : (server settings).Returns (WellKept settings.nesting player frame) task
      [.receive player connection] config) :
    Answers settings.nesting data
      (game.processAction player action data config.state.clock) := by
  have acts : (server settings).block (.processAction room player action data) .done config.state =
      some (config.state.processAction settings room player action data) := rfl
  by_contra unanswered
  cases called : game.processAction player action data config.state.clock with
  | error error =>
      refine not_returns_of_raises (toMove.wellKept ..) free current acts ?_ rfl returns
      simp [World.processAction, GameEngine.processAction, toMove.found, called, World.raise]
  | ok checked =>
      rw [called] at unanswered
      cases checked with
      | refused error =>
          have deep : ¬ error.message.depth ≤ settings.nesting.format := unanswered
          refine not_returns_of_raises (toMove.wellKept ..) free current acts ?_ rfl returns
          simp [World.processAction, GameEngine.processAction, toMove.found, called, deep,
            World.raise]
      | passed result =>
          have deep : settings.nesting.write < data.depth + 3 := Nat.lt_of_not_le unanswered
          exact not_returns_of_passed ofFrame toMove free current called deep returns

omit ofFrame

theorem World.checkRateLimit_raises (world : World) (player : PlayerId) {message : Json}
    (noObject : ∀ fields, message ≠ .obj fields) :
    world.checkRateLimit player (some message) .done = some world.raise := by
  cases message with
  | obj fields => exact absurd rfl (noObject fields)
  | _ => rfl

/-- Every frame that keeps the connection of the player to move has an answer. -/
theorem answerable_of_returns (toMove : ToMove player room game config.state)
    (free : config.mayRun task = true)
    (current : config.tasks[task]? =
      some [.checkRateLimit player frame, .receive player connection])
    (returns : (server settings).Returns (WellKept settings.nesting player frame) task
      [.receive player connection] config) : Answerable settings.nesting frame := by
  intro message received
  subst received
  by_cases isObject : ∃ fields, message = .obj fields
  · obtain ⟨fields, rfl⟩ := isObject
    refine ⟨fields, rfl, ?_, ?_⟩
    · intro truthy
      exact formats_of_returns toMove free current truthy returns
    · intro isAction
      obtain ⟨acting, returns, toMove, free, current⟩ :=
        exists_acting toMove free current isAction rfl rfl returns
      refine ActiveGame.answerable_of_processAction toMove.inProgress toMove.current ?_
        (answers_of_returns ?_ toMove free current returns)
      · intro column row
        rw [toMove.blank]
        exact Board.cell_empty column row
      · intro record sameAction sameData
        exact ⟨fields, rfl, sameAction, sameData⟩
  · have raises : (server settings).block (.checkRateLimit player (some message)) .done
        config.state = some config.state.raise :=
      config.state.checkRateLimit_raises player fun fields same => isObject ⟨fields, same⟩
    exact absurd returns
      (not_returns_of_raises (toMove.wellKept ..) free current raises rfl rfl)

end Breaking

/-- The client an instruction waits to hear from. -/
def Instr.awaitedClient : Instr → Option (PlayerId × ConnectionId)
  | .receive player connection => some (player, connection)
  | _ => none

theorem Instr.eq_of_awaitedClient {instruction : Instr} {player : PlayerId}
    {connection : ConnectionId} (waits : instruction.awaitedClient = some (player, connection)) :
    instruction = .receive player connection := by
  unfold awaitedClient at waits
  split at waits <;> cases waits
  rfl

/-- Whether a block is the same however deep values may nest. -/
def Instr.unlimited (instruction : Instr) (world : World) : Bool :=
  match instruction with
  | .publish _ message => decide (message.depth ≤ 5)
  | .saveSnapshot room =>
      match world.engine.saveSnapshot room world.clock with
      | .ok (some document) => decide (document.depth ≤ 5)
      | _ => true
  | .routeMessage .. | .processAction .. | .sendStateUpdate .. => false
  | _ => true

/-- The server as far as the limits do not matter. -/
def unlimitedServer (settings : Settings) : Machine World Instr Answer ServerEvent :=
  { server settings with
    block := fun instruction answer world =>
      if instruction.unlimited world then instruction.block settings answer world else none
    fallible := fun _ _ => false }

theorem unlimitedServer_follows (settings : Settings) (limits : NestingLimits) :
    (unlimitedServer settings).Follows (server { settings with nesting := limits }) where
  block := by
    intro instruction answer world block effect
    have effect : (if instruction.unlimited world then instruction.block settings answer world
      else none) = some block := effect
    split at effect
    · rename_i unlimited
      have flat := limits.flat
      cases instruction with
      | publish player message =>
          have fits : message.depth ≤ limits.write := (of_decide_eq_true unlimited).trans flat
          cases World.publish_eq_some effect
          exact if_pos fits
      | saveSnapshot room =>
          simp only [Instr.block, World.saveSnapshot] at effect
          show World.saveSnapshot { settings with nesting := limits } world room = some block
          unfold World.saveSnapshot
          simp only [Instr.unlimited] at unlimited
          cases saved : world.engine.saveSnapshot room world.clock with
          | error error =>
              rw [saved] at effect
              exact effect
          | ok document =>
              rw [saved] at effect unlimited
              cases document with
              | none => exact effect
              | some document =>
                  have fits : document.depth ≤ limits.write :=
                    (of_decide_eq_true unlimited).trans flat
                  dsimp only at effect
                  split at effect <;> cases effect
                  exact if_pos fits
      | routeMessage | processAction | sendStateUpdate => cases unlimited
      | _ => exact effect
    · cases effect
  fallible := nofun
  kind := rfl
  unwind := rfl
  event := rfl

/-- Ada is connected and matched with Bob, and the first move is hers. -/
def adaToMove : List ServerChoice :=
  openConnection "ada" "conn-1" 2 7 ++ formMatch "room-1" 19

theorem exists_adaToMove (limits : NestingLimits) : ∃ config game,
    (server { instanceId := "inst-1", nesting := limits }).Reaches (booted waitingRookies [])
      unguarded config ∧
      config.tasks[2]? = some [.receive "ada" "conn-1"] ∧ config.mayRun 2 = true ∧
      ToMove "ada" "room-1" game config.state := by
  have opened : ((unlimitedServer { instanceId := "inst-1" }).run adaToMove
      (booted waitingRookies [])).any (fun config =>
        (config.tasks[2]?).any (fun task =>
          decide (task.map Instr.awaitedClient = [some ("ada", "conn-1")])) &&
        config.mayRun 2 &&
        (config.state.redis.sessions "ada").any (fun hash =>
          decide (SessionManager.Complete hash)) &&
        decide (config.state.redis.getPlayerRoom "ada" = some "room-1") &&
        (config.state.engine.find "room-1").any (fun game =>
          decide (game.status = .inProgress ∧ game.currentPlayerId = some "ada" ∧
            game.board = Board.empty ∧ "bob" ∈ game.playerIds) &&
          game.actionHistory.isEmpty) &&
        decide (config.state.engine.live = ["room-1"]) &&
        decide (config.state.connections.connectionOf "bob" = none)) = true := by
    decide +kernel
  obtain ⟨config, executed, holds⟩ := Option.any_eq_true _ _ |>.mp opened
  simp only [Bool.and_eq_true, decide_eq_true_eq] at holds
  obtain ⟨⟨⟨⟨⟨⟨receives, free⟩, session⟩, inRoom⟩, game⟩, live⟩, elsewhere⟩ := holds
  obtain ⟨hash, stored, whole⟩ := Option.any_eq_true _ _ |>.mp session
  obtain ⟨game, found, plays⟩ := Option.any_eq_true _ _ |>.mp game
  simp only [Bool.and_eq_true, decide_eq_true_eq] at plays
  obtain ⟨⟨inProgress, current, blank, bob⟩, unplayed⟩ := plays
  have follows := unlimitedServer_follows { instanceId := "inst-1" } limits
  refine ⟨config, game, Machine.reaches_of_run .start (follows.run executed), ?_, free,
    { session := ⟨hash, stored, of_decide_eq_true whole⟩, inRoom, found, inProgress, current,
      blank, elsewhere := ⟨"bob", bob, elsewhere⟩, unplayed := ?_ }⟩
  · obtain ⟨task, current, waits⟩ := Option.any_eq_true _ _ |>.mp receives
    obtain ⟨instruction, rfl, hears⟩ := List.map_eq_singleton_iff.mp (of_decide_eq_true waits)
    rw [current, Instr.eq_of_awaitedClient hears]
  · intro other known foundOther
    have isLive := (GameEngine.find_eq_some.mp foundOther).1
    rw [live, List.mem_singleton] at isLive
    subst isLive
    cases found.symm.trans foundOther
    exact List.isEmpty_iff.mp unplayed

theorem answerable_of_keepsConnection {limits : NestingLimits} {frame : Option Json}
    (keeps : KeepsConnection limits frame) : Answerable limits frame := by
  obtain ⟨config, game, reached, current, free, toMove⟩ := exists_adaToMove limits
  have receives : (server { instanceId := "inst-1", nesting := limits }).block
      (.receive "ada" "conn-1") (.text frame) config.state = some (config.state.goOn
        [.checkRateLimit "ada" frame, .receive "ada" "conn-1"]) := rfl
  obtain ⟨received, step, state, remaining, free⟩ :=
    Machine.exists_resumed current free receives
  rw [World.goOn_state] at state
  exact answerable_of_returns (state ▸ toMove) free remaining
    (keeps _ _ _ received "ada" "conn-1" 2 rfl (.step reached trivial step) remaining)

/-- Main result: the message loop survives a frame on every server exactly when
it has an answer to it. -/
theorem keepsConnection_iff (limits : NestingLimits) (frame : Option Json) :
    KeepsConnection limits frame ↔ Answerable limits frame :=
  ⟨answerable_of_keepsConnection, keepsConnection_of_answerable⟩

/-- A placement between two columns. -/
def halfColumn : Json :=
  .obj [("type", .str "game_action"), ("action", .str "place"),
    ("data", .obj [("x", .float (1 / 2)), ("y", .int 0)])]

/-- It is on the board, but it is no index. -/
theorem halfColumn_breaks : ¬ KeepsConnection .standard (some halfColumn) := by
  intro keeps
  obtain ⟨fields, same, routed⟩ := answerable_of_keepsConnection keeps _ rfl
  cases same
  obtain ⟨data, same, coordinates⟩ := (routed.action (by decide)).placement (by decide)
  cases same
  rcases coordinates with absent | ⟨column, off, -⟩ | ⟨-, row, off⟩ | ⟨column, -, -⟩
  · exact absurd absent (by decide)
  · cases column
    exact off (by norm_num [boardSize])
  · cases row
    exact off (by norm_num [boardSize])
  · exact absurd column (by decide)

end TerritoryBackend

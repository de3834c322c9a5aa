import TerritoryBackend.ConnectPhase

/-!
# The stages of a connect phase

A connect phase runs in one coroutine, from the opening of the connection to
its acknowledgement.  What it has found out about the player's game at a stage
stays true until the next one, whatever the other coroutines do.
-/

namespace TerritoryBackend

open EventLoop

/-- The only active game the player may have is that of the room named. -/
def NamesGame (config : ServerConfig) (player : PlayerId) (named : Option RoomId) : Prop :=
  ∀ room, config.state.playsIn player room = true → named = some room

/-- The player is present in every active game, and the connection, as long as
it is the player's, is in the room. -/
structure Returned (config : ServerConfig) (player : PlayerId) (connection : ConnectionId) :
    Prop where
  present : ∀ room game, config.state.playsIn player room = true →
    config.state.engine.find room = some game → player ∉ game.disconnectedPlayers
  inRoom : ∀ room, config.state.playsIn player room = true → config.Leads player connection →
    config.state.connections.roomOf connection = some room

/-- The player's active game is shown by such a message, but for what has
happened to it since. -/
def Shown (config : ServerConfig) (player : PlayerId) (sent : Message → Prop) : Prop :=
  ∀ room game, config.state.playsIn player room = true →
    config.state.engine.games room = some game →
    ∃ shown yourTurn time,
      sent (.gameStateUpdate room shown.toClientState none yourTurn shown.turnNumber time) ∧
        ActiveGame.Lives shown game

/-- The instructions of a connect phase, and what is known when they are left. -/
inductive Stage (log : List Delivery) (config : ServerConfig) (player : PlayerId)
    (connection : ConnectionId) : List Instr → Prop where
  | connecting : Stage log config player connection [.connect player connection]
  | accepting {earlier : List Instr} (sends : ∀ passed ∈ earlier, passed.sends = true) :
      Stage log config player connection (earlier ++ [.acceptConnection player connection])
  | reading : Stage log config player connection [.getSession player connection]
  | creating (names : NamesGame config player none) :
      Stage log config player connection [.createSession player connection]
  | claiming : Stage log config player connection [.attemptReconnectRead player connection]
  | claimed (named : Option RoomId) (names : NamesGame config player named) :
      Stage log config player connection [.attemptReconnectWrite player connection named]
  | restoring (room : RoomId) (names : NamesGame config player (some room)) :
      Stage log config player connection
        [.handlePlayerReconnect room player, .acknowledge player connection]
  | showing {message : Message} {messages : List Instr}
      (sends : ∀ passed ∈ messages, passed.sends = true)
      (returned : Returned config player connection) (shown : Shown config player (· = message)) :
      Stage log config player connection
        (.sendPersonal player message .ignore :: (messages ++ [.acknowledge player connection]))
  | sending {message : Message} {messages : List Instr}
      (sends : ∀ passed ∈ messages, passed.sends = true)
      (returned : Returned config player connection) (shown : Shown config player (· = message)) :
      Stage log config player connection
        (.awaitSend player connection message .ignore ::
          (messages ++ [.acknowledge player connection]))
  | closing {messages : List Instr} (sends : ∀ passed ∈ messages, passed.sends = true)
      (returned : Returned config player connection) :
      Stage log config player connection
        (.forceClose connection :: (messages ++ [.acknowledge player connection]))
  | acknowledging {messages : List Instr} (sends : ∀ passed ∈ messages, passed.sends = true)
      (returned : Returned config player connection)
      (told : config.Leads player connection →
        Shown config player fun message => (connection, message) ∈ log) :
      Stage log config player connection (messages ++ [.acknowledge player connection])

/-- The coroutine is not in a connect phase of this connection, or at a stage of
one. -/
def Phase (log : List Delivery) (config : ServerConfig) (player : PlayerId)
    (connection : ConnectionId) (task : List Instr) : Prop :=
  (∀ instruction ∈ task, instruction.connects player connection = false) ∨
    Stage log config player connection task

variable {settings : Settings} {choice : ServerChoice} {before after : ServerConfig}
  {log : List Delivery} {player : PlayerId} {connection : ConnectionId} {room : RoomId}
  {named : Option RoomId}

/-- No game of the player is created during a connect phase. -/
theorem RestoresSession.plays_before (allowed : RestoresSession choice before)
    {instruction : Instr} (pending : instruction ∈ before.pending)
    (connects : instruction.connects player connection = true)
    (step : (server settings).step choice before = some after)
    (plays : after.state.playsIn player room = true) :
    before.state.playsIn player room = true := by
  rcases TerritoryBackend.plays_before step plays with old | ⟨pair, executed, member⟩
  · exact old
  · have idle := allowed.creating room pair executed player member connection instruction pending
    rw [connects] at idle
    cases idle

theorem leads_before (connected : Connected before)
    (pending : .acknowledge player connection ∈ before.pending)
    (step : (server settings).step choice before = some after)
    (leads : after.Leads player connection) : before.Leads player connection := by
  rcases indexed_before step leads with old | ⟨task, -, executed⟩
  · exact old
  · have handled := (connected.accepting (Config.mem_pending_of_executed executed)).1 _ pending
    simp [Instr.handles] at handled

theorem NamesGame.step (names : NamesGame before player named)
    (old : ∀ room, after.state.playsIn player room = true →
      before.state.playsIn player room = true) : NamesGame after player named :=
  fun room plays => names room (old room plays)

theorem Returned.step (returned : Returned before player connection)
    (allowed : RestoresSession choice before) (connected : Connected before)
    (pending : .acknowledge player connection ∈ before.pending)
    (old : ∀ room, after.state.playsIn player room = true →
      before.state.playsIn player room = true)
    (step : (server settings).step choice before = some after) :
    Returned after player connection where
  present room game plays found absent := by
    rcases absent_before step found absent with ⟨known, foundBefore, absentBefore⟩ |
      ⟨caller, executed⟩
    · exact returned.present room known (old room plays) foundBefore absentBefore
    · exact allowed.leaving room player caller executed connection pending
  inRoom room plays leads := by
    have led := leads_before connected pending step leads
    have playsBefore := old room plays
    refine roomOf_step connected step led leads (returned.inRoom room playsBefore led)
      (fun entered instruction executed enters =>
      (allowed.entering player entered room instruction executed enters playsBefore).symm) ?_
    intro closing game executed found member
    have idle := allowed.releasing player closing room game executed found member
    rw [playsBefore] at idle
    cases idle

theorem Shown.step {sent still : Message → Prop} (shown : Shown before player sent)
    (registered : Registered before)
    (old : ∀ room, after.state.playsIn player room = true →
      before.state.playsIn player room = true)
    (keeps : ∀ message, sent message → still message)
    (step : (server settings).step choice before = some after) : Shown after player still := by
  intro room game plays stored
  have playsBefore := old room plays
  obtain ⟨known, found, -⟩ := World.playsIn_eq_true.mp playsBefore
  have storedBefore := (GameEngine.find_eq_some.mp found).2
  obtain ⟨last, yourTurn, time, isSent, lives⟩ := shown room known playsBefore storedBefore
  refine ⟨last, yourTurn, time, keeps _ isSent, ?_⟩
  obtain ⟨next, storedNext, same | stepped⟩ := game_after_step registered step storedBefore
  · cases storedNext.symm.trans stored
    exact same ▸ lives
  · cases storedNext.symm.trans stored
    exact lives.tail stepped

theorem Stage.exists_connects {task : List Instr}
    (stage : Stage log before player connection task) :
    ∃ instruction ∈ task, instruction.connects player connection = true := by
  cases stage with
  | connecting => exact ⟨.connect player connection, by simp, by simp [Instr.connects]⟩
  | accepting => exact ⟨.acceptConnection player connection, by simp, by simp [Instr.connects]⟩
  | reading => exact ⟨.getSession player connection, by simp, by simp [Instr.connects]⟩
  | creating => exact ⟨.createSession player connection, by simp, by simp [Instr.connects]⟩
  | claiming => exact ⟨.attemptReconnectRead player connection, by simp, by simp [Instr.connects]⟩
  | claimed named =>
      exact ⟨.attemptReconnectWrite player connection named, by simp, by simp [Instr.connects]⟩
  | restoring | showing | sending | closing | acknowledging =>
      exact ⟨.acknowledge player connection, by simp, by simp [Instr.connects]⟩

/-- A stage outlasts the steps of the other coroutines. -/
theorem Stage.step {task : List Instr} {news : List Delivery}
    (stage : Stage log before player connection task) (member : task ∈ before.tasks)
    (allowed : RestoresSession choice before) (connected : Connected before)
    (registered : Registered before)
    (step : (server settings).step choice before = some after) :
    Stage (log ++ news) after player connection task := by
  have pending {instruction : Instr} (inTask : instruction ∈ task) :
      instruction ∈ before.pending := List.mem_flatten.mpr ⟨task, member, inTask⟩
  have old room (plays : after.state.playsIn player room = true) :
      before.state.playsIn player room = true := by
    obtain ⟨instruction, inTask, connects⟩ := stage.exists_connects
    exact allowed.plays_before (pending inTask) connects step plays
  cases stage with
  | connecting => exact .connecting
  | accepting sends => exact .accepting sends
  | reading => exact .reading
  | creating names => exact .creating (names.step old)
  | claiming => exact .claiming
  | claimed named names => exact .claimed named (names.step old)
  | restoring room names => exact .restoring room (names.step old)
  | showing sends returned shown =>
      exact .showing sends (returned.step allowed connected (pending (by simp)) old step)
        (shown.step registered old (fun _ same => same) step)
  | sending sends returned shown =>
      exact .sending sends (returned.step allowed connected (pending (by simp)) old step)
        (shown.step registered old (fun _ same => same) step)
  | closing sends returned =>
      exact .closing sends (returned.step allowed connected (pending (by simp)) old step)
  | acknowledging sends returned told =>
      have inTask : .acknowledge player connection ∈ before.pending := pending (by simp)
      exact .acknowledging sends (returned.step allowed connected inTask old step) fun leads =>
        (told (leads_before connected inTask step leads)).step registered old
          (fun _ sent => List.mem_append_left _ sent) step

theorem Restorable.session {config : ServerConfig} (restorable : Restorable config player room)
    {result : Option RedisSession}
    (read : SessionManager.getSession (config.state.redis.sessions player) = .ok result) :
    ∃ session, result = some session ∧
      session.state = PlayerConnectionState.disconnected.value := by
  obtain ⟨session, stored, disconnected⟩ := restorable.disconnected
  cases read.symm.trans stored
  exact ⟨session, rfl, disconnected⟩

theorem Returned.of_free {config : ServerConfig} (free : NamesGame config player none) :
    Returned config player connection where
  present room _ plays := absurd (free room plays) (Option.some_ne_none room).symm
  inRoom room plays := absurd (free room plays) (Option.some_ne_none room).symm

theorem Shown.of_free {config : ServerConfig} {sent : Message → Prop}
    (free : NamesGame config player none) : Shown config player sent :=
  fun room _ plays => absurd (free room plays) (Option.some_ne_none room).symm

theorem Stage.of_returned {config : ServerConfig} (returned : Returned config player connection)
    (told : config.Leads player connection →
      Shown config player fun message => (connection, message) ∈ log) :
    Stage log config player connection [.acknowledge player connection] :=
  .acknowledging (fun _ inEmpty => absurd inEmpty List.not_mem_nil) returned told

theorem Stage.of_free {config : ServerConfig} (free : NamesGame config player none) :
    Stage log config player connection [.acknowledge player connection] :=
  .of_returned (.of_free free) fun _ => .of_free free

theorem Phase.of_raise {task : List Instr} :
    Phase log after player connection (Instr.unwind settings task) :=
  .inl Instr.connects_unwind

/-- A reconnection finds no game, fails or shows the game to its player first. -/
theorem World.handlePlayerReconnect_cases (world : World) (room : RoomId) (player : PlayerId) :
    world.engine.find room = none ∧ world.handlePlayerReconnect room player = world.goOn ∨
      (world.handlePlayerReconnect room player).raises = true ∨
      ∃ game yourTurn messages, world.engine.find room = some game ∧
        (∀ message ∈ messages, Instr.sends message = true) ∧
        world.handlePlayerReconnect room player =
          ({ world with
            engine := world.engine.write room (game.handlePlayerReconnect player)
            connections := world.connections.joinPlayer player room }).goOn
            (.sendPersonal player
                (.gameStateUpdate room (game.handlePlayerReconnect player).toClientState none
                  yourTurn (game.handlePlayerReconnect player).turnNumber world.clock) .ignore ::
              messages) := by
  unfold World.handlePlayerReconnect
  cases reconnected : world.engine.handlePlayerReconnect room player with
  | none => exact .inl ⟨by simpa [GameEngine.handlePlayerReconnect] using reconnected, rfl⟩
  | some result =>
      obtain ⟨engine, resumed⟩ := result
      obtain ⟨game, found, rfl, rfl⟩ := GameEngine.handlePlayerReconnect_eq_some reconnected
      right
      simp only [World.showing]
      split
      · rename_i current isCurrent
        right
        refine ⟨game, decide (player = current), (game.playerIds.filter (· ≠ player)).map fun
          opponent => .sendPersonal opponent (.playerReconnected player) .ignore, found, ?_, rfl⟩
        intro message member
        obtain ⟨opponent, -, rfl⟩ := List.mem_map.mp member
        rfl
      · exact .inl rfl

section Reconnected

variable {game : ActiveGame}

theorem Returned.of_reconnect (indexed : before.state.connections.Indexed)
    (names : NamesGame after player (some room))
    (engine : after.state.engine =
      before.state.engine.write room (game.handlePlayerReconnect player))
    (connections : after.state.connections = before.state.connections.joinPlayer player room) :
    Returned after player connection where
  present other next plays found := by
    cases names other plays
    have stored := (GameEngine.find_eq_some.mp found).2
    rw [engine, GameEngine.write_games, if_pos rfl] at stored
    cases stored
    simp [ActiveGame.handlePlayerReconnect]
  inRoom other plays leads := by
    cases names other plays
    unfold ServerConfig.Leads at leads
    rw [connections, (ConnectionManager.sameConnections_joinPlayer _ _ _).index] at leads
    rw [connections, indexed.roomOf_joinPlayer room leads]

theorem Shown.of_reconnect {yourTurn : Bool} {time : Time}
    (names : NamesGame after player (some room))
    (engine : after.state.engine =
      before.state.engine.write room (game.handlePlayerReconnect player)) :
    Shown after player (· = .gameStateUpdate room
      (game.handlePlayerReconnect player).toClientState none yourTurn
      (game.handlePlayerReconnect player).turnNumber time) := by
  intro other next plays stored
  cases names other plays
  rw [engine, GameEngine.write_games, if_pos rfl] at stored
  cases stored
  exact ⟨_, yourTurn, time, rfl, .refl⟩

end Reconnected

section Continued

variable {instruction : Instr} {rest : List Instr} {answer : Answer} {block : Block World Instr}

/-- An exception leads out of the connect phase. -/
theorem Phase.of_block
    (goesOn : block.raises = false → Phase log after player connection (block.next ++ rest)) :
    Phase log after player connection
      ((server settings).continuation instruction rest block) := by
  unfold Machine.continuation
  cases raises : block.raises with
  | true => exact .of_raise
  | false => exact goesOn raises

/-- The messages before an instruction of the connect phase, once the first one
has been sent. -/
theorem sends_passing {others : List Instr}
    (sends : ∀ passed ∈ instruction :: others, passed.sends = true)
    (effect : instruction.block settings answer before.state = some block) :
    ∀ passed ∈ block.next ++ others, passed.sends = true := by
  obtain ⟨-, leads⟩ := sends_keepsCourse instruction answer before.state block
    (sends instruction List.mem_cons_self) effect
  intro passed member
  rcases List.mem_append.mp member with new | old
  · exact leads passed new
  · exact sends passed (List.mem_cons_of_mem _ old)

theorem Phase.of_connect :
    Phase log after player connection (before.state.connect player connection).next := by
  unfold World.connect
  split
  · rename_i existing found
    have sends : ∀ passed ∈ [Instr.forceClose existing], passed.sends = true := by
      simp [Instr.sends]
    exact .inr (.accepting sends)
  · have sends : ∀ passed ∈ ([] : List Instr), passed.sends = true := by simp
    exact .inr (.accepting sends)

theorem Phase.of_getSession
    (restorable : ∀ room, before.state.playsIn player room = true → Restorable before player room)
    (old : ∀ room, after.state.playsIn player room = true →
      before.state.playsIn player room = true)
    (returns : (before.state.getSession player connection).raises = false) :
    Phase log after player connection (before.state.getSession player connection).next := by
  have free {result : Option RedisSession}
      (read : SessionManager.getSession (before.state.redis.sessions player) = .ok result)
      (connected : ∀ session, result = some session →
        session.state ≠ PlayerConnectionState.disconnected.value) :
      NamesGame after player none := by
    intro room plays
    obtain ⟨session, found, disconnected⟩ := (restorable room (old room plays)).session read
    exact absurd disconnected (connected session found)
  unfold World.getSession at returns ⊢
  split at returns
  · cases returns
  · rename_i session read
    split
    · exact .inr .claiming
    · rename_i connected
      exact .inr (.creating (free read fun other same => by cases same; exact connected))
  · rename_i read
    exact .inr (.creating (free read fun other same => by cases same))

theorem Phase.of_attemptReconnectRead
    (restorable : ∀ room, before.state.playsIn player room = true → Restorable before player room)
    (soon : ∀ room, before.state.playsIn player room = true → NamedSoon before player room)
    (old : ∀ room, after.state.playsIn player room = true →
      before.state.playsIn player room = true)
    (returns : (before.state.attemptReconnectRead player connection).raises = false) :
    Phase log after player connection
      (before.state.attemptReconnectRead player connection).next := by
  have unclaimed {result : Option RedisSession}
      (read : SessionManager.getSession (before.state.redis.sessions player) = .ok result)
      (connected : ∀ session, result = some session →
        session.state ≠ PlayerConnectionState.disconnected.value) :
      Phase log after player connection [.acknowledge player connection] := by
    have free : NamesGame after player none := by
      intro room plays
      obtain ⟨session, found, disconnected⟩ := (restorable room (old room plays)).session read
      exact absurd disconnected (connected session found)
    exact .inr (.of_free free)
  unfold World.attemptReconnectRead at returns ⊢
  split at returns
  · cases returns
  · rename_i session read
    split
    · right
      refine .claimed session.roomId ?_
      intro room plays
      have plays := old room plays
      rw [SessionManager.getSession_roomId read]
      rcases soon room plays with stored | ⟨position, state, rest, planned⟩
      · exact stored
      · exact absurd (planned.mem_pending List.mem_cons_self)
          ((restorable room plays).written state)
    · rename_i connected
      exact unclaimed read fun other same => by cases same; exact connected
  · rename_i read
    exact unclaimed read fun other same => by cases same

theorem Phase.of_handlePlayerReconnect (connected : Connected before)
    (names : NamesGame after player (some room))
    (state : after.state = (before.state.handlePlayerReconnect room player).state)
    (returns : (before.state.handlePlayerReconnect room player).raises = false) :
    Phase log after player connection
      ((before.state.handlePlayerReconnect room player).next ++
        [.acknowledge player connection]) := by
  rcases before.state.handlePlayerReconnect_cases room player with
    ⟨notFound, ignored⟩ | raises | ⟨game, yourTurn, messages, found, sends, resumed⟩
  · rw [ignored] at state ⊢
    have free : NamesGame after player none := by
      intro other plays
      cases names other plays
      obtain ⟨game, found, -⟩ := World.playsIn_eq_true.mp plays
      rw [state, World.goOn_state, notFound] at found
      cases found
    exact .inr (.of_free free)
  · rw [raises] at returns
    cases returns
  · rw [resumed] at state ⊢
    have engine : after.state.engine =
        before.state.engine.write room (game.handlePlayerReconnect player) := by rw [state]; rfl
    exact .inr (.showing sends
      (.of_reconnect connected.indexed names engine (by rw [state]; rfl))
      (.of_reconnect names engine))

theorem Phase.of_sendPersonal {message : Message} {messages : List Instr}
    (connected : Connected before) (sends : ∀ passed ∈ messages, passed.sends = true)
    (returned : Returned after player connection) (shown : Shown after player (· = message))
    (leads : after.Leads player connection → before.Leads player connection) :
    Phase log after player connection
      ((before.state.sendPersonal player message .ignore).next ++
        (messages ++ [.acknowledge player connection])) := by
  have superseded (other : before.state.connections.connectionOf player ≠ some connection) :
      after.Leads player connection →
        Shown after player fun message => (connection, message) ∈ log := fun led =>
    absurd (connected.indexed.connectionOf (leads led)) other
  unfold World.sendPersonal
  split
  · rename_i found isFound
    by_cases same : found = connection
    · subst same
      exact .inr (.sending sends returned shown)
    · have sendsAll : ∀ passed ∈ Instr.awaitSend player found message .ignore :: messages,
          passed.sends = true := fun passed member =>
        (List.mem_cons.mp member).elim (fun same => same ▸ rfl) (sends passed)
      exact .inr (.acknowledging sendsAll returned (superseded (by simp [isFound, same])))
  · rename_i isNone
    exact .inr (.acknowledging sends returned (superseded (by simp [isNone])))

theorem not_leads_of_disconnect (connected : Connected before)
    (state : after.state =
      before.state.updateConnections fun manager => manager.disconnect connection) :
    ¬ after.Leads player connection := by
  unfold ServerConfig.Leads
  rw [state]
  exact connected.indexed.not_indexed_disconnect player connection

theorem Phase.of_awaitSend {message : Message} {messages : List Instr} {position : Nat}
    (connected : Connected before) (sends : ∀ passed ∈ messages, passed.sends = true)
    (returned : Returned after player connection) (shown : Shown after player (· = message))
    (current : before.tasks[position]? = some (.awaitSend player connection message .ignore ::
      (messages ++ [.acknowledge player connection])))
    (effect : before.state.awaitSend player connection message .ignore answer = some block)
    (state : after.state = block.state) :
    Phase (log ++ observeDeliveries (.resume position answer) before) after player connection
      (block.next ++ (messages ++ [.acknowledge player connection])) := by
  simp only [World.awaitSend] at effect
  split at effect <;> cases effect
  · have delivered : observeDeliveries (.resume position .done) before =
        [(connection, message)] := by
      simp [observeDeliveries, Config.executed, current]
    right
    refine .acknowledging sends returned ?_
    intro _ room game plays stored
    obtain ⟨last, yourTurn, time, same, lives⟩ := shown room game plays stored
    exact ⟨last, yourTurn, time, by simp [delivered, same], lives⟩
  · exact .inr (.closing sends returned)
  · exact .inr (.acknowledging sends returned fun leads =>
      absurd leads (not_leads_of_disconnect connected state))

/-- The next stage of a connect phase that goes on. -/
theorem Stage.continued {position : Nat}
    (stage : Stage log before player connection (instruction :: rest))
    (current : before.tasks[position]? = some (instruction :: rest))
    (effect : instruction.block settings answer before.state = some block)
    (state : after.state = block.state)
    (allowed : RestoresSession (.resume position answer) before) (connected : Connected before)
    (registered : Registered before)
    (soon : ∀ room, before.state.playsIn player room = true → NamedSoon before player room)
    (step : (server settings).step (.resume position answer) before = some after)
    (returns : block.raises = false) :
    Phase (log ++ observeDeliveries (.resume position answer) before) after player connection
      (block.next ++ rest) := by
  have executed : before.executed (.resume position answer : ServerChoice) = some instruction :=
    Config.executed_of_current current
  have old room (plays : after.state.playsIn player room = true) :
      before.state.playsIn player room = true := by
    obtain ⟨opening, inTask, connects⟩ := stage.exists_connects
    exact allowed.plays_before (mem_flatten_of_getElem? current inTask) connects step plays
  have later : Stage (log ++ observeDeliveries (.resume position answer) before) after player
      connection (instruction :: rest) :=
    stage.step (List.mem_of_getElem? current) allowed connected registered step
  generalize task : instruction :: rest = list at later
  cases later with
  | connecting =>
      cases task
      cases effect
      rw [List.append_nil]
      exact .of_connect
  | @accepting earlier sends =>
      cases earlier with
      | nil =>
          cases task
          simp only [Instr.block, World.acceptConnection] at effect
          split at effect <;> cases effect
          · exact .inr .reading
          · cases returns
      | cons head others =>
          rw [List.cons_append] at task
          cases task
          right
          rw [← List.append_assoc]
          exact .accepting (sends_passing sends effect)
  | reading =>
      cases task
      cases effect
      rw [List.append_nil]
      exact .of_getSession (allowed.reading player connection (.inl executed)) old returns
  | creating names =>
      cases task
      cases effect
      exact .inr (.of_free names)
  | claiming =>
      cases task
      cases effect
      rw [List.append_nil]
      exact .of_attemptReconnectRead (allowed.reading player connection (.inr executed)) soon old
        returns
  | claimed named names =>
      cases task
      cases effect
      cases named with
      | none => exact .inr (.of_free names)
      | some room => exact .inr (.restoring room names)
  | restoring room names =>
      cases task
      cases effect
      exact .of_handlePlayerReconnect connected names state returns
  | showing sends returned shown =>
      cases task
      cases effect
      exact .of_sendPersonal connected sends returned shown (leads_before connected
        (mem_flatten_of_getElem? current (by simp)) step)
  | sending sends returned shown =>
      cases task
      exact .of_awaitSend connected sends returned shown current effect state
  | closing sends returned =>
      cases task
      cases effect
      exact .inr (.acknowledging sends returned fun leads =>
        absurd leads (not_leads_of_disconnect connected state))
  | @acknowledging messages sends returned told =>
      cases messages with
      | nil =>
          cases task
          cases effect
          exact .inl (by simp [World.acknowledge, Instr.connects])
      | cons head others =>
          rw [List.cons_append] at task
          cases task
          right
          rw [← List.append_assoc]
          exact .acknowledging (sends_passing sends effect) returned told

end Continued

theorem Stage.free {config : ServerConfig} {rest : List Instr}
    (stage : Stage log config player connection (.createSession player connection :: rest)) :
    NamesGame config player none := by
  generalize task : .createSession player connection :: rest = list at stage
  cases stage with
  | creating names => exact names
  | accepting sends | acknowledging sends =>
      rcases head_cases task sends with isSend | same
      · cases isSend
      · cases same
  | _ => cases task

theorem Stage.acknowledged {config : ServerConfig} {rest : List Instr}
    (stage : Stage log config player connection (.acknowledge player connection :: rest)) :
    Returned config player connection ∧ (config.Leads player connection →
      Shown config player fun message => (connection, message) ∈ log) := by
  generalize task : .acknowledge player connection :: rest = list at stage
  cases stage with
  | acknowledging sends returned told => exact ⟨returned, told⟩
  | accepting sends =>
      rcases head_cases task sends with isSend | same
      · cases isSend
      · cases same
  | _ => cases task

/-- Sessions name the rooms of active games, and every coroutine knows what the
stage of its connect phase tells. -/
structure Restoring (log : List Delivery) (config : ServerConfig) : Prop where
  named : ∀ player room, config.state.playsIn player room = true → NamedSoon config player room
  phases : ∀ player connection, ∀ task ∈ config.tasks, Phase log config player connection task

/-- The stage at which the coroutine of the connection executes an instruction
of its connect phase. -/
theorem Restoring.stage (restoring : Restoring log before) (player : PlayerId)
    (connection : ConnectionId) {instruction : Instr}
    (executed : before.executed choice = some instruction)
    (connects : instruction.connects player connection = true) :
    ∃ rest, Stage log before player connection (instruction :: rest) := by
  obtain ⟨rest, member⟩ := Config.mem_tasks_of_executed executed
  rcases restoring.phases player connection _ member with idle | stage
  · have := idle instruction List.mem_cons_self
    rw [connects] at this
    cases this
  · exact ⟨rest, stage⟩

theorem Restoring.named_step (restoring : Restoring log before)
    (allowed : RestoresSession choice before) (unnamed : before.state.engine.games "" = none)
    (step : (server settings).step choice before = some after)
    (plays : after.state.playsIn player room = true) : NamedSoon after player room := by
  rcases plays_before step plays with old | ⟨pair, executed, member⟩
  · refine .step allowed ?_ ?_ old (restoring.named player room old) step
    · intro opened executed
      -- a new session is created only for a player without an active game
      obtain ⟨rest, stage⟩ := restoring.stage player opened executed (by simp [Instr.connects])
      cases stage.free room old
    · rintro rfl
      obtain ⟨game, found, -⟩ := World.playsIn_eq_true.mp old
      rw [(GameEngine.find_eq_some.mp found).2] at unnamed
      cases unnamed
  · exact .created step executed member

/-- A coroutine started from outside is in a connect phase from its beginning. -/
theorem Phase.of_event {event : ServerEvent} {world state : World} {spawned : List (List Instr)}
    {task : List Instr} (effect : event.effect world = some (state, spawned))
    (started : task ∈ spawned) : Phase log after player connection task := by
  cases ServerEvent.happens effect with
  | @accept accepted opened fresh =>
      rw [List.mem_singleton.mp started]
      by_cases same : accepted = player ∧ opened = connection
      · obtain ⟨rfl, rfl⟩ := same
        exact .inr .connecting
      · exact .inl (by simpa [Instr.connects] using same)
  | callProcessAction | callHandlePlayerDisconnect | callHandlePlayerReconnect =>
      rw [List.mem_singleton.mp started]
      exact .inl (by simp [Instr.connects])
  | sessionExpires | playerRoomExpires | roomStateExpires | advance => cases started

theorem Restoring.step (restoring : Restoring log before) (allowed : RestoresSession choice before)
    (connected : Connected before) (registered : Registered before)
    (unnamed : before.state.engine.games "" = none)
    (step : (server settings).step choice before = some after) :
    Restoring (log ++ observeDeliveries choice before) after where
  named player room plays := restoring.named_step allowed unnamed step plays
  phases player connection task member := by
    cases Machine.taskSource_of_step step member with
    | kept _ old =>
        exact (restoring.phases player connection task old).imp_right fun stage =>
          stage.step old allowed connected registered step
    | @continued position answer instruction rest block current effect state remaining =>
        subst remaining
        apply Phase.of_block
        intro returns
        rcases restoring.phases player connection _ (List.mem_of_getElem? current) with
          idle | stage
        · left
          intro next inTask
          rcases List.mem_append.mp inTask with new | old
          · exact Instr.connects_after (idle instruction List.mem_cons_self)
              (Instr.block_yields effect (.inl new))
          · exact idle next (List.mem_cons_of_mem _ old)
        · exact stage.continued current effect state allowed connected registered
            (fun room plays => restoring.named player room plays) step returns
    | spawned executed effect started =>
        left
        intro next inTask
        by_contra connects
        rw [Bool.not_eq_false] at connects
        have before := Instr.connects_before
          (Instr.block_yields effect (.inr (List.mem_flatten.mpr ⟨task, started, inTask⟩))) connects
        rw [Instr.connects_spawned effect before] at started
        cases started
    | unwound _ old remaining =>
        subst remaining
        exact .of_raise
    | started effect started => exact .of_event effect started

theorem restoring_of_logged {redis : Redis} {roomIds : List RoomId} {config : ServerConfig}
    (taken : "" ∈ roomIds)
    (logged : (server settings).Logged (booted redis roomIds) RestoresSession observeDeliveries log
      config) : Restoring log config := by
  induction logged with
  | start =>
      refine ⟨?_, fun player connection task member => .inl ?_⟩
      · intro player room plays
        simp [World.playsIn, booted, GameEngine.find] at plays
      · rcases List.mem_pair.mp member with rfl | rfl <;> simp [Instr.connects]
  | step logged allowed step ih =>
      have reached := logged.reaches
      exact ih.step allowed (connected_of_reaches reached) (registered_of_reaches reached)
        (unregistered_of_reaches taken reached) step

/-- Main result: a player who connects is brought back into an active game, as
long as the session can be restored. -/
theorem bringsBack_of_restoresSession (settings : Settings) :
    BringsBack settings RestoresSession := by
  intro redis roomIds taken log config logged
  have restoring := restoring_of_logged taken logged
  constructor
  · intro player room plays written
    rcases restoring.named player room plays with stored | ⟨position, state, rest, planned⟩
    · exact stored
    · exact absurd (planned.mem_pending List.mem_cons_self) (written state)
  · intro choice after player connection room game allowed step executed found active member
    have plays : config.state.playsIn player room = true :=
      World.playsIn_eq_true.mpr ⟨game, found, active, member⟩
    obtain ⟨rest, stage⟩ := restoring.stage player connection executed
      (by simp [Instr.connects])
    obtain ⟨returned, told⟩ := stage.acknowledged
    have leads : ServerConfig.Leads config player connection :=
      (Option.filter_eq_some_iff.mp (allowed.staying player connection room executed plays)).1
    exact ⟨returned.present room game plays found,
      (housed_of_reaches logged.reaches _ _).mpr (returned.inRoom room plays leads),
      told leads room game plays (GameEngine.find_eq_some.mp found).2⟩

/-- Ada's game is in progress when she opens a second tab, up to the new session. -/
def secondTabInGame : List ServerChoice :=
  openConnection "ada" "conn-1" 2 7 ++ formMatch "room-1" 19 ++ openConnection "ada" "conn-2" 3 5

/-- Her session names no room, although she plays and nothing will write it. -/
def forgetsRoom (config : ServerConfig) : Bool :=
  config.state.playsIn "ada" "room-1" &&
    ((SessionManager.storedRoom (config.state.redis.sessions "ada")).isNone &&
      config.pending.all fun instruction => !instruction.entersRoom "ada" "room-1")

/-- The session is in the state `in_game`, so the game is not restored. -/
theorem secondTabInGame_forgets :
    ¬ BringsBack { instanceId := "inst-1" } unguarded := by
  intro always
  have forgotten : ((server { instanceId := "inst-1" }).record observeDeliveries secondTabInGame
      (booted waitingRookies [""]) []).any (fun result => forgetsRoom result.2) = true := by
    decide +kernel
  obtain ⟨⟨log, config⟩, executed, holds⟩ := Option.any_eq_true _ _ |>.mp forgotten
  simp only [forgetsRoom, Bool.and_eq_true, Option.isNone_iff_eq_none, List.all_eq_true] at holds
  obtain ⟨plays, unnamed, quiet⟩ := holds
  have logged : (server { instanceId := "inst-1" }).Logged (booted waitingRookies [""]) unguarded
      observeDeliveries log config :=
    Machine.logged_of_record .start (fun _ _ _ => trivial) executed
  have named := (always waitingRookies [""] (by simp) log config logged).1 "ada" "room-1" plays
    fun state pending => by simpa [Instr.entersRoom] using quiet _ pending
  rw [unnamed] at named
  cases named

end TerritoryBackend

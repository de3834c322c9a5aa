import TerritoryBackend.ConnectionLifecycle
import TerritoryBackend.SinglePlace
import TerritoryBackend.WaitingPlayers

/-!
# Connecting during a game

`websocket_endpoint` restores the game of a player whose stored session is
`disconnected`, and it creates a new session for everybody else.  A new session
names no room, so a player who connects while the session is in another state,
or has expired, loses the game.
-/

namespace TerritoryBackend

open EventLoop

/-- A message that has been sent on a connection. -/
abbrev Delivery := ConnectionId × Message

def observeDeliveries (choice : ServerChoice) (config : ServerConfig) : List Delivery :=
  match choice, config.executed choice with
  | .resume _ .done, some (.awaitSend _ connection message _) => [(connection, message)]
  | _, _ => []

/-- The player is back in the room's game on this connection. -/
structure BroughtBack (log : List Delivery) (config : ServerConfig) (player : PlayerId)
    (connection : ConnectionId) (room : RoomId) (game : ActiveGame) : Prop where
  present : player ∉ game.disconnectedPlayers
  member : config.state.connections.Member connection room
  /-- the state sent is that of the game, but for what has happened to it since -/
  shown : ∃ shown yourTurn time,
    (connection, .gameStateUpdate room shown.toClientState none yourTurn shown.turnNumber time) ∈
      log ∧ ActiveGame.Lives shown game

namespace Instr

/-- The instruction belongs to the connect phase of the player's connection. -/
def connects (player : PlayerId) (connection : ConnectionId) : Instr → Bool
  | .connect owner opened | .acceptConnection owner opened | .getSession owner opened
  | .attemptReconnectRead owner opened | .attemptReconnectWrite owner opened _
  | .createSession owner opened | .acknowledge owner opened =>
      decide (owner = player ∧ opened = connection)
  | _ => false

/-- The instruction puts the player into the room. -/
def entersRoom (player : PlayerId) (room : RoomId) : Instr → Bool
  | .updateSessionState entering _ (some entered) | .joinRoom entering entered
  | .handlePlayerReconnect entered entering => decide (entering = player ∧ entered = room)
  | _ => false

end Instr

/-- The session can be read and is disconnected, and `create_game` has written
the room to it. -/
structure Restorable (config : ServerConfig) (player : PlayerId) (room : RoomId) : Prop where
  disconnected : ∃ session,
    SessionManager.getSession (config.state.redis.sessions player) = .ok (some session) ∧
      session.state = PlayerConnectionState.disconnected.value
  written : ∀ state, .updateSessionState player state (some room) ∉ config.pending

/-- A player of an active game connects when the session is disconnected.  Such a
session does not expire, no other room concerns the player, and the connect
phase is not crossed by a disconnect. -/
structure RestoresSession (choice : ServerChoice) (config : ServerConfig) : Prop where
  reading : ∀ player connection,
    config.executed choice = some (.getSession player connection) ∨
      config.executed choice = some (.attemptReconnectRead player connection) →
    ∀ room, config.state.playsIn player room = true → Restorable config player room
  expiring : ∀ player, choice = .event (.sessionExpires player) →
    ∀ room, config.state.playsIn player room = false
  entering : ∀ player room other instruction, config.executed choice = some instruction →
    instruction.entersRoom player room = true → config.state.playsIn player other = true →
    other = room
  releasing : ∀ player room other game, config.executed choice = some (.cleanupGame room) →
    config.state.engine.find room = some game → player ∈ game.playerIds →
    config.state.playsIn player other = false
  completing : ∀ task current, choice = .fail task → config.tasks[task]? = some current →
    ∀ player state room, .updateSessionState player state (some room) ∉ current
  creating : ∀ room pair, config.executed choice = some (.createGame room pair) →
    ∀ player ∈ pair.playerIds, ∀ connection, ∀ instruction ∈ config.pending,
      instruction.connects player connection = false
  leaving : ∀ room player caller,
    config.executed choice = some (.handlePlayerDisconnect room player caller) →
    ∀ connection, .acknowledge player connection ∉ config.pending
  staying : ∀ player connection room,
    config.executed choice = some (.acknowledge player connection) →
    config.state.playsIn player room = true →
    config.state.connections.connectionOf player = some connection

/-- As long as a game is active, the sessions of its players name its room once
`create_game` has written it, and a player whose connect phase comes to the
acknowledgement is back in the game.  The empty text names no room. -/
def BringsBack (settings : Settings) (guard : ServerChoice → ServerConfig → Prop) : Prop :=
  ∀ redis roomIds, "" ∈ roomIds → ∀ log config,
    (server settings).Logged (booted redis roomIds) guard observeDeliveries log config →
    (∀ player room, config.state.playsIn player room = true →
      (∀ state, .updateSessionState player state (some room) ∉ config.pending) →
      SessionManager.storedRoom (config.state.redis.sessions player) = some room) ∧
    ∀ choice after player connection room game, guard choice config →
      (server settings).step choice config = some after →
      config.executed choice = some (.acknowledge player connection) →
      config.state.engine.find room = some game → game.status.isActive = true →
      player ∈ game.playerIds → BroughtBack log config player connection room game

variable {settings : Settings} {choice : ServerChoice} {before after : ServerConfig}
  {player : PlayerId} {connection : ConnectionId} {room : RoomId}

namespace Instr

theorem connects_before {instruction next : Instr} (yields : instruction.Yields next)
    (connects : next.connects player connection = true) :
    instruction.connects player connection = true := by
  cases yields with
  | quiet _ isQuiet =>
      cases next with
      | connect | acceptConnection | getSession | attemptReconnectRead | attemptReconnectWrite
      | createSession | acknowledge => cases isQuiet
      | _ => cases connects
  | connect | accepted | restoring | creating | claiming | unclaimed | claimed | created =>
      exact connects
  | _ => cases connects

theorem connects_after {instruction next : Instr}
    (idle : instruction.connects player connection = false) (yields : instruction.Yields next) :
    next.connects player connection = false :=
  Bool.eq_false_iff.mpr fun connects => by simp [connects_before yields connects] at idle

theorem connects_unwind {instructions : List Instr} :
    ∀ next ∈ unwind settings instructions, next.connects player connection = false := by
  intro next member
  rcases unwind_cases member with ⟨_, _, -, rfl⟩ | ⟨loop, seconds, -, rfl | rfl, rfl | rfl⟩ <;> rfl

/-- A connect phase starts no coroutine. -/
theorem connects_spawned {instruction : Instr} {answer : Answer} {world : World}
    {block : Block World Instr} (effect : instruction.block settings answer world = some block)
    (connects : instruction.connects player connection = true) : block.spawned = [] := by
  rcases block_spawned effect with nothing | ⟨_, _, rfl⟩ | ⟨_, _, _, rfl⟩
  · exact nothing
  · cases connects
  · cases connects

end Instr

theorem plays_before (step : (server settings).step choice before = some after)
    (plays : after.state.playsIn player room = true) :
    before.state.playsIn player room = true ∨
      ∃ pair, before.executed choice = some (.createGame room pair) ∧
        player ∈ pair.playerIds := by
  rcases gameChange_of_step step room with ⟨games, live⟩ | ⟨instruction, executed, change⟩
  · exact .inl ((World.playsIn_congr games live).symm.trans plays)
  · rcases playsIn_of_change change plays with old | ⟨pair, rfl⟩
    · exact .inl old
    · cases change with
      | unchanged _ games live => exact .inl ((World.playsIn_congr games live).symm.trans plays)
      | created _ games =>
          exact .inr ⟨pair, executed, (World.playsIn_of_games plays games).2⟩

/-- A player of an active game becomes absent by being reported so. -/
theorem absent_before {next : ActiveGame}
    (step : (server settings).step choice before = some after)
    (found : after.state.engine.find room = some next)
    (absent : player ∈ next.disconnectedPlayers) :
    (∃ game, before.state.engine.find room = some game ∧ player ∈ game.disconnectedPlayers) ∨
      ∃ caller, before.executed choice = some (.handlePlayerDisconnect room player caller) := by
  obtain ⟨present, stored⟩ := GameEngine.find_eq_some.mp found
  rcases gameChange_of_step step room with ⟨games, live⟩ | ⟨instruction, executed, change⟩
  · exact .inl ⟨next, (GameEngine.find_congr games live).symm.trans found, absent⟩
  cases change with
  | unchanged _ games live =>
      exact .inl ⟨next, (GameEngine.find_congr games live).symm.trans found, absent⟩
  | created pair games =>
      cases games.symm.trans stored
      simp [ActiveGame.create] at absent
  | acted known passed games =>
      cases games.symm.trans stored
      exact .inl ⟨_, known, (ActiveGame.processAction_frame passed).2.2.2.1 ▸ absent⟩
  | paused caller known _ games =>
      cases games.symm.trans stored
      rcases Finset.mem_insert.mp absent with rfl | earlier
      · exact .inr ⟨caller, executed⟩
      · exact .inl ⟨_, known, earlier⟩
  | forfeited _ known _ games =>
      cases games.symm.trans stored
      exact .inl ⟨_, known, absent⟩
  | resumed known games =>
      cases games.symm.trans stored
      exact .inl ⟨_, known, Finset.mem_of_mem_erase absent⟩
  | popped _ _ gone => exact absurd present gone

/-- Only a new session, or an update that names a room, changes the room of a
session. -/
theorem storedRoom_block {instruction : Instr} {answer : Answer} {world : World}
    {block : Block World Instr} (effect : instruction.block settings answer world = some block)
    (creates : ∀ opened, instruction ≠ .createSession player opened)
    (enters : ∀ state entered, instruction ≠ .updateSessionState player state (some entered)) :
    SessionManager.storedRoom (block.state.redis.sessions player) =
      SessionManager.storedRoom (world.redis.sessions player) := by
  have updated {written : PlayerId} {command : SessionKey → SessionKey}
      (keeps : written = player → ∀ key,
        SessionManager.storedRoom (command key) = SessionManager.storedRoom key) :
      SessionManager.storedRoom ((world.updateRedis fun redis =>
          redis.updateSession written command).redis.sessions player) =
        SessionManager.storedRoom (world.redis.sessions player) := by
    by_cases same : player = written
    · subst same
      simpa [World.updateRedis, Redis.updateSession] using keeps rfl _
    · simp [World.updateRedis, Redis.updateSession, same]
  by_cases idle : instruction.writesSession player = false
  · rw [Instr.sessions_block effect idle]
  cases instruction with
  | attemptReconnectWrite | updateActivity | markDisconnectedWrite =>
      cases effect
      exact updated fun _ key => by simp
  | createSession created opened =>
      cases effect
      exact updated fun same => absurd (same ▸ rfl) (creates opened)
  | updateSessionState written state named =>
      cases effect
      apply updated
      intro same key
      cases named with
      | none => simp
      | some entered => exact absurd (same ▸ rfl) (enters state entered)
  | _ => exact absurd rfl idle

/-- A room that is taken from the start never has a game. -/
theorem unregistered_of_reaches {redis : Redis} {roomIds : List RoomId}
    {guard : ServerChoice → ServerConfig → Prop} {config : ServerConfig} (taken : room ∈ roomIds)
    (reached : (server settings).Reaches (booted redis roomIds) guard config) :
    config.state.engine.games room = none := by
  have nothing : registrations room config = 0 := by
    refine reached.invariant ?_ fun choice before after _ none step =>
      Nat.eq_zero_of_le_zero ((registrations_step step room).trans_eq none)
    simp [registrations, booted, taken, weigh, Instr.registers]
  unfold registrations at nothing
  cases stored : config.state.engine.games room with
  | none => rfl
  | some game =>
      rw [stored] at nothing
      simp at nothing

/-- The session names the room, or the matching loop is about to write it. -/
def NamedSoon (config : ServerConfig) (player : PlayerId) (room : RoomId) : Prop :=
  SessionManager.storedRoom (config.state.redis.sessions player) = some room ∨
    ∃ position state rest, Planned (fun instruction : Instr => instruction.enters = true) position
      (.updateSessionState player state (some room) :: rest) config.tasks

theorem NamedSoon.created (step : (server settings).step choice before = some after)
    {pair : MatchedPair} (executed : before.executed choice = some (.createGame room pair))
    (plays : player ∈ pair.playerIds) : NamedSoon after player room := by
  obtain ⟨answer, rest, block, effect, -, continues, -⟩ := Machine.tasks_of_executed step executed
  cases effect
  obtain ⟨later, continues⟩ : ∃ later, World.enterRoom room pair.playerA ++
      (World.enterRoom room pair.playerB ++ later) ∈ after.tasks := ⟨_, continues⟩
  obtain ⟨position, present⟩ := List.getElem?_of_mem continues
  simp only [MatchedPair.playerIds, List.mem_cons, List.not_mem_nil, or_false] at plays
  rcases plays with rfl | rfl
  · exact .inr ⟨position, _, _, [.setPlayerRoom pair.playerA room], present, by
      simp [Instr.enters]⟩
  · exact .inr ⟨position, _, _,
      World.enterRoom room pair.playerA ++ [.setPlayerRoom pair.playerB room], present, by
      simp [World.enterRoom, Instr.enters]⟩

/-- A session keeps naming the room of an active game, unless a new session is
created. -/
theorem NamedSoon.step (allowed : RestoresSession choice before)
    (creates : ∀ opened, before.executed choice ≠ some (.createSession player opened))
    (named : room ≠ "") (plays : before.state.playsIn player room = true)
    (soon : NamedSoon before player room)
    (step : (server settings).step choice before = some after) : NamedSoon after player room := by
  rcases soon with stored | ⟨position, state, rest, ahead⟩
  · left
    have change := Machine.step_cases step
    cases change with
    | @resumed task answer instruction rest block running current effect =>
        have executed : before.executed (.resume task answer : ServerChoice) =
            some instruction :=
          Config.executed_of_current current
        by_cases enters : ∃ state entered,
            instruction = .updateSessionState player state (some entered)
        · obtain ⟨state, entered, rfl⟩ := enters
          have same := allowed.entering player entered room _ executed
            (by simp [Instr.entersRoom]) plays
          cases effect
          simp [World.updateSessionState, World.updateRedis, Redis.updateSession, ← same, named,
            RedisSession.orNone]
        · push Not at enters
          exact (storedRoom_block effect (fun opened same => creates opened (same ▸ executed))
            enters).trans stored
    | failed current fallible => exact stored
    | @happened event world spawned effect =>
        cases ServerEvent.happens effect with
        | sessionExpires expired =>
            have different : player ≠ expired := by
              rintro rfl
              rw [allowed.expiring player rfl room] at plays
              cases plays
            simpa [World.updateRedis, Redis.updateSession, different] using stored
        | _ => exact stored
  · cases ahead.step (enters_keepsCourse.at _) step with
    | ahead _ planned => exact .inr ⟨position, state, rest, planned⟩
    | @reached answer block current effect world remaining others spawned =>
        cases effect
        left
        rw [world]
        simp [World.updateSessionState, World.updateRedis, Redis.updateSession,
          RedisSession.orNone, named]
    | failed current planned passed fallible world remaining others =>
        refine absurd ?_ (allowed.completing position _ rfl current player state room)
        rw [planned]
        simp

/-- The connection the player index leads to. -/
abbrev ServerConfig.Leads (config : ServerConfig) (player : PlayerId) (connection : ConnectionId) :
    Prop :=
  config.state.connections.playerConnections.lookup player = some connection

/-- A registered connection stays in the room, unless its player enters another
one or a room of the player is cleaned up. -/
theorem roomOf_step (connected : Connected before)
    (step : (server settings).step choice before = some after)
    (ledBefore : before.state.connections.playerConnections.lookup player = some connection)
    (leads : after.state.connections.playerConnections.lookup player = some connection)
    (inRoom : before.state.connections.roomOf connection = some room)
    (entering : ∀ entered instruction, before.executed choice = some instruction →
      instruction.entersRoom player entered = true → entered = room)
    (releasing : ∀ closing game, before.executed choice = some (.cleanupGame closing) →
      before.state.engine.find closing = some game → player ∉ game.playerIds) :
    after.state.connections.roomOf connection = some room := by
  have indexed := connected.indexed
  have joined {joining : PlayerId} {entered : RoomId}
      (own : joining = player → entered = room) :
      (before.state.connections.joinPlayer joining entered).roomOf connection = some room := by
    unfold ConnectionManager.joinPlayer
    split
    · rename_i info found
      obtain ⟨-, listed, stored⟩ := indexed.getConnectionByPlayer found
      rw [ConnectionManager.roomOf_joinRoom]
      split
      · rename_i same
        subst same
        rw [stored, own (indexed.injective listed ledBefore)]
        rfl
      · exact inRoom
    · exact inRoom
  have change := worldStep_of_step step
  generalize after.state = world at change leads
  cases change with
  | failed task => exact inRoom
  | happened effect => exact (ServerEvent.frame effect).2.2.2.1 ▸ inRoom
  | wrote executed writes =>
      cases writes with
      | register opening opened =>
          have unregistered := (connected.accepting (Config.mem_pending_of_executed executed)).2
          have different : connection ≠ opened := by
            rintro rfl
            rw [indexed player connection ledBefore] at unregistered
            cases unregistered
          simpa [World.updateConnections, ConnectionManager.roomOf_register, different] using inRoom
      | disconnect _ closed =>
          have different : connection ≠ closed := by
            rintro rfl
            exact indexed.not_indexed_disconnect player connection leads
          simpa [World.updateConnections, ConnectionManager.roomOf_disconnect, different]
            using inRoom
      | join joining entered =>
          exact joined fun same => entering entered _ executed (by simp [Instr.entersRoom, same])
      | resume resumed =>
          exact joined fun same => entering _ _ executed (by simp [Instr.entersRoom, same])
      | cleanUp found =>
          refine (ConnectionManager.roomOf_releaseAll indexed ?_).trans inRoom
          intro released listed led
          have same := indexed.injective led ledBefore
          exact releasing _ _ executed found (same ▸ listed)
      | _ => exact inRoom

end TerritoryBackend

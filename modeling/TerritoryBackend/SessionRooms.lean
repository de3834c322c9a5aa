import TerritoryBackend.Announcements

/-!
# The rooms named in sessions

A session names rooms of its own player only: the name is written by
`create_game`, read back by a later connection, and handed to
`handle_player_reconnect`.
-/

namespace TerritoryBackend

open EventLoop

/-- The room is taken, and whatever game it has or gets is one of the player's. -/
structure Belongs (config : ServerConfig) (player : PlayerId) (room : RoomId) : Prop where
  drawn : room ∈ config.state.roomIds
  plays : ∀ game, config.state.engine.games room = some game → player ∈ game.playerIds
  willPlay : ∀ pair, .createGame room pair ∈ config.pending → player ∈ pair.playerIds

/-- The player and the room an instruction takes from or writes to a session. -/
def Instr.names : Instr → Option (PlayerId × RoomId)
  | .updateSessionState player _ (some room) | .attemptReconnectWrite player _ (some room)
  | .handlePlayerReconnect room player => some (player, room)
  | _ => none

/-- Whatever names a room names one of the player's. -/
structure NamesOwnRooms (config : ServerConfig) : Prop where
  stored : ∀ player room,
    SessionManager.storedRoom (config.state.redis.sessions player) = some room →
    Belongs config player room
  pending : ∀ instruction ∈ config.pending, ∀ player room,
    instruction.names = some (player, room) → Belongs config player room

/-- A direct call of `handle_player_reconnect` is for a player of the room. -/
def ReconnectsPlayers (choice : ServerChoice) (config : ServerConfig) : Prop :=
  ∀ room player, choice = .event (.callHandlePlayerReconnect room player) →
    ∃ game, config.state.engine.games room = some game ∧ player ∈ game.playerIds

variable {settings : Settings} {choice : ServerChoice} {before after : ServerConfig}
  {player : PlayerId} {room : RoomId}

theorem Registered.drawn {config : ServerConfig} (registered : Registered config)
    (known : (∃ pair, .createGame room pair ∈ config.pending) ∨
      (config.state.engine.games room).isSome = true) : room ∈ config.state.roomIds := by
  have once := registered.once room
  by_contra undrawn
  simp only [registrations, undrawn, not_false_eq_true, decide_true, Bool.toNat_true] at once
  rcases known with ⟨pair, pending⟩ | known
  · have weight := weight_le_weigh (Instr.registers room) pending
    simp only [Instr.registers, if_true] at weight
    omega
  · rw [known, Bool.toNat_true] at once
    omega

theorem belongs_of_stored (registered : Registered before)
    {game : ActiveGame} (stored : before.state.engine.games room = some game)
    (plays : player ∈ game.playerIds) :
    Belongs before player room := by
  constructor
  · apply registered.drawn
    right
    rw [stored]
    rfl
  · intro found same
    cases stored.symm.trans same
    exact plays
  · intro pair creating
    have unknown := (registered.unregistered creating).1
    rw [stored] at unknown
    cases unknown

theorem roomIds_step (step : (server settings).step choice before = some after)
    (drawn : room ∈ before.state.roomIds) : room ∈ after.state.roomIds := by
  have change := worldStep_of_step step
  generalize after.state = world at change
  cases change with
  | wrote executed writes =>
      rcases writes.roomIds with same | ⟨_, _, -, -, rfl⟩
      · exact same ▸ drawn
      · exact List.mem_cons_of_mem _ drawn
  | failed task => exact drawn
  | happened effect => exact (ServerEvent.frame effect).2.1 ▸ drawn

theorem createGame_before (step : (server settings).step choice before = some after)
    {pair : MatchedPair} (pending : .createGame room pair ∈ after.pending)
    (drawn : room ∈ before.state.roomIds) : .createGame room pair ∈ before.pending := by
  rcases registering_before step pending with old | ⟨-, fresh⟩
  · exact old
  · exact absurd drawn fresh

theorem belongs_step (belongs : Belongs before player room)
    (step : (server settings).step choice before = some after) :
    Belongs after player room where
  drawn := roomIds_step step belongs.drawn
  plays game stored := by
    rcases gameChange_of_step step room with ⟨games, -⟩ | ⟨instruction, executed, change⟩
    · exact belongs.plays game (games ▸ stored)
    rcases change.players stored with ⟨old, known, same⟩ | ⟨pair, rfl, rfl⟩
    · exact same ▸ belongs.plays old known
    · exact belongs.willPlay pair (Config.mem_pending_of_executed executed)
  willPlay pair pending := belongs.willPlay pair (createGame_before step pending belongs.drawn)

theorem belongs_created (registered : Registered before)
    (step : (server settings).step choice before = some after) {pair : MatchedPair}
    (executed : before.executed choice = some (.createGame room pair))
    (plays : player ∈ pair.playerIds) : Belongs after player room := by
  have stored : after.state.engine.games room =
      some (ActiveGame.create room pair.playerIds pair.playerElos before.state.clock) := by
    obtain ⟨answer, block, effect, state⟩ := Machine.block_of_executed step executed
    cases effect
    rw [state]
    simp [World.createGame, GameEngine.createMatchedGame]
  refine ⟨roomIds_step step (registered.drawn
    (.inl ⟨pair, Config.mem_pending_of_executed executed⟩)), ?_, ?_⟩
  · intro game found
    cases stored.symm.trans found
    exact plays
  · intro other pending
    have unknown := ((registered.step step).unregistered pending).1
    rw [stored] at unknown
    cases unknown

theorem storedRoom_of_writes {world after : World} {instruction : Instr}
    (writes : instruction.Writes settings world after)
    (names : SessionManager.storedRoom (after.redis.sessions player) = some room) :
    SessionManager.storedRoom (world.redis.sessions player) = some room ∨
      instruction.names = some (player, room) := by
  have elsewhere {written : PlayerId} {key : SessionKey} (other : player ≠ written)
      (names : SessionManager.storedRoom
        (Function.update world.redis.sessions written key player) = some room) :
      SessionManager.storedRoom (world.redis.sessions player) = some room := by
    rwa [Function.update_of_ne other] at names
  cases writes with
  | session instruction written command keepsRoom =>
      by_cases same : player = written
      · subst same
        simp only [World.updateRedis, Redis.updateSession, Function.update_self] at names
        rcases keepsRoom (world.redis.sessions player) with kept | lost
        · exact .inl (kept ▸ names)
        · rw [lost] at names
          cases names
      · exact .inl (elsewhere same names)
  | sessionRoom written state named =>
      by_cases same : player = written
      · subst same
        simp only [World.updateRedis, Redis.updateSession, Function.update_self,
          SessionManager.storedRoom_updateSessionState, RedisSession.orNone] at names
        split at names
        · cases names
        · exact .inr (by simpa [Instr.names] using names)
      · exact .inl (elsewhere same names)
  | _ => exact .inl names

theorem storedRoom_of_event {event : ServerEvent} {world after : World}
    {spawned : List (List Instr)} (effect : event.effect world = some (after, spawned))
    (names : SessionManager.storedRoom (after.redis.sessions player) = some room) :
    SessionManager.storedRoom (world.redis.sessions player) = some room := by
  cases ServerEvent.happens effect with
  | sessionExpires expired =>
      by_cases same : player = expired
      · subst same
        simp only [World.updateRedis, Redis.updateSession, Function.update_self] at names
        rcases SessionManager.storedRoom_lapse (world.redis.sessions player) with kept | lost
        · exact kept ▸ names
        · rw [lost] at names
          cases names
      · simpa [World.updateRedis, Redis.updateSession, same] using names
  | _ => exact names

theorem names_quiet {instruction : Instr} (isQuiet : instruction.quiet = true) :
    instruction.names = none := by
  cases instruction with
  | attemptReconnectWrite | handlePlayerReconnect => cases isQuiet
  | updateSessionState player state room =>
      cases room with
      | none => rfl
      | some room => cases isQuiet
  | _ => rfl

theorem names_attemptReconnectWrite (player : PlayerId) (connection : ConnectionId)
    (room : Option RoomId) :
    (Instr.attemptReconnectWrite player connection room).names =
      room.map fun named => (player, named) := by
  cases room <;> rfl

theorem NamesOwnRooms.step (own : NamesOwnRooms before) (registered : Registered before)
    (calls : ReconnectsPlayers choice before)
    (step : (server settings).step choice before = some after) : NamesOwnRooms after where
  stored player room names := by
    have change := worldStep_of_step step
    generalize same : after.state = world at change
    rw [same] at names
    refine belongs_step ?_ step
    cases change with
    | wrote executed writes =>
        rcases storedRoom_of_writes writes names with old | named
        · exact own.stored player room old
        · exact own.pending _ (Config.mem_pending_of_executed executed) player room named
    | failed task => exact own.stored player room names
    | happened effect => exact own.stored player room (storedRoom_of_event effect names)
  pending instruction pending player room names := by
    cases origin_of_step step pending with
    | pending _ member => exact belongs_step (own.pending instruction member player room names) step
    | quiet _ isQuiet => simp [names_quiet isQuiet] at names
    | yielded executed effect member yields =>
        have named := own.pending _ (Config.mem_pending_of_executed executed) player room
        cases yields with
        | quiet _ isQuiet => simp [names_quiet isQuiet] at names
        | stating plays =>
            cases names
            exact belongs_created registered step executed plays
        | reconnecting =>
            cases names
            exact belongs_step (named rfl) step
        | claiming claimed =>
            cases effect
            unfold World.attemptReconnectRead at member
            split at member
            · simp at member
            · rename_i session read
              split at member <;> simp at member
              subst member
              rw [names_attemptReconnectWrite, SessionManager.getSession_roomId read] at names
              obtain ⟨stored, read, same⟩ := Option.map_eq_some_iff.mp names
              cases same
              exact belongs_step (own.stored _ _ read) step
            · simp at member
        | _ => cases names
    | calledReconnect called reconnecting =>
        cases names
        obtain ⟨game, stored, plays⟩ := calls room player rfl
        exact belongs_step (belongs_of_stored registered stored plays) step
    | _ => cases names

/-- Every reachable configuration names rooms properly, when those named in
Redis at the start are taken. -/
theorem namesOwnRooms_of_reaches {redis : Redis} {roomIds : List RoomId}
    {guard : ServerChoice → ServerConfig → Prop}
    (calls : ∀ choice config, guard choice config → ReconnectsPlayers choice config)
    (taken : ∀ player room,
      SessionManager.storedRoom (redis.sessions player) = some room → room ∈ roomIds)
    {config : ServerConfig}
    (reached : (server settings).Reaches (booted redis roomIds) guard config) :
    NamesOwnRooms config := by
  induction reached with
  | start =>
      refine ⟨fun player room names => ⟨taken player room names, ?_, ?_⟩, ?_⟩
      · intro game stored
        cases stored
      · intro pair pending
        simp [booted, Config.pending] at pending
      · intro instruction pending player room names
        rcases List.mem_pair.mp pending with rfl | rfl <;> cases names
  | step reached allowed stepTo ih =>
      exact ih.step (registered_of_reaches reached) (calls _ _ allowed) stepTo

end TerritoryBackend

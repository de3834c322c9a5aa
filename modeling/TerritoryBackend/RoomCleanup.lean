import TerritoryBackend.ConnectionLifecycle
import TerritoryBackend.RoomMembers
import TerritoryBackend.SessionRooms

/-!
# The end of a room

`_cleanup_game` lets the players' connections leave whatever room they are in,
and five seconds later deletes the players' `player_room` keys whatever they
hold.  It leaves other rooms alone in runs where nobody enters a game before the
clean-up of their previous one is complete.
-/

namespace TerritoryBackend

open EventLoop

/-- What the end of a room has to leave alone: the games and the keys of other
rooms, the players' keys that hold another room, and the memberships there of
the connections that stay registered. -/
structure Undisturbed (room : RoomId) (before after : World) : Prop where
  games : ∀ other, other ≠ room → after.engine.find other = before.engine.find other
  keys : ∀ other, other ≠ room → after.redis.rooms other = before.redis.rooms other ∧
    after.redis.roomStates other = before.redis.roomStates other
  playerRooms : ∀ player other, other ≠ room →
    before.redis.playerRooms player = some other → after.redis.playerRooms player = some other
  members : ∀ connection other, other ≠ room → before.connections.Member connection other →
    (after.connections.connections.lookup connection).isSome = true →
    after.connections.Member connection other

namespace Instr

/-- The instruction belongs to `_handle_game_over` or `_cleanup_game` of the
room; the messages and sleeps there are not told from others. -/
def finishes (room : RoomId) : Instr → Bool
  | .handleGameOver closing | .sendGameOver closing _ _ | .createPersistTask closing _
  | .saveSnapshot closing | .setSnapshot closing _ | .cleanupGame closing
  | .deleteRoomKeys closing _ => decide (closing = room)
  | .sendPersonal .. | .awaitSend .. | .publish .. | .forceClose .. | .sleep ..
  | .wake .. => true
  | _ => false

/-- The instruction is about to put the player into the room, or to delete the
player's key on behalf of the room. -/
def engages (player : PlayerId) (room : RoomId) : Instr → Bool
  | .setPlayerRoom entering entered | .joinRoom entering entered =>
      decide (entering = player ∧ entered = room)
  | .deleteRoomKeys closing playerIds => decide (closing = room ∧ player ∈ playerIds)
  | _ => false

end Instr

/-- The player is in the room's registered game, being put into the room or
cleaned up after, or connected to it. -/
inductive Engaged (config : ServerConfig) (player : PlayerId) (room : RoomId) : Prop where
  | playing {game : ActiveGame} (found : config.state.engine.find room = some game)
      (plays : player ∈ game.playerIds)
  | pending {instruction : Instr} (member : instruction ∈ config.pending)
      (engages : instruction.engages player room = true)
  | connected (inRoom : config.state.connections.localRoom player = some room)

/-- Finishing a room leaves the others alone, and a player of a registered game
loses the key that names it by its expiry only. -/
def RoomsIndependent (settings : Settings) (start : ServerConfig)
    (guard : ServerChoice → ServerConfig → Prop) : Prop :=
  ∀ before choice after, (server settings).Reaches start guard before →
    guard choice before →
    (server settings).step choice before = some after →
    (∀ instruction room, before.executed choice = some instruction →
      instruction.finishes room = true → Undisturbed room before.state after.state) ∧
    ∀ player room game, before.state.engine.find room = some game →
      player ∈ game.playerIds → before.state.redis.playerRooms player = some room →
      after.state.redis.playerRooms player = some room ∨
        choice = .event (.playerRoomExpires player)

/-- Games are created for players who have to do with no other room, they are
removed when the keys of their players name them or nothing, and
`handle_player_reconnect` is called for players of the room. -/
structure PlayersFree (choice : ServerChoice) (config : ServerConfig) : Prop where
  creating : ∀ room pair, config.executed choice = some (.createGame room pair) →
    ∀ player ∈ pair.playerIds, ∀ other, Engaged config player other → other = room
  cleaning : ∀ room game, config.executed choice = some (.cleanupGame room) →
    config.state.engine.find room = some game →
    ∀ player ∈ game.playerIds, ∀ other, config.state.redis.playerRooms player = some other →
      other = room
  calling : ReconnectsPlayers choice config

variable {settings : Settings} {choice : ServerChoice} {before after : ServerConfig}
  {player : PlayerId} {room : RoomId}

theorem GameChange.found {world after : World} {instruction : Instr}
    (change : GameChange world room instruction after) {next : ActiveGame}
    (found : after.engine.find room = some next) :
    (∃ game, world.engine.find room = some game ∧ next.playerIds = game.playerIds) ∨
      ∃ pair, instruction = .createGame room pair ∧ next.playerIds = pair.playerIds := by
  obtain ⟨live, stored⟩ := GameEngine.find_eq_some.mp found
  cases change with
  | unchanged _ games kept =>
      exact .inl ⟨next, GameEngine.find_eq_some.mpr ⟨kept.mp live, games ▸ stored⟩, rfl⟩
  | created pair games =>
      rw [games] at stored
      cases stored
      exact .inr ⟨pair, rfl, rfl⟩
  | acted known passed games =>
      rw [games] at stored
      cases stored
      exact .inl ⟨_, known, (ActiveGame.processAction_frame passed).2.1⟩
  | paused _ known _ games | forfeited _ known _ games | resumed known games =>
      rw [games] at stored
      cases stored
      exact .inl ⟨_, known, rfl⟩
  | popped _ _ gone => exact absurd live gone

theorem localRoom_of_writes {world after : World} {instruction : Instr}
    (indexed : world.connections.Indexed) (writes : instruction.Writes settings world after)
    (inRoom : after.connections.localRoom player = some room) :
    world.connections.localRoom player = some room ∨ instruction = .joinRoom player room ∨
      (instruction = .handlePlayerReconnect room player ∧
        ∃ game, world.engine.find room = some game) := by
  cases writes with
  | register => exact .inl (ConnectionManager.localRoom_register inRoom)
  | disconnect => exact .inl (ConnectionManager.localRoom_disconnect inRoom)
  | join joining joined =>
      rcases ConnectionManager.localRoom_joinPlayer indexed inRoom with ⟨rfl, rfl⟩ | old
      · exact .inr (.inl rfl)
      · exact .inl old
  | cleanUp => exact .inl (ConnectionManager.localRoom_releaseAll inRoom)
  | resume resumed =>
      rcases ConnectionManager.localRoom_joinPlayer indexed inRoom with ⟨rfl, rfl⟩ | old
      · obtain ⟨game, found, -⟩ := GameEngine.handlePlayerReconnect_eq_some resumed
        exact .inr (.inr ⟨rfl, game, found⟩)
      · exact .inl old
  | _ => exact .inl inRoom

namespace Instr

theorem engages_quiet {instruction : Instr} (isQuiet : instruction.quiet = true)
    (player : PlayerId) (room : RoomId) : instruction.engages player room = false := by
  cases instruction with
  | setPlayerRoom | joinRoom | deleteRoomKeys => cases isQuiet
  | _ => rfl

theorem engages_of_yields {instruction next : Instr} (yields : instruction.Yields next)
    (engages : next.engages player room = true) :
    (∃ pair, instruction = .createGame room pair ∧ player ∈ pair.playerIds) ∨
      ∃ playerIds, instruction = .cleanupGame room ∧
        next = .deleteRoomKeys room playerIds ∧ player ∈ playerIds := by
  cases yields with
  | quiet _ isQuiet => simp [engages_quiet isQuiet] at engages
  | assigning plays | joining plays =>
      obtain ⟨rfl, rfl⟩ := of_decide_eq_true engages
      exact .inl ⟨_, rfl, plays⟩
  | deleting playerIds =>
      obtain ⟨rfl, member⟩ := of_decide_eq_true engages
      exact .inr ⟨playerIds, rfl, rfl, member⟩
  | _ => cases engages

end Instr

theorem cleanupGame_deletes {world : World} {block : Block World Instr} {answer : Answer}
    (effect : (Instr.cleanupGame room).block settings answer world = some block)
    {playerIds : List PlayerId}
    (member : .deleteRoomKeys room playerIds ∈ block.next ∨
      .deleteRoomKeys room playerIds ∈ block.spawned.flatten) :
    ∃ game, world.engine.find room = some game ∧ playerIds = game.playerIds := by
  cases Instr.block_leaves effect member with
  | deleting found => exact ⟨_, found, rfl⟩

/-- Nobody becomes engaged with a room but the players it is created for. -/
theorem engaged_before (connected : Connected before) (own : NamesOwnRooms before)
    (step : (server settings).step choice before = some after)
    (engaged : Engaged after player room) :
    Engaged before player room ∨
      ∃ pair, before.executed choice = some (.createGame room pair) ∧
        player ∈ pair.playerIds := by
  cases engaged with
  | playing found plays =>
      rcases gameChange_of_step step room with ⟨games, live⟩ | ⟨instruction, executed, change⟩
      · exact .inl (.playing ((GameEngine.find_congr games live).symm.trans found) plays)
      · rcases change.found found with ⟨game, known, same⟩ | ⟨pair, rfl, same⟩
        · exact .inl (.playing known (same ▸ plays))
        · exact .inr ⟨pair, executed, same ▸ plays⟩
  | pending member engages =>
      cases origin_of_step step member with
      | pending _ old => exact .inl (.pending old engages)
      | quiet _ isQuiet => simp [Instr.engages_quiet isQuiet] at engages
      | yielded executed effect member yields =>
          rcases Instr.engages_of_yields yields engages with
            ⟨pair, rfl, plays⟩ | ⟨playerIds, rfl, rfl, listed⟩
          · exact .inr ⟨pair, executed, plays⟩
          · obtain ⟨game, found, rfl⟩ := cleanupGame_deletes effect member
            exact .inl (.playing found listed)
      | _ => cases engages
  | connected inRoom =>
      have change := worldStep_of_step step
      generalize after.state = world at change inRoom
      cases change with
      | wrote executed writes =>
          have pending := Config.mem_pending_of_executed executed
          rcases localRoom_of_writes connected.indexed writes inRoom with
            old | rfl | ⟨rfl, game, found⟩
          · exact .inl (.connected old)
          · exact .inl (.pending pending (by simp [Instr.engages]))
          · have belongs := own.pending _ pending player room rfl
            exact .inl (.playing found (belongs.plays game (GameEngine.find_eq_some.mp found).2))
      | failed task => exact .inl (.connected inRoom)
      | happened effect =>
          exact .inl (.connected ((ServerEvent.frame effect).2.2.2.1 ▸ inRoom))

/-- A player is engaged with one room at most; a room being cleaned up is
registered no more, and the keys it deletes name it or nothing. -/
structure OneRoom (config : ServerConfig) : Prop where
  unique : ∀ player first second, Engaged config player first →
    Engaged config player second → first = second
  removed : ∀ room playerIds, .deleteRoomKeys room playerIds ∈ config.pending →
    room ∉ config.state.engine.live ∧ (config.state.engine.games room).isSome = true
  keyed : ∀ room playerIds, .deleteRoomKeys room playerIds ∈ config.pending →
    ∀ player ∈ playerIds, ∀ other, config.state.redis.playerRooms player = some other →
      other = room

theorem unique_step (connected : Connected before) (own : NamesOwnRooms before)
    (allowed : PlayersFree choice before) (one : OneRoom before)
    (step : (server settings).step choice before = some after) {first second : RoomId}
    (inFirst : Engaged after player first) (inSecond : Engaged after player second) :
    first = second := by
  rcases engaged_before connected own step inFirst,
    engaged_before connected own step inSecond with
    ⟨oldFirst | ⟨pair, creates, plays⟩, oldSecond | ⟨other, alsoCreates, alsoPlays⟩⟩
  · exact one.unique player first second oldFirst oldSecond
  · exact allowed.creating second other alsoCreates player alsoPlays first oldFirst
  · exact (allowed.creating first pair creates player plays second oldSecond).symm
  · cases creates.symm.trans alsoCreates
    rfl

/-- Who deletes the keys of a room removed its game before, or does so now. -/
theorem deleteRoomKeys_before (step : (server settings).step choice before = some after)
    {playerIds : List PlayerId} (pending : .deleteRoomKeys room playerIds ∈ after.pending) :
    .deleteRoomKeys room playerIds ∈ before.pending ∨
      ∃ game, before.executed choice = some (.cleanupGame room) ∧
        before.state.engine.find room = some game ∧ playerIds = game.playerIds := by
  cases origin_of_step step pending with
  | pending _ old => exact .inl old
  | quiet _ isQuiet => cases isQuiet
  | yielded executed effect member yields =>
      cases yields with
      | quiet _ isQuiet => cases isQuiet
      | deleting =>
          obtain ⟨game, found, same⟩ := cleanupGame_deletes effect member
          exact .inr ⟨game, executed, found, same⟩

theorem removed_step (registered : Registered before)
    (removed : ∀ playerIds, .deleteRoomKeys room playerIds ∈ before.pending →
      room ∉ before.state.engine.live ∧ (before.state.engine.games room).isSome = true)
    (step : (server settings).step choice before = some after) {playerIds : List PlayerId}
    (pending : .deleteRoomKeys room playerIds ∈ after.pending) :
    room ∉ after.state.engine.live ∧ (after.state.engine.games room).isSome = true := by
  rcases deleteRoomKeys_before step pending with old | ⟨game, executed, found, -⟩
  · obtain ⟨gone, known⟩ := removed playerIds old
    exact registered.removed_step step gone known
  · obtain ⟨answer, block, effect, state⟩ := Machine.block_of_executed step executed
    cases effect
    rw [state]
    simp [World.cleanupGame, found, (GameEngine.find_eq_some.mp found).2]

theorem playerRoom_of_writes {world after : World} {instruction : Instr}
    (writes : instruction.Writes settings world after)
    (holds : after.redis.playerRooms player = some room) :
    world.redis.playerRooms player = some room ∨ instruction = .setPlayerRoom player room := by
  cases writes with
  | setRoom written named =>
      by_cases same : player = written
      · subst same
        simp only [World.updateRedis, Redis.setPlayerRoom, Function.update_self,
          Option.some.injEq] at holds
        exact .inr (holds ▸ rfl)
      · simp only [World.updateRedis, Redis.setPlayerRoom, Function.update_of_ne same] at holds
        exact .inl holds
  | deleteKeys closing playerIds =>
      simp only [World.updateRedis, Redis.deleteRoomKeys] at holds
      split at holds
      · cases holds
      · exact .inl holds
  | _ => exact .inl holds

theorem playerRoom_of_event (player : PlayerId) {event : ServerEvent} {world after : World}
    {spawned : List (List Instr)} (effect : event.effect world = some (after, spawned)) :
    after.redis.playerRooms player = world.redis.playerRooms player ∨
      event = .playerRoomExpires player ∧ after.redis.playerRooms player = none := by
  cases ServerEvent.happens effect with
  | playerRoomExpires expired =>
      by_cases same : player = expired
      · subst same
        exact .inr ⟨rfl, by simp [World.updateRedis]⟩
      · exact .inl (by simp [World.updateRedis, same])
  | _ => exact .inl rfl

theorem playerRoom_before (step : (server settings).step choice before = some after)
    (holds : after.state.redis.playerRooms player = some room) :
    before.state.redis.playerRooms player = some room ∨
      before.executed choice = some (.setPlayerRoom player room) := by
  have change := worldStep_of_step step
  generalize after.state = world at change holds
  cases change with
  | wrote executed writes =>
      rcases playerRoom_of_writes writes holds with old | rfl
      · exact .inl old
      · exact .inr executed
  | failed task => exact .inl holds
  | happened effect =>
      rcases playerRoom_of_event player effect with same | ⟨-, gone⟩
      · exact .inl (same ▸ holds)
      · rw [gone] at holds
        cases holds

theorem keyed_step (allowed : PlayersFree choice before) (one : OneRoom before)
    (step : (server settings).step choice before = some after) {playerIds : List PlayerId}
    (pending : .deleteRoomKeys room playerIds ∈ after.pending) (listed : player ∈ playerIds)
    {other : RoomId} (holds : after.state.redis.playerRooms player = some other) :
    other = room := by
  rcases deleteRoomKeys_before step pending with old | ⟨game, executed, found, rfl⟩
  · rcases playerRoom_before step holds with kept | writes
    · exact one.keyed room playerIds old player listed other kept
    · exact one.unique player other room
        (.pending (Config.mem_pending_of_executed writes) (by simp [Instr.engages]))
        (.pending old (by simp [Instr.engages, listed]))
  · rcases playerRoom_before step holds with kept | writes
    · exact allowed.cleaning room game executed found player listed other kept
    · cases executed.symm.trans writes

section Runs

variable {redis : Redis} {roomIds : List RoomId} {config : ServerConfig}

theorem oneRoom_of_reaches
    (taken : ∀ player room,
      SessionManager.storedRoom (redis.sessions player) = some room → room ∈ roomIds)
    (reached : (server settings).Reaches (booted redis roomIds) PlayersFree config) :
    OneRoom config := by
  induction reached with
  | start =>
      constructor
      · intro player first second inFirst _
        cases inFirst with
        | playing found => cases found
        | pending member engages =>
            rcases List.mem_pair.mp member with rfl | rfl <;> cases engages
        | connected inRoom => cases inRoom
      · intro room playerIds pending
        simp [booted, Config.pending] at pending
      · intro room playerIds pending
        simp [booted, Config.pending] at pending
  | step reached allowed step one =>
      have own := namesOwnRooms_of_reaches (fun _ _ free => free.calling) taken reached
      exact
        { unique := fun _ _ _ => unique_step (connected_of_reaches reached) own allowed one step
          removed := fun room _ =>
            removed_step (registered_of_reaches reached) (one.removed room) step
          keyed := fun _ _ pending _ listed _ => keyed_step allowed one step pending listed }

end Runs

/-- Finishing a room disturbs no other when the players it cleans up after are
in no other room and their keys name no other. -/
theorem undisturbed_of_writes {world after : World} {instruction : Instr}
    (indexed : world.connections.Indexed)
    (writes : instruction.Writes settings world after)
    (finishes : instruction.finishes room = true)
    (releases : ∀ game, world.engine.find room = some game → ∀ player ∈ game.playerIds,
      ∀ other, world.connections.localRoom player = some other → other = room)
    (deletes : ∀ playerIds, instruction = .deleteRoomKeys room playerIds →
      ∀ player ∈ playerIds, ∀ other, world.redis.playerRooms player = some other →
        other = room) : Undisturbed room world after := by
  cases writes with
  | disconnect _ connection =>
      refine ⟨fun _ _ => rfl, fun _ _ => ⟨rfl, rfl⟩, fun _ _ _ holds => holds,
        fun member other _ inside stays =>
          (ConnectionManager.member_disconnect _ connection member other).mpr ⟨inside, ?_⟩⟩
      rintro ⟨-, rfl⟩
      have gone := ConnectionManager.owner_disconnect world.connections member member
      rw [if_pos rfl] at gone
      simp only [World.updateConnections, Option.map_eq_none_iff.mp gone] at stays
      cases stays
  | snapshot closing document =>
      cases of_decide_eq_true finishes
      refine ⟨fun _ _ => rfl, fun other different => ⟨rfl, ?_⟩, fun _ _ _ holds => holds,
        fun _ _ _ inside _ => inside⟩
      simp [World.updateRedis, different]
  | @cleanUp closing game found =>
      cases of_decide_eq_true finishes
      constructor
      · intro other different
        exact GameEngine.find_pop different
      · exact fun _ _ => ⟨rfl, rfl⟩
      · intro _ _ _ holds
        exact holds
      · intro connection other different inside _
        exact ConnectionManager.member_releaseAll indexed
          (fun player plays inRoom => different (releases game found player plays other inRoom))
          inside
  | deleteKeys closing playerIds =>
      cases of_decide_eq_true finishes
      constructor
      · exact fun _ _ => rfl
      · intro other different
        simp [World.updateRedis, Redis.deleteRoomKeys, different]
      · intro player other different holds
        have spared : player ∉ playerIds := fun listed =>
          different (deletes playerIds rfl player listed other holds)
        simpa [World.updateRedis, Redis.deleteRoomKeys, spared] using holds
      · intro _ _ _ inside _
        exact inside
  | nothing | sent | published | session | declare | persistTask =>
      constructor
      · exact fun _ _ => rfl
      · exact fun _ _ => ⟨rfl, rfl⟩
      · intro _ _ _ holds
        exact holds
      · intro _ _ _ inside _
        exact inside
  | _ => cases finishes

theorem playerRoom_kept (one : OneRoom before)
    (step : (server settings).step choice before = some after) {game : ActiveGame}
    (found : before.state.engine.find room = some game) (plays : player ∈ game.playerIds)
    (holds : before.state.redis.playerRooms player = some room) :
    after.state.redis.playerRooms player = some room ∨
      choice = .event (.playerRoomExpires player) := by
  have only {instruction : Instr} {other : RoomId}
      (pending : instruction ∈ before.pending) (engages : instruction.engages player other = true) :
      other = room :=
    one.unique player other room (.pending pending engages) (.playing found plays)
  have change := worldStep_of_step step
  generalize after.state = world at change
  cases change with
  | wrote executed writes =>
      have pending := Config.mem_pending_of_executed executed
      left
      cases writes with
      | setRoom written named =>
          by_cases same : player = written
          · subst same
            have named : named = room := only pending (by simp [Instr.engages])
            simp [World.updateRedis, Redis.setPlayerRoom, named]
          · simpa [World.updateRedis, Redis.setPlayerRoom, same] using holds
      | deleteKeys closing playerIds =>
          have spared : player ∉ playerIds := by
            intro listed
            have same : closing = room := only pending (by simp [Instr.engages, listed])
            exact (one.removed closing playerIds pending).1
              (same ▸ (GameEngine.find_eq_some.mp found).1)
          simpa [World.updateRedis, Redis.deleteRoomKeys, spared] using holds
      | _ => exact holds
  | failed task => exact .inl holds
  | happened effect =>
      rcases playerRoom_of_event player effect with same | ⟨rfl, -⟩
      · exact .inl (same ▸ holds)
      · exact .inr rfl

/-- Main result: rooms are independent as long as players enter a game only
when the clean-up of their previous one is complete. -/
theorem roomsIndependent_of_playersFree (settings : Settings) (redis : Redis)
    (roomIds : List RoomId)
    (taken : ∀ player room,
      SessionManager.storedRoom (redis.sessions player) = some room → room ∈ roomIds) :
    RoomsIndependent settings (booted redis roomIds) PlayersFree := by
  intro before choice after reached allowed step
  have one := oneRoom_of_reaches taken reached
  refine ⟨?_, fun player room game found plays holds => playerRoom_kept one step found plays holds⟩
  intro instruction room executed finishes
  have pending := Config.mem_pending_of_executed executed
  obtain ⟨answer, block, effect, state⟩ := Machine.block_of_executed step executed
  have effect : instruction.block settings answer before.state = some block := effect
  rw [state]
  refine undisturbed_of_writes (connected_of_reaches reached).indexed (Instr.block_writes effect)
    finishes ?_ ?_
  · intro game found player plays other inRoom
    exact one.unique player other room (.connected inRoom) (.playing found plays)
  · rintro playerIds rfl
    exact one.keyed room playerIds pending

theorem roomsIndependent_of_playersFree_waitingRookies :
    RoomsIndependent { instanceId := "inst-1" } (booted waitingRookies []) PlayersFree :=
  roomsIndependent_of_playersFree _ waitingRookies [] fun _ _ stored => nomatch stored

/-- Ada forfeits a game against Bob, and the two are matched again before the
keys of the first room are deleted. -/
def rematch : List ServerChoice :=
  openConnection "ada" "conn-1" 2 7 ++ openConnection "bob" "conn-2" 3 7 ++
    formMatch "room-1" 21 ++ .resume 2 .closed :: proceed 2 8 ++ proceed 4 1 ++
    .event (.advance 30) :: proceed 4 13 ++ openConnection "ada" "conn-3" 6 9 ++
    findMatch 6 10 ++ findMatch 3 10 ++ proceed 0 1 ++ formMatch "room-2" 13 ++
    .event (.advance 5) :: proceed 4 1

/-- The clean-up of the first room deletes the key that names the second. -/
theorem rematch_not_independent :
    ¬ RoomsIndependent { instanceId := "inst-1" } (booted waitingRookies []) unguarded := by
  intro independent
  let machine := server { instanceId := "inst-1" }
  let choice : ServerChoice := .resume 4 .done
  have deleted : (machine.run rematch (booted waitingRookies [])).any (fun before =>
      (machine.step choice before).any fun after =>
        (before.executed choice).any (fun instruction => instruction.finishes "room-1") &&
        decide (before.state.redis.playerRooms "ada" = some "room-2") &&
          decide (after.state.redis.playerRooms "ada" = none)) = true := by decide +kernel
  obtain ⟨before, executed, holds⟩ := Option.any_eq_true _ _ |>.mp deleted
  obtain ⟨after, step, holds⟩ := Option.any_eq_true _ _ |>.mp holds
  simp only [Bool.and_eq_true, decide_eq_true_eq] at holds
  obtain ⟨⟨finishes, held⟩, gone⟩ := holds
  obtain ⟨instruction, resumed, finishes⟩ := Option.any_eq_true _ _ |>.mp finishes
  have undisturbed := (independent before choice after
    (Machine.reaches_of_run .start executed) trivial step).1 instruction "room-1" resumed finishes
  have kept := undisturbed.playerRooms "ada" "room-2" (by decide) held
  rw [gone] at kept
  cases kept

end TerritoryBackend

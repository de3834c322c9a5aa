import TerritoryBackend.Coroutines
import TerritoryBackend.RoomCleanup
import TerritoryBackend.StatusMachine

/-!
# Players waiting for a match

The script pops a pair for good.  Until both `player_room` keys are set, only the
coroutine of the matching loop knows the two players, and an exception there
forgets them.  As long as no such exception occurs, a player who waits is in the
queue or has been given a game.
-/

namespace TerritoryBackend

open EventLoop

/-- What is observed of a step for the players who wait. -/
inductive WaitEvent where
  | enqueued (player : PlayerId)
  /-- the player cancels or disconnects -/
  | left (player : PlayerId)
  /-- a game of these players is over -/
  | finished (playerIds : List PlayerId)

def observeWaiting (choice : ServerChoice) (config : ServerConfig) : List WaitEvent :=
  match config.executed choice with
  | some (.enqueuePlayer player _) => [.enqueued player]
  | some (.dequeuePlayer player _) | some (.handleDisconnect player _) => [.left player]
  | some (.handleGameOver room) =>
      ((config.state.engine.games room).map fun game => WaitEvent.finished game.playerIds).toList
  | _ => []

/-- Whether the player waits after an event, given whether before. -/
def WaitEvent.waits (player : PlayerId) (waiting : Bool) : WaitEvent → Bool
  | .enqueued queued => waiting || decide (queued = player)
  | .left leaving => waiting && decide (leaving ≠ player)
  | .finished playerIds => waiting && decide (player ∉ playerIds)

/-- The player was enqueued and has neither cancelled nor disconnected nor
finished a game since. -/
def waitsAfter (player : PlayerId) (log : List WaitEvent) : Bool :=
  log.foldl (WaitEvent.waits player) false

/-- The player is queued with a timestamp. -/
def World.Queued (world : World) (player : PlayerId) : Prop :=
  (world.redis.matchmaking.queue.lookup player).isSome = true ∧
    (world.redis.matchmaking.timestamps.lookup player).isSome = true

/-- The player is one of the two players of a registered game, and the keys of
both name it. -/
def World.Seated (world : World) (player : PlayerId) : Prop :=
  ∃ room game first second, world.engine.find room = some game ∧
    game.playerIds = [first, second] ∧ (player = first ∨ player = second) ∧
    world.redis.playerRooms first = some room ∧ world.redis.playerRooms second = some room

/-- A match to be created, or the key of one of its players to be set. -/
def Instr.seats : Instr → Bool
  | .createMatch .. | .createGame .. | .setPlayerRoom .. => true
  | _ => false

/-- No exception interrupts the creation of a match before the keys of its players
are set, these keys do not expire during the game, and players enter a game only
when the clean-up of their previous one is complete. -/
structure SeatsMatched (choice : ServerChoice) (config : ServerConfig) : Prop where
  completes : ∀ task current, choice = .fail task → config.tasks[task]? = some current →
    ∀ instruction ∈ current, instruction.seats = false
  keyed : ∀ player, choice = .event (.playerRoomExpires player) →
    ∀ room game, config.state.engine.find room = some game → player ∉ game.playerIds
  free : PlayersFree choice config

/-- Whenever the matching loop is idle, every player who waits is queued or
seated.  At the start, sessions name only rooms that are taken. -/
def NobodyLost (settings : Settings) (guard : ServerChoice → ServerConfig → Prop) : Prop :=
  ∀ redis roomIds,
    (∀ player room, SessionManager.storedRoom (redis.sessions player) = some room →
      room ∈ roomIds) →
    ∀ log config,
      (server settings).Logged (booted redis roomIds) guard observeWaiting log config →
      LoopIdle config → ∀ player, waitsAfter player log = true →
        config.state.Queued player ∨ config.state.Seated player

variable {settings : Settings} {choice : ServerChoice} {before after : ServerConfig}
  {player : PlayerId} {room : RoomId}

/-- The matching loop, or a block of the creation of a match. -/
def Instr.loops : Instr → Bool
  | .matchingLoop | .createMatch .. | .createGame .. | .setPlayerRoom .. => true
  | _ => false

theorem loops_before {instruction next : Instr} {answer : Answer} {world : World}
    {block : Block World Instr} (effect : instruction.block settings answer world = some block)
    (member : next ∈ block.next ∨ next ∈ block.spawned.flatten) (loops : next.loops = true) :
    instruction.loops = true := by
  cases Instr.block_leaves effect member with
  | matched | matching | registering | assigning => rfl
  | unsendable goesOn | handingOn _ goesOn =>
      rcases Instr.mem_afterSend_next goesOn with rfl | ⟨_, _, -, rfl | ⟨_, rfl⟩⟩ <;> cases loops
  | _ => cases loops

theorem loops_spawned {instruction : Instr} {answer : Answer} {world : World}
    {block : Block World Instr} (effect : instruction.block settings answer world = some block) :
    ∀ next ∈ block.spawned.flatten, next.loops = false := by
  intro next member
  by_contra loops
  have possible := loops_before effect (.inr member) (Bool.of_not_eq_false loops)
  rcases Instr.block_spawned effect with nothing | ⟨_, _, rfl⟩ | ⟨_, _, _, rfl⟩
  · simp [nothing] at member
  · cases possible
  · cases possible

/-- The matching loop is the first coroutine. -/
abbrev LoopFirst (config : ServerConfig) : Prop :=
  Apart 0 (fun instruction : Instr => instruction.loops = false) config.tasks

theorem LoopFirst.step (first : LoopFirst before)
    (step : (server settings).step choice before = some after) : LoopFirst after := by
  refine Apart.step first step
    (fun instruction answer block _ effect => ⟨fun plain next member => ?_, loops_spawned effect⟩)
    (fun task plain next member => ?_) fun event state spawned _ effect => ?_
  · by_contra loops
    rw [Bool.not_eq_false] at loops
    rw [loops_before effect (.inl member) loops] at plain
    cases plain
  · rcases Instr.unwind_cases member with
      ⟨owner, opened, -, rfl⟩ | ⟨loop, seconds, present, rfl | rfl, rfl | rfl⟩
    · rfl
    · rfl
    · cases plain _ present
    · rfl
    · rfl
  · intro next member
    have effect : event.effect before.state = some (state, spawned) := effect
    cases ServerEvent.happens effect with
    | accept | callProcessAction | callHandlePlayerDisconnect | callHandlePlayerReconnect =>
        simp at member
        exact member ▸ rfl
    | sessionExpires | playerRoomExpires | roomStateExpires | advance => simp at member

theorem loopFirst_of_reaches {redis : Redis} {roomIds : List RoomId}
    {guard : ServerChoice → ServerConfig → Prop} {config : ServerConfig}
    (reached : (server settings).Reaches (booted redis roomIds) guard config) :
    LoopFirst config := by
  refine reached.invariant ?_ fun _ _ _ _ first step => LoopFirst.step first step
  intro other list found elsewhere
  match other with
  | 0 => exact absurd rfl elsewhere
  | 1 =>
      cases found
      simp [Instr.loops]
  | other + 2 => cases found

/-- The blocks between the pop of a pair and the creation of its game. -/
def Instr.offers : Instr → Bool
  | .storeRoom .. | .offerMatch .. | .sendPersonal .. | .awaitSend .. | .forceClose ..
  | .publish .. => true
  | _ => false

/-- The blocks that put the players of a new game in its room. -/
def Instr.enters : Instr → Bool
  | .setPlayerRoom .. | .updateSessionState .. | .joinRoom .. => true
  | _ => false

abbrev LoopOffers (config : ServerConfig) (plan : List Instr) : Prop :=
  Planned (fun instruction : Instr => instruction.offers = true) 0 plan config.tasks

abbrev LoopEnters (config : ServerConfig) (plan : List Instr) : Prop :=
  Planned (fun instruction : Instr => instruction.enters = true) 0 plan config.tasks

/-- The key of the player names the room, or the matching loop is about to set
it. -/
def KeyedSoon (config : ServerConfig) (player : PlayerId) (room : RoomId) : Prop :=
  config.state.redis.playerRooms player = some room ∨
    ∃ rest, LoopEnters config (.setPlayerRoom player room :: rest)

/-- Where a player who waits may be. -/
inductive Placed (config : ServerConfig) (player : PlayerId) : Prop where
  | queued (queued : config.state.Queued player)
  | matched (pair : MatchedPair) (rest : List Instr) (plays : player ∈ pair.playerIds)
      (ahead : LoopOffers config (.createMatch pair :: rest))
  | offered (room : RoomId) (pair : MatchedPair) (rest : List Instr)
      (plays : player ∈ pair.playerIds)
      (ahead : LoopOffers config (.createGame room pair :: rest))
  | seated (room : RoomId) (game : ActiveGame) (first second : PlayerId)
      (found : config.state.engine.find room = some game)
      (players : game.playerIds = [first, second]) (plays : player = first ∨ player = second)
      (unfinished : .cleanupGame room ∉ config.pending)
      (firstKey : KeyedSoon config first room) (secondKey : KeyedSoon config second room)

theorem afterSend_offers {next : AfterSend} {recipient : PlayerId} {message : Message}
    {sent : Bool} {instruction : Instr} (member : instruction ∈ next.next recipient message sent) :
    instruction.offers = true := by
  rcases Instr.mem_afterSend_next member with rfl | ⟨told, text, -, rfl | ⟨later, rfl⟩⟩ <;> rfl

theorem offers_keepsCourse :
    (server settings).KeepsCourse fun instruction => instruction.offers = true := by
  intro instruction answer world block isOffer effect
  have effect : instruction.block settings answer world = some block := effect
  unfold Instr.offers at isOffer
  split at isOffer
  · cases effect
    exact ⟨rfl, by simp [World.storeRoom]⟩
  · simp only [Instr.block, World.offerMatch] at effect
    split at effect <;> cases effect
    exact ⟨rfl, by simp [Instr.offers]⟩
  · cases effect
    unfold World.sendPersonal
    split
    · exact ⟨rfl, by simp [Instr.offers]⟩
    · exact ⟨rfl, fun next member => afterSend_offers member⟩
  · simp only [Instr.block, World.awaitSend] at effect
    split at effect <;> cases effect
    · exact ⟨rfl, fun next member => afterSend_offers member⟩
    · refine ⟨rfl, ?_⟩
      intro next member
      rcases List.mem_cons.mp member with rfl | member
      · rfl
      · exact afterSend_offers member
    · exact ⟨rfl, fun next member => afterSend_offers member⟩
  · cases effect
    exact ⟨rfl, by simp [World.forceClose]⟩
  · cases World.publish_eq_some effect
    exact ⟨rfl, by simp⟩
  · cases isOffer

theorem enters_keepsCourse :
    (server settings).KeepsCourse fun instruction => instruction.enters = true := by
  intro instruction answer world block enters effect
  have effect : instruction.block settings answer world = some block := effect
  unfold Instr.enters at enters
  split at enters
  · cases effect
    exact ⟨rfl, by simp [World.setPlayerRoom]⟩
  · cases effect
    exact ⟨rfl, by simp [World.updateSessionState]⟩
  · cases effect
    exact ⟨rfl, by simp [World.joinRoom]⟩
  · cases enters

/-- The creation of a match does not fail. -/
theorem SeatsMatched.reliable (allowed : SeatsMatched choice before) {steady : Instr → Prop}
    {instruction : Instr} {rest : List Instr}
    (ahead : Planned steady 0 (instruction :: rest) before.tasks)
    (seats : instruction.seats = true) : choice ≠ .fail 0 := by
  rintro rfl
  obtain ⟨earlier, present, -⟩ := ahead
  have forgotten := allowed.completes 0 _ rfl present instruction (by simp)
  rw [seats] at forgotten
  cases forgotten

/-- The script pops a pair, or nothing happens to the queue. -/
theorem popped_step (first : LoopFirst before)
    (step : (server settings).step choice before = some after)
    (executed : before.executed choice = some .matchingLoop) :
    after.state = before.state ∨ ∃ queue pair rest,
      before.state.redis.matchmaking.tryMatch settings before.state.clock = (queue, some pair) ∧
        after.state = before.state.updateMatchmaking queue ∧
        after.tasks[0]? = some (.createMatch pair :: rest) := by
  cases Machine.step_cases step with
  | failed current fallible => cases executed
  | happened effect => cases executed
  | @resumed task answer head rest block running current effect =>
      cases Config.eq_of_executed current executed
      have here : task = 0 := by
        by_contra elsewhere
        cases first task _ current elsewhere _ List.mem_cons_self
      subst here
      obtain ⟨bound, -⟩ := List.getElem?_eq_some_iff.mp current
      have effect : before.state.matchingLoop settings answer = some block := effect
      simp only [World.matchingLoop] at effect
      (repeat' split at effect) <;> cases effect
      · rename_i queue pair matched
        right
        refine ⟨queue, pair, .matchingLoop :: rest, matched, rfl, ?_⟩
        rw [List.getElem?_append_left (by simpa using bound), List.getElem?_set_self bound]
        rfl
      · rename_i queue unmatched
        rw [MatchmakingQueue.tryMatch_eq_none unmatched]
        exact .inl rfl
      · exact .inl rfl

theorem queued_enqueue {eloRating : Int}
    (step : (server settings).step choice before = some after)
    (executed : before.executed choice = some (.enqueuePlayer player eloRating)) :
    after.state.Queued player := by
  obtain ⟨answer, block, effect, state⟩ := Machine.block_of_executed step executed
  cases effect
  rw [state]
  simp [World.Queued, World.enqueuePlayer, World.updateMatchmaking, World.updateRedis,
    MatchmakingQueue.enqueuePlayer]

theorem Placed.queued_step (first : LoopFirst before)
    (stays : ∀ event ∈ observeWaiting choice before, event.waits player true = true)
    (queued : before.state.Queued player)
    (step : (server settings).step choice before = some after) : Placed after player := by
  have change := worldStep_of_step step
  generalize same : after.state = world at change
  have kept (unchanged : world.redis.matchmaking = before.state.redis.matchmaking) :
      Placed after player := by
    refine .queued ?_
    unfold World.Queued
    rw [same, unchanged]
    exact queued
  cases change with
  | failed task => exact kept rfl
  | happened effect => exact kept (ServerEvent.frame effect).2.2.2.2
  | wrote executed writes =>
      cases writes with
      | enqueue enqueued eloRating =>
          by_cases isPlayer : player = enqueued
          · subst isPlayer
            exact .queued (queued_enqueue step executed)
          · refine .queued ?_
            rw [same]
            simpa [World.Queued, World.updateMatchmaking, World.updateRedis,
              MatchmakingQueue.enqueuePlayer, isPlayer] using queued
      | dequeue dequeued caller =>
          have isOther : player ≠ dequeued := by
            rintro rfl
            have left := stays (.left player) (by simp [observeWaiting, executed])
            simp [WaitEvent.waits] at left
          refine .queued ?_
          rw [same]
          simpa [World.Queued, World.updateMatchmaking, World.updateRedis,
            MatchmakingQueue.dequeuePlayer, isOther] using queued
      | pop matched =>
          rcases popped_step first step executed with
            unchanged | ⟨queue, pair, rest, popped, state, next⟩
          · exact kept (by rw [← same, unchanged])
          · by_cases plays : player ∈ pair.playerIds
            · exact .matched pair rest plays (.of_getElem? next)
            · obtain ⟨-, -, -, left, stamps⟩ := MatchmakingQueue.tryMatch_eq_some popped
              simp only [MatchedPair.playerIds, List.mem_cons, List.not_mem_nil, or_false,
                not_or] at plays
              refine .queued ?_
              rw [state]
              simpa [World.Queued, World.updateMatchmaking, World.updateRedis, left, stamps,
                plays] using queued
      | _ => exact kept rfl

theorem Placed.matched_step (allowed : SeatsMatched choice before) {pair : MatchedPair}
    {rest : List Instr} (plays : player ∈ pair.playerIds)
    (ahead : LoopOffers before (.createMatch pair :: rest))
    (step : (server settings).step choice before = some after) : Placed after player := by
  have reliable := allowed.reliable ahead rfl
  cases ahead.step (offers_keepsCourse.at _) step with
  | failed => exact absurd rfl reliable
  | ahead _ planned => exact .matched pair rest plays planned
  | @reached answer block executed effect state remaining others spawned =>
      have effect : before.state.createMatch pair answer = some block := effect
      simp only [World.createMatch] at effect
      (repeat' split at effect) <;> cases effect
      rename_i room fresh
      refine .offered room pair rest plays ⟨[.storeRoom room pair, .offerMatch room pair], ?_, ?_⟩
      · simpa [Machine.continuation] using remaining
      · simp [Instr.offers]

theorem Placed.offered_step (allowed : SeatsMatched choice before) (registered : Registered before)
    (closed : ClosedAfterEnd before) {pair : MatchedPair} {rest : List Instr}
    (plays : player ∈ pair.playerIds) (ahead : LoopOffers before (.createGame room pair :: rest))
    (step : (server settings).step choice before = some after) : Placed after player := by
  have reliable := allowed.reliable ahead rfl
  cases ahead.step (offers_keepsCourse.at _) step with
  | failed => exact absurd rfl reliable
  | ahead _ planned => exact .offered room pair rest plays planned
  | @reached answer block current effect state remaining others spawned =>
      have executed : before.executed (.resume 0 answer : ServerChoice) =
          some (.createGame room pair) :=
        Config.executed_of_current current
      have unregistered :=
        (registered.unregistered (Config.mem_pending_of_executed executed)).1
      cases effect
      obtain ⟨later, remaining⟩ : ∃ later, after.tasks[0]? =
          some (World.enterRoom room pair.playerA ++
            .setPlayerRoom pair.playerB room :: later) := ⟨_, remaining⟩
      refine .seated room
        (ActiveGame.create room pair.playerIds pair.playerElos before.state.clock) pair.playerA
        pair.playerB ?_ rfl (by simpa [MatchedPair.playerIds] using plays) ?_
        (.inr ⟨_, .of_getElem? remaining⟩)
        (.inr ⟨later, World.enterRoom room pair.playerA, remaining, ?_⟩)
      · rw [state]
        simp [World.createGame, GameEngine.createMatchedGame, GameEngine.find_eq_some]
      · intro cleaning
        cases origin_of_step step cleaning with
        | pending _ old =>
            obtain ⟨game, stored, -⟩ := closed.cleaning room old
            rw [unregistered] at stored
            cases stored
        | quiet _ isQuiet => cases isQuiet
        | yielded found effect member yields =>
            cases executed.symm.trans found
            cases yields with
            | quiet _ isQuiet => cases isQuiet
      · simp [World.enterRoom, Instr.enters]

/-- A registered game stays until it is cleaned up. -/
theorem find_after_step (registered : Registered before) {game : ActiveGame}
    (step : (server settings).step choice before = some after)
    (found : before.state.engine.find room = some game)
    (unfinished : .cleanupGame room ∉ before.pending) :
    ∃ next, after.state.engine.find room = some next ∧ next.playerIds = game.playerIds := by
  obtain ⟨present, stored⟩ := GameEngine.find_eq_some.mp found
  rcases gameChange_of_step step room with ⟨games, live⟩ | ⟨instruction, executed, change⟩
  · exact ⟨game, (GameEngine.find_congr games live).trans found, rfl⟩
  cases change with
  | unchanged _ games live =>
      exact ⟨game, (GameEngine.find_congr games live).trans found, rfl⟩
  | created pair games =>
      have new := (registered.unregistered (Config.mem_pending_of_executed executed)).1
      rw [stored] at new
      cases new
  | acted known passed games live =>
      cases found.symm.trans known
      exact ⟨_, GameEngine.find_eq_some.mpr ⟨live, games⟩,
        (ActiveGame.processAction_frame passed).2.1⟩
  | paused _ known _ games live | forfeited _ known _ games live | resumed known games live =>
      cases found.symm.trans known
      exact ⟨_, GameEngine.find_eq_some.mpr ⟨live, games⟩, rfl⟩
  | popped known games gone =>
      exact absurd (Config.mem_pending_of_executed executed) unfinished

theorem KeyedSoon.step (allowed : SeatsMatched choice before) (one : OneRoom before)
    {game : ActiveGame} (found : before.state.engine.find room = some game)
    (plays : player ∈ game.playerIds) (keyed : KeyedSoon before player room)
    (step : (server settings).step choice before = some after) : KeyedSoon after player room := by
  rcases keyed with holds | ⟨rest, ahead⟩
  · rcases playerRoom_kept one step found plays holds with kept | expired
    · exact .inl kept
    · exact absurd plays (allowed.keyed player expired room game found)
  · have reliable := allowed.reliable ahead rfl
    cases ahead.step (enters_keepsCourse.at _) step with
    | failed => exact absurd rfl reliable
    | ahead _ planned => exact .inr ⟨rest, planned⟩
    | @reached answer block current effect state remaining others spawned =>
        cases effect
        left
        rw [state]
        simp [World.setPlayerRoom, World.updateRedis, Redis.setPlayerRoom]

theorem Placed.seated_step (allowed : SeatsMatched choice before) (registered : Registered before)
    (one : OneRoom before)
    (stays : ∀ event ∈ observeWaiting choice before, event.waits player true = true)
    {game : ActiveGame} {first second : PlayerId}
    (found : before.state.engine.find room = some game) (players : game.playerIds = [first, second])
    (plays : player = first ∨ player = second) (unfinished : .cleanupGame room ∉ before.pending)
    (firstKey : KeyedSoon before first room) (secondKey : KeyedSoon before second room)
    (step : (server settings).step choice before = some after) : Placed after player := by
  obtain ⟨next, foundNext, same⟩ := find_after_step registered step found unfinished
  refine .seated room next first second foundNext (same.trans players) plays ?_
    (firstKey.step allowed one found (by simp [players]) step)
    (secondKey.step allowed one found (by simp [players]) step)
  intro cleaning
  cases origin_of_step step cleaning with
  | pending _ old => exact unfinished old
  | quiet _ isQuiet => cases isQuiet
  | yielded executed effect member yields =>
      cases yields with
      | quiet _ isQuiet => cases isQuiet
      | cleaning =>
          have ended := stays (.finished game.playerIds) (by
            simp [observeWaiting, executed, (GameEngine.find_eq_some.mp found).2])
          simp [WaitEvent.waits, players, plays] at ended

theorem Placed.step (placed : Placed before player) (allowed : SeatsMatched choice before)
    (first : LoopFirst before) (registered : Registered before) (closed : ClosedAfterEnd before)
    (one : OneRoom before)
    (stays : ∀ event ∈ observeWaiting choice before, event.waits player true = true)
    (step : (server settings).step choice before = some after) : Placed after player := by
  cases placed with
  | queued queued => exact .queued_step first stays queued step
  | matched pair rest plays ahead => exact .matched_step allowed plays ahead step
  | offered room pair rest plays ahead =>
      exact .offered_step allowed registered closed plays ahead step
  | seated room game first second found players plays unfinished firstKey secondKey =>
      exact .seated_step allowed registered one stays found players plays unfinished firstKey
        secondKey step

/-- A player who waits after a step waited before or was enqueued by it. -/
theorem waits_before {waiting : Bool}
    (waits : (observeWaiting choice before).foldl (WaitEvent.waits player) waiting = true) :
    (waiting = true ∧ ∀ event ∈ observeWaiting choice before, event.waits player true = true) ∨
      ∃ eloRating, before.executed choice = some (.enqueuePlayer player eloRating) := by
  unfold observeWaiting at waits ⊢
  split at waits
  · rename_i enqueued eloRating executed
    by_cases same : enqueued = player
    · subst same
      exact .inr ⟨eloRating, executed⟩
    · exact .inl (by simpa [WaitEvent.waits, same] using waits)
  · exact .inl (by simpa [WaitEvent.waits] using waits)
  · exact .inl (by simpa [WaitEvent.waits] using waits)
  · rename_i room executed
    cases stored : before.state.engine.games room with
    | none => exact .inl (by simpa [stored] using waits)
    | some game => exact .inl (by simpa [stored, WaitEvent.waits] using waits)
  · exact .inl (by simpa using waits)

theorem placed_of_logged {redis : Redis} {roomIds : List RoomId} {log : List WaitEvent}
    {config : ServerConfig}
    (taken : ∀ player room, SessionManager.storedRoom (redis.sessions player) = some room →
      room ∈ roomIds)
    (logged : (server settings).Logged (booted redis roomIds) SeatsMatched observeWaiting log
      config)
    (waits : waitsAfter player log = true) : Placed config player := by
  induction logged with
  | start => cases waits
  | @step choice before after log logged allowed step ih =>
      unfold waitsAfter at waits ih
      rw [List.foldl_append] at waits
      rcases waits_before waits with ⟨before, stays⟩ | ⟨eloRating, enqueued⟩
      · have reached := logged.reaches
        exact (ih before).step allowed (loopFirst_of_reaches reached)
          (registered_of_reaches reached) (gamesSound_of_reaches reached).closed
          (oneRoom_of_reaches taken (reached.weaken fun _ _ allowed => allowed.free)) stays step
      · exact .queued (queued_enqueue step enqueued)

theorem seated_of_idle {config : ServerConfig} (idle : LoopIdle config)
    (placed : Placed config player) :
    config.state.Queued player ∨ config.state.Seated player := by
  have unplanned {steady : Instr → Prop} {instruction : Instr} {rest : List Instr}
      (ahead : Planned steady 0 (instruction :: rest) config.tasks)
      (seats : instruction.seats = true) : False := by
    obtain ⟨earlier, present, -⟩ := ahead
    have seated : ∀ current, config.tasks[0]? = some current → instruction ∈ current := by
      intro current here
      cases here.symm.trans present
      simp
    obtain here | ⟨pause, here, ⟨seconds, rfl⟩ | ⟨deadline, rfl⟩⟩ := idle <;>
      have member := seated _ here <;> simp at member
    · subst member
      cases seats
    · rcases member with rfl | rfl <;> cases seats
    · rcases member with rfl | rfl <;> cases seats
  have keyed {entered : PlayerId} {room : RoomId} (soon : KeyedSoon config entered room) :
      config.state.redis.playerRooms entered = some room := by
    rcases soon with holds | ⟨rest, ahead⟩
    · exact holds
    · exact (unplanned ahead rfl).elim
  cases placed with
  | queued queued => exact .inl queued
  | matched pair rest plays ahead => exact (unplanned ahead rfl).elim
  | offered room pair rest plays ahead => exact (unplanned ahead rfl).elim
  | seated room game first second found players plays unfinished firstKey secondKey =>
      exact .inr ⟨room, game, first, second, found, players, plays, keyed firstKey,
        keyed secondKey⟩

/-- Main result: nobody who waits is lost as long as the creation of matches is
not interrupted. -/
theorem nobodyLost_of_seatsMatched (settings : Settings) : NobodyLost settings SeatsMatched :=
  fun _ _ taken _ _ logged idle _ waits => seated_of_idle idle (placed_of_logged taken logged waits)

/-- Ada and Bob are popped, and the room cannot be stored. -/
def failToStoreRoom : List ServerChoice :=
  waitTogether ++ proceed 0 1 ++ [.resume 0 (.drawn "room-1"), .fail 0]

/-- What is wrong afterwards, as far as it can be computed. -/
def waitsForNothing (log : List WaitEvent) (config : ServerConfig) : Bool :=
  (match config.tasks with
    | [.sleep _, .matchingLoop] :: _ => true
    | _ => false) &&
    (waitsAfter "ada" log && (config.state.redis.matchmaking.queue.lookup "ada").isNone &&
      config.state.engine.live.isEmpty)

/-- Both are forgotten. -/
theorem failToStoreRoom_loses :
    ¬ NobodyLost { instanceId := "inst-1" } unguarded := by
  intro always
  have lost : ((server { instanceId := "inst-1" }).record observeWaiting failToStoreRoom
      (booted {} []) []).any (fun result => waitsForNothing result.1 result.2) = true := by
    decide +kernel
  obtain ⟨⟨log, config⟩, executed, holds⟩ := Option.any_eq_true _ _ |>.mp lost
  simp only [waitsForNothing, Bool.and_eq_true, Option.isNone_iff_eq_none,
    List.isEmpty_iff] at holds
  obtain ⟨idle, ⟨waits, unqueued⟩, noGames⟩ := holds
  split at idle
  · rename_i seconds others tasks
    have logged : (server { instanceId := "inst-1" }).Logged (booted {} []) unguarded
        observeWaiting log config :=
      Machine.logged_of_record .start (fun _ _ _ => trivial) executed
    rcases always {} [] (fun _ _ stored => nomatch stored) log config logged
      (.inr ⟨.sleep seconds, by rw [tasks]; rfl, .inl ⟨seconds, rfl⟩⟩) "ada" waits with
      queued | ⟨room, game, _, _, found, -⟩
    · have present := queued.1
      rw [unqueued] at present
      cases present
    · have live := (GameEngine.find_eq_some.mp found).1
      simp [noGames] at live
  · cases idle

end TerritoryBackend

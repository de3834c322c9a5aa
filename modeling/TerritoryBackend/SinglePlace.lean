import TerritoryBackend.Registration

/-!
# A player is in one place at a time

The places of a player are the queue, the matches being created and the games
in progress or paused.  Only an enqueue adds a place: popping a pair, creating
its game and finishing it pass the place on or give it up.  So a player is in
one place at a time in runs where nobody is enqueued who has a place already.
-/

namespace TerritoryBackend

open EventLoop

def GameStatus.isActive : GameStatus → Bool
  | .inProgress | .paused => true
  | _ => false

namespace World

/-- The player belongs to the room's game, and it is being played. -/
def playsIn (world : World) (player : PlayerId) (room : RoomId) : Bool :=
  (world.engine.find room).any fun game =>
    game.status.isActive && decide (player ∈ game.playerIds)

def isQueued (world : World) (player : PlayerId) : Bool :=
  (world.redis.matchmaking.queue.lookup player).isSome

/-- Each player belongs to one active game at most, and to none while queued. -/
structure OnePlace (world : World) : Prop where
  oneGame : ∀ player first second, world.playsIn player first = true →
    world.playsIn player second = true → first = second
  notQueued : ∀ player room, world.playsIn player room = true → world.isQueued player = false

end World

def Instr.matches (player : PlayerId) : Instr → Nat
  | .createMatch pair | .createGame _ pair => if player ∈ pair.playerIds then 1 else 0
  | _ => 0

/-- Whoever is enqueued plays no game and has no match being created. -/
def EnqueuesFree (choice : ServerChoice) (config : ServerConfig) : Prop :=
  ∀ player eloRating, config.executed choice = some (.enqueuePlayer player eloRating) →
    (∀ room, config.state.playsIn player room = false) ∧
      ∀ instruction ∈ config.pending, instruction.matches player = 0

def places (player : PlayerId) (config : ServerConfig) : Nat :=
  (config.state.isQueued player).toNat + weigh (Instr.matches player) config.tasks +
    config.state.engine.live.countP (config.state.playsIn player)

namespace World

theorem playsIn_eq_true {world : World} {player : PlayerId} {room : RoomId} :
    world.playsIn player room = true ↔
      ∃ game, world.engine.find room = some game ∧ game.status.isActive = true ∧
        player ∈ game.playerIds := by
  unfold playsIn
  cases world.engine.find room <;> simp

theorem playsIn_congr {world after : World} {player : PlayerId} {room : RoomId}
    (games : after.engine.games room = world.engine.games room)
    (live : room ∈ after.engine.live ↔ room ∈ world.engine.live) :
    after.playsIn player room = world.playsIn player room := by
  simp [playsIn, GameEngine.find_congr games live]

theorem live_of_playsIn {world : World} {player : PlayerId} {room : RoomId}
    (plays : world.playsIn player room = true) : room ∈ world.engine.live := by
  obtain ⟨game, found, -⟩ := playsIn_eq_true.mp plays
  exact (GameEngine.find_eq_some.mp found).1

theorem playsIn_of_games {world : World} {player : PlayerId} {room : RoomId}
    {game : ActiveGame} (plays : world.playsIn player room = true)
    (stored : world.engine.games room = some game) :
    game.status.isActive = true ∧ player ∈ game.playerIds := by
  obtain ⟨found, foundEq, active, member⟩ := playsIn_eq_true.mp plays
  rw [(GameEngine.find_eq_some.mp foundEq).2] at stored
  cases stored
  exact ⟨active, member⟩

end World

variable {settings : Settings} {choice : ServerChoice} {before after : ServerConfig}
  {player : PlayerId}

theorem onePlace_of_places {config : ServerConfig}
    (bounded : ∀ player, places player config ≤ 1) : config.state.OnePlace where
  oneGame player first second inFirst inSecond := by
    by_contra different
    have listed : [first, second] ⊆
        config.state.engine.live.filter (config.state.playsIn player) := by
      intro room member
      simp only [List.mem_cons, List.not_mem_nil, or_false] at member
      rcases member with rfl | rfl
      · exact List.mem_filter.mpr ⟨World.live_of_playsIn inFirst, inFirst⟩
      · exact List.mem_filter.mpr ⟨World.live_of_playsIn inSecond, inSecond⟩
    have both := (List.subperm_of_subset (by simpa using different) listed).length_le
    have bound := bounded player
    rw [places, List.countP_eq_length_filter] at bound
    simp only [List.length_cons, List.length_nil] at both
    omega
  notQueued player room plays := by
    have counted : 0 < config.state.engine.live.countP (config.state.playsIn player) :=
      List.countP_pos_iff.mpr ⟨room, World.live_of_playsIn plays, plays⟩
    have bound := bounded player
    unfold places at bound
    cases queued : config.state.isQueued player with
    | false => rfl
    | true =>
        rw [queued, Bool.toNat_true] at bound
        omega

theorem playsIn_of_change {world after : World} {room : RoomId} {instruction : Instr}
    (change : GameChange world room instruction after)
    (plays : after.playsIn player room = true) :
    world.playsIn player room = true ∨ ∃ pair, instruction = .createGame room pair := by
  have played {game : ActiveGame} (found : world.engine.find room = some game)
      (active : game.status.isActive = true) (member : player ∈ game.playerIds) :
      world.playsIn player room = true :=
    World.playsIn_eq_true.mpr ⟨game, found, active, member⟩
  cases change with
  | unchanged _ games live => exact .inl ((World.playsIn_congr games live).symm.trans plays)
  | created pair games live => exact .inr ⟨pair, rfl⟩
  | acted found passed games live =>
      have member := (World.playsIn_of_games plays games).2
      rw [(ActiveGame.processAction_frame passed).2.1] at member
      have inProgress := (ActiveGame.processAction_passed passed).1
      exact .inl (played found (by rw [inProgress]; rfl) member)
  | paused _ found inProgress games live =>
      have member := (World.playsIn_of_games plays games).2
      exact .inl (played found (by rw [inProgress]; rfl) member)
  | forfeited _ found absent games live =>
      cases (World.playsIn_of_games plays games).1
  | @resumed resumed game _ found games live =>
      obtain ⟨active, member⟩ := World.playsIn_of_games plays games
      left
      refine played found ?_ member
      simp only [ActiveGame.handlePlayerReconnect] at active
      split at active
      · rename_i reopened
        rw [reopened.1]
        rfl
      · exact active
  | popped found games gone => exact absurd (World.live_of_playsIn plays) gone

theorem Instr.Writes.live_sublist {world after : World} {instruction : Instr}
    (writes : instruction.Writes settings world after)
    (other : ∀ room pair, instruction ≠ .createGame room pair) :
    after.engine.live.Sublist world.engine.live := by
  cases writes with
  | create room pair => exact absurd rfl (other room pair)
  | cleanUp found => exact List.filter_sublist
  | pause caller call =>
      obtain ⟨game, found, -, rfl⟩ := GameEngine.handlePlayerDisconnect_eq_some call
      exact List.Sublist.refl _
  | forfeit due call =>
      obtain ⟨game, found, -, rfl⟩ := GameEngine.disconnectTimer_eq_some call
      exact List.Sublist.refl _
  | resume call =>
      obtain ⟨game, found, rfl, rfl⟩ := GameEngine.handlePlayerReconnect_eq_some call
      exact List.Sublist.refl _
  | _ => exact List.Sublist.refl _

theorem countP_playsIn_le (player : PlayerId) {world after : World} {instruction : Instr}
    (writes : instruction.Writes settings world after)
    (other : ∀ room pair, instruction ≠ .createGame room pair) :
    after.engine.live.countP (after.playsIn player) ≤
      world.engine.live.countP (world.playsIn player) := by
  refine (writes.live_sublist other).countP_le.trans (List.countP_mono_left ?_)
  intro room _ plays
  rcases playsIn_of_change (gameChange_of_writes writes room) plays with before | ⟨pair, creates⟩
  · exact before
  · exact absurd creates (other room pair)

theorem isQueued_pop (player : PlayerId) {world : World} {queue : MatchmakingQueue}
    {pair : MatchedPair}
    (matched : world.redis.matchmaking.tryMatch settings world.clock = (queue, some pair)) :
    ((world.updateMatchmaking queue).isQueued player).toNat +
        (if player ∈ pair.playerIds then 1 else 0) ≤ (world.isQueued player).toNat := by
  obtain ⟨-, queuedA, queuedB, popped, -⟩ := MatchmakingQueue.tryMatch_eq_some matched
  have after : (world.updateMatchmaking queue).isQueued player =
      (queue.queue.lookup player).isSome := rfl
  rw [after, popped, Dict.lookup_erase, Dict.lookup_erase, World.isQueued]
  by_cases isB : player = pair.playerB
  · subst isB
    simp [MatchedPair.playerIds, queuedB]
  · by_cases isA : player = pair.playerA
    · subst isA
      simp [MatchedPair.playerIds, queuedA, isB]
    · simp [MatchedPair.playerIds, isA, isB]

theorem isQueued_le {world after : World} {instruction : Instr}
    (writes : instruction.Writes settings world after)
    (other : ∀ eloRating, instruction ≠ .enqueuePlayer player eloRating) :
    (after.isQueued player).toNat ≤ (world.isQueued player).toNat := by
  cases writes with
  | enqueue enqueued eloRating =>
      have different : player ≠ enqueued := fun same => other eloRating (same ▸ rfl)
      simp [World.isQueued, World.updateMatchmaking, World.updateRedis,
        MatchmakingQueue.enqueuePlayer, different]
  | dequeue dequeued caller =>
      simp only [World.isQueued, World.updateMatchmaking, World.updateRedis,
        MatchmakingQueue.dequeuePlayer, Dict.lookup_erase]
      split <;> simp
  | pop matched => exact (Nat.le_add_right _ _).trans (isQueued_pop player matched)
  | _ => exact le_refl _

theorem matches_of_yields (player : PlayerId) {instruction next : Instr}
    (yields : instruction.Yields next)
    (notLoop : instruction ≠ .matchingLoop) (notMatch : ∀ pair, instruction ≠ .createMatch pair) :
    next.matches player = 0 := by
  cases yields with
  | quiet _ isQuiet =>
      cases next with
      | createMatch | createGame => cases isQuiet
      | _ => rfl
  | matched => exact absurd rfl notLoop
  | drawn => exact absurd rfl (notMatch _)
  | _ => rfl

/-- Creating a game puts exactly its two players into it. -/
theorem countP_createGame {world : World} {room : RoomId} {pair : MatchedPair}
    (unlisted : room ∉ world.engine.live) :
    (world.createGame room pair).state.engine.live.countP
        ((world.createGame room pair).state.playsIn player) =
      world.engine.live.countP (world.playsIn player) +
        if player ∈ pair.playerIds then 1 else 0 := by
  have listed : (world.createGame room pair).state.engine.live = world.engine.live ++ [room] := by
    simp [World.createGame, GameEngine.createMatchedGame, GameEngine.createGame,
      GameEngine.register, unlisted]
  have old : ∀ other ∈ world.engine.live,
      (world.createGame room pair).state.playsIn player other = world.playsIn player other := by
    intro other present
    have different : other ≠ room := fun same => unlisted (same ▸ present)
    simp [World.playsIn, World.createGame, GameEngine.find, GameEngine.createMatchedGame,
      different]
  have new : (world.createGame room pair).state.playsIn player room =
      decide (player ∈ pair.playerIds) := by
    simp [World.playsIn, World.createGame, GameEngine.createMatchedGame, GameEngine.createGame,
      ActiveGame.create, GameStatus.isActive]
  have kept := List.countP_congr (p := (world.createGame room pair).state.playsIn player)
    (q := world.playsIn player) fun other present => by rw [old other present]
  rw [listed, List.countP_append, List.countP_singleton, new, kept]
  simp

theorem places_block (player : PlayerId) {instruction : Instr} {answer : Answer} {world : World}
    {block : Block World Instr} (effect : instruction.block settings answer world = some block)
    (other : ∀ eloRating, instruction ≠ .enqueuePlayer player eloRating)
    (new : ∀ room pair, instruction = .createGame room pair → room ∉ world.engine.live) :
    (block.state.isQueued player).toNat + block.carried (Instr.matches player) instruction +
        block.state.engine.live.countP (block.state.playsIn player) ≤
      (world.isQueued player).toNat + instruction.matches player +
        world.engine.live.countP (world.playsIn player) := by
  have writes := Instr.block_writes effect
  -- a block that passes no match on and creates no game
  have passes (notGame : ∀ room pair, instruction ≠ .createGame room pair)
      (carried : block.carried (Instr.matches player) instruction ≤
        instruction.matches player) :
      (block.state.isQueued player).toNat + block.carried (Instr.matches player) instruction +
          block.state.engine.live.countP (block.state.playsIn player) ≤
        (world.isQueued player).toNat + instruction.matches player +
          world.engine.live.countP (world.playsIn player) := by
    have queued := isQueued_le writes other
    have played := countP_playsIn_le player writes notGame
    omega
  cases instruction with
  | matchingLoop =>
      simp only [Instr.block, World.matchingLoop] at effect
      (repeat' split at effect) <;> cases effect
      · rename_i queue pair matched
        have popped := isQueued_pop player matched
        have games : (world.updateMatchmaking queue).engine = world.engine := rfl
        have plays : (world.updateMatchmaking queue).playsIn player = world.playsIn player := rfl
        simp only [World.carried_goOn, World.goOn_state, List.map_cons, List.map_nil,
          List.sum_cons, List.sum_nil, Instr.matches, games, plays]
        omega
      · exact passes (by simp) (by simp [Instr.matches])
      · exact passes (by simp) (by simp [Instr.matches])
  | createMatch pair =>
      apply passes (by simp)
      simp only [Instr.block, World.createMatch] at effect
      (repeat' split at effect) <;> cases effect
      simp [Instr.matches]
  | createGame room pair =>
      have carried : block.carried (Instr.matches player) (.createGame room pair) = 0 :=
        Block.carried_eq_zero (fun next member => matches_of_yields player
          (Instr.block_yields effect member) (by simp) (by simp)) (by cases effect; rfl)
      cases effect
      have queued : (world.createGame room pair).state.isQueued player =
          world.isQueued player := rfl
      rw [carried, queued, countP_createGame (new room pair rfl)]
      simp only [Instr.matches]
      omega
  | _ =>
      exact passes (by simp) (Block.carried_le fun next member =>
        matches_of_yields player (Instr.block_yields effect member) (by simp) (by simp))

theorem places_step (registered : Registered before) (allowed : EnqueuesFree choice before)
    (bounded : places player before ≤ 1)
    (step : (server settings).step choice before = some after) :
    places player after ≤ 1 := by
  unfold places at *
  have unwinds : (server settings).UnwindsWithin (Instr.matches player) :=
    Instr.unwindsWithin (fun _ => rfl) fun _ _ => le_rfl
  cases Machine.weighed_step step with
  | @executed _ instruction answer block executed effect state weighed =>
      have weighed := weighed unwinds
      have effect : instruction.block settings answer before.state = some block := effect
      rw [state]
      by_cases enqueues : ∃ eloRating, instruction = .enqueuePlayer player eloRating
      · obtain ⟨eloRating, rfl⟩ := enqueues
        obtain ⟨notPlaying, notMatched⟩ := allowed player eloRating executed
        have idle : weigh (Instr.matches player) before.tasks = 0 := weigh_eq_zero notMatched
        cases effect
        have played : (before.state.enqueuePlayer player eloRating).state.engine.live.countP
            ((before.state.enqueuePlayer player eloRating).state.playsIn player) = 0 :=
          List.countP_eq_zero.mpr fun room _ => by
            rw [Bool.not_eq_true]
            exact notPlaying room
        have carried : (before.state.enqueuePlayer player eloRating).carried
            (Instr.matches player) (.enqueuePlayer player eloRating) = 0 := by
          simp [World.enqueuePlayer, Instr.matches]
        have queued := Bool.toNat_le
          ((before.state.enqueuePlayer player eloRating).state.isQueued player)
        omega
      · have kept := places_block player effect
          (fun eloRating same => enqueues ⟨eloRating, same⟩)
          fun room pair creates => (registered.unregistered
            (Config.mem_pending_of_executed (creates ▸ executed))).2
        omega
  | failed task state weighed =>
      have weighed := weighed unwinds
      rw [state]
      omega
  | @happened event spawned effect weighed =>
      have weighed := weighed (Instr.matches player)
      have nothing : weigh (Instr.matches player) spawned = 0 :=
        ServerEvent.weigh_spawned effect (fun _ _ => rfl) (fun _ _ _ _ => rfl)
          (fun _ _ => rfl) fun _ _ => rfl
      obtain ⟨engine, -, -, -, matchmaking⟩ := ServerEvent.frame effect
      have queued : after.state.isQueued player = before.state.isQueued player := by
        simp [World.isQueued, matchmaking]
      have plays : after.state.playsIn player = before.state.playsIn player := by
        funext room
        simp [World.playsIn, engine]
      rw [queued, plays, engine]
      omega

theorem places_le_one {redis : Redis} {roomIds : List RoomId} {config : ServerConfig}
    (reached : (server settings).Reaches (booted redis roomIds) EnqueuesFree config) :
    places player config ≤ 1 := by
  induction reached with
  | start =>
      have idle : weigh (Instr.matches player) (booted redis roomIds).tasks = 0 := rfl
      have unplayed : (booted redis roomIds).state.engine.live = [] := rfl
      rw [places, idle, unplayed, List.countP_nil]
      exact Bool.toNat_le _
  | step reached allowed stepTo ih =>
      exact places_step (registered_of_reaches reached) allowed ih stepTo

/-- In every state reached by steps that meet the guard, each player is in one
place at a time. -/
def AlwaysOnePlace (settings : Settings) (start : ServerConfig)
    (guard : ServerChoice → ServerConfig → Prop) : Prop :=
  ∀ config, (server settings).Reaches start guard config → config.state.OnePlace

/-- Main result: players stay in one place at a time as long as nobody is
enqueued who has a place already. -/
theorem alwaysOnePlace_of_enqueuesFree (settings : Settings) (redis : Redis)
    (roomIds : List RoomId) :
    AlwaysOnePlace settings (booted redis roomIds) EnqueuesFree :=
  fun _ reached => onePlace_of_places fun _ => places_le_one reached

/-- Ada looks for a match while her game is in progress. -/
def findMatchInGame : List ServerChoice :=
  openConnection "ada" "conn-1" 2 7 ++ formMatch "room-1" 19 ++ findMatch 2 6

/-- She is queued although she plays. -/
theorem findMatchInGame_not_onePlace :
    ¬ AlwaysOnePlace { instanceId := "inst-1" } (booted waitingRookies []) unguarded := by
  intro always
  have both : ((server { instanceId := "inst-1" }).run findMatchInGame
      (booted waitingRookies [])).any (fun config =>
        config.state.playsIn "ada" "room-1" && config.state.isQueued "ada") = true := by
    decide +kernel
  obtain ⟨config, executed, holds⟩ := Option.any_eq_true _ _ |>.mp both
  obtain ⟨plays, queued⟩ := Bool.and_eq_true_iff.mp holds
  have notQueued := (always config (Machine.reaches_of_run .start executed)).notQueued
    "ada" "room-1" plays
  rw [queued] at notQueued
  cases notQueued

end TerritoryBackend

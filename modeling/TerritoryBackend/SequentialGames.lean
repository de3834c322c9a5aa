import TerritoryBackend.FairPlay
import TerritoryBackend.StatusMachine

/-!
# The server plays its games one call at a time

Many coroutines work on the games of a running server.  Each block makes at most
one call of the engine, so the engine is always what the calls made so far, in
the order of their blocks, make of an empty one, and every game is one that could
have been played on an engine of its own.
-/

namespace TerritoryBackend

open EventLoop

/-- A call that a block of the server makes. -/
inductive EngineCall where
  | createGame (room : RoomId) (pair : MatchedPair) (now : Time)
  | room (room : RoomId) (call : RoomCall)

namespace GameEngine

def execute (engine : GameEngine) : EngineCall → GameEngine
  | .createGame room pair now => engine.createMatchedGame room pair now
  | .room room call => engine.perform room call

def executeAll (engine : GameEngine) (calls : List EngineCall) : GameEngine :=
  calls.foldl execute engine

end GameEngine

/-- The call of the engine an instruction makes at a time. -/
def Instr.engineCall (now : Time) : Instr → Option EngineCall
  | .createGame room pair => some (.createGame room pair now)
  | .processAction room player action data =>
      some (.room room (.event (.action player action data now)))
  | .handlePlayerDisconnect room player _ => some (.room room (.event (.disconnect player)))
  | .handlePlayerReconnect room player => some (.room room (.event (.reconnect player)))
  | .disconnectTimerWakes room player _ => some (.room room (.disconnectTimer player))
  | .cleanupGame room => some (.room room .cleanupGame)
  | _ => none

/-- The calls made by a choice. -/
def madeCalls (choice : ServerChoice) (config : ServerConfig) : List EngineCall :=
  ((config.executed choice).bind (Instr.engineCall config.state.clock)).toList

/-- The calls made during a run, in the order of their blocks. -/
def callsOf (settings : Settings) : List ServerChoice → ServerConfig → List EngineCall
  | [], _ => []
  | choice :: choices, config =>
      madeCalls choice config ++
        (((server settings).step choice config).map (callsOf settings choices)).getD []

/-- The calls for one room. -/
def roomCalls (room : RoomId) (calls : List EngineCall) : List RoomCall :=
  calls.filterMap fun
    | .room other call => if other = room then some call else none
    | .createGame .. => none

/-- Two engines answer every call for the room alike. -/
structure SameRoom (room : RoomId) (engine other : GameEngine) : Prop where
  games : engine.games room = other.games room
  live : room ∈ engine.live ↔ room ∈ other.live

/-- A game is played by some of the calls, on an engine of its own. -/
structure PlayedAlone (engine : GameEngine) (calls : List EngineCall) (room : RoomId)
    (game : ActiveGame) (pair : MatchedPair) (now : Time) (later : List EngineCall) : Prop where
  created : ∃ earlier, calls = earlier ++ .createGame room pair now :: later
  distinct : pair.playerA ≠ pair.playerB
  alone : SameRoom room engine
    ((({} : GameEngine).createMatchedGame room pair now).performAll room (roomCalls room later))
  fair : game.FairlyPlayed pair.playerA pair.playerB
    ((({} : GameEngine).createMatchedGame room pair now).acceptedPlayers room
      (roomCalls room later))
  scores : game.ScoresAreTerritory pair.playerA pair.playerB

/-- Every run of the server is a run of calls of its engine, and every game it
knows is played by the calls for its room. -/
def PlaysSequentially (settings : Settings) (start : ServerConfig) : Prop :=
  ∀ choices config, (server settings).run choices start = some config →
    config.state.engine = ({} : GameEngine).executeAll (callsOf settings choices start) ∧
      ∀ room game, config.state.engine.games room = some game →
        ∃ pair now later,
          PlayedAlone config.state.engine (callsOf settings choices start) room game pair now later

variable {settings : Settings} {choice : ServerChoice} {before after : ServerConfig}
  {room : RoomId} {game : ActiveGame}

theorem World.withGame_engine {world : World} {block : ActiveGame → Block World Instr}
    {engine : GameEngine} (kept : ∀ game, (block game).state.engine = engine)
    (same : world.engine = engine) : (world.withGame room block).state.engine = engine := by
  unfold World.withGame
  split
  · exact kept _
  · exact same

theorem GameEngine.pop_of_not_live {engine : GameEngine} (gone : room ∉ engine.live) :
    engine.pop room = engine := by
  have kept : engine.live.filter (· ≠ room) = engine.live :=
    List.filter_eq_self.mpr fun other live =>
      decide_eq_true fun same => gone (same ▸ live)
  simp only [pop, kept]

/-- A block makes its call and leaves the engine alone otherwise. -/
theorem Instr.engine_of_block {instruction : Instr} {answer : Answer} {world : World}
    {block : Block World Instr}
    (known : ∀ room, room ∈ world.engine.live → (world.engine.games room).isSome)
    (effect : instruction.block settings answer world = some block) :
    block.state.engine =
      world.engine.executeAll (instruction.engineCall world.clock).toList := by
  cases called : instruction.engineCall world.clock with
  | none =>
      have writes := Instr.block_writes effect
      generalize block.state = after at writes
      cases writes with
      | create | act | cleanUp | pause | forfeit | resume => cases called
      | _ => rfl
  | some call =>
      show block.state.engine = world.engine.execute call
      unfold engineCall at called
      split at called <;> cases called
      · cases effect
        rfl
      · rename_i room player action data
        cases effect
        simp only [World.processAction, GameEngine.execute, GameEngine.perform, GameEngine.call]
        split
        · rename_i equation
          rw [equation]
          split <;> rfl
        · rename_i equation
          rw [equation]
          rfl
        · rename_i equation
          rw [equation]
          exact World.withGame_engine (fun _ => rfl) rfl
      · rename_i room player caller
        cases effect
        simp only [World.handlePlayerDisconnect, GameEngine.execute, GameEngine.perform,
          GameEngine.call]
        split
        · rename_i refused
          rw [refused]
          rfl
        · rename_i paused
          rw [paused]
          exact World.withGame_engine (fun _ => rfl) rfl
      · rename_i room player
        cases effect
        simp only [World.handlePlayerReconnect, GameEngine.execute, GameEngine.perform,
          GameEngine.call]
        split
        · rename_i unknown
          rw [unknown]
          rfl
        · rename_i resumed
          rw [resumed]
          unfold World.showing
          split <;> rfl
      · rename_i room player deadline
        simp only [Instr.block, World.disconnectTimerWakes] at effect
        simp only [GameEngine.execute, GameEngine.perform]
        split at effect
        · cases effect
        · split at effect
          · rename_i nothing
            cases effect
            rw [nothing]
            rfl
          · rename_i forfeited
            cases effect
            rw [forfeited]
            rfl
      · rename_i room
        cases effect
        simp only [World.cleanupGame, GameEngine.execute, GameEngine.perform]
        split
        · rename_i absent
          have gone : room ∉ world.engine.live := by
            intro live
            obtain ⟨game, stored⟩ := Option.isSome_iff_exists.mp (known room live)
            rw [GameEngine.find_eq_some.mpr ⟨live, stored⟩] at absent
            cases absent
          exact (GameEngine.pop_of_not_live gone).symm
        · rfl

theorem engine_of_step (registered : Registered before)
    (step : (server settings).step choice before = some after) :
    after.state.engine = before.state.engine.executeAll (madeCalls choice before) := by
  unfold madeCalls
  cases executed : before.executed choice with
  | some instruction =>
      obtain ⟨answer, block, effect, same⟩ := Machine.block_of_executed step executed
      rw [same]
      exact Instr.engine_of_block registered.known effect
  | none =>
      have change := worldStep_of_step step
      generalize after.state = world at change
      cases change with
      | wrote known => cases executed.symm.trans known
      | failed => rfl
      | happened effect => exact (ServerEvent.frame effect).1

/-- After a run the engine is what the calls of the run have made of it. -/
theorem engine_of_run {redis : Redis} {roomIds : List RoomId} {choices : List ServerChoice}
    (reached : (server settings).Reaches (booted redis roomIds) unguarded before)
    (ran : (server settings).run choices before = some after) :
    after.state.engine = before.state.engine.executeAll (callsOf settings choices before) := by
  induction choices generalizing before with
  | nil =>
      cases ran
      rfl
  | cons choice choices ih =>
      obtain ⟨middle, first, others⟩ := Option.bind_eq_some_iff.mp ran
      rw [ih (.step reached trivial first) others,
        engine_of_step (registered_of_reaches reached) first]
      simp [callsOf, first, GameEngine.executeAll]

/-- A call writes the game of its room or takes it out of the table. -/
theorem GameEngine.perform_writes (engine : GameEngine) (room : RoomId) (call : RoomCall) :
    engine.perform room call = engine ∨
      (∃ game, engine.perform room call = engine.write room game) ∨
        engine.perform room call = engine.pop room := by
  cases call with
  | event event =>
      cases event with
      | disconnect player =>
          simp only [perform, GameEngine.call]
          cases called : engine.handlePlayerDisconnect room player with
          | none => exact .inl rfl
          | some after =>
              obtain ⟨game, -, -, rfl⟩ := handlePlayerDisconnect_eq_some called
              exact .inr (.inl ⟨_, rfl⟩)
      | reconnect player =>
          simp only [perform, GameEngine.call]
          cases called : engine.handlePlayerReconnect room player with
          | none => exact .inl rfl
          | some result =>
              obtain ⟨game, -, -, written⟩ := handlePlayerReconnect_eq_some called
              exact .inr (.inl ⟨_, written⟩)
      | action player action data now =>
          rcases processAction_cases engine room player action data now with
            ⟨same, -⟩ | ⟨_, result, -, -, equation⟩
          · exact .inl same
          · exact .inr (.inl ⟨result.1, congrArg Prod.fst equation⟩)
  | disconnectTimer player =>
      simp only [perform]
      cases called : engine.disconnectTimer room player with
      | none => exact .inl rfl
      | some after =>
          obtain ⟨game, -, -, rfl⟩ := disconnectTimer_eq_some called
          exact .inr (.inl ⟨_, rfl⟩)
  | cleanupGame => exact .inr (.inr rfl)

namespace SameRoom

variable {engine other : GameEngine}

theorem find (same : SameRoom room engine other) : engine.find room = other.find room := by
  unfold GameEngine.find
  rw [same.games]
  by_cases live : room ∈ engine.live
  · rw [if_pos live, if_pos (same.live.mp live)]
  · rw [if_neg live, if_neg fun present => live (same.live.mpr present)]

theorem of_find (found : engine.find room = some game) (otherFound : other.find room = some game) :
    SameRoom room engine other := by
  obtain ⟨live, stored⟩ := GameEngine.find_eq_some.mp found
  obtain ⟨otherLive, otherStored⟩ := GameEngine.find_eq_some.mp otherFound
  exact ⟨stored.trans otherStored.symm, iff_of_true live otherLive⟩

theorem write (same : SameRoom room engine other) (game : ActiveGame) :
    SameRoom room (engine.write room game) (other.write room game) :=
  ⟨by simp, same.live⟩

/-- Engines that hold the same of a room still do after a call for it. -/
theorem perform (same : SameRoom room engine other) (call : RoomCall) :
    SameRoom room (engine.perform room call) (other.perform room call) := by
  have otherFind := same.find.symm
  cases call with
  | event event =>
      simp only [GameEngine.perform]
      cases found : engine.find room with
      | none =>
          rw [GameEngine.call_of_not_found found,
            GameEngine.call_of_not_found (otherFind.trans found)]
          exact same
      | some game =>
          exact of_find (GameEngine.find_call found event)
            (GameEngine.find_call (otherFind.trans found) event)
  | disconnectTimer player =>
      simp only [GameEngine.perform, GameEngine.disconnectTimer, otherFind]
      cases engine.find room with
      | none => exact same
      | some game =>
          cases forfeited : game.disconnectTimer player with
          | none => simpa [forfeited] using same
          | some next => simpa [forfeited] using same.write next
  | cleanupGame => exact ⟨same.games, by simp [GameEngine.perform, same.live]⟩

/-- A call for another room does not matter. -/
theorem elsewhere {written : RoomId} (apart : room ≠ written) (call : RoomCall) :
    SameRoom room (engine.perform written call) engine := by
  rcases engine.perform_writes written call with same | ⟨game, writes⟩ | pops
  · rw [same]
    exact ⟨rfl, Iff.rfl⟩
  · rw [writes]
    exact ⟨by rw [GameEngine.write_games, if_neg apart], Iff.rfl⟩
  · rw [pops]
    exact ⟨rfl, by simp [apart]⟩

theorem trans {third : GameEngine} (same : SameRoom room engine other)
    (alike : SameRoom room other third) : SameRoom room engine third :=
  ⟨same.games.trans alike.games, same.live.trans alike.live⟩

theorem create (engine other : GameEngine) (room : RoomId) (pair : MatchedPair) (now : Time) :
    SameRoom room (engine.createMatchedGame room pair now)
      (other.createMatchedGame room pair now) :=
  ⟨by simp [GameEngine.createMatchedGame], by simp [GameEngine.createMatchedGame]⟩

/-- Between the creations of its game a room sees only the calls for it. -/
theorem executeAll (same : SameRoom room engine other) {calls : List EngineCall}
    (uncreated : ∀ pair now, .createGame room pair now ∉ calls) :
    SameRoom room (engine.executeAll calls) (other.performAll room (roomCalls room calls)) := by
  induction calls generalizing engine other with
  | nil => exact same
  | cons call calls ih =>
      have others : ∀ pair now, .createGame room pair now ∉ calls :=
        fun pair now member => uncreated pair now (List.mem_cons_of_mem _ member)
      cases call with
      | createGame created pair now =>
          have apart : room ≠ created := by
            rintro rfl
            exact uncreated pair now List.mem_cons_self
          have kept : SameRoom room (engine.createMatchedGame created pair now) engine :=
            ⟨by simp [GameEngine.createMatchedGame, apart],
              by simp [GameEngine.createMatchedGame, apart]⟩
          exact ih (kept.trans same) others
      | room called call =>
          by_cases here : called = room
          · subst here
            rw [show roomCalls called (.room called call :: calls) =
              call :: roomCalls called calls by simp [roomCalls]]
            exact ih (same.perform call) others
          · rw [show roomCalls room (.room called call :: calls) = roomCalls room calls by
              simp [roomCalls, here]]
            exact ih ((elsewhere (Ne.symm here) call).trans same) others

end SameRoom

theorem GameEngine.perform_unknown {engine : GameEngine} (unknown : engine.games room = none)
    (call : RoomCall) : (engine.perform room call).games room = none := by
  have absent : engine.find room = none := by
    unfold find
    split
    · exact unknown
    · rfl
  cases call with
  | event event => rw [perform, call_of_not_found absent, unknown]
  | disconnectTimer player => simp [perform, disconnectTimer, absent, unknown]
  | cleanupGame => exact unknown

theorem GameEngine.performAll_unknown {engine : GameEngine} (unknown : engine.games room = none)
    (calls : List RoomCall) : (engine.performAll room calls).games room = none := by
  induction calls generalizing engine with
  | nil => exact unknown
  | cons call calls ih => exact ih (perform_unknown unknown call)

/-- The last creation of a room's game, if there is one. -/
theorem exists_last_create (room : RoomId) (calls : List EngineCall) :
    (∀ pair now, .createGame room pair now ∉ calls) ∨
      ∃ earlier pair now later, calls = earlier ++ .createGame room pair now :: later ∧
        ∀ pair now, .createGame room pair now ∉ later := by
  induction calls using List.reverseRecOn with
  | nil => exact .inl fun _ _ member => by cases member
  | append_singleton calls call ih =>
      by_cases creates : ∃ pair now, call = .createGame room pair now
      · obtain ⟨pair, now, rfl⟩ := creates
        exact .inr ⟨calls, pair, now, [], rfl, fun _ _ member => by cases member⟩
      · have unmade {list : List EngineCall} (none : ∀ pair now, .createGame room pair now ∉ list) :
            ∀ pair now, .createGame room pair now ∉ list ++ [call] := by
          intro pair now member
          rcases List.mem_append.mp member with old | new
          · exact none pair now old
          · exact creates ⟨pair, now, (List.mem_singleton.mp new).symm⟩
        rcases ih with none | ⟨earlier, pair, now, later, rfl, none⟩
        · exact .inl (unmade none)
        · exact .inr ⟨earlier, pair, now, later ++ [call], by simp, unmade none⟩

/-- Only pairs of two players get a game. -/
theorem distinct_of_mem_callsOf {redis : Redis} {roomIds : List RoomId}
    {choices : List ServerChoice} {pair : MatchedPair} {now : Time}
    (reached : (server settings).Reaches (booted redis roomIds) unguarded before)
    (member : .createGame room pair now ∈ callsOf settings choices before) :
    pair.playerA ≠ pair.playerB := by
  induction choices generalizing before with
  | nil => cases member
  | cons choice choices ih =>
      rcases List.mem_append.mp member with here | there
      · obtain ⟨instruction, executed, calls⟩ :=
          Option.bind_eq_some_iff.mp (Option.mem_toList.mp here)
        cases instruction <;> cases calls
        exact (registered_of_reaches reached).created room pair
          (Config.mem_pending_of_executed executed)
      · cases step : (server settings).step choice before with
        | none => simp [step] at there
        | some after =>
            simp only [step, Option.map_some, Option.getD_some] at there
            exact ih (.step reached trivial step) there

/-- A game an engine knows has been played alone since its last creation. -/
theorem playedAlone_of_executeAll {calls : List EngineCall}
    (distinct : ∀ pair now, .createGame room pair now ∈ calls → pair.playerA ≠ pair.playerB)
    (stored : (({} : GameEngine).executeAll calls).games room = some game) :
    ∃ pair now later,
      PlayedAlone (({} : GameEngine).executeAll calls) calls room game pair now later := by
  rcases exists_last_create room calls with never | ⟨earlier, pair, now, later, split, uncreated⟩
  · have fresh : SameRoom room ({} : GameEngine) {} := ⟨rfl, Iff.rfl⟩
    have unplayed := GameEngine.performAll_unknown
      (show ({} : GameEngine).games room = none from rfl) (roomCalls room calls)
    rw [← (fresh.executeAll never).games, stored] at unplayed
    cases unplayed
  · have different := distinct pair now (split ▸ List.mem_append_right _ List.mem_cons_self)
    have alone : SameRoom room (({} : GameEngine).executeAll calls)
        ((({} : GameEngine).createMatchedGame room pair now).performAll room
          (roomCalls room later)) := by
      have created := SameRoom.create (({} : GameEngine).executeAll earlier) {} room pair now
      rw [split, GameEngine.executeAll, List.foldl_append, List.foldl_cons]
      exact created.executeAll uncreated
    have opened : (({} : GameEngine).createMatchedGame room pair now).games room =
        some (ActiveGame.create room pair.playerIds pair.playerElos now) := by
      simp [GameEngine.createMatchedGame]
    obtain ⟨last, storedLast, lives⟩ := GameEngine.performAll_lives opened (roomCalls room later)
    cases storedLast.symm.trans (alone.games.symm.trans stored)
    have fair := lives.fair different
    have players := GameEngine.performAll_history opened (roomCalls room later) storedLast
    simp only [ActiveGame.create, List.map_nil, List.nil_append] at players
    exact ⟨pair, now, later, ⟨earlier, split⟩, different, alone,
      players ▸ fair.fairlyPlayed different, fair.territorial.scores⟩

/-- Main result: however its coroutines take turns, the server's engine makes its
calls one after another, and each game is played as if it were alone. -/
theorem playsSequentially (settings : Settings) (redis : Redis) (roomIds : List RoomId) :
    PlaysSequentially settings (booted redis roomIds) := by
  intro choices config ran
  have engine : config.state.engine =
      ({} : GameEngine).executeAll (callsOf settings choices (booted redis roomIds)) :=
    engine_of_run .start ran
  refine ⟨engine, ?_⟩
  intro room game stored
  rw [engine] at stored ⊢
  exact playedAlone_of_executeAll (fun pair now member => distinct_of_mem_callsOf .start member)
    stored

end TerritoryBackend

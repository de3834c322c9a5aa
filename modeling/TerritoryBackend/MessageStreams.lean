import TerritoryBackend.Coroutines
import TerritoryBackend.ServerSteps
import TerritoryBackend.StatusMachine

/-!
# What a client is told

The broadcast of an action builds each of its messages from the game as it is
at that moment, after it has waited for the message before.  An action accepted
in between shows in the messages that are still to be built, under the name of
the earlier action.
-/

namespace TerritoryBackend

open EventLoop

/-- The room a state update is about. -/
def Message.updateRoom : Message → Option RoomId
  | .gameStateUpdate room .. => some room
  | _ => none

/-- What is observed of a step. -/
inductive StreamEvent where
  /-- an accepted action has been applied, with the game after it -/
  | applied (room : RoomId) (action data : Json) (game : ActiveGame)
  /-- a message is handed to a connection -/
  | handed (connection : ConnectionId) (message : Message)

def StreamEvent.handedTo (connection : ConnectionId) : StreamEvent → Option Message
  | .handed receiver message => if receiver = connection then some message else none
  | _ => none

/-- The messages handed to a connection, in order. -/
def stream (connection : ConnectionId) (log : List StreamEvent) : List Message :=
  log.filterMap (StreamEvent.handedTo connection)

/-- The application of an action by `process_action` and the call of `send_json`
by `send_personal`. -/
def observeStreams (choice : ServerChoice) (config : ServerConfig) : List StreamEvent :=
  match config.executed choice with
  | some (.processAction room player action data) =>
      match config.state.engine.processAction room player action data config.state.clock with
      | (engine, .accepted _) =>
          ((engine.games room).map fun game => StreamEvent.applied room action data game).toList
      | _ => []
  | some (.sendPersonal player message _) =>
      ((config.state.connections.connectionOf player).map fun connection =>
        StreamEvent.handed connection message).toList
  | _ => []

/-- How two messages about a room may follow one another. -/
def Message.MayPrecede (room : RoomId) (earlier later : Message) : Prop :=
  later.updateRoom = some room → earlier.gameOverRoom ≠ some room ∧
    ∀ state lastAction yourTurn turn time laterState laterAction laterYours laterTurn laterTime,
      earlier = .gameStateUpdate room state lastAction yourTurn turn time →
      later = .gameStateUpdate room laterState laterAction laterYours laterTurn laterTime →
      turn ≤ laterTurn

/-- The messages about a room that a connection is handed make sense. -/
structure CoherentStream (room : RoomId) (connection : ConnectionId) (log : List StreamEvent) :
    Prop where
  /-- an update names the action whose application it shows -/
  explained : ∀ state lastAction yourTurn turn time,
    .gameStateUpdate room state lastAction yourTurn turn time ∈ stream connection log →
    ∃ action data game, lastAction = some (action, data) ∧
      .applied room action data game ∈ log ∧ state = game.toClientState ∧ turn = game.turnNumber
  ordered : (stream connection log).Pairwise (Message.MayPrecede room)

/-- The environment calls `process_action` and lets time pass, nothing else. -/
def OnlyActions (choice : ServerChoice) : Prop :=
  ∀ event, choice = .event event →
    (∃ room player action data, event = .callProcessAction room player action data) ∨
      ∃ seconds, event = .advance seconds

/-- No action is accepted while an update about an earlier one is still to be
built. -/
def BroadcastsInTurn (choice : ServerChoice) (config : ServerConfig) : Prop :=
  ∀ room player action data gameOver,
    config.executed choice = some (.processAction room player action data) →
    (config.state.engine.processAction room player action data config.state.clock).2 =
      .accepted gameOver →
    ∀ recipient earlierAction earlierData,
      .sendStateUpdate room recipient earlierAction earlierData ∉ config.pending

/-- Whatever calls of `process_action` are made in a world, every connection is
handed a coherent stream. -/
def StreamsCoherent (settings : Settings) (guard : ServerChoice → ServerConfig → Prop) : Prop :=
  ∀ world log config,
    (server settings).Logged ⟨world, [], none⟩ guard observeStreams log config →
    ∀ room connection, CoherentStream room connection log

variable {settings : Settings} {choice : ServerChoice} {before after : ServerConfig}
  {room : RoomId}

namespace Instr

/-- The blocks `process_action` leads to. -/
def plays : Instr → Bool
  | .sendPersonal _ _ .ignore | .sendPersonal _ _ .publish | .awaitSend _ _ _ .ignore
  | .awaitSend _ _ _ .publish | .forceClose .. | .publish .. | .processAction ..
  | .sendStateUpdate .. | .handleGameOver .. | .sendGameOver .. | .createPersistTask ..
  | .persistResult .. | .saveSnapshot .. | .setSnapshot .. | .cleanupGame ..
  | .deleteRoomKeys .. | .sleep .. | .wake .. => true
  | _ => false

/-- An update about the room to be built or handed over. -/
def updates (room : RoomId) : Instr → Bool
  | .sendStateUpdate updated _ _ _ => decide (updated = room)
  | .sendPersonal _ message _ => decide (message.updateRoom = some room)
  | _ => false

/-- A message about the end of the room's game to be built or handed over. -/
def ends (room : RoomId) : Instr → Bool
  | .handleGameOver closing | .sendGameOver closing _ _ => decide (closing = room)
  | .sendPersonal _ message _ => decide (message.gameOverRoom = some room)
  | _ => false

/-- An instruction that neither acts nor tells anything about a game. -/
def unrelated : Instr → Bool
  | .sendStateUpdate .. | .handleGameOver .. | .sendGameOver .. | .processAction .. => false
  | .sendPersonal _ message _ => message.updateRoom.isNone && message.gameOverRoom.isNone
  | _ => true

end Instr

/-- What a block an action leads to does. -/
inductive PlayBlock (world : World) : Instr → Block World Instr → Prop where
  | acted {room : RoomId} {player : PlayerId} {action data : Json} {game : ActiveGame}
      {result : ActiveGame × Bool} (found : world.engine.find room = some game)
      (passed : game.processAction player action data world.clock = .ok (.passed result)) :
      PlayBlock world (.processAction room player action data)
        (({ world with engine := world.engine.write room result.1 }).goOn
          ((result.1.playerIds.map fun recipient =>
              Instr.sendStateUpdate room recipient action data) ++
            if result.2 then [Instr.handleGameOver room] else []))
  | updated {room : RoomId} {player : PlayerId} {action data : Json} {game : ActiveGame}
      (yourTurn : Bool) (stored : world.engine.games room = some game) :
      PlayBlock world (.sendStateUpdate room player action data)
        (world.goOn [.sendPersonal player
          (.gameStateUpdate room game.toClientState (some (action, data)) yourTurn
            game.turnNumber world.clock) .publish])
  | closed {room : RoomId} {game : ActiveGame} {block : Block World Instr}
      (stored : world.engine.games room = some game)
      (games : block.state.engine.games = world.engine.games)
      (next : block.next = (game.playerIds.map fun player => Instr.sendGameOver room player game) ++
        [.createPersistTask room game, .saveSnapshot room, .cleanupGame room])
      (spawned : block.spawned = []) :
      PlayBlock world (.handleGameOver room) block
  | announced {room : RoomId} {player : PlayerId} {settled : ActiveGame} {message : Message}
      (about : message.gameOverRoom = some room) :
      PlayBlock world (.sendGameOver room player settled)
        (world.goOn [.sendPersonal player message .publish])
  | unrelated {instruction : Instr} {block : Block World Instr}
      (games : block.state.engine.games = world.engine.games)
      (next : ∀ next ∈ block.next, next.plays = true ∧ next.unrelated = true)
      (spawned : ∀ next ∈ block.spawned.flatten, next.plays = true ∧ next.unrelated = true) :
      PlayBlock world instruction block

theorem playBlock {instruction : Instr} {answer : Answer} {world : World}
    {block : Block World Instr} (plays : instruction.plays = true)
    (effect : instruction.block settings answer world = some block) :
    PlayBlock world instruction block := by
  cases instruction with
  | processAction room player action data =>
      cases effect
      rcases world.processAction_cases settings room player action data with
        ⟨error, refused⟩ | raised | ⟨game, result, found, passed, accepted⟩
      · rw [refused]
        exact .unrelated rfl (by simp [sendError, Instr.plays, Instr.unrelated,
          Message.updateRoom, Message.gameOverRoom]) (by simp)
      · rw [raised]
        exact .unrelated rfl (by simp) (by simp)
      · rw [accepted]
        exact .acted found passed
  | sendStateUpdate room player action data =>
      cases World.sendStateUpdate_eq_some effect
      unfold World.withGame World.showing
      split
      · rename_i game stored
        dsimp only
        split
        · exact .updated _ stored
        · exact .unrelated rfl (by simp) (by simp)
      · exact .unrelated rfl (by simp) (by simp)
  | handleGameOver room =>
      cases effect
      unfold World.handleGameOver World.withGame
      split
      · rename_i game stored
        exact .closed stored rfl rfl rfl
      · exact .unrelated rfl (by simp) (by simp)
  | sendGameOver room player settled =>
      cases effect
      unfold World.sendGameOver World.withGame World.showing
      split
      · dsimp only
        split
        · exact .announced rfl
        · exact .unrelated rfl (by simp) (by simp)
      · exact .unrelated rfl (by simp) (by simp)
  | sendPersonal player message after =>
      cases effect
      cases after with
      | ignore | publish =>
          unfold World.sendPersonal
          split <;>
            exact .unrelated rfl (by simp [AfterSend.next, Instr.plays, Instr.unrelated]) (by simp)
      | offerSecond | offerPublish => cases plays
  | awaitSend player connection message after =>
      simp only [Instr.block, World.awaitSend] at effect
      cases after with
      | ignore | publish =>
          split at effect <;> cases effect <;>
            exact .unrelated rfl (by simp [AfterSend.next, Instr.plays, Instr.unrelated]) (by simp)
      | offerSecond | offerPublish => cases plays
  | saveSnapshot room =>
      simp only [Instr.block, World.saveSnapshot] at effect
      (repeat' split at effect) <;> cases effect <;>
        exact .unrelated rfl (by simp [Instr.plays, Instr.unrelated]) (by simp)
  | publish player message =>
      cases World.publish_eq_some effect
      exact .unrelated rfl (by simp) (by simp)
  | cleanupGame room =>
      cases effect
      unfold World.cleanupGame
      split <;> exact .unrelated rfl (by simp [Instr.plays, Instr.unrelated]) (by simp)
  | persistResult room settled =>
      cases effect
      unfold World.persistResult World.withGame
      split <;> exact .unrelated rfl (by simp) (by simp)
  | wake deadline =>
      simp only [Instr.block, World.wake] at effect
      split at effect <;> cases effect
      exact .unrelated rfl (by simp) (by simp)
  | forceClose | createPersistTask | setSnapshot | deleteRoomKeys | sleep =>
      cases effect
      refine .unrelated rfl ?_ ?_ <;>
        simp [World.forceClose, World.createPersistTask, World.setSnapshot,
          World.deleteRoomKeys, World.sleep, Instr.plays, Instr.unrelated]
  | _ => cases plays

theorem unwind_of_plays {instructions : List Instr}
    (plays : ∀ instruction ∈ instructions, instruction.plays = true) :
    Instr.unwind settings instructions = [] := by
  have unhandled : instructions.findSome? (Instr.handler settings) = none := by
    rw [List.findSome?_eq_none_iff]
    intro instruction member
    have possible := plays instruction member
    cases instruction <;> first
      | rfl
      | cases possible
  simp [Instr.unwind, unhandled]

/-- An accepted action of the room. -/
def Acts (world : World) (room : RoomId) (instruction : Instr) (block : Block World Instr) :
    Prop :=
  ∃ player action data game result, instruction = .processAction room player action data ∧
    world.engine.find room = some game ∧
    game.processAction player action data world.clock = .ok (.passed result) ∧
    block = ({ world with engine := world.engine.write room result.1 }).goOn
      ((result.1.playerIds.map fun recipient =>
          Instr.sendStateUpdate room recipient action data) ++
        if result.2 then [Instr.handleGameOver room] else [])

theorem Acts.returns {world : World} {instruction : Instr} {block : Block World Instr}
    (acts : Acts world room instruction block) : block.raises = false ∧ block.spawned = [] := by
  obtain ⟨_, _, _, _, _, -, -, -, rfl⟩ := acts
  exact ⟨rfl, rfl⟩

/-- What a block that is no accepted action of the room leaves of it. -/
structure LeavesRoom (world : World) (room : RoomId) (instruction : Instr)
    (block : Block World Instr) : Prop where
  games : block.state.engine.games room = world.engine.games room
  leads : ∀ next ∈ block.next, (next.updates room = true → instruction.updates room = true) ∧
    (next.ends room = true → instruction.ends room = true)
  spawned : ∀ next ∈ block.spawned.flatten,
    ¬ next.updates room = true ∧ ¬ next.ends room = true
  toBuild : ∀ recipient action data, .sendStateUpdate room recipient action data ∉ block.next
  built : ∀ player message after, .sendPersonal player message after ∈ block.next →
    message.updateRoom = some room → ∃ recipient action data game yourTurn,
      instruction = .sendStateUpdate room recipient action data ∧
        world.engine.games room = some game ∧
        message = .gameStateUpdate room game.toClientState (some (action, data)) yourTurn
          game.turnNumber world.clock

theorem Instr.unrelated_iff_false {instruction : Instr} (unrelated : instruction.unrelated = true)
    (room : RoomId) : instruction.updates room = false ∧ instruction.ends room = false := by
  cases instruction with
  | sendPersonal player message after =>
      simp only [Instr.unrelated, Bool.and_eq_true, Option.isNone_iff_eq_none] at unrelated
      simp [Instr.updates, Instr.ends, unrelated]
  | sendStateUpdate | handleGameOver | sendGameOver => cases unrelated
  | _ => exact ⟨rfl, rfl⟩

theorem Message.updateRoom_eq_none {message : Message} {room : RoomId}
    (about : message.gameOverRoom = some room) : message.updateRoom = none := by
  cases message <;> first
    | rfl
    | cases about

theorem PlayBlock.room_cases {world : World} {instruction : Instr} {block : Block World Instr}
    (played : PlayBlock world instruction block) (room : RoomId) :
    Acts world room instruction block ∨ LeavesRoom world room instruction block := by
  cases played with
  | @acted acting player action data game result found passed =>
      by_cases same : acting = room
      · subst same
        exact .inl ⟨player, action, data, game, result, rfl, found, passed, rfl⟩
      have elsewhere next (member : next ∈ (result.1.playerIds.map fun recipient =>
          Instr.sendStateUpdate acting recipient action data) ++
            if result.2 then [Instr.handleGameOver acting] else []) :
          next = .handleGameOver acting ∨
            ∃ recipient, next = .sendStateUpdate acting recipient action data := by
        rcases List.mem_append.mp member with update | ending
        · obtain ⟨recipient, -, rfl⟩ := List.mem_map.mp update
          exact .inr ⟨recipient, rfl⟩
        · split at ending <;> simp at ending
          exact .inl ending
      refine .inr ⟨by simp [Ne.symm same], fun next member => ?_, by simp,
        fun recipient earlier payload member => ?_, fun recipient message after member => ?_⟩
      · rcases elsewhere next member with rfl | ⟨recipient, rfl⟩ <;>
          simp [Instr.updates, Instr.ends, same]
      · rcases elsewhere _ member with impossible | ⟨other, sameCall⟩
        · cases impossible
        · cases sameCall
          exact same rfl
      · rcases elsewhere _ member with impossible | ⟨other, impossible⟩ <;> cases impossible
  | @updated updated player action data game yourTurn stored =>
      refine .inr ⟨rfl, by simp [Instr.updates, Instr.ends, Message.updateRoom,
        Message.gameOverRoom], by simp, by simp, fun recipient message after member about => ?_⟩
      simp only [World.goOn_next, List.mem_singleton, Instr.sendPersonal.injEq] at member
      obtain ⟨rfl, rfl, rfl⟩ := member
      cases about
      exact ⟨recipient, action, data, game, yourTurn, rfl, stored, rfl⟩
  | closed stored games next spawned =>
      refine .inr ⟨congrFun games room, fun next member => ?_, by simp [spawned],
        by simp [next], by simp [next]⟩
      simp only [*, List.mem_append, List.mem_map, List.mem_cons, List.not_mem_nil,
        or_false] at member
      rcases member with ⟨player, -, rfl⟩ | rfl | rfl | rfl <;>
        simp [Instr.updates, Instr.ends]
  | announced about =>
      have silent := Message.updateRoom_eq_none about
      refine .inr ⟨rfl, by simp [Instr.updates, Instr.ends, silent, about], by simp, by simp,
        fun recipient message after member updates => ?_⟩
      simp only [World.goOn_next, List.mem_singleton, Instr.sendPersonal.injEq] at member
      rw [member.2.1, silent] at updates
      cases updates
  | unrelated games next spawned =>
      right
      refine ⟨congrFun games room, ?_, ?_, ?_, ?_⟩
      · intro lead member
        simp [Instr.unrelated_iff_false (next lead member).2 room]
      · intro lead member
        simp [Instr.unrelated_iff_false (spawned lead member).2 room]
      · intro recipient action data member
        cases (next _ member).2
      · intro recipient message after member about
        have silent := (Instr.unrelated_iff_false (next _ member).2 room).1
        simp [Instr.updates, about] at silent

theorem PlayBlock.plays {world : World} {instruction : Instr} {block : Block World Instr}
    (played : PlayBlock world instruction block) {next : Instr}
    (member : next ∈ block.next ∨ next ∈ block.spawned.flatten) : next.plays = true := by
  cases played with
  | acted found passed =>
      simp only [World.goOn_next, World.goOn_spawned, List.flatten_nil, List.not_mem_nil,
        or_false, List.mem_append, List.mem_map] at member
      rcases member with ⟨recipient, -, rfl⟩ | ending
      · rfl
      · split at ending <;> simp at ending
        exact ending ▸ rfl
  | updated | announced =>
      simp only [World.goOn_next, World.goOn_spawned, List.flatten_nil, List.not_mem_nil,
        or_false, List.mem_singleton] at member
      exact member ▸ rfl
  | closed stored games leads spawned =>
      simp only [leads, spawned, List.flatten_nil, List.not_mem_nil, or_false, List.mem_append,
        List.mem_map, List.mem_cons] at member
      rcases member with ⟨player, -, rfl⟩ | rfl | rfl | rfl <;> rfl
  | unrelated games leads spawned =>
      rcases member with lead | started
      · exact (leads next lead).1
      · exact (spawned next started).1

/-- A step of an action, or one that leaves the games alone. -/
inductive PlayStep (settings : Settings) (before after : ServerConfig) (choice : ServerChoice) :
    Prop where
  | played {instruction : Instr} {answer : Answer} {block : Block World Instr}
      (executed : before.executed choice = some instruction)
      (effect : instruction.block settings answer before.state = some block)
      (played : PlayBlock before.state instruction block) (state : after.state = block.state)
      (pending : ∀ next ∈ after.pending,
        next ∈ before.pending ∨ next ∈ block.next ∨ next ∈ block.spawned.flatten)
  | idle (unexecuted : before.executed choice = none)
      (engine : after.state.engine = before.state.engine)
      (pending : ∀ next ∈ after.pending, next ∈ before.pending ∨
        ∃ room player action data, next = .processAction room player action data)

theorem OnlyActions.effect {event : ServerEvent} (only : OnlyActions (.event event))
    {world state : World} {spawned : List (List Instr)}
    (effect : event.effect world = some (state, spawned)) :
    state.engine = world.engine ∧ ∀ next ∈ spawned.flatten,
      ∃ room player action data, next = .processAction room player action data := by
  rcases only event rfl with ⟨room, player, action, data, rfl⟩ | ⟨seconds, rfl⟩ <;>
    cases ServerEvent.happens effect <;> exact ⟨rfl, by simp⟩

theorem playStep (plays : ∀ instruction ∈ before.pending, instruction.plays = true)
    (only : OnlyActions choice) (step : (server settings).step choice before = some after) :
    PlayStep settings before after choice := by
  cases Machine.step_cases step with
  | @resumed task answer instruction rest block running current effect =>
      have here : ∀ present ∈ instruction :: rest, present.plays = true := fun present member =>
        plays present (mem_flatten_of_getElem? current member)
      refine .played (Config.executed_of_current current) effect
        (playBlock (here instruction List.mem_cons_self) effect) rfl ?_
      intro next member
      simp only [Config.pending, List.flatten_append, List.mem_append] at member
      rcases member with member | spawned
      · rcases mem_flatten_set member with continued | old
        · unfold Machine.continuation at continued
          split at continued
          · rw [show (server settings).unwind (instruction :: rest) = [] from
              unwind_of_plays here] at continued
            cases continued
          · rcases List.mem_append.mp continued with new | later
            · exact .inr (.inl new)
            · exact .inl (mem_flatten_of_getElem? current (List.mem_cons_of_mem _ later))
        · exact .inl old
      · exact .inr (.inr spawned)
  | @failed task instruction rest running current fallible =>
      refine .idle rfl rfl ?_
      intro next member
      rcases mem_flatten_set member with continued | old
      · rw [show (server settings).unwind (instruction :: rest) = [] from
          unwind_of_plays fun present member =>
            plays present (mem_flatten_of_getElem? current member)] at continued
        cases continued
      · exact .inl old
  | @happened event state spawned effect =>
      obtain ⟨engine, fresh⟩ := only.effect effect
      refine .idle rfl engine ?_
      intro next member
      simp only [Config.pending, List.flatten_append, List.mem_append] at member
      exact member.imp_right (fresh next)

theorem PlayStep.plays (playStep : PlayStep settings before after choice)
    (plays : ∀ instruction ∈ before.pending, instruction.plays = true) :
    ∀ instruction ∈ after.pending, instruction.plays = true := by
  intro next member
  cases playStep with
  | played executed effect played state pending =>
      rcases pending next member with old | new
      · exact plays next old
      · exact played.plays new
  | idle unexecuted engine pending =>
      rcases pending next member with old | ⟨room, player, action, data, rfl⟩
      · exact plays next old
      · rfl

def Instr.carriesUpdate : Instr → Bool
  | .sendPersonal _ message _ => message.updateRoom.isSome
  | _ => false

theorem Instr.updates_cases {instruction : Instr} (updates : instruction.updates room = true) :
    (∃ recipient action data, instruction = .sendStateUpdate room recipient action data) ∨
      instruction.carriesUpdate = true := by
  cases instruction with
  | sendStateUpdate updated recipient action data =>
      simp only [Instr.updates, decide_eq_true_eq] at updates
      exact .inl ⟨recipient, action, data, by rw [updates]⟩
  | sendPersonal player message after =>
      simp only [Instr.updates, decide_eq_true_eq] at updates
      exact .inr (by simp [Instr.carriesUpdate, updates])
  | _ => cases updates

theorem PlayBlock.carriesUpdate {world : World} {instruction : Instr} {block : Block World Instr}
    (played : PlayBlock world instruction block) :
    (∀ next ∈ block.spawned.flatten, ¬ next.carriesUpdate = true) ∧
      ((∀ next ∈ block.next, ¬ next.carriesUpdate = true) ∨
        ∃ room player action data message after,
          instruction = .sendStateUpdate room player action data ∧
            block.next = [.sendPersonal player message after]) := by
  have ordinary {instruction : Instr} (unrelated : instruction.unrelated = true) :
      ¬ instruction.carriesUpdate = true := by
    cases instruction <;> simp_all [Instr.unrelated, Instr.carriesUpdate]
  cases played with
  | acted found passed =>
      refine ⟨by simp, .inl ?_⟩
      intro next member
      rcases List.mem_append.mp member with update | ending
      · obtain ⟨recipient, -, rfl⟩ := List.mem_map.mp update
        simp [Instr.carriesUpdate]
      · split at ending <;> simp at ending
        simp [ending, Instr.carriesUpdate]
  | updated yourTurn stored => exact ⟨by simp, .inr ⟨_, _, _, _, _, _, rfl, rfl⟩⟩
  | closed stored games next spawned =>
      refine ⟨by simp [spawned], .inl ?_⟩
      intro lead member
      simp only [next, List.mem_append, List.mem_map, List.mem_cons, List.not_mem_nil,
        or_false] at member
      rcases member with ⟨player, -, rfl⟩ | rfl | rfl | rfl <;> simp [Instr.carriesUpdate]
  | announced about =>
      exact ⟨by simp, .inl (by simp [Instr.carriesUpdate, Message.updateRoom_eq_none about])⟩
  | unrelated games next spawned =>
      constructor
      · intro lead member
        exact ordinary (spawned lead member).2
      · exact .inl fun lead member => ordinary (next lead member).2

theorem updates_prompt : (server settings).Prompts (fun instruction => instruction.plays = true)
    fun instruction => instruction.carriesUpdate = true where
  isLocal instruction carries := by
    cases instruction <;> first
      | rfl
      | cases carries
  first instruction answer world block plays effect next member := by
    rcases (playBlock plays effect).carriesUpdate.2 with none | ⟨_, _, _, _, _, _, -, single⟩
    · exact none next (List.mem_of_mem_tail member)
    · simp [single] at member
  leads instruction answer world block next plays effect member carries := by
    rcases (playBlock plays effect).carriesUpdate.2 with none | ⟨_, _, _, _, _, _, rfl, -⟩
    · exact absurd carries (none next member)
    · simp [server, Instr.kind]
  spawned instruction answer world block plays effect :=
    (playBlock plays effect).carriesUpdate.1
  unwound task plays := by
    rw [show (server settings).unwind task = [] from unwind_of_plays plays]
    simp
  started event world result effect next member := by
    obtain ⟨state, spawned⟩ := result
    have effect : event.effect world = some (state, spawned) := effect
    cases ServerEvent.happens effect with
    | accept | callProcessAction | callHandlePlayerDisconnect | callHandlePlayerReconnect =>
        simp at member
        simp [member, Instr.carriesUpdate]
    | sessionExpires | playerRoomExpires | roomStateExpires | advance => simp at member

/-- A message shows the game as the logged application of its action left it. -/
def Explains (room : RoomId) (log : List StreamEvent) (world : World) (message : Message) : Prop :=
  ∃ game action data yourTurn time, world.engine.games room = some game ∧
    .applied room action data game ∈ log ∧
    message = .gameStateUpdate room game.toClientState (some (action, data)) yourTurn
      game.turnNumber time

/-- What holds of the game of a room and its messages while broadcasts take
turns. -/
structure Streaming (room : RoomId) (log : List StreamEvent) (config : ServerConfig) : Prop where
  plays : ∀ instruction ∈ config.pending, instruction.plays = true
  held : Held (fun instruction : Instr => instruction.carriesUpdate = true) config
  toBuild : ∀ recipient action data,
    .sendStateUpdate room recipient action data ∈ config.pending →
    ∃ game, config.state.engine.games room = some game ∧ .applied room action data game ∈ log
  built : ∀ player message after, .sendPersonal player message after ∈ config.pending →
    message.updateRoom = some room → Explains room log config.state message
  past : ∀ connection state lastAction yourTurn turn time,
    .handed connection (.gameStateUpdate room state lastAction yourTurn turn time) ∈ log →
    ∃ game, config.state.engine.games room = some game ∧ turn ≤ game.turnNumber
  parted : Finished config.state room →
    Parted (fun instruction : Instr => instruction.updates room = true)
      (fun instruction => instruction.ends room = true) config.tasks
  running : ¬ Finished config.state room →
    ∀ instruction ∈ config.pending, ¬ instruction.ends room = true
  closed : ∀ connection message, .handed connection message ∈ log →
    message.gameOverRoom = some room → Finished config.state room ∧
      ∀ instruction ∈ config.pending, ¬ instruction.updates room = true
  coherent : ∀ connection, CoherentStream room connection log

/-- What a step that is no accepted action of the room leaves of it. -/
structure KeepsRoom (room : RoomId) (before after : ServerConfig) : Prop where
  games : after.state.engine.games room = before.state.engine.games room
  updates : ∀ next ∈ after.pending, next.updates room = true →
    ∃ earlier ∈ before.pending, earlier.updates room = true
  ends : ∀ next ∈ after.pending, next.ends room = true →
    ∃ earlier ∈ before.pending, earlier.ends room = true
  toBuild : ∀ recipient action data,
    .sendStateUpdate room recipient action data ∈ after.pending →
    .sendStateUpdate room recipient action data ∈ before.pending
  built : ∀ player message mode, .sendPersonal player message mode ∈ after.pending →
    message.updateRoom = some room → .sendPersonal player message mode ∈ before.pending ∨
      ∃ recipient action data game yourTurn time,
        .sendStateUpdate room recipient action data ∈ before.pending ∧
          before.state.engine.games room = some game ∧
          message = .gameStateUpdate room game.toClientState (some (action, data)) yourTurn
            game.turnNumber time

theorem PlayStep.room_cases (playStep : PlayStep settings before after choice) (room : RoomId) :
    (∃ instruction answer block, before.executed choice = some instruction ∧
        instruction.block settings answer before.state = some block ∧
        Acts before.state room instruction block ∧ after.state = block.state ∧
        ∀ next ∈ after.pending, next ∈ before.pending ∨ next ∈ block.next) ∨
      KeepsRoom room before after := by
  cases playStep with
  | @played instruction answer block executed effect played state pending =>
      rcases played.room_cases room with acts | leaves
      · obtain ⟨player, action, data, game, result, rfl, found, passed, rfl⟩ := acts
        left
        refine ⟨_, answer, _, executed, effect,
          ⟨player, action, data, game, result, rfl, found, passed, rfl⟩, state, ?_⟩
        intro next member
        rcases pending next member with old | new | spawned
        · exact .inl old
        · exact .inr new
        · simp at spawned
      have running := Config.mem_pending_of_executed executed
      refine .inr ⟨by rw [state, leaves.games], fun next member updates => ?_,
        fun next member ends => ?_, fun recipient action data member => ?_,
        fun player message mode member about => ?_⟩ <;>
        rcases pending _ member with old | new | spawned
      · exact ⟨next, old, updates⟩
      · exact ⟨instruction, running, (leaves.leads next new).1 updates⟩
      · exact absurd updates (leaves.spawned next spawned).1
      · exact ⟨next, old, ends⟩
      · exact ⟨instruction, running, (leaves.leads next new).2 ends⟩
      · exact absurd ends (leaves.spawned next spawned).2
      · exact old
      · exact absurd new (leaves.toBuild recipient action data)
      · exact absurd (by simp [Instr.updates]) (leaves.spawned _ spawned).1
      · exact .inl old
      · obtain ⟨recipient, action, data, game, yourTurn, rfl, stored, shown⟩ :=
          leaves.built player message mode new about
        exact .inr ⟨recipient, action, data, game, yourTurn, _, running, stored, shown⟩
      · exact absurd (by simp [Instr.updates, about]) (leaves.spawned _ spawned).1
  | idle unexecuted engine pending =>
      refine .inr ⟨by rw [engine], fun next member updates => ?_, fun next member ends => ?_,
        fun recipient action data member => ?_, fun player message mode member about => ?_⟩ <;>
        rcases pending _ member with old | ⟨_, _, _, _, called⟩
      · exact ⟨next, old, updates⟩
      · cases called ▸ updates
      · exact ⟨next, old, ends⟩
      · cases called ▸ ends
      · exact old
      · cases called
      · exact .inl old
      · cases called

theorem observe_cases (choice : ServerChoice) (config : ServerConfig) :
    observeStreams choice config = [] ∨
      (∃ room action data game,
        observeStreams choice config = [.applied room action data game]) ∨
      ∃ player message after connection,
        config.executed choice = some (.sendPersonal player message after) ∧
          observeStreams choice config = [.handed connection message] := by
  unfold observeStreams
  split
  · split
    · rename_i engine _ _
      cases stored : engine.games _ with
      | none => exact .inl rfl
      | some game => exact .inr (.inl ⟨_, _, _, game, rfl⟩)
    · exact .inl rfl
  · rename_i player message after executed
    cases config.state.connections.connectionOf player with
    | none => exact .inl rfl
    | some connection => exact .inr (.inr ⟨player, message, after, connection, executed, rfl⟩)
  · exact .inl rfl

theorem mem_observe_handed {connection : ConnectionId} {message : Message}
    (handed : .handed connection message ∈ observeStreams choice before) :
    ∃ player after, before.executed choice = some (.sendPersonal player message after) := by
  rcases observe_cases choice before with
    none | ⟨_, _, _, _, applied⟩ | ⟨player, shown, after, receiver, executed, observed⟩
  · simp [none] at handed
  · simp [applied] at handed
  · simp only [observed, List.mem_singleton, StreamEvent.handed.injEq] at handed
    exact ⟨player, after, handed.2 ▸ executed⟩

/-- What an accepted action of the room does and how it is logged. -/
theorem observe_acts {instruction : Instr} {block : Block World Instr}
    (executed : before.executed choice = some instruction)
    (acts : Acts before.state room instruction block) :
    ∃ player action data game, ∃ result : ActiveGame × Bool,
      instruction = .processAction room player action data ∧
      before.state.engine.games room = some game ∧ game.status = .inProgress ∧
      (result.2 = true ↔ result.1.status = .finished) ∧
      result.1.turnNumber = game.turnNumber + 1 ∧
      (before.state.engine.processAction room player action data before.state.clock).2 =
        .accepted result.2 ∧
      observeStreams choice before = [.applied room action data result.1] ∧
      block.state.engine.games room = some result.1 ∧
      block.next = (result.1.playerIds.map fun recipient =>
          Instr.sendStateUpdate room recipient action data) ++
        if result.2 then [Instr.handleGameOver room] else [] := by
  obtain ⟨player, action, data, game, result, rfl, found, passed, rfl⟩ := acts
  obtain ⟨-, -, -, -, -, status⟩ := ActiveGame.processAction_frame passed
  have inProgress := (ActiveGame.processAction_passed passed).1
  have turn : result.1.turnNumber = game.turnNumber + 1 := by
    obtain ⟨-, -, -, x, -, y, -, -, rfl⟩ := ActiveGame.processAction_passed passed
    rw [ActiveGame.finishTurn_frame]
    rfl
  have equation : before.state.engine.processAction room player action data before.state.clock =
      (before.state.engine.write room result.1, .accepted result.2) := by
    simp [GameEngine.processAction, found, passed]
  refine ⟨player, action, data, game, result, rfl, (GameEngine.find_eq_some.mp found).2,
    inProgress, ?_, turn, by rw [equation], by simp [observeStreams, executed, equation], by simp,
    rfl⟩
  rw [status]
  cases result.2 <;> simp

theorem mem_stream {connection : ConnectionId} {message : Message} {log : List StreamEvent} :
    message ∈ stream connection log ↔ .handed connection message ∈ log := by
  simp only [stream, List.mem_filterMap]
  constructor
  · rintro ⟨event, member, handed⟩
    cases event with
    | applied => cases handed
    | handed receiver shown =>
        simp only [StreamEvent.handedTo] at handed
        split at handed
        · rename_i same
          cases handed
          exact same ▸ member
        · cases handed
  · intro member
    exact ⟨_, member, by simp [StreamEvent.handedTo]⟩

section Step

variable {log : List StreamEvent} (streaming : Streaming room log before)
  (only : OnlyActions choice) (step : (server settings).step choice before = some after)

include streaming only step

theorem Streaming.toBuild_step (inTurn : BroadcastsInTurn choice before) {recipient : PlayerId}
    {action data : Json} (pending : .sendStateUpdate room recipient action data ∈ after.pending) :
    ∃ game, after.state.engine.games room = some game ∧
      .applied room action data game ∈ log ++ observeStreams choice before := by
  rcases (playStep streaming.plays only step).room_cases room with
    ⟨instruction, answer, block, executed, effect, acts, state, origin⟩ | keeps
  · obtain
      ⟨player, acted, payload, game, result, rfl, -, -, -, -, accepted, observed, games, next⟩ :=
      observe_acts executed acts
    rcases origin _ pending with old | new
    · exact absurd old (inTurn _ _ _ _ _ executed accepted _ _ _)
    · have same : action = acted ∧ data = payload := by
        rw [next] at new
        rcases List.mem_append.mp new with update | ending
        · obtain ⟨other, -, call⟩ := List.mem_map.mp update
          cases call
          exact ⟨rfl, rfl⟩
        · split at ending <;> simp at ending
      rw [same.1, same.2, state, observed]
      exact ⟨result.1, games, by simp⟩
  · obtain ⟨game, stored, applied⟩ := streaming.toBuild _ _ _ (keeps.toBuild _ _ _ pending)
    exact ⟨game, keeps.games.trans stored, List.mem_append_left _ applied⟩

theorem Streaming.built_step {player : PlayerId} {message : Message} {mode : AfterSend}
    (pending : .sendPersonal player message mode ∈ after.pending)
    (about : message.updateRoom = some room) :
    Explains room (log ++ observeStreams choice before) after.state message := by
  rcases (playStep streaming.plays only step).room_cases room with
    ⟨instruction, answer, block, executed, effect, acts, state, origin⟩ | keeps
  · obtain ⟨player, acted, payload, game, result, rfl, -, -, -, -, -, -, -, next⟩ :=
      observe_acts executed acts
    rcases origin _ pending with old | new
    · -- a message that has been built is handed over before an action runs
      refine absurd ?_
        (streaming.held.none_pending step executed (by simp [Instr.carriesUpdate]) _ old)
      simp [Instr.carriesUpdate, about]
    · rw [next] at new
      rcases List.mem_append.mp new with update | ending
      · simp at update
      · split at ending <;> simp at ending
  · rcases keeps.built _ _ _ pending about with
      old | ⟨recipient, action, data, game, yourTurn, time, waiting, stored, shown⟩
    · obtain ⟨game, action, data, yourTurn, time, stored, applied, shown⟩ :=
        streaming.built _ _ _ old about
      exact ⟨game, action, data, yourTurn, time, keeps.games.trans stored,
        List.mem_append_left _ applied, shown⟩
    · obtain ⟨known, storedKnown, applied⟩ := streaming.toBuild _ _ _ waiting
      cases stored.symm.trans storedKnown
      exact ⟨game, action, data, yourTurn, time, keeps.games.trans stored,
        List.mem_append_left _ applied, shown⟩

/-- The number of turns of the room's game never falls. -/
theorem Streaming.turns_step {game : ActiveGame}
    (stored : before.state.engine.games room = some game) :
    ∃ next, after.state.engine.games room = some next ∧ game.turnNumber ≤ next.turnNumber := by
  rcases (playStep streaming.plays only step).room_cases room with
    ⟨instruction, answer, block, executed, -, acts, state, -⟩ | keeps
  · obtain ⟨_, _, _, known, result, -, storedKnown, -, -, turn, -, -, games, -⟩ :=
      observe_acts executed acts
    cases stored.symm.trans storedKnown
    exact ⟨result.1, by rw [state, games], by omega⟩
  · exact ⟨game, keeps.games.trans stored, le_rfl⟩

/-- The messages handed over by a step are built from the game as it is. -/
theorem Streaming.handed_now {connection : ConnectionId} {message : Message}
    (handed : .handed connection message ∈ observeStreams choice before)
    (about : message.updateRoom = some room) :
    Explains room log before.state message ∧ after.state.engine.games room =
      before.state.engine.games room := by
  obtain ⟨player, mode, executed⟩ := mem_observe_handed handed
  refine ⟨streaming.built _ _ _ (Config.mem_pending_of_executed executed) about, ?_⟩
  rcases (playStep streaming.plays only step).room_cases room with
    ⟨instruction, answer, block, acting, -, ⟨_, _, _, _, _, rfl, -⟩, -⟩ | keeps
  · cases executed.symm.trans acting
  · exact keeps.games

theorem Streaming.past_step {connection : ConnectionId} {state : ClientState}
    {lastAction : Option (Json × Json)} {yourTurn : Bool} {turn : Nat} {time : Time}
    (handed : .handed connection (.gameStateUpdate room state lastAction yourTurn turn time) ∈
      log ++ observeStreams choice before) :
    ∃ game, after.state.engine.games room = some game ∧ turn ≤ game.turnNumber := by
  rcases List.mem_append.mp handed with old | new
  · obtain ⟨game, stored, bound⟩ := streaming.past _ _ _ _ _ _ old
    obtain ⟨next, storedNext, grows⟩ := streaming.turns_step only step stored
    exact ⟨next, storedNext, bound.trans grows⟩
  · obtain ⟨⟨game, _, _, _, _, stored, -, shown⟩, games⟩ :=
      streaming.handed_now only step new rfl
    cases shown
    exact ⟨game, games.trans stored, le_rfl⟩

/-- A finished game is not acted on, so it stays finished. -/
theorem Streaming.finished_step (finished : Finished before.state room) :
    KeepsRoom room before after ∧ Finished after.state room := by
  obtain ⟨game, stored, status⟩ := finished
  rcases (playStep streaming.plays only step).room_cases room with
    ⟨instruction, answer, block, executed, -, acts, -⟩ | keeps
  · obtain ⟨_, _, _, known, _, -, storedKnown, inProgress, -⟩ := observe_acts executed acts
    cases stored.symm.trans storedKnown
    rw [status] at inProgress
    cases inProgress
  · exact ⟨keeps, game, keeps.games.trans stored, status⟩

theorem Streaming.closed_step {connection : ConnectionId} {message : Message}
    (handed : .handed connection message ∈ log ++ observeStreams choice before)
    (about : message.gameOverRoom = some room) :
    Finished after.state room ∧
      ∀ instruction ∈ after.pending, ¬ instruction.updates room = true := by
  have closing : Finished before.state room ∧
      ∀ instruction ∈ before.pending, ¬ instruction.updates room = true := by
    rcases List.mem_append.mp handed with old | new
    · exact streaming.closed _ _ old about
    · obtain ⟨player, mode, executed⟩ := mem_observe_handed new
      have ends : (Instr.sendPersonal player message mode).ends room = true := by
        simp [Instr.ends, about]
      have finished : Finished before.state room := by
        by_contra running
        exact streaming.running running _ (Config.mem_pending_of_executed executed) ends
      refine ⟨finished, ?_⟩
      cases choice with
      | resume task answer =>
          obtain ⟨current, present, head⟩ := Option.bind_eq_some_iff.mp executed
          obtain ⟨rest, rfl⟩ := List.head?_eq_some_iff.mp head
          exact (streaming.parted finished).none_early present ends
      | fail task => cases executed
      | event event => cases executed
  obtain ⟨keeps, finished⟩ := streaming.finished_step only step closing.1
  refine ⟨finished, ?_⟩
  intro instruction member updates
  obtain ⟨earlier, earlierMem, same⟩ := keeps.updates instruction member updates
  exact closing.2 earlier earlierMem same

theorem Streaming.running_step (running : ¬ Finished after.state room) :
    ∀ instruction ∈ after.pending, ¬ instruction.ends room = true := by
  have open_before : ¬ Finished before.state room := fun finished =>
    running (streaming.finished_step only step finished).2
  intro next member ends
  rcases (playStep streaming.plays only step).room_cases room with
    ⟨instruction, answer, block, executed, effect, acts, state, origin⟩ | keeps
  · obtain ⟨_, _, _, _, result, -, -, -, endsIt, -, -, -, games, leads⟩ :=
      observe_acts executed acts
    rcases origin next member with old | new
    · exact streaming.running open_before next old ends
    have goesOn : result.2 = false := by
      cases ended : result.2 with
      | false => rfl
      | true => exact absurd ⟨result.1, by rw [state, games], endsIt.mp ended⟩ running
    rw [leads, goesOn] at new
    obtain ⟨recipient, -, rfl⟩ := List.mem_map.mp (by simpa using new)
    cases ends
  · obtain ⟨earlier, earlierMem, same⟩ := keeps.ends next member ends
    exact streaming.running open_before earlier earlierMem same

theorem Streaming.parted_step (inTurn : BroadcastsInTurn choice before)
    (finished : Finished after.state room) :
    Parted (fun instruction : Instr => instruction.updates room = true)
      (fun instruction => instruction.ends room = true) after.tasks := by
  by_cases already : Finished before.state room
  · apply (streaming.parted already).step step
    · intro instruction answer block executed effect
      have plays := streaming.plays _ (Config.mem_pending_of_executed executed)
      rcases (playBlock plays effect).room_cases room with acts | leaves
      · obtain ⟨_, _, _, known, _, -, storedKnown, inProgress, -⟩ := observe_acts executed acts
        obtain ⟨game, stored, status⟩ := already
        cases stored.symm.trans storedKnown
        rw [status] at inProgress
        cases inProgress
      · exact ⟨leaves.leads, leaves.spawned⟩
    · intro task present
      rw [show (server settings).unwind task = [] from unwind_of_plays fun instruction member =>
        streaming.plays instruction (List.mem_flatten.mpr ⟨task, present, member⟩)]
      simp
    · rintro event state spawned rfl effect next member
      obtain ⟨_, _, _, _, rfl⟩ := (only.effect effect).2 next member
      simp [Instr.updates, Instr.ends]
  rcases (playStep streaming.plays only step).room_cases room with
    ⟨instruction, answer, block, executed, effect, acts, state, -⟩ | keeps
  · obtain ⟨player, action, data, _, result, rfl, -, -, endsIt, -, accepted, -, games, leads⟩ :=
      observe_acts executed acts
    have ended : result.2 = true := by
      obtain ⟨last, stored, status⟩ := finished
      rw [state, games] at stored
      cases stored
      exact endsIt.mpr status
    obtain ⟨returns, noTasks⟩ := acts.returns
    have noCarrier := streaming.held.none_pending step executed (by simp [Instr.carriesUpdate])
    refine Parted.of_block (result.1.playerIds.map fun recipient => Instr.sendStateUpdate room
      recipient action data) [.handleGameOver room] step executed
      (fun pending member => ⟨?_, streaming.running already pending member⟩) ?_ ?_ ?_
    · intro updates
      rcases Instr.updates_cases updates with ⟨recipient, earlier, payload, rfl⟩ | carries
      · exact inTurn _ _ _ _ _ executed accepted _ _ _ member
      · exact noCarrier pending member carries
    · intro other produced effected
      cases effect.symm.trans effected
      exact ⟨returns, by rw [leads, if_pos ended], noTasks⟩
    · intro lead member
      obtain ⟨recipient, -, rfl⟩ := List.mem_map.mp member
      simp [Instr.ends]
    · intro lead member
      rw [List.mem_singleton.mp member]
      simp [Instr.updates]
  · obtain ⟨game, stored, status⟩ := finished
    exact absurd ⟨game, keeps.games.symm.trans stored, status⟩ already

theorem Streaming.coherent_step (connection : ConnectionId) :
    CoherentStream room connection (log ++ observeStreams choice before) := by
  obtain ⟨explained, ordered⟩ := streaming.coherent connection
  have split : stream connection (log ++ observeStreams choice before) =
      stream connection log ++ stream connection (observeStreams choice before) :=
    List.filterMap_append ..
  constructor
  · intro state lastAction yourTurn turn time member
    rw [mem_stream] at member
    rcases List.mem_append.mp member with old | new
    · obtain ⟨action, data, game, named, applied, shown⟩ :=
        explained state lastAction yourTurn turn time (mem_stream.mpr old)
      exact ⟨action, data, game, named, List.mem_append_left _ applied, shown⟩
    · obtain ⟨⟨game, action, data, _, _, -, applied, shown⟩, -⟩ :=
        streaming.handed_now only step new rfl
      cases shown
      exact ⟨action, data, game, rfl, List.mem_append_left _ applied, rfl, rfl⟩
  · rw [split, List.pairwise_append]
    have observed : (stream connection (observeStreams choice before)).Pairwise
        (Message.MayPrecede room) := by
      rcases observe_cases choice before with
        none | ⟨_, _, _, _, applied⟩ | ⟨_, message, _, receiver, -, handed⟩
      · simp [none, stream]
      · rw [applied]
        exact List.Pairwise.nil
      · simp only [handed, stream, StreamEvent.handedTo, List.filterMap_cons, List.filterMap_nil]
        split <;> simp
    refine ⟨ordered, observed, ?_⟩
    intro earlier earlierMem later laterMem about
    rw [mem_stream] at earlierMem laterMem
    obtain ⟨⟨game, _, _, _, _, stored, -, rfl⟩, -⟩ := streaming.handed_now only step laterMem about
    constructor
    · intro gameOver
      obtain ⟨player, mode, executed⟩ := mem_observe_handed laterMem
      exact (streaming.closed _ _ earlierMem gameOver).2 _ (Config.mem_pending_of_executed executed)
        (by simp [Instr.updates, Message.updateRoom])
    · intro state lastAction yourTurn turn time _ _ _ _ _ same later
      subst same
      cases later
      obtain ⟨known, storedKnown, bound⟩ := streaming.past _ _ _ _ _ _ earlierMem
      cases stored.symm.trans storedKnown
      exact bound

end Step

theorem streaming_of_logged {world : World} {log : List StreamEvent} {config : ServerConfig}
    (logged : (server settings).Logged ⟨world, [], none⟩
      (fun choice config => OnlyActions choice ∧ BroadcastsInTurn choice config) observeStreams log
      config) : Streaming room log config := by
  induction logged with
  | start =>
      refine ⟨by simp [Config.pending], fun task current present => by simp at present, ?_, ?_, ?_,
        fun _ => ⟨0, fun task current present => by simp at present⟩, ?_, ?_,
        fun connection => ⟨?_, List.Pairwise.nil⟩⟩ <;> simp [Config.pending, stream]
  | step logged allowed step streaming =>
      obtain ⟨only, inTurn⟩ := allowed
      constructor
      · exact (playStep streaming.plays only step).plays streaming.plays
      · exact streaming.held.step updates_prompt streaming.plays step
      · intro _ _ _ pending
        exact streaming.toBuild_step only step inTurn pending
      · intro _ _ _ pending about
        exact streaming.built_step only step pending about
      · intro _ _ _ _ _ _ handed
        exact streaming.past_step only step handed
      · intro finished
        exact streaming.parted_step only step inTurn finished
      · intro running
        exact streaming.running_step only step running
      · intro _ _ handed about
        exact streaming.closed_step only step handed about
      · intro connection
        exact streaming.coherent_step only step connection

/-- Main result: when no action is accepted while an earlier one is still being
broadcast, every client is told a coherent story. -/
theorem streamsCoherent_of_broadcastsInTurn (settings : Settings) :
    StreamsCoherent settings fun choice config =>
      OnlyActions choice ∧ BroadcastsInTurn choice config :=
  fun _ _ _ logged _ connection => (streaming_of_logged logged).coherent connection

/-- A game of two connected players that has just begun. -/
def rookiesConnected : World where
  connections := (({} : ConnectionManager).register "ada" "conn-1").register "bob" "conn-2"
  engine := ({} : GameEngine).createMatchedGame "room-1" rookies 0

def placeAt (position : Int) : Json :=
  .obj [("x", .int position), ("y", .int position)]

def columnOf (data : Json) : Option Int :=
  match data.get "x" with
  | .ok (.int column) => some column
  | _ => none

/-- The second player acts while the first update about the first player's
action is being sent. -/
def overlappingBroadcasts : List ServerChoice :=
  .event (.callProcessAction "room-1" "ada" (.str "place") (placeAt 0)) :: proceed 0 3 ++
    .event (.callProcessAction "room-1" "bob" (.str "place") (placeAt 5)) :: proceed 1 3 ++
    proceed 0 3

/-- An update about a placement under the number of a turn. -/
def StreamEvent.tells (column : Int) (turn : Nat) : StreamEvent → Bool
  | .handed connection (.gameStateUpdate room _ (some (_, data)) _ shown _) =>
      decide (connection = "conn-2" ∧ room = "room-1" ∧ columnOf data = some column ∧ shown = turn)
  | _ => false

def StreamEvent.does (column : Int) (turn : Nat) : StreamEvent → Bool
  | .applied _ _ data game => decide (columnOf data = some column ∧ game.turnNumber = turn)
  | _ => false

theorem StreamEvent.eq_of_tells {column : Int} {turn : Nat} {event : StreamEvent}
    (tells : event.tells column turn = true) : ∃ state action data yourTurn time,
      event = .handed "conn-2" (.gameStateUpdate "room-1" state (some (action, data)) yourTurn turn
        time) ∧ columnOf data = some column := by
  unfold StreamEvent.tells at tells
  split at tells
  · obtain ⟨rfl, rfl, column, rfl⟩ := of_decide_eq_true tells
    exact ⟨_, _, _, _, _, rfl, column⟩
  · cases tells

theorem overlappingBroadcasts_only_actions {choice : ServerChoice}
    (member : choice ∈ overlappingBroadcasts) : OnlyActions choice := by
  rintro event rfl
  simp only [overlappingBroadcasts, proceed, List.cons_append, List.mem_cons, List.mem_append,
    List.mem_replicate, reduceCtorEq, and_false, or_false, false_or, Choice.event.injEq] at member
  rcases member with rfl | rfl <;> exact .inl ⟨_, _, _, _, rfl⟩

theorem overlappingBroadcasts_not_coherent :
    ¬ StreamsCoherent { instanceId := "inst-1" } fun choice _ => OnlyActions choice := by
  intro coherent
  have mixed : ((server { instanceId := "inst-1" }).record observeStreams overlappingBroadcasts
      ⟨rookiesConnected, [], none⟩ []).any (fun result =>
        result.1.any (StreamEvent.tells 0 2) && result.1.all fun event => !event.does 0 2) =
      true := by
    decide +kernel
  obtain ⟨⟨log, config⟩, executed, mixed⟩ := Option.any_eq_true _ _ |>.mp mixed
  obtain ⟨told, done⟩ := Bool.and_eq_true_iff.mp mixed
  obtain ⟨event, member, tells⟩ := List.any_eq_true.mp told
  obtain ⟨state, action, data, yourTurn, time, rfl, column⟩ := StreamEvent.eq_of_tells tells
  have logged : (server { instanceId := "inst-1" }).Logged ⟨rookiesConnected, [], none⟩
      (fun choice _ => OnlyActions choice) observeStreams log config :=
    Machine.logged_of_record .start
      (fun choice member _ => overlappingBroadcasts_only_actions member) executed
  obtain ⟨_, _, game, named, applied, -, turn⟩ :=
    (coherent _ _ _ logged "room-1" "conn-2").explained _ _ _ _ _ (mem_stream.mpr member)
  cases named
  have undone := List.all_eq_true.mp done _ applied
  simp [StreamEvent.does, column, ← turn] at undone

end TerritoryBackend

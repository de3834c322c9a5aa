import TerritoryBackend.StatusMachine

/-!
# What a block announces

Where the messages about a match, its turns and its snapshots come from: a
message is built by one block, from the game as it is at that moment, and handed
on unchanged by those that send it.
-/

namespace TerritoryBackend

open EventLoop

/-- A message that shows no game and offers none. -/
def Message.plain : Message → Bool
  | .matchFound .. | .gameStarted .. | .gameStateUpdate .. => false
  | _ => true

theorem Message.plain_of_notice {message : Message} (isNotice : message.notice = true) :
    message.plain = true := by
  cases message with
  | matchFound | gameStarted | gameStateUpdate => cases isNotice
  | _ => rfl

def AfterSend.plain : AfterSend → Bool
  | .offerSecond .. | .offerPublish .. => false
  | _ => true

namespace Instr

/-- The instructions that announce nothing about a match or its game. -/
def plain : Instr → Bool
  | .sendPersonal _ message after => message.plain && after.plain
  | .awaitSend .. | .publish .. | .offerMatch .. | .createGame .. | .sendGameStarted ..
  | .setSnapshot .. => false
  | _ => true

/-- How a block comes to announce something. -/
inductive Announces (world : World) (answer : Answer) : Instr → Instr → Prop where
  | plain (instruction : Instr) {next : Instr} (isPlain : next.plain = true) :
      Announces world answer instruction next
  | drawing {room : RoomId} {pair : MatchedPair} (drawn : answer = .drawn room)
      (fresh : room ∉ world.roomIds) :
      Announces world answer (.createMatch pair) (.offerMatch room pair)
  | registering {room : RoomId} {pair : MatchedPair} (drawn : answer = .drawn room)
      (fresh : room ∉ world.roomIds) :
      Announces world answer (.createMatch pair) (.createGame room pair)
  | offering {room : RoomId} {pair : MatchedPair} {coin : Bool} (tossed : answer = .coin coin) :
      Announces world answer (.offerMatch room pair)
        (.sendPersonal pair.playerA (pair.matchFound room coin pair.playerA)
          (.offerSecond room pair coin))
  | awaiting {player : PlayerId} {message : Message} {after : AfterSend}
      (connection : ConnectionId) :
      Announces world answer (.sendPersonal player message after)
        (.awaitSend player connection message after)
  | handingOn {instruction next : Instr} {player : PlayerId} {message : Message}
      {after : AfterSend}
      (sender : instruction = .sendPersonal player message after ∨
        ∃ connection, instruction = .awaitSend player connection message after)
      (sent : Bool) (goesOn : next ∈ after.next player message sent) :
      Announces world answer instruction next
  | starting {room : RoomId} {pair : MatchedPair} {player : PlayerId} {position : Nat}
      (plays : pair.playerIds[position]? = some player) :
      Announces world answer (.createGame room pair) (.sendGameStarted room player position)
  | started {room : RoomId} {player : PlayerId} {position : Nat} {game : ActiveGame}
      (stored : world.engine.games room = some game) :
      Announces world answer (.sendGameStarted room player position)
        (.sendPersonal player
          (.gameStarted room game.toClientState (decide (position = game.currentPlayerIdx)))
          .publish)
  | updated {room : RoomId} {player current : PlayerId} {action data : Json} {game : ActiveGame}
      (stored : world.engine.games room = some game)
      (isCurrent : game.currentPlayerId = some current) :
      Announces world answer (.sendStateUpdate room player action data)
        (.sendPersonal player
          (.gameStateUpdate room game.toClientState (some (action, data))
            (decide (player = current)) game.turnNumber world.clock) .publish)
  | resumed {room : RoomId} {player current : PlayerId} {game : ActiveGame}
      (found : world.engine.find room = some game)
      (isCurrent : game.currentPlayerId = some current) :
      Announces world answer (.handlePlayerReconnect room player)
        (.sendPersonal player
          (.gameStateUpdate room (game.handlePlayerReconnect player).toClientState none
            (decide (player = current)) game.turnNumber world.clock) .ignore)
  | saved {room : RoomId} {document : Json}
      (saves : world.engine.saveSnapshot room world.clock = .ok (some document)) :
      Announces world answer (.saveSnapshot room) (.setSnapshot room document)

variable {settings : Settings} {instruction next : Instr} {answer : Answer} {world : World}
  {block : Block World Instr}

theorem Leaves.announces (leaves : Leaves settings world answer instruction next) :
    Announces world answer instruction next := by
  cases leaves with
  | notifying _ _ isNotice =>
      exact .plain _ (by simp [plain, AfterSend.plain, Message.plain_of_notice isNotice])
  | drawing drawn fresh => exact .drawing drawn fresh
  | registering drawn fresh => exact .registering drawn fresh
  | offering tossed => exact .offering tossed
  | sending connection => exact .awaiting connection
  | unsendable goesOn => exact .handingOn (.inl rfl) false goesOn
  | handingOn sent goesOn => exact .handingOn (.inr ⟨_, rfl⟩) sent goesOn
  | starting plays => exact .starting plays
  | started stored => exact .started stored
  | updated stored isCurrent => exact .updated stored isCurrent
  | resumed found isCurrent => exact .resumed found isCurrent
  | saved saves => exact .saved saves
  | _ => exact .plain _ rfl

/-- Everything a block leaves to be executed is announced in one of these ways. -/
theorem block_announces (effect : instruction.block settings answer world = some block)
    (member : next ∈ block.next ∨ next ∈ block.spawned.flatten) :
    Announces world answer instruction next :=
  (block_leaves effect member).announces

theorem plain_of_unwind {instructions : List Instr}
    (member : next ∈ unwind settings instructions) : next.plain = true := by
  rcases unwind_cases member with
    ⟨player, connection, -, rfl⟩ | ⟨loop, seconds, -, rfl | rfl, rfl | rfl⟩ <;> rfl

end Instr

/-- What is to be announced after a step was to be announced before it, or it comes
from the block the step executed. -/
theorem announced_of_step {settings : Settings} {choice : ServerChoice}
    {before after : ServerConfig} (step : (server settings).step choice before = some after)
    {next : Instr} (pending : next ∈ after.pending) :
    next ∈ before.pending ∨ next.plain = true ∨
      ∃ task instruction answer block, choice = .resume task answer ∧
        before.executed choice = some instruction ∧
        instruction.block settings answer before.state = some block ∧
        after.state = block.state ∧ instruction.Announces before.state answer next := by
  cases Machine.step_cases step with
  | @resumed task answer instruction rest block running current effect =>
      have effect : instruction.block settings answer before.state = some block := effect
      have announced (member : next ∈ block.next ∨ next ∈ block.spawned.flatten) :=
        Instr.block_announces effect member
      have executed : before.executed (.resume task answer : ServerChoice) = some instruction :=
        Config.executed_of_current current
      simp only [Config.pending, List.flatten_append, List.mem_append] at pending
      rcases pending with pending | spawned
      · rcases mem_flatten_set pending with continued | old
        · unfold Machine.continuation at continued
          split at continued
          · exact .inr (.inl (Instr.plain_of_unwind continued))
          · rcases List.mem_append.mp continued with yielded | later
            · exact .inr (.inr ⟨_, _, _, _, rfl, executed, effect, rfl, announced (.inl yielded)⟩)
            · exact .inl (mem_flatten_of_getElem? current (List.mem_cons_of_mem _ later))
        · exact .inl old
      · exact .inr (.inr ⟨_, _, _, _, rfl, executed, effect, rfl, announced (.inr spawned)⟩)
  | failed current fallible =>
      rcases mem_flatten_set pending with continued | old
      · exact .inr (.inl (Instr.plain_of_unwind continued))
      · exact .inl old
  | @happened event state spawned effect =>
      simp only [Config.pending, List.flatten_append, List.mem_append] at pending
      rcases pending with old | started
      · exact .inl old
      · right
        left
        cases ServerEvent.happens effect <;> simp at started <;> subst started <;> rfl

section Drawn

variable {settings : Settings} {choice : ServerChoice} {before after : ServerConfig}
  {room : RoomId} {pair : MatchedPair}

/-- Matches are offered and registered for rooms that have just been drawn. -/
theorem offering_before (step : (server settings).step choice before = some after)
    (pending : .offerMatch room pair ∈ after.pending) :
    .offerMatch room pair ∈ before.pending ∨
      before.executed choice = some (.createMatch pair) ∧ room ∉ before.state.roomIds := by
  rcases announced_of_step step pending with
    old | isPlain | ⟨-, instruction, answer, block, -, executed, -, -, announces⟩
  · exact .inl old
  · cases isPlain
  · cases announces with
    | plain _ isPlain => cases isPlain
    | drawing drawn fresh => exact .inr ⟨executed, fresh⟩
    | @handingOn _ _ _ _ later sender sent goesOn =>
        cases later <;> simp [AfterSend.next] at goesOn

theorem registering_before (step : (server settings).step choice before = some after)
    (pending : .createGame room pair ∈ after.pending) :
    .createGame room pair ∈ before.pending ∨
      before.executed choice = some (.createMatch pair) ∧ room ∉ before.state.roomIds := by
  rcases announced_of_step step pending with
    old | isPlain | ⟨-, instruction, answer, block, -, executed, -, -, announces⟩
  · exact .inl old
  · cases isPlain
  · cases announces with
    | plain _ isPlain => cases isPlain
    | registering drawn fresh => exact .inr ⟨executed, fresh⟩
    | @handingOn _ _ _ _ later sender sent goesOn =>
        cases later <;> simp [AfterSend.next] at goesOn

end Drawn

end TerritoryBackend

import TerritoryBackend.AnnouncedTurns
import TerritoryBackend.Repositories
import TerritoryBackend.SessionRooms

/-!
# Where messages come from

Every message that is on its way, sent or published was built by one block of an
earlier step from the game as it was then.  A game changes only by the steps of
its life, so a message shows a stage the game has passed, and it is addressed to
one of the two players.
-/

namespace TerritoryBackend

open EventLoop

/-- The game of the room, registered for two players, is at this stage or has passed
it. -/
def Passed (world : World) (room : RoomId) (stage : ActiveGame) : Prop :=
  ∃ (pair : MatchedPair) (now : Time) (game : ActiveGame), pair.playerA ≠ pair.playerB ∧
    (ActiveGame.create room pair.playerIds pair.playerElos now).Lives stage ∧
    world.engine.games room = some game ∧ stage.Lives game

/-- The room and the game a message shows. -/
def Message.shows : Message → Option (RoomId × ClientState)
  | .gameStarted room state _ | .gameStateUpdate room state _ _ _ _
  | .gameOver room _ _ _ state => some (room, state)
  | _ => none

def Instr.carries : Instr → Option (PlayerId × Message)
  | .sendPersonal player message _ | .awaitSend player _ message _ | .publish player message =>
      some (player, message)
  | _ => none

/-- A message has left the process, or it is on its way. -/
inductive Issued (config : ServerConfig) (player : PlayerId) (message : Message) : Prop where
  | sent (member : (player, message) ∈ config.state.journal.sent)
  | published (member : (player, message) ∈ config.state.journal.published)
  | carried (instruction : Instr) (pending : instruction ∈ config.pending)
      (carries : instruction.carries = some (player, message))

/-- How a block comes to build a message. -/
inductive Instr.Builds (world : World) : Instr → PlayerId → Message → Prop where
  | notice (instruction : Instr) (player : PlayerId) {message : Message}
      (isNotice : message.notice = true) : Builds world instruction player message
  | offered (instruction : Instr) (player : PlayerId) (room : RoomId) (pair : MatchedPair)
      (coin : Bool) : Builds world instruction player (pair.matchFound room coin player)
  | started {room : RoomId} {player : PlayerId} {position : Nat} {game : ActiveGame}
      (stored : world.engine.games room = some game) :
      Builds world (.sendGameStarted room player position) player
        (.gameStarted room game.toClientState (decide (position = game.currentPlayerIdx)))
  | updated {room : RoomId} {player current : PlayerId} {action data : Json} {game : ActiveGame}
      (stored : world.engine.games room = some game)
      (isCurrent : game.currentPlayerId = some current) :
      Builds world (.sendStateUpdate room player action data) player
        (.gameStateUpdate room game.toClientState (some (action, data))
          (decide (player = current)) game.turnNumber world.clock)
  | ended {room : RoomId} {player : PlayerId} {settled game : ActiveGame}
      (stored : world.engine.games room = some game) :
      Builds world (.sendGameOver room player settled) player
        (.gameOver room game.winnerId (resultOf game.winnerId player) settled
          game.toClientState)
  | resumed {room : RoomId} {player current : PlayerId} {game : ActiveGame}
      (found : world.engine.find room = some game)
      (isCurrent : game.currentPlayerId = some current) :
      Builds world (.handlePlayerReconnect room player) player
        (.gameStateUpdate room (game.handlePlayerReconnect player).toClientState none
          (decide (player = current)) game.turnNumber world.clock)

variable {settings : Settings} {choice : ServerChoice} {before after : ServerConfig}
  {room : RoomId} {player : PlayerId} {message : Message} {game stage : ActiveGame}

theorem Passed.step (passed : Passed before.state room stage) (registered : Registered before)
    (step : (server settings).step choice before = some after) :
    Passed after.state room stage := by
  obtain ⟨pair, now, game, distinct, born, stored, lives⟩ := passed
  obtain ⟨next, storedNext, rfl | steps⟩ := game_after_step registered step stored
  · exact ⟨pair, now, next, distinct, born, storedNext, lives⟩
  · exact ⟨pair, now, next, distinct, born, storedNext, lives.tail steps⟩

/-- What is passed is passed by the game there is. -/
theorem Passed.lives {world : World} (passed : Passed world room stage)
    (stored : world.engine.games room = some game) : stage.Lives game := by
  obtain ⟨_, _, known, -, -, same, lives⟩ := passed
  cases stored.symm.trans same
  exact lives

theorem ActiveGame.Lives.playerIds (lives : stage.Lives game) :
    game.playerIds = stage.playerIds := by
  induction lives with
  | refl => rfl
  | tail _ step ih => exact step.playerIds.trans ih

/-- Every game has lived since it was registered for a pair. -/
theorem passed_of_reaches {redis : Redis} {roomIds : List RoomId}
    {guard : ServerChoice → ServerConfig → Prop} {config : ServerConfig}
    (reached : (server settings).Reaches (booted redis roomIds) guard config)
    (stored : config.state.engine.games room = some game) : Passed config.state room game := by
  have born : ∃ (pair : MatchedPair) (now : Time), pair.playerA ≠ pair.playerB ∧
      (ActiveGame.create room pair.playerIds pair.playerElos now).Lives game := by
    induction reached generalizing game with
    | start => cases stored
    | step reached allowed step ih =>
        rcases game_before_step step stored with
          ⟨known, same, rfl | steps⟩ | ⟨pair, executed, rfl⟩
        · exact ih same
        · obtain ⟨pair, now, distinct, lives⟩ := ih same
          exact ⟨pair, now, distinct, lives.tail steps⟩
        · exact ⟨pair, _, (registered_of_reaches reached).created room pair
            (Config.mem_pending_of_executed executed), .refl⟩
  obtain ⟨pair, now, distinct, lives⟩ := born
  exact ⟨pair, now, game, distinct, lives, stored, .refl⟩

/-- What follows a message hands it on, or it offers a match. -/
theorem AfterSend.next_cases {later : AfterSend} {sender : PlayerId} {handed : Message}
    {sent : Bool} {next : Instr} (goesOn : next ∈ later.next sender handed sent) :
    next.carries = some (sender, handed) ∨
      ∃ recipient room pair coin,
        next.carries = some (recipient, MatchedPair.matchFound pair room coin recipient) := by
  cases later with
  | ignore => cases goesOn
  | publish =>
      simp only [AfterSend.next] at goesOn
      split at goesOn
      · cases goesOn
      · cases List.mem_singleton.mp goesOn
        exact .inl rfl
  | offerSecond room pair coin =>
      cases List.mem_singleton.mp goesOn
      exact .inr ⟨_, room, pair, coin, rfl⟩
  | offerPublish room pair coin sentA =>
      rcases List.mem_append.mp goesOn with first | second
      · split at first
        · cases first
        · cases List.mem_singleton.mp first
          exact .inr ⟨_, room, pair, coin, rfl⟩
      · split at second
        · cases second
        · cases List.mem_singleton.mp second
          exact .inr ⟨_, room, pair, coin, rfl⟩

theorem Instr.builds_sendGameOver {world : World} {settled : ActiveGame} {next : Instr}
    (member : next ∈ (world.sendGameOver room player settled).next)
    {recipient : PlayerId} (carries : next.carries = some (recipient, message)) :
    Instr.Builds world (.sendGameOver room player settled) recipient message := by
  unfold World.sendGameOver World.withGame at member
  split at member
  · obtain ⟨current, -, shown⟩ := World.mem_showing member
    cases List.mem_singleton.mp shown
    cases carries
    exact .ended ‹_›
  · cases member

/-- Whatever a block leaves to be sent it has built, or it was on its way before. -/
theorem Instr.builds_of_block {instruction next : Instr} {answer : Answer} {world : World}
    {block : Block World Instr} (effect : instruction.block settings answer world = some block)
    (member : next ∈ block.next ∨ next ∈ block.spawned.flatten)
    (carries : next.carries = some (player, message)) :
    instruction.carries = some (player, message) ∨ instruction.Builds world player message := by
  have handedOn {sender : PlayerId} {handed : Message} {later : AfterSend} {sent : Bool}
      (goesOn : next ∈ later.next sender handed sent)
      (carrying : instruction.carries = some (sender, handed)) :
      instruction.carries = some (player, message) ∨
        instruction.Builds world player message := by
    rcases AfterSend.next_cases goesOn with same | ⟨recipient, offered, pair, coin, offers⟩
    · exact .inl (carrying.trans (same.symm.trans carries))
    · cases offers.symm.trans carries
      exact .inr (.offered _ _ offered pair coin)
  cases block_leaves effect member with
  | notifying _ _ isNotice =>
      cases carries
      exact .inr (.notice _ _ isNotice)
  | sending =>
      cases carries
      exact .inl rfl
  | unsendable goesOn => exact handedOn goesOn rfl
  | handingOn sent goesOn => exact handedOn goesOn rfl
  | offering =>
      cases carries
      exact .inr (.offered _ _ _ _ _)
  | started stored =>
      cases carries
      exact .inr (.started stored)
  | updated stored isCurrent =>
      cases carries
      exact .inr (.updated stored isCurrent)
  | announced =>
      cases effect
      right
      refine Instr.builds_sendGameOver (member.resolve_right ?_) carries
      intro spawned
      unfold World.sendGameOver World.withGame at spawned
      split at spawned <;> simp at spawned
  | resumed found isCurrent =>
      cases carries
      exact .inr (.resumed found isCurrent)
  | _ => cases carries

theorem Instr.carries_unwind {instructions : List Instr} {next : Instr}
    (member : next ∈ Instr.unwind settings instructions) : next.carries = none := by
  rcases unwind_cases member with
    ⟨_, _, -, rfl⟩ | ⟨loop, seconds, -, rfl | rfl, rfl | rfl⟩ <;> rfl

/-- A message that has been issued was issued before the step, or the step built it. -/
theorem issued_of_step (step : (server settings).step choice before = some after)
    (issued : Issued after player message) :
    Issued before player message ∨
      ∃ instruction, before.executed choice = some instruction ∧
        instruction.Builds before.state player message := by
  have change := worldStep_of_step step
  cases issued with
  | sent member =>
      left
      generalize after.state = world at change member
      cases change with
      | wrote executed writes =>
          cases writes with
          | sent sender connection handed later =>
              rcases List.mem_append.mp member with old | new
              · exact .sent old
              · cases List.mem_singleton.mp new
                exact .carried _ (Config.mem_pending_of_executed executed) rfl
          | _ => exact .sent member
      | failed task => exact .sent member
      | happened effect => exact .sent ((ServerEvent.frame effect).2.2.1 ▸ member)
  | published member =>
      left
      generalize after.state = world at change member
      cases change with
      | wrote executed writes =>
          cases writes with
          | published sender handed =>
              rcases List.mem_append.mp member with old | new
              · exact .published old
              · cases List.mem_singleton.mp new
                exact .carried _ (Config.mem_pending_of_executed executed) rfl
          | _ => exact .published member
      | failed task => exact .published member
      | happened effect => exact .published ((ServerEvent.frame effect).2.2.1 ▸ member)
  | carried next pending carries =>
      cases Machine.source_of_step step pending with
      | pending _ member => exact .inl (.carried next member carries)
      | yielded executed effect member =>
          rcases Instr.builds_of_block effect member carries with handed | built
          · exact .inl (.carried _ (Config.mem_pending_of_executed executed) handed)
          · exact .inr ⟨_, executed, built⟩
      | unwound _ present unwound =>
          have nothing := Instr.carries_unwind unwound
          rw [carries] at nothing
          cases nothing
      | started effect started =>
          cases ServerEvent.happens effect <;> simp at started <;> subst started <;> cases carries

end TerritoryBackend

import TerritoryBackend.AuthenticMessages
import TerritoryBackend.RatingFairness

/-!
# One result for everybody

The end of a game is announced by several messages and stored by a task of its
own, with other coroutines running in between.  All of them read a game that has
finished and does not change any more, so they agree on one result: what the two
players are told and what is recorded, the rating changes included.  Together with
the stages shown this makes every message about a game true.
-/

namespace TerritoryBackend

open EventLoop

/-- The game of the room has finished, and it is the given one but for who is
counted as absent. -/
def Final (world : World) (room : RoomId) (settled : ActiveGame) : Prop :=
  ∃ game, world.engine.games room = some game ∧ game.status = .finished ∧
    settled = { game with disconnectedPlayers := settled.disconnectedPlayers }

/-- What a player was told about the end of a game. -/
structure Announced (game : ActiveGame) (player : PlayerId) (winner : Option PlayerId)
    (result : String) (settled : ActiveGame) (state : ClientState) : Prop where
  finished : game.status = .finished
  plays : player ∈ game.playerIds
  winner_eq : winner = game.winnerId
  result_eq : result = resultOf game.winnerId player
  state_eq : state = game.toClientState
  delta_eq : settled.eloChange player = game.eloChange player

/-- Whatever is announced, recorded or cleaned up about a game is its result. -/
structure ResultAgreed (config : ServerConfig) (room : RoomId) (game : ActiveGame) : Prop where
  announced : ∀ player winner result settled state,
    (player, .gameOver room winner result settled state) ∈
        config.state.journal.sent ++ config.state.journal.published →
      Announced game player winner result settled state
  recorded : ∀ record ∈ config.state.journal.matchRecords, record.roomId = room →
    game.status = .finished ∧ ∀ (database : Database) (now : Time),
      database.persistResult record.final record.settled.calculateEloChanges now =
        database.persistResult game game.calculateEloChanges now
  removed : room ∉ config.state.engine.live → game.status = .finished
  /-- the two players are told opposite results, and what one gains the other loses -/
  opposite : ∀ player opponent, player ∈ game.playerIds → opponent ∈ game.playerIds →
    player ≠ opponent →
    ((resultOf game.winnerId player, resultOf game.winnerId opponent) ∈
        [("win", "loss"), ("loss", "win"), ("draw", "draw")]) ∧
      game.eloChange player + game.eloChange opponent = 0

/-- In every configuration all results agree, and none is announced or recorded
of a game there is not. -/
def ResultsAgree (settings : Settings) (start : ServerConfig)
    (guard : ServerChoice → ServerConfig → Prop) : Prop :=
  ∀ config, (server settings).Reaches start guard config → ∀ room,
    (∀ game, config.state.engine.games room = some game → ResultAgreed config room game) ∧
      (config.state.engine.games room = none →
        (∀ entry ∈ config.state.journal.sent ++ config.state.journal.published,
            entry.2.gameOverRoom ≠ some room) ∧
          ∀ record ∈ config.state.journal.matchRecords, record.roomId ≠ room)

/-- The result an instruction is about to announce or to store. -/
def Instr.settles : Instr → Option (RoomId × ActiveGame)
  | .sendGameOver room _ settled | .createPersistTask room settled
  | .persistResult room settled => some (room, settled)
  | _ => none

variable {settings : Settings} {choice : ServerChoice} {before after : ServerConfig}
  {room : RoomId} {player opponent : PlayerId} {message : Message} {game settled : ActiveGame}

theorem Final.step (final : Final before.state room settled) (registered : Registered before)
    (sound : GamesSound before) (step : (server settings).step choice before = some after) :
    Final after.state room settled := by
  obtain ⟨game, stored, finished, same⟩ := final
  obtain ⟨next, storedNext, rfl | steps⟩ := game_after_step registered step stored
  · exact ⟨next, storedNext, finished, same⟩
  · have frozen := (sound.settled room game stored).frozen finished steps
    refine ⟨next, storedNext, by rw [frozen]; exact finished, ?_⟩
    rw [same, frozen]

theorem Final.of_finished {world : World} (finished : Finished world room)
    (stored : world.engine.games room = some game) : Final world room game := by
  obtain ⟨known, same, status⟩ := finished
  cases stored.symm.trans same
  exact ⟨game, stored, status, rfl⟩

theorem settles_of_goesOn {later : AfterSend} {sender : PlayerId} {handed : Message}
    {sent : Bool} {next : Instr} (goesOn : next ∈ later.next sender handed sent) :
    next.settles = none := by
  have carries : next.carries ≠ none := by
    rcases AfterSend.next_cases goesOn with carries | ⟨_, _, _, _, carries⟩ <;> simp [carries]
  cases next <;> first | rfl | exact absurd rfl carries

/-- A result that is about to be announced or stored was so before, or the game has
just been declared over. -/
theorem settles_of_block {instruction next : Instr} {answer : Answer} {world : World}
    {block : Block World Instr} (effect : instruction.block settings answer world = some block)
    (member : next ∈ block.next ∨ next ∈ block.spawned.flatten)
    (settles : next.settles = some (room, settled)) :
    instruction.settles = some (room, settled) ∨
      instruction = .handleGameOver room ∧ world.engine.games room = some settled := by
  have declared {closing : RoomId} (known : instruction = .handleGameOver closing) :
      closing = room ∧ world.engine.games room = some settled := by
    subst known
    cases effect
    rcases handleGameOver_cases world closing with
      nothing | ⟨game, stored, -, spawned, goesOn, -⟩
    · simp [nothing] at member
    · simp only [goesOn, spawned, List.flatten_nil, List.not_mem_nil, or_false,
        List.mem_append, List.mem_map, List.mem_cons] at member
      rcases member with ⟨_, -, rfl⟩ | rfl | rfl | rfl
      · cases settles
        exact ⟨rfl, stored⟩
      · cases settles
        exact ⟨rfl, stored⟩
      · cases settles
      · cases settles
  cases Instr.block_leaves effect member with
  | announcing =>
      obtain ⟨rfl, stored⟩ := declared rfl
      exact .inr ⟨rfl, stored⟩
  | persisting =>
      obtain ⟨rfl, stored⟩ := declared rfl
      exact .inr ⟨rfl, stored⟩
  | persisted => exact .inl settles
  | unsendable goesOn =>
      rw [settles_of_goesOn goesOn] at settles
      cases settles
  | handingOn sent goesOn =>
      rw [settles_of_goesOn goesOn] at settles
      cases settles
  | _ => cases settles

/-- What is under way or done about the end of games is about their results. -/
structure ResultsFinal (config : ServerConfig) : Prop where
  pending : ∀ instruction ∈ config.pending, ∀ room settled,
    instruction.settles = some (room, settled) → Final config.state room settled
  issued : ∀ player room winner result settled state,
    Issued config player (.gameOver room winner result settled state) →
      Final config.state room settled ∧ ∃ game, Final config.state room game ∧
        player ∈ game.playerIds ∧ winner = game.winnerId ∧
        result = resultOf game.winnerId player ∧ state = game.toClientState
  recorded : ∀ record ∈ config.state.journal.matchRecords,
    Final config.state record.roomId record.settled ∧
      Final config.state record.roomId record.final

theorem matchRecords_step (step : (server settings).step choice before = some after)
    {record : MatchRecord} (member : record ∈ after.state.journal.matchRecords) :
    record ∈ before.state.journal.matchRecords ∨
      before.executed choice = some (.persistResult record.roomId record.settled) ∧
        before.state.engine.games record.roomId = some record.final := by
  by_cases executes : ∃ room settled, before.executed choice = some (.persistResult room settled)
  · obtain ⟨room, settled, executed⟩ := executes
    obtain ⟨_, block, effect, same⟩ := Machine.block_of_executed step executed
    cases effect
    rw [same] at member
    simp only [World.persistResult, World.withGame] at member
    split at member
    · rename_i game stored
      rcases List.mem_append.mp member with old | new
      · exact .inl old
      · cases List.mem_singleton.mp new
        exact .inr ⟨executed, stored⟩
    · exact .inl member
  · left
    have change := worldStep_of_step step
    generalize after.state = world at change member
    cases change with
    | wrote executed writes =>
        cases writes with
        | record room settled => exact absurd ⟨room, settled, executed⟩ executes
        | _ => exact member
    | failed task => exact member
    | happened effect => exact (ServerEvent.frame effect).2.2.1 ▸ member

theorem ResultsFinal.step (final : ResultsFinal before) (registered : Registered before)
    (sound : GamesSound before)
    (addressed : ∀ instruction ∈ before.pending, instruction.Addressed before.state)
    (step : (server settings).step choice before = some after) : ResultsFinal after where
  pending instruction pending room settled settles := by
    cases Machine.source_of_step step pending with
    | pending _ member =>
        exact (final.pending instruction member room settled settles).step registered sound step
    | yielded executed effect member =>
        have known := Config.mem_pending_of_executed executed
        rcases settles_of_block effect member settles with same | ⟨rfl, stored⟩
        · exact (final.pending _ known room settled same).step registered sound step
        · exact (Final.of_finished (sound.closed.closing room known) stored).step registered sound
            step
    | unwound _ present member =>
        rcases Instr.unwind_cases member with
          ⟨_, _, -, rfl⟩ | ⟨loop, seconds, -, rfl | rfl, rfl | rfl⟩ <;> cases settles
    | started effect member =>
        cases ServerEvent.happens effect <;> simp at member <;> subst member <;> cases settles
  issued player room winner result settled state issued := by
    rcases issued_of_step step issued with old | ⟨instruction, executed, built⟩
    · obtain ⟨finalSettled, game, finalGame, told⟩ :=
        final.issued player room winner result settled state old
      exact ⟨finalSettled.step registered sound step, game, finalGame.step registered sound step,
        told⟩
    · have known := Config.mem_pending_of_executed executed
      generalize shown : Message.gameOver room winner result settled state = message at built
      cases built with
      | notice _ _ isNotice =>
          subst shown
          cases isNotice
      | offered =>
          unfold MatchedPair.matchFound at shown
          split at shown <;> cases shown
      | ended stored =>
          cases shown
          obtain ⟨_, same, plays⟩ := addressed _ known
          cases stored.symm.trans same
          have finalSettled := final.pending _ known room settled rfl
          have finished : Finished before.state room := by
            obtain ⟨game, stored, status, -⟩ := finalSettled
            exact ⟨game, stored, status⟩
          exact ⟨finalSettled.step registered sound step, _,
            (Final.of_finished finished stored).step registered sound step, plays, rfl, rfl, rfl⟩
      | started | updated | resumed => cases shown
  recorded record member := by
    rcases matchRecords_step step member with old | ⟨executed, stored⟩
    · obtain ⟨settled, last⟩ := final.recorded record old
      exact ⟨settled.step registered sound step, last.step registered sound step⟩
    · have settled := final.pending _ (Config.mem_pending_of_executed executed) record.roomId
        record.settled rfl
      have finished : Finished before.state record.roomId := by
        obtain ⟨game, stored, status, -⟩ := settled
        exact ⟨game, stored, status⟩
      exact ⟨settled.step registered sound step,
        (Final.of_finished finished stored).step registered sound step⟩

theorem resultsFinal_of_reaches {redis : Redis} {roomIds : List RoomId}
    {guard : ServerChoice → ServerConfig → Prop} {config : ServerConfig}
    (reached : (server settings).Reaches (booted redis roomIds) guard config) :
    ResultsFinal config := by
  induction reached with
  | start =>
      constructor
      · intro instruction pending room settled settles
        rcases List.mem_pair.mp pending with rfl | rfl <;> cases settles
      · intro player room winner result settled state issued
        cases issued with
        | sent member => cases member
        | published member => cases member
        | carried instruction pending carries =>
            rcases List.mem_pair.mp pending with rfl | rfl <;> cases carries
      · intro record member
        cases member
  | step reached allowed step ih =>
      exact ih.step (registered_of_reaches reached) (gamesSound_of_reaches reached)
        (addressed_of_reaches reached) step

theorem winner_plays_of_step {next : ActiveGame}
    (plays : ∀ winner, game.winnerId = some winner → winner ∈ game.playerIds)
    (step : game.Step next) : ∀ winner, next.winnerId = some winner → winner ∈ next.playerIds := by
  rw [step.playerIds]
  cases step with
  | acted passed =>
      obtain ⟨-, -, -, x, -, y, -, -, rfl⟩ := ActiveGame.processAction_passed passed
      generalize acted : (game.place _ x y).recordAction _ _ _ _ = last
      have players : last.playerIds = game.playerIds := by rw [← acted]; rfl
      have winnerId : last.winnerId = game.winnerId := by rw [← acted]; rfl
      cases ended : last.isOver with
      | false =>
          rw [ActiveGame.finishTurn_of_not_isOver ended]
          exact winnerId ▸ plays
      | true =>
          rw [ActiveGame.finishTurn_of_isOver ended]
          unfold ActiveGame.determineWinner
          split
          · rename_i first second others listed
            rw [← players, show last.playerIds = first :: second :: others from listed]
            intro winner
            dsimp only
            split
            · rintro ⟨⟩
              simp
            · split
              · rintro ⟨⟩
                simp
              · rintro ⟨⟩
          · exact winnerId ▸ plays
  | paused | resumed => exact plays
  | forfeited absent =>
      intro winner won
      rcases Option.or_eq_some_iff.mp won with other | ⟨-, before⟩
      · exact List.mem_of_find?_eq_some other
      · exact plays winner before

theorem winner_plays_of_reaches {redis : Redis} {roomIds : List RoomId}
    {guard : ServerChoice → ServerConfig → Prop} {config : ServerConfig}
    (reached : (server settings).Reaches (booted redis roomIds) guard config)
    (stored : config.state.engine.games room = some game) :
    ∀ winner, game.winnerId = some winner → winner ∈ game.playerIds := by
  obtain ⟨_, _, _, -, born, -, -⟩ := passed_of_reaches reached stored
  exact born.invariant (fun _ _ plays step => winner_plays_of_step plays step)
    (by rintro winner ⟨⟩)

theorem plays_of_mem (registered : Registered before)
    (stored : before.state.engine.games room = some game) (plays : player ∈ game.playerIds)
    (against : opponent ∈ game.playerIds) (different : player ≠ opponent) :
    game.Plays player opponent := by
  obtain ⟨pair, -, players⟩ := registered.players room game stored
  rw [players] at plays against
  simp only [MatchedPair.playerIds, List.mem_cons, List.not_mem_nil, or_false] at plays against
  refine ⟨?_, different⟩
  rw [players]
  rcases plays with rfl | rfl <;> rcases against with rfl | rfl
  · exact absurd rfl different
  · exact .inl rfl
  · exact .inr rfl
  · exact absurd rfl different

theorem resultOf_opposite {winner : Option PlayerId} (plays : game.Plays player opponent)
    (wins : ∀ victor, winner = some victor → victor ∈ game.playerIds) :
    (resultOf winner player, resultOf winner opponent) ∈
      [("win", "loss"), ("loss", "win"), ("draw", "draw")] := by
  cases winner with
  | none => simp [resultOf]
  | some victor =>
      rcases plays.eq_or_eq (wins victor rfl) with rfl | rfl
      · simp [resultOf_winner, resultOf_loser plays.distinct]
      · simp [resultOf_winner, resultOf_loser plays.distinct.symm]

theorem Final.eq {world : World} (final : Final world room settled)
    (stored : world.engine.games room = some game) :
    game.status = .finished ∧
      settled = { game with disconnectedPlayers := settled.disconnectedPlayers } := by
  obtain ⟨known, same, finished, eq⟩ := final
  cases stored.symm.trans same
  exact ⟨finished, eq⟩

/-- What a player is told about the end of a game is its result. -/
theorem announced_of_issued {redis : Redis} {roomIds : List RoomId}
    {guard : ServerChoice → ServerConfig → Prop} {config : ServerConfig}
    {winner : Option PlayerId} {result : String} {state : ClientState}
    (reached : (server settings).Reaches (booted redis roomIds) guard config)
    (stored : config.state.engine.games room = some game)
    (issued : Issued config player (.gameOver room winner result settled state)) :
    Announced game player winner result settled state := by
  obtain ⟨finalSettled, last, finalLast, plays, rfl, rfl, rfl⟩ :=
    (resultsFinal_of_reaches reached).issued player room winner result settled state issued
  obtain ⟨finished, settledEq⟩ := finalSettled.eq stored
  obtain ⟨-, lastEq⟩ := finalLast.eq stored
  rw [lastEq] at plays ⊢
  rw [settledEq]
  exact ⟨finished, plays, rfl, rfl, rfl, rfl⟩

/-- Main result: whatever the server does and whatever fails, all results agree. -/
theorem resultsAgree (settings : Settings) (redis : Redis) (roomIds : List RoomId) :
    ResultsAgree settings (booted redis roomIds) unguarded := by
  intro config reached room
  have final := resultsFinal_of_reaches reached
  have registered := registered_of_reaches reached
  refine ⟨fun game stored => ⟨?_, ?_, ?_, ?_⟩, fun unknown => ⟨?_, ?_⟩⟩
  · intro player winner result settled state member
    exact announced_of_issued reached stored (issued_of_mem member)
  · intro record member same
    obtain ⟨finalSettled, finalLast⟩ := final.recorded record member
    obtain ⟨finished, settledEq⟩ := (same ▸ finalSettled).eq stored
    obtain ⟨-, lastEq⟩ := (same ▸ finalLast).eq stored
    refine ⟨finished, ?_⟩
    intro database now
    rw [settledEq, lastEq]
    rfl
  · exact (gamesSound_of_reaches reached).closed.gone room game stored
  · intro player opponent plays against different
    have opposed := plays_of_mem registered stored plays against different
    exact ⟨resultOf_opposite opposed (winner_plays_of_reaches reached stored),
      opposed.eloChange_add⟩
  · intro entry member about
    obtain ⟨player, message⟩ := entry
    cases message with
    | gameOver other winner result settled state =>
        cases about
        obtain ⟨⟨game, stored, -⟩, -⟩ :=
          final.issued player room winner result settled state (issued_of_mem member)
        rw [unknown] at stored
        cases stored
    | _ => cases about
  · intro record member same
    obtain ⟨⟨game, stored, -⟩, -⟩ := final.recorded record member
    rw [same, unknown] at stored
    cases stored

/-- A message that shows a game says nothing but the truth: it is authentic, and the
result it announces is the one of the finished game. -/
structure Truthful (world : World) (player : PlayerId) (message : Message) (room : RoomId)
    (state : ClientState) : Prop extends Authentic world player message room state where
  result : ∀ winner result settled, message = .gameOver room winner result settled state →
    ∃ game, world.engine.games room = some game ∧
      Announced game player winner result settled state

/-- Every message that has left the process and shows a game is truthful. -/
def MessagesTruthful (settings : Settings) (start : ServerConfig)
    (guard : ServerChoice → ServerConfig → Prop) : Prop :=
  ∀ config, (server settings).Reaches start guard config →
    ∀ player message room state,
      (player, message) ∈ config.state.journal.sent ++ config.state.journal.published →
      message.shows = some (room, state) → Truthful config.state player message room state

end TerritoryBackend

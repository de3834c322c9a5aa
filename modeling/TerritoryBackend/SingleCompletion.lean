import TerritoryBackend.Registration

/-!
# A game is completed once

What follows from a call of `_handle_game_over` is counted in four ledgers:
the calls themselves, the persist tasks, the match records and the messages to
one player.  A ledger conserves the sum of what is written and what is still
pending, so each is bounded by the number of times the status of the game
turns `finished`.
-/

namespace TerritoryBackend

open EventLoop

/-- What has become of the end of a room's game. -/
structure CompletedOnce (journal : Journal) (room : RoomId) : Prop where
  gameOvers : journal.gameOvers.count room ≤ 1
  persistTasks : journal.persistTasks.count room ≤ 1
  matchRecords : journal.matchRecords.countP (fun record => record.roomId = room) ≤ 1
  messages : ∀ player,
    (journal.sent ++ journal.published).countP
      (fun entry => entry.1 = player ∧ entry.2.gameOverRoom = some room) ≤ 1

/-- A timer that wakes does not find the game of its room finished with its
player still among the disconnected ones. -/
def NoForfeitAfterEnd (choice : ServerChoice) (config : ServerConfig) : Prop :=
  ∀ room player deadline game,
    config.executed choice = some (.disconnectTimerWakes room player deadline) →
    config.state.engine.find room = some game → game.status = .finished →
    player ∉ game.disconnectedPlayers

def World.unfinished (world : World) (room : RoomId) : Bool :=
  (world.engine.games room).all fun game => decide (game.status ≠ .finished)

def Instr.completing : Instr → Bool
  | .handleGameOver .. | .sendGameOver .. | .createPersistTask .. | .persistResult .. => true
  | .sendPersonal _ message _ | .awaitSend _ _ message _ | .publish _ message =>
      message.gameOverRoom.isSome
  | _ => false

def Instr.ending : Instr → Bool
  | .processAction .. | .disconnectTimerWakes .. => true
  | _ => false

/-- A block that does not declare a game over adds to the count and leaves
pending no more than the weight of its instruction. -/
def Conserved (room : RoomId) (weight : Instr → Nat) (count : Journal → Nat) : Prop :=
  ∀ {settings : Settings} {instruction : Instr} {answer : Answer} {world : World}
    {block : Block World Instr}, instruction.ending = false →
    (∀ game, world.engine.games room = some game → game.playerIds.Nodup) →
    instruction.block settings answer world = some block →
    block.carried weight instruction + count block.state.journal ≤
      weight instruction + count world.journal

/-- A count of consequences of `_handle_game_over` for one room, and the
weight of those still pending. -/
structure CompletionLedger (room : RoomId) where
  weight : Instr → Nat
  count : Journal → Nat
  count_empty : count {} = 0
  weight_eq_zero : ∀ instruction, instruction.completing = false → weight instruction = 0
  weight_handleGameOver : ∀ other, weight (.handleGameOver other) = if other = room then 1 else 0
  conserved : Conserved room weight count

variable {settings : Settings} {choice : ServerChoice} {before after : ServerConfig}
  {room : RoomId}

theorem World.unfinished_of_games {world : World} {game : ActiveGame}
    (stored : world.engine.games room = some game) :
    world.unfinished room = decide (game.status ≠ .finished) := by
  simp [World.unfinished, stored]

theorem unfinished_le {world after : World} {instruction : Instr}
    (change : GameChange world room instruction after) (other : instruction.ending = false)
    (new : ∀ pair, instruction = .createGame room pair → world.engine.games room = none) :
    (after.unfinished room).toNat ≤ (world.unfinished room).toNat := by
  cases change with
  | unchanged _ games live => simp [World.unfinished, games]
  | created pair games live =>
      simp [World.unfinished, games, new pair rfl, ActiveGame.create]
  | acted => cases other
  | paused _ found inProgress games live =>
      rw [World.unfinished_of_games games,
        World.unfinished_of_games (GameEngine.find_eq_some.mp found).2, inProgress]
      simp
  | forfeited => cases other
  | @resumed player game _ found games live =>
      rw [World.unfinished_of_games games,
        World.unfinished_of_games (GameEngine.find_eq_some.mp found).2]
      by_cases finished : game.status = .finished
      · simp [ActiveGame.handlePlayerReconnect, finished]
      · simpa [finished] using Bool.toNat_le _
  | popped found games gone => simp [World.unfinished, games]

namespace CompletionLedger

variable (ledger : CompletionLedger room)

theorem weight_quiet {instruction : Instr} (isQuiet : instruction.quiet = true) :
    ledger.weight instruction = 0 := by
  apply ledger.weight_eq_zero instruction
  unfold Instr.quiet at isQuiet
  split at isQuiet <;> simp_all [Instr.completing]

/-- An action that ends the game trades the running game for a pending call. -/
theorem ending_processAction {answer : Answer} {world : World} {block : Block World Instr}
    {acted : RoomId} {player : PlayerId} {action data : Json}
    (effect : (Instr.processAction acted player action data).block settings answer world =
      some block) :
    block.state.journal = world.journal ∧
      block.carried ledger.weight (.processAction acted player action data) +
        (block.state.unfinished room).toNat ≤ (world.unfinished room).toNat := by
  have weightless : ledger.weight (.processAction acted player action data) = 0 :=
    ledger.weight_quiet rfl
  cases effect
  rcases world.processAction_cases settings acted player action data with
    ⟨error, refused⟩ | raised | ⟨game, result, found, passed, accepted⟩
  · have quiet : ledger.weight (sendError player error) = 0 := ledger.weight_quiet rfl
    rw [refused]
    exact ⟨rfl, by simp [quiet]⟩
  · rw [raised]
    exact ⟨rfl, by simp [Block.carried, World.raise, weightless]⟩
  · rw [accepted]
    refine ⟨rfl, ?_⟩
    have updates : ((result.1.playerIds.map fun recipient =>
        Instr.sendStateUpdate acted recipient action data).map ledger.weight).sum = 0 := by
      apply sum_map_eq_zero
      intro instruction member
      obtain ⟨recipient, -, rfl⟩ := List.mem_map.mp member
      exact ledger.weight_quiet rfl
    rw [List.map_map] at updates
    have inProgress := (ActiveGame.processAction_passed passed).1
    have status := (ActiveGame.processAction_frame passed).2.2.2.2.2
    by_cases same : room = acted
    · subst same
      have written : ({ world with engine := world.engine.write room result.1 } : World).unfinished
          room = decide (result.1.status ≠ .finished) := World.unfinished_of_games (by simp)
      rw [World.unfinished_of_games (GameEngine.find_eq_some.mp found).2, inProgress,
        World.goOn_state, written, status]
      cases isOver : result.2 <;>
        simp [Block.carried, updates, ledger.weight_handleGameOver]
    · have elsewhere : ledger.weight (.handleGameOver acted) = 0 := by
        rw [ledger.weight_handleGameOver, if_neg (Ne.symm same)]
      cases isOver : result.2 <;>
        simp [Block.carried, updates, elsewhere, World.unfinished, same]

/-- A forfeit of an unfinished game trades it for a pending call. -/
theorem ending_disconnectTimerWakes {answer : Answer} {world : World}
    {block : Block World Instr} {lost : RoomId} {player : PlayerId} {deadline : Time}
    (effect : (Instr.disconnectTimerWakes lost player deadline).block settings answer world =
      some block)
    (allowed : ∀ game, world.engine.find lost = some game → game.status = .finished →
      player ∉ game.disconnectedPlayers) :
    block.state.journal = world.journal ∧
      block.carried ledger.weight (.disconnectTimerWakes lost player deadline) +
        (block.state.unfinished room).toNat ≤ (world.unfinished room).toNat := by
  rcases World.disconnectTimerWakes_cases effect with ⟨-, rfl⟩ | ⟨game, found, absent, rfl⟩
  · exact ⟨rfl, by simp [Block.carried]⟩
  · refine ⟨rfl, ?_⟩
    have unfinished : game.status ≠ .finished := fun finished => allowed game found finished absent
    by_cases same : room = lost
    · subst same
      rw [World.unfinished_of_games (GameEngine.find_eq_some.mp found).2]
      simp [Block.carried, ledger.weight_handleGameOver, World.unfinished, unfinished]
    · have elsewhere : ledger.weight (.handleGameOver lost) = 0 := by
        rw [ledger.weight_handleGameOver, if_neg (Ne.symm same)]
      simp [Block.carried, elsewhere, World.unfinished, same]

def total (config : ServerConfig) : Nat :=
  ledger.count config.state.journal + weigh ledger.weight config.tasks +
    (config.state.unfinished room).toNat

theorem total_step (registered : Registered before) (allowed : NoForfeitAfterEnd choice before)
    (step : (server settings).step choice before = some after) :
    ledger.total after ≤ ledger.total before := by
  have unwinds : (server settings).UnwindsWithin ledger.weight :=
    Instr.unwindsWithin (fun _ => ledger.weight_eq_zero _ rfl)
      fun _ _ => (ledger.weight_eq_zero _ rfl).trans_le (Nat.zero_le _)
  unfold total
  cases Machine.weighed_step step with
  | @executed _ instruction answer block executed effect state weighed =>
      have weighed := weighed unwinds
      have effect : instruction.block settings answer before.state = some block := effect
      rw [state]
      cases ending : instruction.ending with
      | false =>
          have conserved := ledger.conserved ending
            (fun game stored => registered.playerIds_nodup stored) effect
          have open_le := unfinished_le (gameChange_of_writes (Instr.block_writes effect) room)
            ending fun pair creates => (registered.unregistered
              (Config.mem_pending_of_executed (creates ▸ executed))).1
          omega
      | true =>
          have ended : block.state.journal = before.state.journal ∧
              block.carried ledger.weight instruction + (block.state.unfinished room).toNat ≤
                (before.state.unfinished room).toNat := by
            unfold Instr.ending at ending
            split at ending
            · exact ledger.ending_processAction effect
            · exact ledger.ending_disconnectTimerWakes effect fun game found =>
                allowed _ _ _ game executed found
            · cases ending
          rw [ended.1]
          omega
  | failed task state weighed =>
      have weighed := weighed unwinds
      rw [state]
      omega
  | @happened event spawned effect weighed =>
      have weighed := weighed ledger.weight
      have nothing : weigh ledger.weight spawned = 0 :=
        ServerEvent.weigh_spawned effect (fun _ _ => ledger.weight_eq_zero _ rfl)
          (fun _ _ _ _ => ledger.weight_eq_zero _ rfl) (fun _ _ => ledger.weight_eq_zero _ rfl)
          fun _ _ => ledger.weight_eq_zero _ rfl
      obtain ⟨engine, -, journal, -⟩ := ServerEvent.frame effect
      unfold World.unfinished
      rw [engine, journal]
      omega

theorem total_le_one {redis : Redis} {roomIds : List RoomId} {config : ServerConfig}
    (reached : (server settings).Reaches (booted redis roomIds) NoForfeitAfterEnd config) :
    ledger.total config ≤ 1 := by
  induction reached with
  | start =>
      have idle : weigh ledger.weight (booted redis roomIds).tasks = 0 := by
        apply weigh_eq_zero
        intro instruction member
        apply ledger.weight_quiet
        simp only [booted, List.flatten_cons, List.flatten_nil, List.append_nil,
          List.singleton_append, List.mem_cons, List.not_mem_nil, or_false] at member
        rcases member with rfl | rfl <;> rfl
      have empty : ledger.count (booted redis roomIds).state.journal = 0 := ledger.count_empty
      rw [total, idle, empty, Nat.zero_add]
      exact Bool.toNat_le _
  | step reached allowed stepTo ih =>
      exact (ledger.total_step (registered_of_reaches reached) allowed stepTo).trans ih

theorem count_le_one {redis : Redis} {roomIds : List RoomId} {config : ServerConfig}
    (reached : (server settings).Reaches (booted redis roomIds) NoForfeitAfterEnd config) :
    ledger.count config.state.journal ≤ 1 := by
  have bound := ledger.total_le_one reached
  unfold total at bound
  omega

end CompletionLedger

def Instr.journals : Instr → Bool
  | .awaitSend .. | .publish .. | .handleGameOver .. | .createPersistTask ..
  | .persistResult .. => true
  | _ => false

theorem Instr.Writes.journal {world after : World} {instruction : Instr}
    (writes : instruction.Writes settings world after) (silent : instruction.journals = false) :
    after.journal = world.journal := by
  cases writes with
  | sent | published | declare | persistTask | record => cases silent
  | _ => rfl

theorem handleGameOver_cases (world : World) (closing : RoomId) :
    world.handleGameOver closing = world.goOn ∨
      ∃ game, world.engine.games closing = some game ∧
        (world.handleGameOver closing).raises = false ∧
        (world.handleGameOver closing).spawned = [] ∧
        (world.handleGameOver closing).next =
          (game.playerIds.map fun player => Instr.sendGameOver closing player game) ++
            [.createPersistTask closing game, .saveSnapshot closing, .cleanupGame closing] ∧
        (world.handleGameOver closing).state.journal =
          { world.journal with gameOvers := world.journal.gameOvers ++ [closing] } := by
  unfold World.handleGameOver World.withGame
  split
  · rename_i game stored
    exact .inr ⟨game, stored, rfl, rfl, rfl, rfl⟩
  · exact .inl rfl

theorem conserved_of_weightless (weight : Instr → Nat) (count : Journal → Nat)
    {instruction : Instr} {world : World} {block : Block World Instr}
    (weightless : ∀ next, next ∈ block.next ∨ next ∈ block.spawned.flatten → weight next = 0)
    (same : count block.state.journal = count world.journal) :
    block.carried weight instruction + count block.state.journal ≤
      weight instruction + count world.journal := by
  rw [same]
  exact Nat.add_le_add_right (Block.carried_le weightless) _

/-- What `_handle_game_over` leaves pending when announcements have no weight. -/
theorem conserved_handleGameOver (weight : Instr → Nat) (count : Journal → Nat) {world : World}
    {closing : RoomId}
    (announces : ∀ player settled, weight (.sendGameOver closing player settled) = 0)
    (closes : ∀ game,
      weight (.createPersistTask closing game) + weight (.saveSnapshot closing) +
          weight (.cleanupGame closing) +
          count { world.journal with gameOvers := world.journal.gameOvers ++ [closing] } ≤
        weight (.handleGameOver closing) + count world.journal) :
    (world.handleGameOver closing).carried weight (.handleGameOver closing) +
        count (world.handleGameOver closing).state.journal ≤
      weight (.handleGameOver closing) + count world.journal := by
  rcases handleGameOver_cases world closing with
    nothing | ⟨game, -, returns, spawned, next, journal⟩
  · rw [nothing]
    simp
  · have bound := closes game
    have silent : ((game.playerIds.map fun player =>
        Instr.sendGameOver closing player game).map weight).sum = 0 :=
      sum_map_eq_zero (List.forall_mem_map.mpr fun player _ => announces player game)
    rw [journal]
    simp only [Block.carried, returns, spawned, next, List.map_append, List.sum_append, silent,
      List.map_cons, List.map_nil, List.sum_cons, List.sum_nil, weigh_nil]
    simpa [Nat.add_assoc] using bound

def Instr.callWeight (room : RoomId) : Instr → Nat
  | .handleGameOver closing => if closing = room then 1 else 0
  | _ => 0

/-- The weight of a pending persist task and of what creates one. -/
def Instr.taskWeight (room : RoomId) : Instr → Nat
  | .handleGameOver closing | .createPersistTask closing _ => if closing = room then 1 else 0
  | _ => 0

/-- The weight of a pending match record and of what leads to one. -/
def Instr.recordWeight (room : RoomId) : Instr → Nat
  | .handleGameOver closing | .createPersistTask closing _ | .persistResult closing _ =>
      if closing = room then 1 else 0
  | _ => 0

/-- The weight of a pending message about the end to one player. -/
def Instr.messageWeight (room : RoomId) (player : PlayerId) : Instr → Nat
  | .handleGameOver closing => if closing = room then 1 else 0
  | .sendGameOver closing recipient _ => if recipient = player ∧ closing = room then 1 else 0
  | .sendPersonal recipient message _ | .awaitSend recipient _ message _
  | .publish recipient message =>
      if recipient = player ∧ message.gameOverRoom = some room then 1 else 0
  | _ => 0

/-- The messages about the end of a room's game to one player. -/
def Journal.messageCount (room : RoomId) (player : PlayerId) (journal : Journal) : Nat :=
  (journal.sent ++ journal.published).countP fun entry =>
    entry.1 = player ∧ entry.2.gameOverRoom = some room

theorem conserved_gameOvers (room : RoomId) :
    Conserved room (Instr.callWeight room)
      (fun journal => journal.gameOvers.count room) := by
  intro settings instruction answer world block other nodup effect
  by_cases calls : ∃ closing, instruction = .handleGameOver closing
  · obtain ⟨closing, rfl⟩ := calls
    cases effect
    refine conserved_handleGameOver (Instr.callWeight room)
      (fun journal => journal.gameOvers.count room) (fun _ _ => rfl) ?_
    intro game
    simp only [Instr.callWeight, List.count_append, List.count_singleton, beq_iff_eq]
    omega
  · have writes := Instr.block_writes effect
    refine conserved_of_weightless (Instr.callWeight room)
      (fun journal => journal.gameOvers.count room) ?_ ?_
    · intro next member
      cases Instr.block_yields effect member with
      | quiet _ isQuiet =>
          cases next with
          | handleGameOver => cases isQuiet
          | _ => rfl
      | ended | forfeited => cases other
      | _ => rfl
    · generalize block.state = written at writes
      cases writes with
      | declare called => exact absurd ⟨called, rfl⟩ calls
      | _ => rfl

def gameOverLedger (room : RoomId) : CompletionLedger room where
  weight := Instr.callWeight room
  count journal := journal.gameOvers.count room
  count_empty := rfl
  weight_eq_zero instruction incomplete := by
    cases instruction with
    | handleGameOver => cases incomplete
    | _ => rfl
  weight_handleGameOver _ := rfl
  conserved := conserved_gameOvers room

theorem conserved_persistTasks (room : RoomId) :
    Conserved room (Instr.taskWeight room)
      (fun journal => journal.persistTasks.count room) := by
  intro settings instruction answer world block other nodup effect
  by_cases calls : ∃ closing, instruction = .handleGameOver closing
  · obtain ⟨closing, rfl⟩ := calls
    cases effect
    exact conserved_handleGameOver (Instr.taskWeight room)
      (fun journal => journal.persistTasks.count room) (fun _ _ => rfl) fun game => le_rfl
  by_cases creates : ∃ closing settled, instruction = .createPersistTask closing settled
  · obtain ⟨closing, settled, rfl⟩ := creates
    cases effect
    simp [Block.carried, World.createPersistTask, Instr.taskWeight, List.count_append,
      List.count_singleton]
    omega
  · have writes := Instr.block_writes effect
    refine conserved_of_weightless (Instr.taskWeight room)
      (fun journal => journal.persistTasks.count room) ?_ ?_
    · intro next member
      cases Instr.block_yields effect member with
      | quiet _ isQuiet =>
          cases next with
          | handleGameOver | createPersistTask => cases isQuiet
          | _ => rfl
      | ended | forfeited => cases other
      | persisting => exact absurd ⟨_, rfl⟩ calls
      | _ => rfl
    · generalize block.state = written at writes
      cases writes with
      | persistTask closing settled => exact absurd ⟨closing, settled, rfl⟩ creates
      | _ => rfl

/-- The tasks named `persist_{room_id}`. -/
def persistTaskLedger (room : RoomId) : CompletionLedger room where
  weight := Instr.taskWeight room
  count journal := journal.persistTasks.count room
  count_empty := rfl
  weight_eq_zero instruction incomplete := by
    cases instruction with
    | handleGameOver | createPersistTask => cases incomplete
    | _ => rfl
  weight_handleGameOver _ := rfl
  conserved := conserved_persistTasks room

theorem conserved_matchRecords (room : RoomId) :
    Conserved room (Instr.recordWeight room)
      (fun journal => journal.matchRecords.countP fun record => record.roomId = room) := by
  intro settings instruction answer world block other nodup effect
  by_cases calls : ∃ closing, instruction = .handleGameOver closing
  · obtain ⟨closing, rfl⟩ := calls
    cases effect
    exact conserved_handleGameOver (Instr.recordWeight room)
      (fun journal => journal.matchRecords.countP fun record => record.roomId = room)
      (fun _ _ => rfl) fun game => le_rfl
  by_cases creates : ∃ closing settled, instruction = .createPersistTask closing settled
  · obtain ⟨closing, settled, rfl⟩ := creates
    cases effect
    simp [Block.carried, World.createPersistTask, Instr.recordWeight]
  by_cases records : ∃ closing settled, instruction = .persistResult closing settled
  · obtain ⟨closing, settled, rfl⟩ := records
    cases effect
    unfold World.persistResult World.withGame
    split
    · simp [Block.carried, Instr.recordWeight, List.countP_append, List.countP_singleton]
      omega
    · simp [Block.carried]
  · have writes := Instr.block_writes effect
    refine conserved_of_weightless (Instr.recordWeight room)
      (fun journal => journal.matchRecords.countP fun record => record.roomId = room) ?_ ?_
    · intro next member
      cases Instr.block_yields effect member with
      | quiet _ isQuiet =>
          cases next with
          | handleGameOver | createPersistTask | persistResult => cases isQuiet
          | _ => rfl
      | ended | forfeited => cases other
      | persisting => exact absurd ⟨_, rfl⟩ calls
      | persisted => exact absurd ⟨_, _, rfl⟩ creates
      | _ => rfl
    · generalize block.state = written at writes
      cases writes with
      | record closing settled game => exact absurd ⟨closing, settled, rfl⟩ records
      | _ => rfl

/-- The rows written by `_persist_result`. -/
def matchRecordLedger (room : RoomId) : CompletionLedger room where
  weight := Instr.recordWeight room
  count journal := journal.matchRecords.countP fun record => record.roomId = room
  count_empty := rfl
  weight_eq_zero instruction incomplete := by
    cases instruction with
    | handleGameOver | createPersistTask | persistResult => cases incomplete
    | _ => rfl
  weight_handleGameOver _ := rfl
  conserved := conserved_matchRecords room

theorem sum_sendGameOver (room closing : RoomId) (player : PlayerId) (settled : ActiveGame)
    (playerIds : List PlayerId) :
    ((playerIds.map fun recipient => Instr.sendGameOver closing recipient settled).map
      (Instr.messageWeight room player)).sum =
        if closing = room then playerIds.count player else 0 := by
  induction playerIds with
  | nil => simp
  | cons recipient playerIds ih =>
      rw [List.map_cons, List.map_cons, List.sum_cons, ih]
      by_cases same : closing = room
      · by_cases isPlayer : recipient = player <;>
          simp [Instr.messageWeight, same, isPlayer, Nat.add_comm]
      · simp [Instr.messageWeight, same]

/-- A message is published only when it was not sent. -/
theorem sum_afterSend_next (room : RoomId) (player recipient : PlayerId) (message : Message)
    (after : AfterSend) (sent : Bool) :
    ((after.next recipient message sent).map (Instr.messageWeight room player)).sum ≤
      if sent then 0
      else if recipient = player ∧ message.gameOverRoom = some room then 1 else 0 := by
  cases after with
  | ignore => simp [AfterSend.next]
  | publish => cases sent <;> simp [AfterSend.next, Instr.messageWeight]
  | offerSecond room pair coin => simp [AfterSend.next, Instr.messageWeight]
  | offerPublish room pair coin sentA =>
      cases sentA <;> cases sent <;> simp [AfterSend.next, Instr.messageWeight]

theorem Instr.messageWeight_quiet {instruction : Instr} (isQuiet : instruction.quiet = true)
    (room : RoomId) (player : PlayerId) : instruction.messageWeight room player = 0 := by
  cases instruction with
  | handleGameOver | sendGameOver => cases isQuiet
  | sendPersonal recipient message | awaitSend recipient connection message
  | publish recipient message =>
      have ordinary : message.gameOverRoom = none := by simpa [Instr.quiet] using isQuiet
      simp [Instr.messageWeight, ordinary]
  | _ => rfl

theorem conserved_messages (room : RoomId) (player : PlayerId) :
    Conserved room (Instr.messageWeight room player)
      (Journal.messageCount room player) := by
  intro settings instruction answer world block other nodup effect
  cases instruction with
  | handleGameOver closing =>
      cases effect
      rcases handleGameOver_cases world closing with
        nothing | ⟨game, stored, returns, spawned, next, journal⟩
      · rw [nothing]
        simp [Block.carried]
      · have once : closing = room → game.playerIds.count player ≤ 1 := by
          rintro rfl
          exact List.nodup_iff_count_le_one.mp (nodup game stored) player
        rw [journal]
        simp only [Block.carried, returns, spawned, next, List.map_append, List.sum_append,
          sum_sendGameOver]
        by_cases same : closing = room
        · have bound := once same
          simp [Instr.messageWeight, Journal.messageCount, same, bound]
        · simp [Instr.messageWeight, Journal.messageCount, same]
  | sendGameOver closing recipient settled =>
      cases effect
      simp only [World.sendGameOver, World.withGame, World.showing]
      split
      · split
        · simp [Block.carried, Instr.messageWeight, Message.gameOverRoom]
        · simp [Block.carried, World.raise]
      · simp [Block.carried]
  | sendPersonal recipient message after =>
      cases effect
      unfold World.sendPersonal
      split
      · simp [Block.carried, Instr.messageWeight]
      · simpa [Block.carried, Instr.messageWeight] using
          sum_afterSend_next room player recipient message after false
  | awaitSend recipient connection message after =>
      simp only [Instr.block, World.awaitSend] at effect
      have unsent := sum_afterSend_next room player recipient message after false
      have sent := sum_afterSend_next room player recipient message after true
      split at effect <;> cases effect
      · simp only [if_true, Nat.le_zero] at sent
        simp [Block.carried, sent, Instr.messageWeight, Journal.messageCount,
          List.countP_append, List.countP_cons]
        omega
      · simpa [Block.carried, Instr.messageWeight] using unsent
      · simpa [Block.carried, Instr.messageWeight, World.updateConnections] using unsent
  | publish recipient message =>
      cases World.publish_eq_some effect
      simp [Block.carried, Instr.messageWeight, Journal.messageCount,
        List.countP_append, List.countP_singleton]
      omega
  | processAction => cases other
  | disconnectTimerWakes => cases other
  | createPersistTask closing settled =>
      cases effect
      simp [Block.carried, World.createPersistTask, Instr.messageWeight, Journal.messageCount]
  | persistResult closing settled =>
      cases effect
      unfold World.persistResult World.withGame
      split <;> simp [Block.carried, Journal.messageCount]
  | _ =>
      refine conserved_of_weightless (Instr.messageWeight room player)
        (Journal.messageCount room player) ?_ (by rw [(Instr.block_writes effect).journal rfl])
      intro next member
      cases Instr.block_yields effect member with
      | quiet _ isQuiet => exact Instr.messageWeight_quiet isQuiet room player
      | _ => rfl

/-- The messages about the end of the game to one player. -/
def messageLedger (room : RoomId) (player : PlayerId) : CompletionLedger room where
  weight := Instr.messageWeight room player
  count := Journal.messageCount room player
  count_empty := rfl
  weight_eq_zero instruction incomplete := by
    cases instruction with
    | handleGameOver | sendGameOver => cases incomplete
    | sendPersonal recipient message | awaitSend recipient connection message
    | publish recipient message =>
        have ordinary : message.gameOverRoom = none := by
          simpa [Instr.completing] using incomplete
        simp [Instr.messageWeight, ordinary]
    | _ => rfl
  weight_handleGameOver _ := rfl
  conserved := conserved_messages room player

/-- Every game is completed at most once, in every state reached by steps that
meet the guard. -/
def CompletionsUnique (settings : Settings) (start : ServerConfig)
    (guard : ServerChoice → ServerConfig → Prop) : Prop :=
  ∀ config, (server settings).Reaches start guard config →
    ∀ room, CompletedOnce config.state.journal room

/-- Main result: games are completed at most once as long as no timer wakes
on a finished game that is still registered. -/
theorem completionsUnique_of_noForfeitAfterEnd (settings : Settings) (redis : Redis)
    (roomIds : List RoomId) :
    CompletionsUnique settings (booted redis roomIds) NoForfeitAfterEnd :=
  fun _ reached room =>
    { gameOvers := (gameOverLedger room).count_le_one reached
      persistTasks := (persistTaskLedger room).count_le_one reached
      matchRecords := (matchRecordLedger room).count_le_one reached
      messages := fun player => (messageLedger room player).count_le_one reached }

/-- Ada's connection is lost twice, and both timers wake while the end of the
game is being announced. -/
def twoTimers : List ServerChoice :=
  openConnection "ada" "conn-1" 2 7 ++ formMatch "room-1" 19 ++
    .resume 2 .closed :: proceed 2 7 ++ proceed 3 1 ++
    openConnection "ada" "conn-2" 4 12 ++
    .resume 4 .closed :: proceed 4 7 ++ proceed 5 1 ++
    .event (.advance 30) :: proceed 3 4 ++ proceed 5 2

/-- The second timer completes the game again. -/
theorem twoTimers_not_unique :
    ¬ CompletionsUnique { instanceId := "inst-1" } (booted waitingRookies []) unguarded := by
  intro unique
  have twice : ((server { instanceId := "inst-1" }).run twoTimers
      (booted waitingRookies [])).any (fun config =>
        decide (config.state.journal.gameOvers.count "room-1" = 2)) = true := by
    decide +kernel
  obtain ⟨config, executed, count⟩ := Option.any_eq_true _ _ |>.mp twice
  have once := (unique config (Machine.reaches_of_run .start executed) "room-1").gameOvers
  rw [of_decide_eq_true count] at once
  omega

end TerritoryBackend

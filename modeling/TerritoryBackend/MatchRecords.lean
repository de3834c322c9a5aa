import TerritoryBackend.Handlers
import TerritoryBackend.Repositories

/-!
# Match records and player counters

`_persist_result` statement by statement: any statement may fail, and what has
been executed of a transaction is stored by its last statement only.  The
records and the counters of all players stay consistent over any sequence of
such transactions.
-/

namespace TerritoryBackend

/-- A statement of `create_match`, `record_result` or `_persist_result`. -/
inductive ResultStatement where
  | insertMatch
  | insertParticipants
  | updateMatch
  | updateParticipant (player : PlayerId) (newElo delta : Int)
  | updatePlayer (player : PlayerId) (newElo : Int)
  | commit

/-- The stored database, and what the transaction sees. -/
structure Transaction where
  stored : Database
  players : Dict PlayerId PlayerRow
  row : MatchRow

namespace Transaction

/-- A session before its first statement. -/
def start (database : Database) (room : RoomId) : Transaction where
  stored := database
  players := database.players
  row := { roomId := room, participants := [] }

/-- Execute a statement, `none` when it violates a foreign key. -/
def execute (game : ActiveGame) (now : Time) (transaction : Transaction) :
    ResultStatement → Option Transaction
  | .insertMatch => some { transaction with row := { roomId := game.roomId, participants := [] } }
  | .insertParticipants =>
      if game.playerIds.all fun player => (transaction.players.lookup player).isSome then
        some
          { transaction with
            row :=
              { transaction.row with
                participants := game.playerIds.map fun player =>
                  { playerId := player, eloBefore := game.playerElos.getD player 1000 } } }
      else none
  | .updateMatch =>
      some
        { transaction with
          row :=
            { transaction.row with
              status := "finished"
              winnerId := game.winnerId
              totalTurns := game.turnNumber
              durationSeconds := some (now - game.startedAt)
              finalState := some game.toClientState } }
  | .updateParticipant player newElo delta =>
      some
        { transaction with
          row :=
            { transaction.row with
              participants := Database.updateParticipant transaction.row.participants player newElo
                delta (resultOf game.winnerId player) } }
  | .updatePlayer player newElo =>
      some
        { transaction with
          players := Database.updateElo transaction.players player newElo
            (resultOf game.winnerId player) }
  | .commit =>
      some
        { transaction with
          stored :=
            { players := transaction.players
              matchRows := transaction.stored.matchRows ++ [transaction.row] } }

/-- Execute statements until one fails. -/
def executeAll (game : ActiveGame) (now : Time) (transaction : Transaction) :
    List ResultStatement → Transaction
  | [] => transaction
  | statement :: statements =>
      match transaction.execute game now statement with
      | some next => next.executeAll game now statements
      | none => transaction

end Transaction

/-- The statements of the loop over `elo_changes`. -/
def playerStatements (eloChanges : Dict PlayerId (Int × Int)) : List ResultStatement :=
  eloChanges.entries.flatMap fun entry =>
    [.updateParticipant entry.1 entry.2.1 entry.2.2, .updatePlayer entry.1 entry.2.1]

def persistStatements (eloChanges : Dict PlayerId (Int × Int)) : List ResultStatement :=
  [.insertMatch, .insertParticipants, .updateMatch] ++ playerStatements eloChanges ++ [.commit]

/-- The database after `_persist_result`, of which so many statements do not
fail. -/
noncomputable def Database.persistUntil (database : Database) (game : ActiveGame) (now : Time)
    (executed : Nat) : Database :=
  ((Transaction.start database game.roomId).executeAll game now
    ((persistStatements game.calculateEloChanges).take executed)).stored

/-- A player is registered, or a result is persisted. -/
inductive RecordStep where
  | register (player : PlayerId)
  | persist (game : ActiveGame) (now : Time) (executed : Nat)

noncomputable def Database.perform (database : Database) : RecordStep → Database
  | .register player => (database.create player).getD database
  | .persist game now executed => database.persistUntil game now executed

noncomputable def Database.performAll (database : Database) (steps : List RecordStep) : Database :=
  steps.foldl Database.perform database

/-- A finished game of two players that one of them or nobody has won. -/
structure FinishedPair (game : ActiveGame) (first second : PlayerId) : Prop where
  players : game.playerIds = [first, second]
  distinct : first ≠ second
  winner : game.winnerId = none ∨ game.winnerId = some first ∨ game.winnerId = some second
  finished : game.status = .finished

/-- The result and the `elo_delta` that `_handle_game_over` sends to a player. -/
noncomputable def ActiveGame.gameOverNotice (game : ActiveGame) (player : PlayerId) :
    String × Int :=
  (if game.winnerId = none then "draw"
    else if game.winnerId = some player then "win" else "loss",
    (game.calculateEloChanges.getD player (game.eloBefore player, 0)).2)

/-- The two results of a match say who has won. -/
def ResultsMatch (winnerId : Option PlayerId) (first second : ParticipantRow) : Prop :=
  winnerId = none ∧ first.result = some "draw" ∧ second.result = some "draw" ∨
    winnerId = some first.playerId ∧ first.result = some "win" ∧ second.result = some "loss" ∨
    winnerId = some second.playerId ∧ first.result = some "loss" ∧ second.result = some "win"

/-- A row records the game as its players were told. -/
structure RecordsGame (row : MatchRow) (game : ActiveGame) : Prop where
  status : row.status = "finished"
  winner : row.winnerId = game.winnerId
  participants : ∃ first second, row.participants = [first, second] ∧
    first.playerId ≠ second.playerId ∧ ResultsMatch row.winnerId first second
  elo : ∀ participant ∈ row.participants, ∃ delta, participant.eloDelta = some delta ∧
    participant.eloAfter = some (participant.eloBefore + delta)
  notices : ∀ participant ∈ row.participants, participant.playerId ∈ game.playerIds ∧
    participant.result = some (game.gameOverNotice participant.playerId).1 ∧
    participant.eloDelta = some (game.gameOverNotice participant.playerId).2

/-- The number of recorded matches a player took part in. -/
def Database.appearances (database : Database) (player : PlayerId) : Nat :=
  database.matchRows.countP fun row =>
    decide (player ∈ row.participants.map ParticipantRow.playerId)

/-- The counters of the players agree with the recorded matches. -/
structure CountersConsistent (database : Database) : Prop where
  played : ∀ player row, database.players.lookup player = some row →
    row.gamesPlayed = row.gamesWon + row.gamesLost + row.gamesDrawn ∧
      row.gamesPlayed = database.appearances player
  registered : ∀ player, database.players.lookup player = none → database.appearances player = 0
  totals : database.players.total PlayerRow.gamesWon = database.players.total PlayerRow.gamesLost

structure RecordsConsistent (steps : List RecordStep) (database : Database) : Prop where
  counters : CountersConsistent database
  records : ∀ row ∈ database.matchRows, ∃ game now executed,
    .persist game now executed ∈ steps ∧ RecordsGame row game

/-- Results are persisted of finished games of two players only. -/
def PersistsFinished (steps : List RecordStep) : Prop :=
  ∀ game now executed, .persist game now executed ∈ steps →
    ∃ first second, FinishedPair game first second

variable {database after : Database} {game : ActiveGame} {first second player : PlayerId}
  {now : Time}

namespace Transaction

theorem stored_execute {transaction next : Transaction} {statement : ResultStatement}
    (executed : transaction.execute game now statement = some next)
    (uncommitted : statement ≠ .commit) : next.stored = transaction.stored := by
  cases statement with
  | insertParticipants =>
      simp only [execute] at executed
      split at executed <;> cases executed
      rfl
  | commit => exact absurd rfl uncommitted
  | insertMatch | updateMatch | updateParticipant | updatePlayer =>
      cases executed
      rfl

/-- Nothing is stored before the commit. -/
theorem stored_executeAll {transaction : Transaction} {statements : List ResultStatement}
    (uncommitted : .commit ∉ statements) :
    (transaction.executeAll game now statements).stored = transaction.stored := by
  induction statements generalizing transaction with
  | nil => rfl
  | cons statement statements ih =>
      obtain ⟨notCommit, later⟩ := not_or.mp (mt List.mem_cons.mpr uncommitted)
      rw [executeAll]
      split
      · rename_i next executed
        rw [ih later, stored_execute executed (Ne.symm notCommit)]
      · rfl

/-- The loop over the changes updates the participants and the players. -/
theorem executeAll_changes (transaction : Transaction)
    (changes : List (Sigma fun _ : PlayerId => Int × Int)) (statements : List ResultStatement) :
    transaction.executeAll game now ((changes.flatMap fun entry =>
        [.updateParticipant entry.1 entry.2.1 entry.2.2, .updatePlayer entry.1 entry.2.1]) ++
          statements) =
      ({ transaction with
        players := changes.foldl (fun players entry =>
          Database.updateElo players entry.1 entry.2.1 (resultOf game.winnerId entry.1))
            transaction.players
        row :=
          { transaction.row with
            participants := changes.foldl (fun participants entry =>
              Database.updateParticipant participants entry.1 entry.2.1 entry.2.2
                (resultOf game.winnerId entry.1)) transaction.row.participants } } :
        Transaction).executeAll game now statements := by
  induction changes generalizing transaction with
  | nil => rfl
  | cons entry changes ih =>
      rw [List.flatMap_cons, List.append_assoc]
      exact ih _

end Transaction

theorem commit_notMem_playerStatements (eloChanges : Dict PlayerId (Int × Int)) :
    .commit ∉ playerStatements eloChanges := by
  intro member
  obtain ⟨entry, -, among⟩ := List.mem_flatMap.mp member
  simp at among

/-- A transaction stores nothing or the whole result. -/
theorem persistUntil_cases (database : Database) (game : ActiveGame) (now : Time)
    (executed : Nat) :
    database.persistUntil game now executed = database ∨
      database.persistResult game game.calculateEloChanges now =
        some (database.persistUntil game now executed) := by
  unfold Database.persistUntil
  by_cases all : (persistStatements game.calculateEloChanges).length ≤ executed
  · rw [List.take_of_length_le all, persistStatements, List.append_assoc]
    by_cases registered : (game.playerIds.all fun player =>
        (database.players.lookup player).isSome) = true
    · right
      simp only [List.cons_append, List.nil_append, Transaction.executeAll, Transaction.execute,
        Transaction.start, registered, if_true]
      rw [playerStatements, Transaction.executeAll_changes]
      simp only [Transaction.executeAll, Transaction.execute, Database.persistResult,
        Database.createMatch, registered, if_true, Option.map_some, Database.recordResult]
    · left
      simp [Transaction.executeAll, Transaction.execute, Transaction.start, registered]
  · -- The commit is the last statement, so it is not among the first ones.
    left
    apply Transaction.stored_executeAll
    intro member
    rw [persistStatements, List.length_append, List.length_singleton] at all
    rw [persistStatements, List.take_append_of_le_length (by omega)] at member
    have among := List.mem_of_mem_take member
    rw [List.mem_append] at among
    obtain among | among := among
    · simp at among
    · exact commit_notMem_playerStatements _ among

theorem ActiveGame.lookup_calculateEloChanges (pair : FinishedPair game first second)
    (player : PlayerId) :
    game.calculateEloChanges.lookup player =
      if player = second then
        some (game.eloBefore second + (game.eloDeltas first second).2,
          (game.eloDeltas first second).2)
      else if player = first then
        some (game.eloBefore first + (game.eloDeltas first second).1,
          (game.eloDeltas first second).1)
      else none := by
  rw [calculateEloChanges, pair.players]
  dsimp only
  rw [Dict.lookup_insert, Dict.lookup_insert, Dict.lookup_empty]

/-- What the players were told is what is recorded. -/
theorem recordsGame {row : MatchRow} (pair : FinishedPair game first second)
    (status : row.status = "finished") (winner : row.winnerId = game.winnerId)
    (participants : row.participants =
      [⟨first, some (resultOf game.winnerId first), game.eloBefore first,
          some (game.eloBefore first + (game.eloDeltas first second).1),
          some (game.eloDeltas first second).1⟩,
        ⟨second, some (resultOf game.winnerId second), game.eloBefore second,
          some (game.eloBefore second + (game.eloDeltas first second).2),
          some (game.eloDeltas first second).2⟩]) : RecordsGame row game where
  status := status
  winner := winner
  participants := by
    refine ⟨_, _, participants, pair.distinct, ?_⟩
    rw [winner]
    obtain none | firstWins | secondWins := pair.winner
    · exact .inl ⟨none, by simp [resultOf, none], by simp [resultOf, none]⟩
    · exact .inr (.inl ⟨firstWins, by simp [resultOf, firstWins],
        by simp [resultOf, firstWins, pair.distinct]⟩)
    · exact .inr (.inr ⟨secondWins, by simp [resultOf, secondWins, pair.distinct.symm],
        by simp [resultOf, secondWins]⟩)
  elo := by
    rw [participants]
    simp only [List.forall_mem_cons, List.not_mem_nil, false_imp_iff, implies_true, and_true]
    exact ⟨⟨_, rfl, rfl⟩, ⟨_, rfl, rfl⟩⟩
  notices := by
    rw [participants]
    simp only [List.forall_mem_cons, List.not_mem_nil, false_imp_iff, implies_true, and_true,
      ActiveGame.gameOverNotice, Dict.getD, game.lookup_calculateEloChanges pair, pair.players]
    exact ⟨⟨by simp, rfl, by simp [pair.distinct]⟩, ⟨by simp, rfl, by simp⟩⟩

/-- The message of `_handle_game_over` says the same, its `elo_delta` being that
of the game it carries. -/
theorem World.sendGameOver_notice {world : World} {room : RoomId} {current : PlayerId}
    (stored : world.engine.games room = some game)
    (isCurrent : game.currentPlayerId = some current) (player : PlayerId)
    (settled : ActiveGame) :
    (world.sendGameOver room player settled).next =
      [.sendPersonal player (.gameOver room game.winnerId (game.gameOverNotice player).1 settled
        game.toClientState) .publish] := by
  simp [World.sendGameOver, World.withGame, World.showing, World.goOn, stored, isCurrent,
    ActiveGame.gameOverNotice]

def PlayerRow.updated (row : PlayerRow) (newElo : Int) (result : String) : PlayerRow where
  eloRating := newElo
  gamesPlayed := row.gamesPlayed + 1
  gamesWon := if result = "win" then row.gamesWon + 1 else row.gamesWon
  gamesLost := if result = "loss" then row.gamesLost + 1 else row.gamesLost
  gamesDrawn := if result = "draw" then row.gamesDrawn + 1 else row.gamesDrawn

theorem updateElo_of_registered {players : Dict PlayerId PlayerRow} {row : PlayerRow}
    (stored : players.lookup player = some row) (newElo : Int) (result : String) :
    Database.updateElo players player newElo result =
      players.insert player (row.updated newElo result) := by
  simp [Database.updateElo, stored, PlayerRow.updated]

theorem resultOf_cases (winnerId : Option PlayerId) (player : PlayerId) :
    resultOf winnerId player = "draw" ∨ resultOf winnerId player = "win" ∨
      resultOf winnerId player = "loss" := by
  unfold resultOf
  split
  · exact .inl rfl
  · split
    · exact .inr (.inl rfl)
    · exact .inr (.inr rfl)

/-- Each result is counted by exactly one of the three counters. -/
theorem PlayerRow.counted_updated {row : PlayerRow}
    (counted : row.gamesPlayed = row.gamesWon + row.gamesLost + row.gamesDrawn)
    (winnerId : Option PlayerId) (player : PlayerId) (newElo : Int) :
    (row.updated newElo (resultOf winnerId player)).gamesPlayed =
      (row.updated newElo (resultOf winnerId player)).gamesWon +
        (row.updated newElo (resultOf winnerId player)).gamesLost +
        (row.updated newElo (resultOf winnerId player)).gamesDrawn := by
  obtain result | result | result := resultOf_cases winnerId player <;>
    simp [PlayerRow.updated, result] <;> omega

/-- A game that is won is lost by the other player. -/
theorem FinishedPair.results (pair : FinishedPair game first second) :
    (if resultOf game.winnerId first = "win" then 1 else 0) +
        (if resultOf game.winnerId second = "win" then 1 else 0) =
      (if resultOf game.winnerId first = "loss" then 1 else 0) +
        (if resultOf game.winnerId second = "loss" then 1 else 0) := by
  obtain none | firstWins | secondWins := pair.winner
  · simp [resultOf, none]
  · simp [resultOf, firstWins, pair.distinct]
  · simp [resultOf, secondWins, pair.distinct.symm]

/-- An update adds one to the counter of its result. -/
theorem total_updateElo {players : Dict PlayerId PlayerRow} {row : PlayerRow}
    (stored : players.lookup player = some row) (newElo : Int) (result : String)
    {counter : PlayerRow → ℕ} {counted : String}
    (counts : counter (row.updated newElo result) =
      counter row + if result = counted then 1 else 0) :
    (Database.updateElo players player newElo result).total counter =
      players.total counter + if result = counted then 1 else 0 := by
  have replaced := Dict.total_insert_of_some stored counter (row.updated newElo result)
  rw [updateElo_of_registered stored]
  omega

theorem PlayerRow.gamesWon_updated (row : PlayerRow) (newElo : Int) (result : String) :
    (row.updated newElo result).gamesWon = row.gamesWon + if result = "win" then 1 else 0 := by
  change (if result = "win" then row.gamesWon + 1 else row.gamesWon) = _
  split <;> rfl

theorem PlayerRow.gamesLost_updated (row : PlayerRow) (newElo : Int) (result : String) :
    (row.updated newElo result).gamesLost = row.gamesLost + if result = "loss" then 1 else 0 := by
  change (if result = "loss" then row.gamesLost + 1 else row.gamesLost) = _
  split <;> rfl

/-- A match counts for its two players. -/
theorem appearances_append {row : MatchRow} (rows : after.matchRows = database.matchRows ++ [row])
    (players : row.participants.map ParticipantRow.playerId = [first, second])
    (player : PlayerId) :
    after.appearances player =
      database.appearances player + if player = first ∨ player = second then 1 else 0 := by
  simp only [Database.appearances, rows, List.countP_append, List.countP_singleton, players,
    List.mem_cons, List.not_mem_nil, or_false, decide_eq_true_iff]

theorem CountersConsistent.persist (consistent : CountersConsistent database)
    (pair : FinishedPair game first second)
    (persisted : database.persistResult game game.calculateEloChanges now = some after) :
    CountersConsistent after := by
  obtain ⟨firstKnown, secondKnown, updated, row, rows, -, -, -, participants⟩ :=
    Database.persistResult_pair pair.players pair.distinct persisted
  obtain ⟨firstRow, firstStored⟩ := Option.isSome_iff_exists.mp firstKnown
  obtain ⟨secondRow, secondStored⟩ := Option.isSome_iff_exists.mp secondKnown
  have appearances := appearances_append rows (by rw [participants]; rfl)
  have firstStays : (Database.updateElo database.players second
      (game.eloBefore second + (game.eloDeltas first second).2)
      (resultOf game.winnerId second)).lookup first = some firstRow := by
    rw [updateElo_of_registered secondStored, Dict.lookup_insert, if_neg pair.distinct,
      firstStored]
  have lookup player : after.players.lookup player =
      if player = first then
        some (firstRow.updated (game.eloBefore first + (game.eloDeltas first second).1)
          (resultOf game.winnerId first))
      else if player = second then
        some (secondRow.updated (game.eloBefore second + (game.eloDeltas first second).2)
          (resultOf game.winnerId second))
      else database.players.lookup player := by
    rw [updated, updateElo_of_registered firstStays, updateElo_of_registered secondStored,
      Dict.lookup_insert, Dict.lookup_insert]
  constructor
  · intro player row stored
    rw [lookup] at stored
    rw [appearances]
    split at stored
    · rename_i same
      cases stored
      subst same
      obtain ⟨counted, played⟩ := consistent.played player firstRow firstStored
      exact ⟨PlayerRow.counted_updated counted _ _ _, by simp [PlayerRow.updated, played]⟩
    · split at stored
      · rename_i different same
        cases stored
        subst same
        obtain ⟨counted, played⟩ := consistent.played player secondRow secondStored
        exact ⟨PlayerRow.counted_updated counted _ _ _, by simp [PlayerRow.updated, played]⟩
      · rename_i notFirst notSecond
        rw [if_neg (not_or.mpr ⟨notFirst, notSecond⟩), Nat.add_zero]
        exact consistent.played player row stored
  · intro player absent
    rw [lookup] at absent
    split at absent
    · cases absent
    · split at absent
      · cases absent
      · rename_i notFirst notSecond
        rw [appearances, if_neg (not_or.mpr ⟨notFirst, notSecond⟩), Nat.add_zero]
        exact consistent.registered player absent
  · have balanced := pair.results
    have before := consistent.totals
    rw [updated, total_updateElo firstStays _ _ (PlayerRow.gamesWon_updated ..),
      total_updateElo secondStored _ _ (PlayerRow.gamesWon_updated ..),
      total_updateElo firstStays _ _ (PlayerRow.gamesLost_updated ..),
      total_updateElo secondStored _ _ (PlayerRow.gamesLost_updated ..)]
    omega

/-- A new player has no results. -/
theorem CountersConsistent.register (consistent : CountersConsistent database)
    (player : PlayerId) : CountersConsistent ((database.create player).getD database) := by
  unfold Database.create
  split
  · exact consistent
  · rename_i unknown
    have absent : database.players.lookup player = none := by simpa using unknown
    constructor
    · intro other row stored
      change (database.players.insert player {}).lookup other = some row at stored
      rw [Dict.lookup_insert] at stored
      split at stored
      · rename_i same
        cases stored
        exact ⟨rfl, same ▸ (consistent.registered player absent).symm⟩
      · exact consistent.played other row stored
    · intro other unregistered
      change (database.players.insert player {}).lookup other = none at unregistered
      rw [Dict.lookup_insert] at unregistered
      split at unregistered
      · cases unregistered
      · exact consistent.registered other unregistered
    · change Dict.total _ (database.players.insert player {}) =
        Dict.total _ (database.players.insert player {})
      rw [Dict.total_insert_of_none absent, Dict.total_insert_of_none absent, consistent.totals]

theorem RecordsGame.of_persisted (pair : FinishedPair game first second)
    (persisted : database.persistResult game game.calculateEloChanges now = some after) :
    ∃ row, after.matchRows = database.matchRows ++ [row] ∧ RecordsGame row game := by
  obtain ⟨-, -, -, row, rows, -, status, winner, participants⟩ :=
    Database.persistResult_pair pair.players pair.distinct persisted
  exact ⟨row, rows, recordsGame pair status winner participants⟩

theorem RecordsConsistent.perform {earlier : List RecordStep} {step : RecordStep}
    (consistent : RecordsConsistent earlier database)
    (finished : ∀ game now executed, .persist game now executed = step →
      ∃ first second, FinishedPair game first second) :
    RecordsConsistent (earlier ++ [step]) (database.perform step) := by
  have kept : ∀ row ∈ database.matchRows, ∃ game now executed,
      .persist game now executed ∈ earlier ++ [step] ∧ RecordsGame row game := by
    intro row member
    obtain ⟨game, now, executed, persisted, records⟩ := consistent.records row member
    exact ⟨game, now, executed, List.mem_append_left _ persisted, records⟩
  cases step with
  | register player =>
      have same : ((database.create player).getD database).matchRows = database.matchRows := by
        unfold Database.create
        split <;> rfl
      exact ⟨consistent.counters.register player, by rwa [Database.perform, same]⟩
  | persist game now executed =>
      obtain ⟨first, second, pair⟩ := finished game now executed rfl
      rw [Database.perform]
      obtain nothing | persisted := persistUntil_cases database game now executed
      · rw [nothing]
        exact ⟨consistent.counters, kept⟩
      · refine ⟨consistent.counters.persist pair persisted, ?_⟩
        intro row member
        obtain ⟨added, rows, records⟩ := RecordsGame.of_persisted pair persisted
        rw [rows, List.mem_append] at member
        obtain old | new := member
        · exact kept row old
        · rw [List.mem_singleton.mp new]
          exact ⟨game, now, executed, by simp, records⟩

/-- The records and the counters are consistent after any sequence of
registrations and transactions. -/
theorem recordsConsistent_of_persistsFinished {steps : List RecordStep}
    (finished : PersistsFinished steps) :
    RecordsConsistent steps (({} : Database).performAll steps) := by
  induction steps using List.reverseRecOn with
  | nil =>
      exact ⟨⟨by simp [Database.performAll], fun _ _ => rfl, rfl⟩, by simp [Database.performAll]⟩
  | append_singleton earlier step ih =>
      have consistent := ih fun game now executed member =>
        finished game now executed (List.mem_append_left _ member)
      rw [Database.performAll, List.foldl_append]
      exact consistent.perform fun game now executed same =>
        finished game now executed (by simp [same])

/-- A game that ada has won. -/
def wonByAda : ActiveGame :=
  { ActiveGame.create "room-1" rookies.playerIds rookies.playerElos 0 with
    status := .finished
    winnerId := some "ada" }

/-- Two players register; their first result is stored, and the transaction of
the second one fails at its fifth statement. -/
def twoResults : List RecordStep :=
  [.register "ada", .register "bob", .persist wonByAda 60 8, .persist wonByAda 120 4]

theorem twoResults_consistent :
    RecordsConsistent twoResults (({} : Database).performAll twoResults) := by
  apply recordsConsistent_of_persistsFinished
  intro game now executed member
  simp only [twoResults, List.mem_cons, reduceCtorEq, RecordStep.persist.injEq, List.not_mem_nil,
    or_false, false_or] at member
  have same : game = wonByAda := member.elim And.left And.left
  subst same
  exact ⟨"ada", "bob", rfl, by decide, .inr (.inl rfl), rfl⟩

end TerritoryBackend

import TerritoryBackend.Elo
import Mathlib.Algebra.BigOperators.Group.List.Basic

/-!
# The repositories

The tables of `app/models/database.py` as far as results are concerned, and
the statements of `app/persistence/repositories.py` and `_persist_result` on
them.  A transaction is a function that fails as a whole.  A match is
identified by its position in the table.
-/

namespace TerritoryBackend

structure PlayerRow where
  eloRating : Int := 1000
  gamesPlayed : Nat := 0
  gamesWon : Nat := 0
  gamesLost : Nat := 0
  gamesDrawn : Nat := 0

structure ParticipantRow where
  playerId : PlayerId
  result : Option String := none
  eloBefore : Int
  eloAfter : Option Int := none
  eloDelta : Option Int := none

/-- A row of `matches` with its participants. -/
structure MatchRow where
  roomId : RoomId
  status : String := "in_progress"
  winnerId : Option PlayerId := none
  totalTurns : Nat := 0
  durationSeconds : Option Time := none
  finalState : Option ClientState := none
  participants : List ParticipantRow

/-- The sum of the changes a match records for a player. -/
def MatchRow.deltaOf (row : MatchRow) (player : PlayerId) : Int :=
  (row.participants.map fun participant =>
    if participant.playerId = player then participant.eloDelta.getD 0 else 0).sum

structure Database where
  players : Dict PlayerId PlayerRow := ∅
  matchRows : List MatchRow := []

def resultOf (winnerId : Option PlayerId) (player : PlayerId) : String :=
  if winnerId = none then "draw" else if winnerId = some player then "win" else "loss"

theorem resultOf_winner (player : PlayerId) : resultOf (some player) player = "win" := by
  simp [resultOf]

theorem resultOf_loser {winner player : PlayerId} (different : winner ≠ player) :
    resultOf (some winner) player = "loss" := by
  simp [resultOf, different]

namespace Database

/-- `PlayerRepository.create`, for an id that is not in use. -/
def create (database : Database) (player : PlayerId) : Option Database :=
  if (database.players.lookup player).isSome then none
  else some { database with players := database.players.insert player {} }

/-- `MatchRepository.create_match`: the row of the new match.  It fails when a
participant is not a player. -/
def createMatch (database : Database) (room : RoomId) (playerIds : List PlayerId)
    (playerElos : Dict PlayerId Int) : Option MatchRow :=
  if playerIds.all fun player => (database.players.lookup player).isSome then
    some
      { roomId := room
        participants := playerIds.map fun player =>
          { playerId := player, eloBefore := playerElos.getD player 1000 } }
  else none

def updateElo (players : Dict PlayerId PlayerRow) (player : PlayerId) (newElo : Int)
    (result : String) : Dict PlayerId PlayerRow :=
  match players.lookup player with
  | none => players
  | some row =>
      players.insert player
        { eloRating := newElo
          gamesPlayed := row.gamesPlayed + 1
          gamesWon := if result = "win" then row.gamesWon + 1 else row.gamesWon
          gamesLost := if result = "loss" then row.gamesLost + 1 else row.gamesLost
          gamesDrawn := if result = "draw" then row.gamesDrawn + 1 else row.gamesDrawn }

/-- The update of the participants of a player. -/
def updateParticipant (participants : List ParticipantRow) (player : PlayerId) (newElo delta : Int)
    (result : String) : List ParticipantRow :=
  participants.map fun participant =>
    if participant.playerId = player then
      { participant with
        result := some result
        eloAfter := some newElo
        eloDelta := some delta }
    else participant

/-- `record_result` for the row of the match. -/
def recordResult (database : Database) (row : MatchRow) (winnerId : Option PlayerId)
    (finalState : ClientState) (totalTurns : Nat) (durationSeconds : Time)
    (eloChanges : Dict PlayerId (Int × Int)) : Database where
  players := eloChanges.entries.foldl (fun players entry =>
    updateElo players entry.1 entry.2.1 (resultOf winnerId entry.1)) database.players
  matchRows := database.matchRows ++
    [{ row with
        status := "finished"
        winnerId := winnerId
        totalTurns := totalTurns
        durationSeconds := some durationSeconds
        finalState := some finalState
        participants := eloChanges.entries.foldl (fun participants entry =>
          updateParticipant participants entry.1 entry.2.1 entry.2.2
            (resultOf winnerId entry.1)) row.participants }]

/-- `_persist_result`, `none` when the transaction is rolled back. -/
def persistResult (database : Database) (game : ActiveGame)
    (eloChanges : Dict PlayerId (Int × Int)) (now : Time) : Option Database :=
  (database.createMatch game.roomId game.playerIds game.playerElos).map fun row =>
    database.recordResult row game.winnerId game.toClientState game.turnNumber
      (now - game.startedAt) eloChanges

def eloRating (database : Database) (player : PlayerId) : Option Int :=
  (database.players.lookup player).map PlayerRow.eloRating

/-- The sum of all recorded `elo_delta` values of a player. -/
def eloDeltas (database : Database) (player : PlayerId) : Int :=
  (database.matchRows.map fun row => row.deltaOf player).sum

theorem eloRating_updateElo {players : Dict PlayerId PlayerRow} {player : PlayerId}
    (registered : (players.lookup player).isSome) (other : PlayerId) (newElo : Int)
    (result : String) :
    ((updateElo players player newElo result).lookup other).map PlayerRow.eloRating =
      if other = player then some newElo else (players.lookup other).map PlayerRow.eloRating := by
  obtain ⟨row, stored⟩ := Option.isSome_iff_exists.mp registered
  by_cases same : other = player <;> simp [updateElo, stored, same]

theorem isSome_updateElo {players : Dict PlayerId PlayerRow} {other : PlayerId}
    (registered : (players.lookup other).isSome) (player : PlayerId) (newElo : Int)
    (result : String) :
    ((updateElo players player newElo result).lookup other).isSome := by
  unfold updateElo
  split
  · exact registered
  · rw [Dict.lookup_insert]
    split
    · rfl
    · exact registered

theorem exists_persistResult {database : Database} {game : ActiveGame}
    (registered : ∀ player ∈ game.playerIds, (database.eloRating player).isSome)
    (eloChanges : Dict PlayerId (Int × Int)) (now : Time) :
    ∃ after, database.persistResult game eloChanges now = some after := by
  have known : (game.playerIds.all fun player =>
      (database.players.lookup player).isSome) = true :=
    List.all_eq_true.mpr fun player member => by simpa [eloRating] using registered player member
  exact ⟨_, by simp [persistResult, createMatch, known]; rfl⟩

/-- The row of a match and the updates of its two players, who are
registered. -/
theorem persistResult_pair {database after : Database} {game : ActiveGame}
    {first second : PlayerId} {now : Time} (players : game.playerIds = [first, second])
    (distinct : first ≠ second)
    (persisted : database.persistResult game game.calculateEloChanges now = some after) :
    (database.players.lookup first).isSome ∧ (database.players.lookup second).isSome ∧
      after.players =
        updateElo
          (updateElo database.players second
            (game.eloBefore second + (game.eloDeltas first second).2)
            (resultOf game.winnerId second))
          first (game.eloBefore first + (game.eloDeltas first second).1)
          (resultOf game.winnerId first) ∧
      ∃ row, after.matchRows = database.matchRows ++ [row] ∧ row.roomId = game.roomId ∧
        row.status = "finished" ∧ row.winnerId = game.winnerId ∧
        row.participants =
          [⟨first, some (resultOf game.winnerId first), game.eloBefore first,
              some (game.eloBefore first + (game.eloDeltas first second).1),
              some (game.eloDeltas first second).1⟩,
            ⟨second, some (resultOf game.winnerId second), game.eloBefore second,
              some (game.eloBefore second + (game.eloDeltas first second).2),
              some (game.eloDeltas first second).2⟩] := by
  unfold persistResult createMatch at persisted
  split at persisted
  · rename_i registered
    cases persisted
    simp only [players, List.all_cons, List.all_nil, Bool.and_true, Bool.and_eq_true] at registered
    have entries := game.entries_calculateEloChanges players distinct
    refine ⟨registered.1, registered.2, ?_, _, rfl, rfl, rfl, rfl, ?_⟩
    · simp [recordResult, entries]
    · simp [entries, players, updateParticipant, distinct, distinct.symm, ActiveGame.eloBefore]
  · cases persisted

theorem persistResult_eq_some {database after : Database} {game : ActiveGame}
    {first second : PlayerId} {now : Time} (players : game.playerIds = [first, second])
    (distinct : first ≠ second)
    (persisted : database.persistResult game game.calculateEloChanges now = some after) :
    (database.eloRating first).isSome ∧ (database.eloRating second).isSome ∧
      (∀ player, after.eloRating player =
        if player = first then some (game.eloBefore first + (game.eloDeltas first second).1)
        else if player = second then
          some (game.eloBefore second + (game.eloDeltas first second).2)
        else database.eloRating player) ∧
      ∃ row, after.matchRows = database.matchRows ++ [row] ∧ row.roomId = game.roomId ∧
        (row.participants.map fun participant =>
            (participant.playerId, participant.eloBefore, participant.eloDelta)) =
          [(first, game.eloBefore first, some (game.eloDeltas first second).1),
            (second, game.eloBefore second, some (game.eloDeltas first second).2)] := by
  obtain ⟨firstKnown, secondKnown, updated, row, rows, room, -, -, participants⟩ :=
    persistResult_pair players distinct persisted
  refine ⟨by simpa [eloRating] using firstKnown, by simpa [eloRating] using secondKnown, ?_, row,
    rows, room, by simp [participants]⟩
  intro player
  unfold eloRating
  rw [updated, eloRating_updateElo (isSome_updateElo firstKnown ..),
    eloRating_updateElo secondKnown]

theorem eloDeltas_append {database after : Database} {row : MatchRow}
    (rows : after.matchRows = database.matchRows ++ [row]) (player : PlayerId) :
    after.eloDeltas player = database.eloDeltas player + row.deltaOf player := by
  simp [eloDeltas, rows]

theorem deltaOf_pair {row : MatchRow} {first second : PlayerId}
    {firstBefore secondBefore firstDelta secondDelta : Int}
    (participants : (row.participants.map fun participant =>
        (participant.playerId, participant.eloBefore, participant.eloDelta)) =
      [(first, firstBefore, some firstDelta), (second, secondBefore, some secondDelta)])
    (player : PlayerId) :
    row.deltaOf player =
      (if first = player then firstDelta else 0) + if second = player then secondDelta else 0 := by
  have recorded := congrArg (fun entries =>
    (entries.map fun entry : PlayerId × Int × Option Int =>
      if entry.1 = player then entry.2.2.getD 0 else 0).sum) participants
  simpa [MatchRow.deltaOf, List.map_map, Function.comp_def] using recorded

theorem eloDeltas_eq_zero {database : Database} {player : PlayerId}
    (absent : ∀ row ∈ database.matchRows, ∀ participant ∈ row.participants,
      participant.playerId ≠ player) : database.eloDeltas player = 0 := by
  apply List.sum_eq_zero
  intro delta deltaMem
  obtain ⟨row, rowMem, rfl⟩ := List.mem_map.mp deltaMem
  apply List.sum_eq_zero
  intro change changeMem
  obtain ⟨participant, participantMem, rfl⟩ := List.mem_map.mp changeMem
  rw [if_neg (absent row rowMem participant participantMem)]

end Database

end TerritoryBackend

import TerritoryBackend.Lobby
import TerritoryBackend.Repositories

/-!
# The rating ledger

Players register, connect, look for matches, play and leave, in any number and
order, and the results are persisted.  The rating of a match travels from the
session through the queue into the game, and the new rating overwrites the
stored one.  The session, however, is never given the stored rating, so every
match is rated from the default.
-/

namespace TerritoryBackend

/-- The lobby with the database, and the ratings the database held when a match
was formed. -/
structure Career where
  lobby : Lobby := {}
  database : Database := {}
  ratingWhenFormed : RoomId → PlayerId → Option Int := fun _ _ => none

namespace Career

def Persisted (career : Career) (room : RoomId) : Prop :=
  ∃ row ∈ career.database.matchRows, row.roomId = room

/-- One step of the players' careers.  A match is formed only when the earlier
games of both players have been persisted, and no result is persisted twice. -/
inductive Step (settings : Settings) (career : Career) : Career → Prop where
  | register (player : PlayerId) {database : Database}
      (created : career.database.create player = some database) :
      Step settings career { career with database := database }
  | lobby (event : LobbyEvent) :
      Step settings career { career with lobby := career.lobby.step settings event }
  | formMatch (room : RoomId) {pair : MatchedPair} (now : Time)
      (fresh : career.lobby.engine.games room = none)
      (matched : (career.lobby.queue.tryMatch settings now).2 = some pair)
      (settled : ∀ other game, career.lobby.engine.games other = some game →
        (pair.playerA ∈ game.playerIds ∨ pair.playerB ∈ game.playerIds) →
        career.Persisted other) :
      Step settings career
        { career with
          lobby := career.lobby.formMatch (career.lobby.queue.tryMatch settings now).1 pair room
            now
          ratingWhenFormed :=
            Function.update career.ratingWhenFormed room career.database.eloRating }
  | persist {room : RoomId} {game : ActiveGame} {now : Time} {database : Database}
      (formed : career.lobby.engine.games room = some game) (finished : game.status = .finished)
      (once : ¬ career.Persisted room)
      (committed : career.database.persistResult game game.calculateEloChanges now =
        some database) :
      Step settings career { career with database := database }

inductive Reachable (settings : Settings) : Career → Prop where
  | start : Reachable settings {}
  | step {before after : Career} :
      Reachable settings before → Step settings before after → Reachable settings after

/-- Each match records the rating stored when it was formed, and the stored
rating is the initial one plus the recorded changes. -/
structure LedgerConsistent (career : Career) : Prop where
  eloBefore : ∀ row ∈ career.database.matchRows, ∀ participant ∈ row.participants,
    career.ratingWhenFormed row.roomId participant.playerId = some participant.eloBefore
  balance : ∀ player rating, career.database.eloRating player = some rating →
    rating = 1000 + career.database.eloDeltas player

/-- Every persisted match was formed when both of its players were stored with
the initial rating. -/
def FormedAtInitialRating (career : Career) : Prop :=
  ∀ row ∈ career.database.matchRows, ∀ participant ∈ row.participants,
    career.ratingWhenFormed row.roomId participant.playerId = some 1000

end Career

/-- The rating stored in a session, if any, is the default. -/
def DefaultElo (key : SessionKey) : Prop :=
  ∀ hash text, key = some hash → hash.fields .eloRating = some text → text.toInt? = some 1000

namespace DefaultElo

theorem eloRating {key : SessionKey} (default : DefaultElo key) {session : RedisSession}
    (read : SessionManager.getSession key = .ok (some session)) : session.eloRating = 1000 := by
  cases key with
  | none => cases read
  | some hash =>
      simp only [SessionManager.getSession, Except.map] at read
      split at read
      · cases read
      rename_i decoded decodedEq
      cases read
      have parsed := (RedisSession.fromDict_eq_ok decodedEq).2.2.2.1
      unfold parseField at parsed
      split at parsed
      · rename_i text stored
        rw [default hash text rfl stored] at parsed
        exact (Except.ok.inj parsed).symm
      · exact (Except.ok.inj parsed).symm

theorem hset {key : SessionKey} (default : DefaultElo key)
    {updates : SessionField → Option RedisText} (others : updates .eloRating = none) :
    DefaultElo (RedisHash.hset updates key) := by
  rintro hash text ⟨⟩ stored
  cases key with
  | none => simp [others] at stored
  | some before => exact default before text rfl (by simpa [others] using stored)

theorem expire {key : SessionKey} (default : DefaultElo key) (seconds : Nat) :
    DefaultElo (RedisHash.expire seconds key) := by
  intro hash text stored field
  obtain ⟨before, rfl, rfl⟩ := Option.map_eq_some_iff.mp stored
  exact default before text rfl field

theorem lapse {key : SessionKey} (default : DefaultElo key) :
    DefaultElo (RedisHash.lapse key) := by
  intro hash text stored field
  exact default hash text (Option.filter_eq_some_iff.mp stored).1 field

theorem createSession (settings : Settings) (player : PlayerId) (connection : ConnectionId)
    (username : String) (now : Time) (key : SessionKey) :
    DefaultElo (SessionManager.createSession settings player connection 1000 username now
      key) := by
  refine DefaultElo.expire ?_ _
  rintro hash text ⟨⟩ stored
  cases stored
  rfl

end DefaultElo

/-- A contest of two players rated from the default. -/
def RatedFromDefault (room : RoomId) (contest : GameEngine.Contest) : Prop :=
  contest.roomId = room ∧ ∃ first second, first ≠ second ∧ contest.playerIds = [first, second] ∧
    contest.playerElos.getD first 1000 = 1000 ∧ contest.playerElos.getD second 1000 = 1000

/-- Sessions, queue and games only ever carry the default rating. -/
structure Lobby.RatesFromDefault (lobby : Lobby) : Prop where
  sessions : ∀ player, DefaultElo (lobby.sessions player)
  queue : ∀ player elo, lobby.queue.queue.lookup player = some elo → elo = 1000
  contests : ∀ room contest, lobby.engine.contests room = some contest →
    RatedFromDefault room contest

namespace Lobby.RatesFromDefault

variable {lobby : Lobby}

theorem setSession (rated : lobby.RatesFromDefault) (player : PlayerId) {key : SessionKey}
    (default : DefaultElo key) : (lobby.setSession player key).RatesFromDefault where
  sessions other := by
    by_cases same : other = player
    · simpa [Lobby.setSession, same] using default
    · simpa [Lobby.setSession, same] using rated.sessions other
  queue := rated.queue
  contests := rated.contests

theorem setEngine (rated : lobby.RatesFromDefault) {engine : GameEngine}
    (same : engine.contests = lobby.engine.contests) :
    ({ lobby with engine := engine } : Lobby).RatesFromDefault :=
  { rated with contests := by simpa [same] using rated.contests }

theorem dequeue (rated : lobby.RatesFromDefault) (player : PlayerId) :
    ({ lobby with queue := (lobby.queue.dequeuePlayer player).1 } : Lobby).RatesFromDefault :=
  { rated with
    queue := by
      intro other elo stored
      simp only [MatchmakingQueue.dequeuePlayer, Dict.lookup_erase] at stored
      split at stored
      · cases stored
      · exact rated.queue other elo stored }

end Lobby.RatesFromDefault

namespace Lobby

variable {settings : Settings} {lobby : Lobby}

theorem RatesFromDefault.connect (rated : lobby.RatesFromDefault) (player : PlayerId)
    (connection : ConnectionId) (now : Time) :
    (lobby.connect settings player connection now).RatesFromDefault := by
  have created := DefaultElo.createSession settings player connection "" now
    (lobby.sessions player)
  have claimed : DefaultElo
      (SessionManager.attemptReconnect settings connection now (lobby.sessions player)) :=
    ((rated.sessions player).hset rfl).expire _
  unfold Lobby.connect
  split
  · exact rated
  · split
    · split
      · exact (rated.setSession player claimed).setEngine (contests_getD_reconnect _ _ _)
      · exact rated.setSession player claimed
    · exact rated.setSession player created
  · exact rated.setSession player created

theorem RatesFromDefault.findMatch (rated : lobby.RatesFromDefault) (player : PlayerId)
    (now : Time) : (lobby.findMatch player now).RatesFromDefault := by
  unfold Lobby.findMatch
  split
  · exact rated
  · rename_i session read
    have default : (session.map RedisSession.eloRating).getD 1000 = 1000 := by
      cases session with
      | none => rfl
      | some session => exact (rated.sessions player).eloRating read
    have updated : DefaultElo (SessionManager.updateSessionState
        PlayerConnectionState.inMatchmaking.value none now (lobby.sessions player)) :=
      (rated.sessions player).hset rfl
    refine { rated.setSession player updated with queue := ?_ }
    intro other elo stored
    simp only [MatchmakingQueue.enqueuePlayer, Dict.lookup_insert, default] at stored
    split at stored
    · exact (Option.some.inj stored).symm
    · exact rated.queue other elo stored

theorem RatesFromDefault.disconnect (rated : lobby.RatesFromDefault) (player : PlayerId)
    (now : Time) : (lobby.disconnect settings player now).RatesFromDefault := by
  have marked : DefaultElo
      (SessionManager.markDisconnected settings now (lobby.sessions player)) :=
    ((rated.sessions player).hset rfl).expire _
  unfold Lobby.disconnect
  simp only
  split
  · split
    · exact ((rated.dequeue player).setSession player marked).setEngine
        (contests_getD_disconnect _ _ _)
    · exact (rated.dequeue player).setSession player marked
  · exact rated.dequeue player

theorem RatesFromDefault.step (rated : lobby.RatesFromDefault) (event : LobbyEvent) :
    (lobby.step settings event).RatesFromDefault := by
  have contests := contests_step settings lobby event
  cases event with
  | connect player connection now => exact rated.connect player connection now
  | findMatch player now => exact rated.findMatch player now
  | cancelMatch player now =>
      have updated : DefaultElo (SessionManager.updateSessionState
          PlayerConnectionState.connected.value none now (lobby.sessions player)) :=
        (rated.sessions player).hset rfl
      exact (rated.setSession player updated).dequeue player
  | disconnect player now => exact rated.disconnect player now
  | sessionExpires player => exact rated.setSession player (rated.sessions player).lapse
  | gameAction room call =>
      simp only [Lobby.step] at contests ⊢
      split at contests <;> exact rated.setEngine contests
  | forfeit room player =>
      simp only [Lobby.step] at contests ⊢
      split at contests
      · exact rated.setEngine contests
      · exact rated

theorem RatesFromDefault.formMatch (rated : lobby.RatesFromDefault) {queue : MatchmakingQueue}
    {pair : MatchedPair} {now : Time}
    (matched : lobby.queue.tryMatch settings now = (queue, some pair)) (room : RoomId) :
    (lobby.formMatch queue pair room now).RatesFromDefault := by
  obtain ⟨distinct, queuedA, queuedB, popped, -⟩ := MatchmakingQueue.tryMatch_eq_some matched
  have eloA := rated.queue _ _ queuedA
  have eloB := rated.queue _ _ queuedB
  constructor
  · intro player
    simp only [Lobby.formMatch]
    split
    · exact (rated.sessions player).hset rfl
    · exact rated.sessions player
  · intro player elo stored
    simp only [Lobby.formMatch, popped, Dict.lookup_erase] at stored
    split at stored
    · cases stored
    · split at stored
      · cases stored
      · exact rated.queue player elo stored
  · intro other contest formed
    rw [Lobby.formMatch, GameEngine.createMatchedGame, GameEngine.contests_createGame,
      Function.update_apply] at formed
    split at formed
    · rename_i same
      cases formed
      refine ⟨same.symm, pair.playerA, pair.playerB, distinct, rfl, ?_, ?_⟩
      · simp only [MatchedPair.playerElos, Dict.getD_insert, if_neg distinct, if_true, eloA]
      · simp only [MatchedPair.playerElos, Dict.getD_insert, if_true, eloB]
    · exact rated.contests other contest formed

end Lobby

namespace Career

structure Invariant (career : Career) : Prop where
  rated : career.lobby.RatesFromDefault
  eloBefore : ∀ row ∈ career.database.matchRows, ∀ participant ∈ row.participants,
    participant.eloBefore = 1000
  rowFormed : ∀ row ∈ career.database.matchRows,
    (career.lobby.engine.contests row.roomId).isSome
  registered : ∀ row ∈ career.database.matchRows, ∀ participant ∈ row.participants,
    (career.database.eloRating participant.playerId).isSome
  apart : ∀ room other contest otherContest,
    career.lobby.engine.contests room = some contest →
    career.lobby.engine.contests other = some otherContest → room ≠ other →
    ¬ career.Persisted room → ¬ career.Persisted other →
    ∀ player ∈ contest.playerIds, player ∉ otherContest.playerIds
  unchanged : ∀ room contest player rating,
    career.lobby.engine.contests room = some contest → ¬ career.Persisted room →
    player ∈ contest.playerIds → career.ratingWhenFormed room player = some rating →
    career.database.eloRating player = some rating

variable {settings : Settings} {career : Career}

theorem start_invariant : Invariant {} where
  rated :=
    { sessions := fun _ _ _ none => nomatch none
      queue := fun _ _ none => nomatch none
      contests := fun _ _ none => nomatch none }
  eloBefore _ member := nomatch member
  rowFormed _ member := nomatch member
  registered _ member := nomatch member
  apart _ _ _ _ none := nomatch none
  unchanged _ _ _ _ none := nomatch none

theorem contests_of_games {engine : GameEngine} {room : RoomId} {game : ActiveGame}
    (stored : engine.games room = some game) :
    engine.contests room = some ⟨game.roomId, game.playerIds, game.playerElos⟩ := by
  simp [GameEngine.contests, stored]

theorem eloRating_create {database after : Database} {player : PlayerId}
    (created : database.create player = some after) :
    database.eloRating player = none ∧ after.matchRows = database.matchRows ∧
      ∀ other, after.eloRating other =
        if other = player then some 1000 else database.eloRating other := by
  unfold Database.create at created
  split at created
  · cases created
  · rename_i unknown
    cases created
    refine ⟨by simpa [Database.eloRating] using unknown, rfl, ?_⟩
    intro other
    simp only [Database.eloRating, Dict.lookup_insert]
    split <;> rfl

theorem Invariant.register (invariant : Invariant career) {player : PlayerId}
    {database : Database} (created : career.database.create player = some database) :
    Invariant { career with database := database } := by
  obtain ⟨unknown, rows, ratings⟩ := eloRating_create created
  have kept {other : PlayerId} {rating : Int}
      (stored : career.database.eloRating other = some rating) :
      database.eloRating other = some rating := by
    rw [ratings, if_neg ?_, stored]
    rintro rfl
    rw [unknown] at stored
    cases stored
  refine
    { rated := invariant.rated
      eloBefore := ?_
      rowFormed := ?_
      registered := ?_
      apart := ?_
      unchanged := ?_ }
  · simpa [rows] using invariant.eloBefore
  · simpa [rows] using invariant.rowFormed
  · intro row rowMem participant participantMem
    have before := invariant.registered row (rows ▸ rowMem) participant participantMem
    obtain ⟨rating, stored⟩ := Option.isSome_iff_exists.mp before
    exact Option.isSome_iff_exists.mpr ⟨rating, kept stored⟩
  · simpa [Persisted, rows] using invariant.apart
  · intro room contest other rating formed unpersisted member whenFormed
    refine kept (invariant.unchanged room contest other rating formed ?_ member whenFormed)
    simpa [Persisted, rows] using unpersisted

theorem Invariant.lobby (invariant : Invariant career) (event : LobbyEvent) :
    Invariant { career with lobby := career.lobby.step settings event } where
  rated := invariant.rated.step event
  eloBefore := invariant.eloBefore
  rowFormed := by
    show ∀ row ∈ career.database.matchRows,
      ((career.lobby.step settings event).engine.contests row.roomId).isSome
    rw [Lobby.contests_step]
    exact invariant.rowFormed
  registered := invariant.registered
  apart := by
    show ∀ room other contest otherContest,
      (career.lobby.step settings event).engine.contests room = some contest →
      (career.lobby.step settings event).engine.contests other = some otherContest → _
    rw [Lobby.contests_step]
    exact invariant.apart
  unchanged := by
    show ∀ room contest player rating,
      (career.lobby.step settings event).engine.contests room = some contest → _
    rw [Lobby.contests_step]
    exact invariant.unchanged

theorem Invariant.formMatch (invariant : Invariant career) {room : RoomId}
    {pair : MatchedPair} {now : Time}
    (matched : (career.lobby.queue.tryMatch settings now).2 = some pair)
    (settled : ∀ other game, career.lobby.engine.games other = some game →
      (pair.playerA ∈ game.playerIds ∨ pair.playerB ∈ game.playerIds) → career.Persisted other) :
    Invariant
      { career with
        lobby := career.lobby.formMatch (career.lobby.queue.tryMatch settings now).1 pair room now
        ratingWhenFormed :=
          Function.update career.ratingWhenFormed room career.database.eloRating } := by
  have contests : (career.lobby.formMatch (career.lobby.queue.tryMatch settings now).1 pair room
      now).engine.contests = Function.update career.lobby.engine.contests room
        (some ⟨room, pair.playerIds, pair.playerElos⟩) :=
    GameEngine.contests_createGame ..
  -- an unpersisted earlier game has neither of the two players
  have disjoint {other : RoomId} {contest : GameEngine.Contest}
      (formed : career.lobby.engine.contests other = some contest)
      (unpersisted : ¬ career.Persisted other) :
      ∀ player ∈ pair.playerIds, player ∉ contest.playerIds := by
    obtain ⟨game, stored, rfl⟩ := Option.map_eq_some_iff.mp formed
    intro player member playing
    rcases List.mem_pair.mp member with rfl | rfl
    · exact unpersisted (settled other game stored (.inl playing))
    · exact unpersisted (settled other game stored (.inr playing))
  refine
    { rated := invariant.rated.formMatch (by rw [← matched]) room
      eloBefore := invariant.eloBefore
      rowFormed := ?_
      registered := invariant.registered
      apart := ?_
      unchanged := ?_ }
  · intro row rowMem
    simp only [contests, Function.update_apply]
    split
    · rfl
    · exact invariant.rowFormed row rowMem
  · intro first other contest otherContest formed otherFormed differ unpersisted otherUnpersisted
    simp only [contests, Function.update_apply] at formed otherFormed
    split at formed
    · rename_i isNew
      rw [if_neg (fun same => differ (isNew.trans same.symm))] at otherFormed
      cases formed
      exact disjoint otherFormed otherUnpersisted
    · split at otherFormed
      · cases otherFormed
        intro player playing member
        exact disjoint formed unpersisted player member playing
      · exact invariant.apart first other contest otherContest formed otherFormed differ
          unpersisted otherUnpersisted
  · intro other contest player rating formed unpersisted member whenFormed
    simp only [contests, Function.update_apply] at formed whenFormed
    split at formed
    · rename_i isNew
      rw [if_pos isNew] at whenFormed
      exact whenFormed
    · rename_i isOld
      rw [if_neg isOld] at whenFormed
      exact invariant.unchanged other contest player rating formed unpersisted member whenFormed

/-- What persisting the game of a room does to the ratings and the matches. -/
theorem Invariant.persisted (invariant : Invariant career) {room : RoomId} {game : ActiveGame}
    {now : Time} {database : Database} (formed : career.lobby.engine.games room = some game)
    (committed : career.database.persistResult game game.calculateEloChanges now =
      some database) :
    ∃ first second row, first ≠ second ∧ game.playerIds = [first, second] ∧
      (career.database.eloRating first).isSome ∧ (career.database.eloRating second).isSome ∧
      (∀ player, database.eloRating player =
        if player = first then some (1000 + (game.eloDeltas first second).1)
        else if player = second then some (1000 + (game.eloDeltas first second).2)
        else career.database.eloRating player) ∧
      database.matchRows = career.database.matchRows ++ [row] ∧ row.roomId = room ∧
      (row.participants.map fun participant =>
          (participant.playerId, participant.eloBefore, participant.eloDelta)) =
        [(first, 1000, some (game.eloDeltas first second).1),
          (second, 1000, some (game.eloDeltas first second).2)] := by
  obtain ⟨roomId, first, second, distinct, players, firstElo, secondElo⟩ :=
    invariant.rated.contests room _ (contests_of_games formed)
  obtain ⟨firstKnown, secondKnown, ratings, row, rows, rowRoom, participants⟩ :=
    Database.persistResult_eq_some players distinct committed
  simp only [ActiveGame.eloBefore, firstElo, secondElo] at ratings participants
  exact ⟨first, second, row, distinct, players, firstKnown, secondKnown, ratings, rows,
    rowRoom.trans roomId, participants⟩

theorem mem_participants_pair {row : MatchRow} {first second : PlayerId}
    {firstDelta secondDelta : Int}
    (participants : (row.participants.map fun participant =>
        (participant.playerId, participant.eloBefore, participant.eloDelta)) =
      [(first, 1000, some firstDelta), (second, 1000, some secondDelta)])
    {participant : ParticipantRow} (member : participant ∈ row.participants) :
    participant.eloBefore = 1000 ∧
      (participant.playerId = first ∨ participant.playerId = second) := by
  have listed := List.mem_map_of_mem (f := fun participant : ParticipantRow =>
    (participant.playerId, participant.eloBefore, participant.eloDelta)) member
  rw [participants] at listed
  rcases List.mem_pair.mp listed with same | same
  · exact ⟨congrArg (·.2.1) same, .inl (congrArg (·.1) same)⟩
  · exact ⟨congrArg (·.2.1) same, .inr (congrArg (·.1) same)⟩

theorem Invariant.persist (invariant : Invariant career) {room : RoomId} {game : ActiveGame}
    {now : Time} {database : Database} (formed : career.lobby.engine.games room = some game)
    (once : ¬ career.Persisted room)
    (committed : career.database.persistResult game game.calculateEloChanges now =
      some database) :
    Invariant { career with database := database } := by
  obtain ⟨first, second, row, distinct, players, firstKnown, secondKnown, ratings, rows, rowRoom,
    participants⟩ := invariant.persisted formed committed
  have known {player : PlayerId} (before : (career.database.eloRating player).isSome) :
      (database.eloRating player).isSome := by
    rw [ratings]
    split
    · rfl
    · split
      · rfl
      · exact before
  have stillUnpersisted {other : RoomId}
      (unpersisted : ¬ Persisted { career with database := database } other) :
      ¬ career.Persisted other := by
    rintro ⟨old, oldMem, oldRoom⟩
    exact unpersisted ⟨old, by simp [rows, oldMem], oldRoom⟩
  refine
    { rated := invariant.rated
      eloBefore := ?_
      rowFormed := ?_
      registered := ?_
      apart := ?_
      unchanged := ?_ }
  · intro candidate candidateMem participant participantMem
    rcases List.mem_append.mp (rows ▸ candidateMem) with old | new
    · exact invariant.eloBefore candidate old participant participantMem
    · cases List.mem_singleton.mp new
      exact (mem_participants_pair participants participantMem).1
  · intro candidate candidateMem
    rcases List.mem_append.mp (rows ▸ candidateMem) with old | new
    · exact invariant.rowFormed candidate old
    · cases List.mem_singleton.mp new
      simp [rowRoom, contests_of_games formed]
  · intro candidate candidateMem participant participantMem
    rcases List.mem_append.mp (rows ▸ candidateMem) with old | new
    · exact known (invariant.registered candidate old participant participantMem)
    · cases List.mem_singleton.mp new
      rcases (mem_participants_pair participants participantMem).2 with same | same
      · exact known (same ▸ firstKnown)
      · exact known (same ▸ secondKnown)
  · intro other another contest anotherContest otherFormed anotherFormed differ unpersisted
      anotherUnpersisted
    exact invariant.apart other another contest anotherContest otherFormed anotherFormed differ
      (stillUnpersisted unpersisted) (stillUnpersisted anotherUnpersisted)
  · intro other contest player rating otherFormed unpersisted member whenFormed
    have differ : other ≠ room := by
      rintro rfl
      exact unpersisted ⟨row, by simp [rows], rowRoom⟩
    have absent := invariant.apart other room contest _ otherFormed (contests_of_games formed)
      differ (stillUnpersisted unpersisted) once player member
    simp only [players, List.mem_cons, List.not_mem_nil, or_false, not_or] at absent
    rw [ratings, if_neg absent.1, if_neg absent.2]
    exact invariant.unchanged other contest player rating otherFormed
      (stillUnpersisted unpersisted) member whenFormed

theorem Invariant.step {after : Career} (invariant : Invariant career)
    (step : Step settings career after) : Invariant after := by
  cases step with
  | register player created => exact invariant.register created
  | lobby event => exact invariant.lobby event
  | formMatch room now fresh matched settled => exact invariant.formMatch matched settled
  | persist formed finished once committed => exact invariant.persist formed once committed

theorem Reachable.invariant (reachable : Reachable settings career) : Invariant career := by
  induction reachable with
  | start => exact start_invariant
  | step _ step invariant => exact invariant.step step

/-- A step keeps the recorded matches and the ratings they were formed at. -/
theorem Step.formedBefore {after : Career} (step : Step settings career after)
    (invariant : Invariant career) (initial : FormedAtInitialRating after) :
    FormedAtInitialRating career := by
  intro row rowMem participant participantMem
  cases step with
  | register player created =>
      have rows := (eloRating_create created).2.1
      exact initial row (by simpa [rows] using rowMem) participant participantMem
  | lobby event => exact initial row rowMem participant participantMem
  | formMatch room now fresh matched settled =>
      have whenFormed := initial row rowMem participant participantMem
      have differ : row.roomId ≠ room := by
        intro same
        have formed := invariant.rowFormed row rowMem
        simp [same, GameEngine.contests, fresh] at formed
      simpa only [Function.update_of_ne differ] using whenFormed
  | persist formed finished once committed =>
      obtain ⟨_, _, _, -, -, -, -, -, rows, -, -⟩ := invariant.persisted formed committed
      exact initial row (by simp [rows, rowMem]) participant participantMem

/-- Persisting a match that was formed at the initial ratings keeps the
balance. -/
theorem Invariant.balance_persist (invariant : Invariant career) {room : RoomId}
    {game : ActiveGame} {now : Time} {database : Database}
    (formed : career.lobby.engine.games room = some game) (once : ¬ career.Persisted room)
    (committed : career.database.persistResult game game.calculateEloChanges now =
      some database)
    (initial : FormedAtInitialRating { career with database := database })
    (balance : ∀ player rating, career.database.eloRating player = some rating →
      rating = 1000 + career.database.eloDeltas player)
    (player : PlayerId) (rating : Int) (stored : database.eloRating player = some rating) :
    rating = 1000 + database.eloDeltas player := by
  obtain ⟨first, second, row, distinct, players, -, -, ratings, rows, rowRoom, participants⟩ :=
    invariant.persisted formed committed
  -- neither player has been rated anew since the match was formed
  have noDeltas (player : PlayerId) {delta : Int}
      (listed : (player, 1000, some delta) ∈ row.participants.map fun participant =>
        (participant.playerId, participant.eloBefore, participant.eloDelta))
      (playing : player ∈ game.playerIds) : career.database.eloDeltas player = 0 := by
    obtain ⟨participant, participantMem, same⟩ := List.mem_map.mp listed
    have whenFormed := initial row (by simp [rows]) participant participantMem
    have samePlayer : participant.playerId = player := congrArg (·.1) same
    rw [rowRoom, samePlayer] at whenFormed
    have current := invariant.unchanged room _ player 1000 (contests_of_games formed) once playing
      whenFormed
    have balanced := balance player 1000 current
    omega
  have firstDeltas := noDeltas first (participants ▸ List.mem_cons_self) (by simp [players])
  have secondDeltas := noDeltas second
    (participants ▸ List.mem_cons_of_mem _ List.mem_cons_self) (by simp [players])
  rw [Database.eloDeltas_append rows, Database.deltaOf_pair participants]
  rw [ratings] at stored
  by_cases isFirst : player = first
  · subst isFirst
    rw [if_pos rfl] at stored
    rw [if_pos rfl, if_neg (Ne.symm distinct), firstDeltas, ← Option.some.inj stored]
    omega
  · rw [if_neg isFirst] at stored
    rw [if_neg (Ne.symm isFirst)]
    by_cases isSecond : player = second
    · subst isSecond
      rw [if_pos rfl] at stored
      rw [if_pos rfl, secondDeltas, ← Option.some.inj stored]
      omega
    · rw [if_neg isSecond] at stored
      rw [if_neg (Ne.symm isSecond), balance player rating stored]
      omega

theorem Reachable.balance (reachable : Reachable settings career)
    (initial : FormedAtInitialRating career) (player : PlayerId) (rating : Int)
    (stored : career.database.eloRating player = some rating) :
    rating = 1000 + career.database.eloDeltas player := by
  induction reachable generalizing player rating with
  | start => cases stored
  | step before step ih =>
      have invariant := before.invariant
      have balance := ih (step.formedBefore invariant initial)
      cases step with
      | register created creation =>
          obtain ⟨unknown, rows, ratings⟩ := eloRating_create creation
          rw [ratings] at stored
          split at stored
          · rename_i isNew
            have noDeltas : Database.eloDeltas _ player = 0 :=
              Database.eloDeltas_eq_zero fun row rowMem participant participantMem same => by
                rw [rows] at rowMem
                have known := invariant.registered row rowMem participant participantMem
                simp [same, isNew, unknown] at known
            rw [← Option.some.inj stored, noDeltas]
            rfl
          · simp only [Database.eloDeltas, rows]
            exact balance player rating stored
      | lobby event => exact balance player rating stored
      | formMatch room now fresh matched settled => exact balance player rating stored
      | persist formed finished once committed =>
          exact invariant.balance_persist formed once committed initial balance player rating
            stored

/-- The ledger is consistent exactly when every persisted match was formed
while both of its players were stored with the initial rating. -/
theorem ledgerConsistent_iff (settings : Settings) (career : Career)
    (reachable : Reachable settings career) :
    LedgerConsistent career ↔ FormedAtInitialRating career := by
  have invariant := reachable.invariant
  constructor
  · intro consistent row rowMem participant participantMem
    rw [consistent.eloBefore row rowMem participant participantMem,
      invariant.eloBefore row rowMem participant participantMem]
  · intro initial
    refine ⟨?_, reachable.balance initial⟩
    intro row rowMem participant participantMem
    rw [initial row rowMem participant participantMem,
      invariant.eloBefore row rowMem participant participantMem]

theorem Reachable.lobbies (reachable : Reachable settings career) (events : List LobbyEvent) :
    Reachable settings { career with lobby := career.lobby.stepAll settings events } := by
  induction events generalizing career with
  | nil => exact reachable
  | cons event events ih => exact ih (reachable.step (.lobby event))

def arena : Settings := { instanceId := "inst-1" }

def bobLeaves (room : RoomId) : List LobbyEvent := [.disconnect "bob" 10, .forfeit room "bob"]

def searching : Lobby :=
  ({} : Lobby).stepAll arena
    [.connect "ada" "conn-1" 0, .connect "bob" "conn-2" 0, .findMatch "ada" 1, .findMatch "bob" 1]

def firstGame : Lobby :=
  (searching.formMatch (searching.queue.tryMatch arena 2).1 rookies "room-1" 2).stepAll arena
    (bobLeaves "room-1")

/-- Bob comes back, and both players look for a match again. -/
def searchingAgain : Lobby :=
  firstGame.stepAll arena
    [.connect "bob" "conn-3" 50, .findMatch "ada" 51, .findMatch "bob" 51]

def secondGame : Lobby :=
  (searchingAgain.formMatch (searchingAgain.queue.tryMatch arena 52).1 rookies "room-2" 52).stepAll
    arena (bobLeaves "room-2")

theorem Reachable.playRookies (reachable : Reachable arena career) (room : RoomId) (now : Time)
    (fresh : career.lobby.engine.games room = none)
    (matched : (career.lobby.queue.tryMatch arena now).2 = some rookies)
    (settled : ∀ other game, career.lobby.engine.games other = some game →
      ("ada" ∈ game.playerIds ∨ "bob" ∈ game.playerIds) → career.Persisted other)
    (events : List LobbyEvent) :
    Reachable arena
      { career with
        lobby := (career.lobby.formMatch (career.lobby.queue.tryMatch arena now).1 rookies room
          now).stepAll arena events
        ratingWhenFormed :=
          Function.update career.ratingWhenFormed room career.database.eloRating } :=
  (reachable.step (.formMatch room now fresh matched settled)).lobbies events

abbrev AdaWon (lobby : Lobby) (room : RoomId) : Prop :=
  (lobby.engine.games room).map (fun game => (game.playerIds, game.status, game.winnerId)) =
    some (["ada", "bob"], .finished, some "ada")

theorem Reachable.persistAdaWon (reachable : Reachable arena career) (room : RoomId)
    (won : AdaWon career.lobby room) (once : ¬ career.Persisted room)
    (adaKnown : (career.database.eloRating "ada").isSome)
    (bobKnown : (career.database.eloRating "bob").isSome) :
    ∃ database row, Reachable arena { career with database := database } ∧
      database.eloRating "ada" = some 1016 ∧ (database.eloRating "bob").isSome ∧
      database.matchRows = career.database.matchRows ++ [row] ∧ row.roomId = room ∧
      ∃ participant ∈ row.participants,
        participant.playerId = "ada" ∧ participant.eloBefore = 1000 := by
  obtain ⟨game, formed, shown⟩ := Option.map_eq_some_iff.mp won
  obtain ⟨players, finished, winner⟩ : game.playerIds = ["ada", "bob"] ∧
      game.status = .finished ∧ game.winnerId = some "ada" := by simpa using shown
  have known : ∀ player ∈ game.playerIds, (career.database.eloRating player).isSome := by
    simp [players, adaKnown, bobKnown]
  obtain ⟨database, committed⟩ :=
    Database.exists_persistResult known game.calculateEloChanges 100
  have invariant := reachable.invariant
  obtain ⟨first, second, row, -, players', -, -, ratings, rows, rowRoom, participants⟩ :=
    invariant.persisted formed committed
  obtain ⟨rfl, rfl⟩ : first = "ada" ∧ second = "bob" := by simpa [players] using players'.symm
  obtain ⟨-, ada, bob, -, contestPlayers, adaElo, bobElo⟩ :=
    invariant.rated.contests room _ (contests_of_games formed)
  obtain ⟨rfl, rfl⟩ : ada = "ada" ∧ bob = "bob" := by simpa [players] using contestPlayers.symm
  have deltas : game.eloDeltas "ada" "bob" = (16, -16) :=
    ActiveGame.eloDeltas_of_equal (adaElo.trans bobElo.symm) winner
  have listed : ("ada", (1000 : Int), some (16 : Int)) ∈ row.participants.map fun participant =>
      (participant.playerId, participant.eloBefore, participant.eloDelta) := by
    simp [participants, deltas]
  obtain ⟨participant, participantMem, same⟩ := List.mem_map.mp listed
  refine ⟨database, row, reachable.step (.persist formed finished once committed), ?_, ?_, rows,
    rowRoom, participant, participantMem, congrArg (·.1) same, congrArg (·.2.1) same⟩
  · simp [ratings, deltas]
  · simp [ratings]

def registry : Database := { players := AList.insert "bob" {} (AList.insert "ada" {} ∅) }

theorem reachable_searching : Reachable arena { lobby := searching, database := registry } := by
  have adaRegistered : Reachable arena { database := { players := AList.insert "ada" {} ∅ } } :=
    Reachable.start.step (.register "ada" rfl)
  have bobRegistered : Reachable arena { database := registry } :=
    adaRegistered.step (.register "bob" rfl)
  exact bobRegistered.lobbies _

/-- Ada and bob have played their first game, and its result is persisted. -/
theorem exists_afterFirstGame :
    ∃ career row, Reachable arena career ∧ career.lobby = firstGame ∧
      career.database.eloRating "ada" = some 1016 ∧
      (career.database.eloRating "bob").isSome ∧ career.database.matchRows = [row] ∧
      row.roomId = "room-1" := by
  have played := reachable_searching.playRookies "room-1" 2 rfl (by decide +kernel)
    (fun _ _ none => nomatch none) (bobLeaves "room-1")
  obtain ⟨database, row, reachable, ada, bob, rows, rowRoom, -⟩ :=
    played.persistAdaWon "room-1" (by decide +kernel) (by simp [Persisted, registry]) (by decide)
      (by decide)
  exact ⟨_, row, reachable, rfl, ada, bob, by simpa [registry] using rows, rowRoom⟩

theorem ledgerConsistent_iff_afterFirstGame :
    ∃ career, Reachable arena career ∧ career.database.matchRows ≠ [] ∧
      (LedgerConsistent career ↔ FormedAtInitialRating career) := by
  obtain ⟨career, row, reachable, -, -, -, rows, -⟩ := exists_afterFirstGame
  exact ⟨career, reachable, by simp [rows], ledgerConsistent_iff arena career reachable⟩

/-- The second match of the same players records the initial rating of a
player whose stored rating has changed. -/
theorem secondGame_not_consistent :
    ∃ career, Reachable arena career ∧ ¬ LedgerConsistent career := by
  obtain ⟨career, row, reachable, lobbyEq, ada, bob, rows, rowRoom⟩ := exists_afterFirstGame
  have again : Reachable arena { career with lobby := searchingAgain } := by
    have connected := reachable.lobbies
      [.connect "bob" "conn-3" 50, .findMatch "ada" 51, .findMatch "bob" 51]
    rwa [lobbyEq] at connected
  have contests : searchingAgain.engine.contests = Function.update (fun _ => none) "room-1"
      (some ⟨"room-1", rookies.playerIds, rookies.playerElos⟩) := by
    rw [searchingAgain, Lobby.contests_stepAll, firstGame, Lobby.contests_stepAll]
    exact GameEngine.contests_createGame ..
  have settled : ∀ other game, searchingAgain.engine.games other = some game →
      Persisted { career with lobby := searchingAgain } other := by
    intro other game stored
    have formed := contests_of_games stored
    rw [contests, Function.update_apply] at formed
    split at formed
    · rename_i isFirst
      exact ⟨row, by simp [rows], rowRoom.trans isFirst.symm⟩
    · cases formed
  have fresh : searchingAgain.engine.games "room-2" = none :=
    Option.isNone_iff_eq_none.mp (by decide +kernel)
  have matched : (searchingAgain.queue.tryMatch arena 52).2 = some rookies := by decide +kernel
  have won : AdaWon secondGame "room-2" := by decide +kernel
  have played := again.playRookies "room-2" 52 fresh matched
    (fun other game stored _ => settled other game stored) (bobLeaves "room-2")
  have once : ∀ candidate ∈ career.database.matchRows, candidate.roomId ≠ "room-2" := by
    simp [rows, rowRoom]
  obtain ⟨database, second, final, -, -, secondRows, secondRoom, participant, participantMem,
    isAda, eloBefore⟩ := played.persistAdaWon "room-2" won
      (by simpa [Persisted] using once) (by simp [ada]) bob
  refine ⟨_, final, ?_⟩
  intro consistent
  have recorded := consistent.eloBefore second (by simp [secondRows]) participant participantMem
  rw [secondRoom, isAda, eloBefore] at recorded
  simp only [Function.update_self, ada] at recorded
  cases recorded

end Career

end TerritoryBackend

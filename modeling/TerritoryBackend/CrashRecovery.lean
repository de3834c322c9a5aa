import TerritoryBackend.Elo
import TerritoryBackend.Playability
import TerritoryBackend.Snapshots

/-!
# Crash recovery

A running game is saved, and another instance rebuilds it from the snapshot
and the room hash.  The snapshot carries the id of the current player, but the
restored game starts at the first player again; the ratings are not stored at
all, so the restored game falls back to the default rating.  The restored game
behaves as the original exactly when neither loss is visible.
-/

namespace TerritoryBackend

/-- What both players see of a game. -/
structure SameGame (game other : ActiveGame) : Prop where
  players : game.playerIds = other.playerIds
  board : game.board = other.board
  scores : game.scores = other.scores
  turnNumber : game.turnNumber = other.turnNumber
  status : game.status = other.status
  winner : game.winnerId = other.winnerId
  currentPlayer : game.currentPlayerId = other.currentPlayerId

/-- One engine's game of a room behaves as another engine's: it looks the same,
every sequence of calls is answered the same way and leads to the same board,
scores and winner, and to the same rating changes once the game is over. -/
structure BehavesAs (engine original : GameEngine) (room : RoomId) : Prop where
  same : ∃ game other, engine.find room = some game ∧ original.find room = some other ∧
    SameGame game other
  replies : ∀ calls, (engine.playAll room calls).2 = (original.playAll room calls).2
  results : ∀ calls game other, (engine.playAll room calls).1.find room = some game →
    (original.playAll room calls).1.find room = some other →
    game.board = other.board ∧ game.scores = other.scores ∧ game.winnerId = other.winnerId ∧
      (other.status = .finished → game.calculateEloChanges = other.calculateEloChanges)

/-- Saving the room of one engine and restoring it on another one yields a game
that behaves as the saved one. -/
def RecoversFrom (settings : Settings) (engine recovering : GameEngine) (room : RoomId)
    (pair : MatchedPair) (roomCreated savedAt restoredAt : Time) : Prop :=
  ∃ document recovered game,
    engine.saveSnapshot room savedAt = .ok (some document) ∧
      recovering.restoreGameFromSnapshot room (some document)
        (some (RedisRoom.ofPair settings room pair roomCreated).toDict) restoredAt =
          .ok (recovered, some game) ∧
      BehavesAs recovered engine room

/-- Two games agree on everything actions and ratings depend on. -/
structure Alike (game other : ActiveGame) : Prop where
  players : game.playerIds = other.playerIds
  board : game.board = other.board
  scores : game.scores = other.scores
  turnNumber : game.turnNumber = other.turnNumber
  status : game.status = other.status
  winner : game.winnerId = other.winnerId
  turn : game.currentPlayerIdx = other.currentPlayerIdx
  elos : ∀ player ∈ game.playerIds, game.eloBefore player = other.eloBefore player

namespace Alike

variable {game other : ActiveGame}

theorem currentPlayerId (alike : Alike game other) :
    game.currentPlayerId = other.currentPlayerId := by
  simp [ActiveGame.currentPlayerId, alike.players, alike.turn]

theorem place (alike : Alike game other) (player : PlayerId) (x y : Nat) :
    Alike (game.place player x y) (other.place player x y) := by
  have territory : game.placeTerritory player x y = other.placeTerritory player x y := by
    simp [ActiveGame.placeTerritory, alike.players, alike.board, alike.scores]
  exact { alike with
    board := congrArg Prod.fst territory
    scores := congrArg Prod.snd territory }

theorem recordAction (alike : Alike game other) (player : PlayerId) (action data : Json)
    (now : Time) :
    Alike (game.recordAction player action data now)
      (other.recordAction player action data now) :=
  { alike with turnNumber := congrArg (· + 1) alike.turnNumber }

theorem finishTurn (alike : Alike game other) :
    Alike game.finishTurn.1 other.finishTurn.1 ∧ game.finishTurn.2 = other.finishTurn.2 := by
  have sameOver : game.isOver = other.isOver := by
    simp [ActiveGame.isOver, alike.turnNumber, alike.board]
  refine ⟨?_, by simp [sameOver]⟩
  cases gameOver : game.isOver with
  | true =>
      rw [ActiveGame.finishTurn_of_isOver gameOver,
        ActiveGame.finishTurn_of_isOver (sameOver ▸ gameOver)]
      have winner : (ActiveGame.determineWinner { game with status := .finished }).winnerId =
          (ActiveGame.determineWinner { other with status := .finished }).winnerId := by
        simp only [ActiveGame.determineWinner, alike.players, alike.scores]
        split
        · rfl
        · exact alike.winner
      rw [ActiveGame.determineWinner_eq, ActiveGame.determineWinner_eq { other with
        status := .finished }]
      exact { alike with status := rfl, winner := winner }
  | false =>
      rw [ActiveGame.finishTurn_of_not_isOver gameOver,
        ActiveGame.finishTurn_of_not_isOver (sameOver ▸ gameOver)]
      exact { alike with
        turn := by
          show (_ + 1) % _ = (_ + 1) % _
          rw [alike.turn, alike.players] }

theorem processAction (alike : Alike game other) (player : PlayerId) (action data : Json)
    (now : Time) :
    (∃ error, game.processAction player action data now = .error error ∧
        other.processAction player action data now = .error error) ∨
      (∃ error, game.processAction player action data now = .ok (.refused error) ∧
        other.processAction player action data now = .ok (.refused error)) ∨
      ∃ next otherNext gameOver,
        game.processAction player action data now = .ok (.passed (next, gameOver)) ∧
          other.processAction player action data now = .ok (.passed (otherNext, gameOver)) ∧
          Alike next otherNext := by
  simp only [ActiveGame.processAction, alike.status, alike.currentPlayerId, bind, Except.bind,
    pure, Except.pure, throw, throwThe, MonadExceptOf.throw]
  split
  · exact .inr (.inl ⟨_, rfl, rfl⟩)
  split
  · exact .inl ⟨_, rfl, rfl⟩
  split
  · exact .inr (.inl ⟨_, rfl, rfl⟩)
  split
  · exact .inr (.inl ⟨_, rfl, rfl⟩)
  rcases ActiveGame.applyPlaceAction_congr alike.board player data with
    ⟨error, raised, otherRaised⟩ | ⟨error, refused, otherRefused⟩ | ⟨x, y, passed, otherPassed⟩
  · exact .inl ⟨error, by rw [raised], by rw [otherRaised]⟩
  · exact .inr (.inl ⟨error, by rw [refused], by rw [otherRefused]⟩)
  · obtain ⟨after, sameOver⟩ :=
      ((alike.place player x y).recordAction player action data now).finishTurn
    right
    right
    refine ⟨_, _, _, by rw [passed], ?_, after⟩
    rw [otherPassed, sameOver]

theorem calculateEloChanges (alike : Alike game other) :
    game.calculateEloChanges = other.calculateEloChanges := by
  unfold ActiveGame.calculateEloChanges
  rw [← alike.players]
  split
  · rename_i first second others playersEq
    have firstElo := alike.elos first (by simp [playersEq])
    have secondElo := alike.elos second (by simp [playersEq])
    simp only [ActiveGame.eloDeltas, ActiveGame.actualScores, alike.winner, firstElo, secondElo]
  · rfl

theorem playAll {engine original : GameEngine} {room : RoomId} (alike : Alike game other)
    (found : engine.find room = some game) (foundOther : original.find room = some other)
    (calls : List ActionCall) :
    (engine.playAll room calls).2 = (original.playAll room calls).2 ∧
      ∃ last otherLast, (engine.playAll room calls).1.find room = some last ∧
        (original.playAll room calls).1.find room = some otherLast ∧ Alike last otherLast := by
  induction calls generalizing engine original game other with
  | nil => exact ⟨rfl, game, other, found, foundOther, alike⟩
  | cons call calls ih =>
      rcases alike.processAction call.player call.action call.data call.now with
        ⟨error, raised, otherRaised⟩ | ⟨error, refused, otherRefused⟩ |
          ⟨next, otherNext, gameOver, passed, otherPassed, after⟩
      · obtain ⟨replies, later⟩ := ih alike found foundOther
        simp only [GameEngine.playAll, GameEngine.processAction, found, foundOther, raised,
          otherRaised]
        exact ⟨by rw [replies], later⟩
      · obtain ⟨replies, later⟩ := ih alike found foundOther
        simp only [GameEngine.playAll, GameEngine.processAction, found, foundOther, refused,
          otherRefused]
        exact ⟨by rw [replies], later⟩
      · have foundNext : (engine.write room next).find room = some next := by
          simp [GameEngine.find_write (GameEngine.find_eq_some.mp found).1]
        have foundOtherNext : (original.write room otherNext).find room = some otherNext := by
          simp [GameEngine.find_write (GameEngine.find_eq_some.mp foundOther).1]
        obtain ⟨replies, later⟩ := ih after foundNext foundOtherNext
        simp only [GameEngine.playAll, GameEngine.processAction, found, foundOther, passed,
          otherPassed]
        exact ⟨by rw [replies], later⟩

theorem behavesAs {engine original : GameEngine} {room : RoomId} (alike : Alike game other)
    (found : engine.find room = some game) (foundOther : original.find room = some other) :
    BehavesAs engine original room where
  same := ⟨game, other, found, foundOther, { alike with
    currentPlayer := alike.currentPlayerId }⟩
  replies calls := (alike.playAll found foundOther calls).1
  results calls last otherLast foundLast foundOtherLast := by
    obtain ⟨-, last', otherLast', foundLast', foundOtherLast', after⟩ :=
      alike.playAll found foundOther calls
    rw [foundLast] at foundLast'
    rw [foundOtherLast] at foundOtherLast'
    cases foundLast'
    cases foundOtherLast'
    exact ⟨after.board, after.scores, after.winner, fun _ => after.calculateEloChanges⟩

end Alike

/-- What the games reached from `create_game` by actions have in common. -/
structure FromPair (pair : MatchedPair) (game : ActiveGame) : Prop where
  players : game.playerIds = pair.playerIds
  elos : game.playerElos = pair.playerElos
  running : game.status = .finished ∨ game.Playable pair.playerA pair.playerB

theorem fromPair_playAll (engine : GameEngine) (room : RoomId) (pair : MatchedPair)
    (created : Time) (calls : List ActionCall) :
    ∃ game, ((engine.createMatchedGame room pair created).playAll room calls).1.find room =
      some game ∧ FromPair pair game := by
  have found : (engine.createMatchedGame room pair created).find room =
      some (ActiveGame.create room pair.playerIds pair.playerElos created) := by
    simp [GameEngine.createMatchedGame, GameEngine.find_eq_some]
  refine GameEngine.playAll_invariant (FromPair pair) ?_ found
    ⟨rfl, rfl, .inr (ActiveGame.create_playable ..)⟩ calls
  intro game player action data now next gameOver fromPair accepted
  have elos := (ActiveGame.processAction_frame accepted).2.2.1
  rcases fromPair.running with finished | playable
  · have inProgress := (ActiveGame.processAction_passed accepted).1
    rw [finished] at inProgress
    cases inProgress
  · obtain ⟨players, after⟩ := playable.processAction accepted
    exact ⟨players, elos.trans fromPair.elos, after.imp And.left And.left⟩

/-- Saving and restoring always succeeds; the restored game has the players,
board, scores, turn number, status and winner of the saved one. -/
theorem restore_savedSnapshot (settings : Settings) {engine : GameEngine} {room : RoomId}
    {pair : MatchedPair} {game : ActiveGame} (found : engine.find room = some game)
    (playable : game.Playable pair.playerA pair.playerB) (recovering : GameEngine)
    (roomCreated savedAt restoredAt : Time) :
    ∃ document state, engine.saveSnapshot room savedAt = .ok (some document) ∧
      game.toRedisState savedAt = .ok state ∧
      recovering.restoreGameFromSnapshot room (some document)
        (some (RedisRoom.ofPair settings room pair roomCreated).toDict) restoredAt =
          .ok (recovering.register room
              (ActiveGame.restored room state pair.playerIds restoredAt),
            some (ActiveGame.restored room state pair.playerIds restoredAt)) := by
  have present : game.currentPlayerIdx < game.playerIds.length := by
    rw [playable.players]
    exact playable.turn
  have current : game.currentPlayerId = some game.playerIds[game.currentPlayerIdx] :=
    List.getElem?_eq_getElem present
  obtain ⟨state, stateEq⟩ : ∃ state, game.toRedisState savedAt = .ok state := by
    simp [ActiveGame.toRedisState, current]
  refine ⟨state.serialize, state, ?_, stateEq, ?_⟩
  · simp [GameEngine.saveSnapshot, found, stateEq, Except.map]
  · have decodedRoom := RedisRoom.fromDict_toDict
      (RedisRoom.ofPair settings room pair roomCreated) rfl
    simp only [GameEngine.restoreGameFromSnapshot, RedisGameState.deserialize_serialize,
      decodedRoom, bind, Except.bind, pure, Except.pure]
    rfl

theorem toRedisState_eq_ok {game : ActiveGame} {state : RedisGameState} {now : Time}
    (snapshot : game.toRedisState now = .ok state) :
    state.board = game.board ∧ state.scores = game.scores ∧
      state.turnNumber = game.turnNumber ∧ state.status = game.status ∧
      state.winnerId = game.winnerId := by
  unfold ActiveGame.toRedisState at snapshot
  split at snapshot
  · cases snapshot
  · cases snapshot
    exact ⟨rfl, rfl, rfl, rfl, rfl⟩

theorem eloBefore_eq_of_calculateEloChanges {game other : ActiveGame} (first second : PlayerId)
    (players : game.playerIds = [first, second]) (otherPlayers : other.playerIds = [first, second])
    (distinct : first ≠ second)
    (same : game.calculateEloChanges = other.calculateEloChanges) :
    game.eloBefore first = other.eloBefore first ∧
      game.eloBefore second = other.eloBefore second := by
  have atFirst := congrArg (AList.lookup first) same
  have atSecond := congrArg (AList.lookup second) same
  simp only [ActiveGame.calculateEloChanges, players, otherPlayers, Dict.lookup_insert,
    if_neg distinct, if_true, Option.some.injEq, Prod.mk.injEq] at atFirst atSecond
  omega

/-- What the recovering engine registers behaves as the saved game. -/
theorem RecoversFrom.behavesAs {settings : Settings} {engine recovering : GameEngine}
    {room : RoomId} {pair : MatchedPair} {roomCreated savedAt restoredAt : Time}
    {game : ActiveGame}
    (recovers : RecoversFrom settings engine recovering room pair roomCreated savedAt restoredAt)
    (found : engine.find room = some game)
    (playable : game.Playable pair.playerA pair.playerB) :
    ∃ state, BehavesAs
      (recovering.register room (ActiveGame.restored room state pair.playerIds restoredAt))
      engine room := by
  obtain ⟨document, recovered, restored, savedEq, restoredEq, behaves⟩ := recovers
  obtain ⟨document', state, savedEq', -, restoredEq'⟩ :=
    restore_savedSnapshot settings found playable recovering roomCreated savedAt
      restoredAt
  rw [savedEq] at savedEq'
  cases savedEq'
  rw [restoredEq] at restoredEq'
  cases restoredEq'
  exact ⟨state, behaves⟩

theorem RecoversFrom.firstToMove {settings : Settings} {engine recovering : GameEngine}
    {room : RoomId} {pair : MatchedPair} {roomCreated savedAt restoredAt : Time}
    {game : ActiveGame}
    (recovers : RecoversFrom settings engine recovering room pair roomCreated savedAt restoredAt)
    (found : engine.find room = some game)
    (playable : game.Playable pair.playerA pair.playerB)
    (distinct : pair.playerA ≠ pair.playerB) : game.currentPlayerIdx = 0 := by
  obtain ⟨state, ⟨restored, saved, foundRestored, foundSaved, same⟩, -, -⟩ :=
    recovers.behavesAs found playable
  rw [GameEngine.find_register] at foundRestored
  rw [found] at foundSaved
  cases foundRestored
  cases foundSaved
  have current : some pair.playerA = [pair.playerA, pair.playerB][game.currentPlayerIdx]? := by
    simpa [ActiveGame.currentPlayerId, ActiveGame.restored, playable.players,
      MatchedPair.playerIds] using same.currentPlayer
  have turn := playable.turn
  by_contra moved
  have second : game.currentPlayerIdx = 1 := by omega
  rw [second] at current
  exact distinct (Option.some.inj current)

/-- A recovered game rates both players from the default rating, and the rating
changes at its end show it. -/
theorem RecoversFrom.defaultElos {settings : Settings} {engine recovering : GameEngine}
    {room : RoomId} {pair : MatchedPair} {roomCreated savedAt restoredAt : Time}
    {game : ActiveGame}
    (recovers : RecoversFrom settings engine recovering room pair roomCreated savedAt restoredAt)
    (found : engine.find room = some game)
    (playable : game.Playable pair.playerA pair.playerB)
    (distinct : pair.playerA ≠ pair.playerB) :
    game.eloBefore pair.playerA = 1000 ∧ game.eloBefore pair.playerB = 1000 := by
  obtain ⟨state, behaves⟩ := recovers.behavesAs found playable
  -- play the game to its end on both sides and compare the rating changes
  obtain ⟨finishing, last, foundLast, finished⟩ :=
    GameEngine.exists_finishing_calls found playable
  obtain ⟨last', foundLast', players, elos⟩ := GameEngine.playAll_players found finishing
  rw [foundLast] at foundLast'
  cases foundLast'
  obtain ⟨restoredLast, foundRestoredLast, restoredPlayers, restoredElos⟩ :=
    GameEngine.playAll_players (GameEngine.find_register recovering room _) finishing
  have sameChanges :=
    (behaves.results finishing restoredLast last foundRestoredLast foundLast).2.2.2 finished
  obtain ⟨atA, atB⟩ := eloBefore_eq_of_calculateEloChanges pair.playerA pair.playerB
    restoredPlayers (players.trans playable.players) distinct sameChanges
  have default (player : PlayerId) : restoredLast.eloBefore player = 1000 := by
    simp [ActiveGame.eloBefore, restoredElos, ActiveGame.restored, Dict.getD]
  have kept (player : PlayerId) : last.eloBefore player = game.eloBefore player := by
    simp [ActiveGame.eloBefore, elos]
  rw [default, kept] at atA atB
  exact ⟨atA.symm, atB.symm⟩

theorem FromPair.eloBefore {pair : MatchedPair} {game : ActiveGame}
    (fromPair : FromPair pair game) (distinct : pair.playerA ≠ pair.playerB) :
    game.eloBefore pair.playerA = pair.eloA ∧ game.eloBefore pair.playerB = pair.eloB := by
  simp only [ActiveGame.eloBefore, fromPair.elos, MatchedPair.playerElos, Dict.getD_insert,
    if_neg distinct, if_true, and_self]

def opening : ActionCall :=
  ⟨"ada", .str "place", .obj [("x", .int 4), ("y", .int 4)], 1⟩

def reply : ActionCall :=
  ⟨"bob", .str "place", .obj [("x", .int 7), ("y", .int 4)], 2⟩

end TerritoryBackend

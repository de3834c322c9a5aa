import TerritoryBackend.GameEngine
import TerritoryBackend.RoundHalfEven
import Mathlib.Analysis.SpecialFunctions.Pow.Real

/-!
# Rating changes

`_calculate_elo_changes` over exact real arithmetic.
-/

namespace TerritoryBackend

/-- The score a player expects against an opponent. -/
noncomputable def expectedScore (eloRating opponentElo : Int) : ℝ :=
  1 / (1 + (10 : ℝ) ^ (((opponentElo - eloRating : Int) : ℝ) / 400))

def kFactor : ℝ := 32

namespace ActiveGame

def eloBefore (game : ActiveGame) (player : PlayerId) : Int :=
  game.playerElos.getD player 1000

/-- The actual scores of the first and the second player. -/
noncomputable def actualScores (game : ActiveGame) (first second : PlayerId) : ℝ × ℝ :=
  if game.winnerId = some first then (1, 0)
  else if game.winnerId = some second then (0, 1)
  else (0.5, 0.5)

noncomputable def eloDeltas (game : ActiveGame) (first second : PlayerId) : Int × Int :=
  let expected := expectedScore (game.eloBefore first) (game.eloBefore second)
  let actual := game.actualScores first second
  (roundHalfEven (kFactor * (actual.1 - expected)),
    roundHalfEven (kFactor * (actual.2 - (1 - expected))))

/-- `_calculate_elo_changes`: the new rating and the change of each player. -/
noncomputable def calculateEloChanges (game : ActiveGame) : Dict PlayerId (Int × Int) :=
  match game.playerIds with
  | first :: second :: _ =>
      let deltas := game.eloDeltas first second
      AList.insert second (game.eloBefore second + deltas.2, deltas.2)
        (AList.insert first (game.eloBefore first + deltas.1, deltas.1) ∅)
  | _ => ∅

theorem entries_calculateEloChanges (game : ActiveGame) {first second : PlayerId}
    (players : game.playerIds = [first, second]) (distinct : first ≠ second) :
    game.calculateEloChanges.entries =
      [⟨second, game.eloBefore second + (game.eloDeltas first second).2,
          (game.eloDeltas first second).2⟩,
        ⟨first, game.eloBefore first + (game.eloDeltas first second).1,
          (game.eloDeltas first second).1⟩] := by
  simp only [calculateEloChanges, players]
  rw [AList.entries_insert_of_notMem, AList.entries_insert_of_notMem]
  · rfl
  · exact AList.notMem_empty first
  · rw [← AList.lookup_eq_none, Dict.lookup_insert, if_neg (Ne.symm distinct)]
    exact AList.lookup_empty second

end ActiveGame

theorem expectedScore_self (eloRating : Int) : expectedScore eloRating eloRating = 1 / 2 := by
  norm_num [expectedScore]

/-- A win against an opponent of the same rating is worth half the K-factor. -/
theorem ActiveGame.eloDeltas_of_equal {game : ActiveGame} {first second : PlayerId}
    (equal : game.eloBefore first = game.eloBefore second)
    (firstWins : game.winnerId = some first) : game.eloDeltas first second = (16, -16) := by
  have gained : kFactor * (1 - 1 / 2) = ((16 : Int) : ℝ) := by norm_num [kFactor]
  have lost : kFactor * (0 - (1 - 1 / 2)) = ((-16 : Int) : ℝ) := by norm_num [kFactor]
  simp only [ActiveGame.eloDeltas, ActiveGame.actualScores, firstWins, if_true, equal,
    expectedScore_self, gained, lost, roundHalfEven_intCast]

end TerritoryBackend

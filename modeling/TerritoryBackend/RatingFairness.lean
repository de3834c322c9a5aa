import TerritoryBackend.Elo
import TerritoryBackend.PairSelection
import Mathlib.Tactic.Positivity
import Mathlib.Tactic.LinearCombination

/-!
# Rating changes are fair

The change of a player is a rounded multiple of the difference between the
actual and the expected score.  Expected scores of opponents sum to one and
rise with the own rating, and rounding to even is odd and monotone, so the
changes of the two players cancel and an upset never pays less.
-/

namespace TerritoryBackend

theorem expectedScore_pos (eloRating opponentElo : Int) :
    0 < expectedScore eloRating opponentElo := by
  unfold expectedScore
  positivity

theorem expectedScore_add_swap (eloRating opponentElo : Int) :
    expectedScore eloRating opponentElo + expectedScore opponentElo eloRating = 1 := by
  unfold expectedScore
  have swapped : (((eloRating - opponentElo : Int) : ℝ) / 400) =
      -(((opponentElo - eloRating : Int) : ℝ) / 400) := by
    push_cast
    ring
  rw [swapped, Real.rpow_neg (by norm_num)]
  have positive : 0 < (10 : ℝ) ^ (((opponentElo - eloRating : Int) : ℝ) / 400) := by positivity
  field_simp
  ring

theorem expectedScore_lt_one (eloRating opponentElo : Int) :
    expectedScore eloRating opponentElo < 1 := by
  linarith [expectedScore_pos opponentElo eloRating,
    expectedScore_add_swap eloRating opponentElo]

/-- The expected score depends on the difference of the ratings and rises with
it. -/
theorem expectedScore_mono {eloRating opponentElo otherElo otherOpponentElo : Int}
    (ordered : eloRating - opponentElo ≤ otherElo - otherOpponentElo) :
    expectedScore eloRating opponentElo ≤ expectedScore otherElo otherOpponentElo := by
  unfold expectedScore
  have exponents : (((otherOpponentElo - otherElo : Int) : ℝ) / 400) ≤
      (((opponentElo - eloRating : Int) : ℝ) / 400) := by
    have reversed : otherOpponentElo - otherElo ≤ opponentElo - eloRating := by omega
    exact div_le_div_of_nonneg_right (by exact_mod_cast reversed) (by norm_num)
  have powers := Real.rpow_le_rpow_of_exponent_le (by norm_num : (1 : ℝ) ≤ 10) exponents
  exact one_div_le_one_div_of_le (by positivity) (by linarith)

/-- At 500 points more the opponent is still expected to score a thirty-second. -/
theorem expectedScore_of_within {eloRating opponentElo : Int}
    (within : eloRating - opponentElo ≤ 500) :
    1 / 32 ≤ expectedScore opponentElo eloRating := by
  have worst : expectedScore 0 500 ≤ expectedScore opponentElo eloRating :=
    expectedScore_mono (by omega)
  have fourth : ((10 : ℝ) ^ ((5 : ℝ) / 4)) ^ 4 = 10 ^ 5 := by
    rw [← Real.rpow_natCast, ← Real.rpow_mul (by norm_num)]
    norm_num
  have root : (10 : ℝ) ^ ((5 : ℝ) / 4) ≤ 31 := by
    rw [← pow_le_pow_iff_left₀ (by positivity) (by norm_num) (show 4 ≠ 0 by decide), fourth]
    norm_num
  have exponent : (((500 - 0 : Int) : ℝ) / 400) = 5 / 4 := by norm_num
  refine le_trans ?_ worst
  rw [expectedScore, exponent]
  exact one_div_le_one_div_of_le (by positivity) (by linarith)

/-- The change of a player with an actual score. -/
noncomputable def eloDelta (actual : ℝ) (eloRating opponentElo : Int) : Int :=
  roundHalfEven (kFactor * (actual - expectedScore eloRating opponentElo))

theorem kFactor_pos : 0 < kFactor := by norm_num [kFactor]

/-- The opponents' changes cancel. -/
theorem eloDelta_swap (actual : ℝ) (eloRating opponentElo : Int) :
    eloDelta (1 - actual) opponentElo eloRating = -eloDelta actual eloRating opponentElo := by
  unfold eloDelta
  rw [← roundHalfEven_neg]
  congr 1
  linear_combination -kFactor * expectedScore_add_swap eloRating opponentElo

theorem eloDelta_anti (actual : ℝ) {eloRating opponentElo otherElo otherOpponentElo : Int}
    (ordered : eloRating - opponentElo ≤ otherElo - otherOpponentElo) :
    eloDelta actual otherElo otherOpponentElo ≤ eloDelta actual eloRating opponentElo :=
  roundHalfEven_mono (mul_le_mul_of_nonneg_left
    (by linarith [expectedScore_mono ordered]) kFactor_pos.le)

theorem eloDelta_le {actual : ℝ} (bound : actual ≤ 1) (eloRating opponentElo : Int) :
    eloDelta actual eloRating opponentElo ≤ 32 := by
  have most : kFactor * (actual - expectedScore eloRating opponentElo) ≤ ((32 : Int) : ℝ) := by
    have positive := expectedScore_pos eloRating opponentElo
    push_cast [kFactor]
    linarith
  exact (roundHalfEven_mono most).trans_eq (roundHalfEven_intCast 32)

theorem abs_eloDelta_le {actual : ℝ} (low : 0 ≤ actual) (high : actual ≤ 1)
    (eloRating opponentElo : Int) : |eloDelta actual eloRating opponentElo| ≤ 32 := by
  have swapped := eloDelta_swap actual eloRating opponentElo
  have bound := eloDelta_le (by linarith : 1 - actual ≤ 1) opponentElo eloRating
  exact abs_le.mpr ⟨by omega, eloDelta_le high eloRating opponentElo⟩

/-- A change is at least a number the exact change is at least. -/
theorem le_eloDelta {actual : ℝ} {eloRating opponentElo least : Int}
    (exact : (least : ℝ) ≤ kFactor * (actual - expectedScore eloRating opponentElo)) :
    least ≤ eloDelta actual eloRating opponentElo :=
  (roundHalfEven_intCast least).symm.trans_le (roundHalfEven_mono exact)

theorem eloDelta_win_nonneg (eloRating opponentElo : Int) :
    0 ≤ eloDelta 1 eloRating opponentElo := by
  apply le_eloDelta
  have unsure := expectedScore_lt_one eloRating opponentElo
  push_cast
  exact mul_nonneg kFactor_pos.le (by linarith)

theorem one_le_eloDelta_win {eloRating opponentElo : Int}
    (within : eloRating - opponentElo ≤ 500) : 1 ≤ eloDelta 1 eloRating opponentElo := by
  apply le_eloDelta
  have chance := expectedScore_of_within within
  have total := expectedScore_add_swap eloRating opponentElo
  push_cast [kFactor]
  linarith

/-- In a draw the favourite wins nothing. -/
theorem eloDelta_draw_nonpos {eloRating opponentElo : Int}
    (favourite : opponentElo ≤ eloRating) : eloDelta 0.5 eloRating opponentElo ≤ 0 := by
  have even := eloDelta_anti 0.5 (show opponentElo - opponentElo ≤ eloRating - opponentElo by omega)
  have nothing : kFactor * ((0.5 : ℝ) - 1 / 2) = ((0 : Int) : ℝ) := by norm_num
  have self : eloDelta 0.5 opponentElo opponentElo = 0 := by
    rw [eloDelta, expectedScore_self, nothing, roundHalfEven_intCast]
  omega

namespace ActiveGame

/-- The two players of the game, in either order. -/
structure Plays (game : ActiveGame) (player opponent : PlayerId) : Prop where
  players : game.playerIds = [player, opponent] ∨ game.playerIds = [opponent, player]
  distinct : player ≠ opponent

theorem Plays.symm {game : ActiveGame} {player opponent : PlayerId}
    (plays : game.Plays player opponent) : game.Plays opponent player :=
  ⟨plays.players.symm, plays.distinct.symm⟩

theorem Plays.eq_or_eq {game : ActiveGame} {player opponent member : PlayerId}
    (plays : game.Plays player opponent) (listed : member ∈ game.playerIds) :
    member = player ∨ member = opponent := by
  rcases plays.players with players | players
  · rw [players] at listed
    exact List.mem_pair.mp listed
  · rw [players] at listed
    exact (List.mem_pair.mp listed).symm

noncomputable def actualScore (game : ActiveGame) (player opponent : PlayerId) : ℝ :=
  if game.winnerId = some player then 1 else if game.winnerId = some opponent then 0 else 0.5

/-- The change `_calculate_elo_changes` gives a player. -/
noncomputable def eloChange (game : ActiveGame) (player : PlayerId) : Int :=
  ((game.calculateEloChanges.lookup player).map Prod.snd).getD 0

variable {game : ActiveGame} {player opponent : PlayerId}

theorem actualScore_swap (distinct : player ≠ opponent) :
    game.actualScore opponent player = 1 - game.actualScore player opponent := by
  unfold actualScore
  by_cases wins : game.winnerId = some player
  · simp [wins, distinct]
  · by_cases loses : game.winnerId = some opponent
    · simp [loses, distinct.symm]
    · norm_num [wins, loses]

theorem actualScores_eq (distinct : player ≠ opponent) :
    game.actualScores player opponent =
      (game.actualScore player opponent, game.actualScore opponent player) := by
  unfold actualScores actualScore
  by_cases wins : game.winnerId = some player
  · simp [wins, distinct]
  · by_cases loses : game.winnerId = some opponent
    · simp [loses, distinct.symm]
    · simp [wins, loses]

theorem eloDeltas_eq (distinct : player ≠ opponent) :
    game.eloDeltas player opponent =
      (eloDelta (game.actualScore player opponent) (game.eloBefore player)
          (game.eloBefore opponent),
        eloDelta (game.actualScore opponent player) (game.eloBefore opponent)
          (game.eloBefore player)) := by
  have others : 1 - expectedScore (game.eloBefore player) (game.eloBefore opponent) =
      expectedScore (game.eloBefore opponent) (game.eloBefore player) := by
    linarith [expectedScore_add_swap (game.eloBefore player) (game.eloBefore opponent)]
  simp only [eloDeltas, actualScores_eq distinct, others, eloDelta]

/-- Both players are given their own change, whoever is listed first. -/
theorem Plays.lookup_calculateEloChanges (plays : game.Plays player opponent) :
    game.calculateEloChanges.lookup player =
      some (game.eloBefore player + eloDelta (game.actualScore player opponent)
          (game.eloBefore player) (game.eloBefore opponent),
        eloDelta (game.actualScore player opponent) (game.eloBefore player)
          (game.eloBefore opponent)) := by
  rcases plays.players with players | players
  · simp only [calculateEloChanges, players, eloDeltas_eq plays.distinct, Dict.lookup_insert,
      plays.distinct, if_false, if_true]
  · simp only [calculateEloChanges, players, eloDeltas_eq plays.distinct.symm,
      Dict.lookup_insert, if_true]

theorem Plays.eloChange_eq (plays : game.Plays player opponent) :
    game.eloChange player =
      eloDelta (game.actualScore player opponent) (game.eloBefore player)
        (game.eloBefore opponent) := by
  rw [eloChange, plays.lookup_calculateEloChanges]
  rfl

/-- What is fair about the change of a player. -/
structure FairChange (game : ActiveGame) (player opponent : PlayerId) : Prop where
  rated : game.calculateEloChanges.lookup player =
    some (game.eloBefore player + game.eloChange player, game.eloChange player)
  zeroSum : game.eloChange player + game.eloChange opponent = 0
  bounded : |game.eloChange player| ≤ 32
  won : game.winnerId = some player → 0 ≤ game.eloChange player
  lost : game.winnerId = some opponent → game.eloChange player ≤ 0
  drawn : game.winnerId = none → game.eloBefore opponent < game.eloBefore player →
    game.eloChange player ≤ 0
  /-- a winner who was further ahead gains no more -/
  upset : ∀ other favourite outsider, game.winnerId = some player →
    Plays other favourite outsider → other.winnerId = some favourite →
    game.eloBefore player - game.eloBefore opponent ≤
      other.eloBefore favourite - other.eloBefore outsider →
    other.eloChange favourite ≤ game.eloChange player
  close : game.winnerId = some player →
    |game.eloBefore player - game.eloBefore opponent| ≤ 500 → 1 ≤ game.eloChange player
  /-- the players of a pair popped by the matchmaker are close -/
  matched : ∀ (settings : Settings) (queue after : MatchmakingQueue) (now : Time)
    (pair : MatchedPair), settings.eloToleranceMax ≤ 500 →
    queue.tryMatch settings now = (after, some pair) → game.playerIds = pair.playerIds →
    game.playerElos = pair.playerElos → game.winnerId = some player → 1 ≤ game.eloChange player

theorem Plays.eloChange_of_won (plays : game.Plays player opponent)
    (won : game.winnerId = some player) :
    game.eloChange player = eloDelta 1 (game.eloBefore player) (game.eloBefore opponent) := by
  rw [plays.eloChange_eq, actualScore, if_pos won]

theorem Plays.eloChange_add (plays : game.Plays player opponent) :
    game.eloChange player + game.eloChange opponent = 0 := by
  rw [plays.eloChange_eq, plays.symm.eloChange_eq, actualScore_swap plays.distinct,
    eloDelta_swap, add_neg_cancel]

theorem abs_sub_of_matched {settings : Settings} {queue after : MatchmakingQueue} {now : Time}
    {pair : MatchedPair} (matched : queue.tryMatch settings now = (after, some pair)) :
    |pair.eloA - pair.eloB| ≤ settings.eloToleranceMax := by
  have acceptable := (MatchmakingQueue.accepted_of_tryMatch
    (show (queue.tryMatch settings now).2 = some pair by rw [matched])).1
  have within : ((pair.eloA - pair.eloB).natAbs : ℚ) ≤ settings.eloToleranceMax :=
    acceptable.firstAccepts.trans (min_le_right _ _)
  rw [Nat.cast_natAbs] at within
  exact_mod_cast within

theorem Plays.one_le_eloChange (plays : game.Plays player opponent)
    (won : game.winnerId = some player)
    (within : |game.eloBefore player - game.eloBefore opponent| ≤ 500) :
    1 ≤ game.eloChange player := by
  rw [plays.eloChange_of_won won]
  exact one_le_eloDelta_win (abs_le.mp within).2

/-- A game of a popped pair is played for the ratings of the queue. -/
theorem Plays.within_of_matched (plays : game.Plays player opponent) {settings : Settings}
    {queue after : MatchmakingQueue} {now : Time} {pair : MatchedPair}
    (matched : queue.tryMatch settings now = (after, some pair))
    (playerIds : game.playerIds = pair.playerIds) (playerElos : game.playerElos = pair.playerElos) :
    |game.eloBefore player - game.eloBefore opponent| ≤ settings.eloToleranceMax := by
  have close := abs_sub_of_matched matched
  have different := (MatchmakingQueue.tryMatch_eq_some matched).1
  have eloA : game.eloBefore pair.playerA = pair.eloA := by
    simp only [eloBefore, playerElos, MatchedPair.playerElos, Dict.getD, Dict.lookup_insert,
      different, if_false, if_true, Option.getD_some]
  have eloB : game.eloBefore pair.playerB = pair.eloB := by
    simp [eloBefore, playerElos, MatchedPair.playerElos, Dict.getD]
  rcases plays.players with players | players <;>
    rw [playerIds, MatchedPair.playerIds] at players <;>
    obtain ⟨rfl, rfl⟩ : _ = _ ∧ _ = _ := by simpa using players
  · rwa [eloA, eloB]
  · rwa [eloA, eloB, abs_sub_comm]

/-- Main result: the changes of both players are fair. -/
theorem fairChange_of_plays (plays : game.Plays player opponent) :
    FairChange game player opponent where
  rated := by rw [plays.lookup_calculateEloChanges, ← plays.eloChange_eq]
  zeroSum := plays.eloChange_add
  bounded := by
    rw [plays.eloChange_eq, actualScore]
    split
    · exact abs_eloDelta_le zero_le_one le_rfl _ _
    split
    · exact abs_eloDelta_le le_rfl zero_le_one _ _
    · exact abs_eloDelta_le (by norm_num) (by norm_num) _ _
  won won := by
    rw [plays.eloChange_of_won won]
    exact eloDelta_win_nonneg _ _
  lost lost := by
    have gained := eloDelta_win_nonneg (game.eloBefore opponent) (game.eloBefore player)
    rw [← plays.symm.eloChange_of_won lost] at gained
    linarith [plays.eloChange_add]
  drawn drawn favourite := by
    rw [plays.eloChange_eq, actualScore, drawn]
    exact eloDelta_draw_nonpos favourite.le
  upset other favourite outsider won otherPlays otherWon ordered := by
    rw [plays.eloChange_of_won won, otherPlays.eloChange_of_won otherWon]
    exact eloDelta_anti 1 ordered
  close := plays.one_le_eloChange
  matched settings queue after now pair tolerant matched playerIds playerElos won :=
    plays.one_le_eloChange won
      ((plays.within_of_matched matched playerIds playerElos).trans tolerant)

theorem fairChange_of_upset :
    FairChange
      { ActiveGame.create "room-1" ["ada", "bob"]
          (AList.insert "bob" 1500 (AList.insert "ada" 1000 ∅)) 0 with
        status := .finished
        winnerId := some "ada" } "ada" "bob" :=
  fairChange_of_plays ⟨.inl rfl, by decide⟩

end ActiveGame

end TerritoryBackend

import TerritoryBackend.Matchmaking

/-!
# What the matchmaking script selects

The script pops a pair exactly when two queued players accept each other's
rating, and the pair is the first one in the order of ratings and ids.
-/

namespace TerritoryBackend

open SortedSet (place)

namespace MatchmakingQueue

/-- Two different queued players, with their ratings, whose rating difference
both accept. -/
structure Acceptable (settings : Settings) (queue : MatchmakingQueue) (now : Time)
    (first second : PlayerId × Int) : Prop where
  firstQueued : queue.queue.lookup first.1 = some first.2
  secondQueued : queue.queue.lookup second.1 = some second.2
  different : first.1 ≠ second.1
  firstAccepts : ((first.2 - second.2).natAbs : ℚ) ≤ queue.tolerance settings now first.1
  secondAccepts : ((first.2 - second.2).natAbs : ℚ) ≤ queue.tolerance settings now second.1

theorem Acceptable.symm {settings : Settings} {queue : MatchmakingQueue} {now : Time}
    {first second : PlayerId × Int} (acceptable : queue.Acceptable settings now first second) :
    queue.Acceptable settings now second first where
  firstQueued := acceptable.secondQueued
  secondQueued := acceptable.firstQueued
  different := acceptable.different.symm
  firstAccepts := by
    rw [← Int.natAbs_neg, neg_sub]
    exact acceptable.secondAccepts
  secondAccepts := by
    rw [← Int.natAbs_neg, neg_sub]
    exact acceptable.firstAccepts

/-- The script returns a pair when there is an acceptable one, namely the first,
and removes these two players; without a pair it changes nothing. -/
structure SelectsFirst (settings : Settings) (queue : MatchmakingQueue) (now : Time) : Prop where
  returns_iff : (queue.tryMatch settings now).2.isSome = true ↔
    ∃ first second, queue.Acceptable settings now first second
  accepted : ∀ pair, (queue.tryMatch settings now).2 = some pair →
    queue.Acceptable settings now (pair.playerA, pair.eloA) (pair.playerB, pair.eloB) ∧
      place (pair.playerA, pair.eloA) < place (pair.playerB, pair.eloB)
  first : ∀ pair, (queue.tryMatch settings now).2 = some pair → ∀ one other,
    queue.Acceptable settings now one other → place one < place other →
    toLex (place (pair.playerA, pair.eloA), place (pair.playerB, pair.eloB)) ≤
      toLex (place one, place other)
  removed : ∀ pair, (queue.tryMatch settings now).2 = some pair → ∀ player,
    ((queue.tryMatch settings now).1.queue.lookup player =
      if player ∈ pair.playerIds then none else queue.queue.lookup player) ∧
    (queue.tryMatch settings now).1.timestamps.lookup player =
      if player ∈ pair.playerIds then none else queue.timestamps.lookup player
  unchanged : (queue.tryMatch settings now).2 = none → (queue.tryMatch settings now).1 = queue

variable {settings : Settings} {queue : MatchmakingQueue} {now : Time}

def Candidate.place (candidate : Candidate) : ℤ ×ₗ PlayerId :=
  SortedSet.place (candidate.pid, candidate.elo)

theorem mem_candidates_iff (candidate : Candidate) :
    candidate ∈ queue.candidates settings now ↔
      queue.queue.lookup candidate.pid = some candidate.elo ∧
        candidate.tolerance = queue.tolerance settings now candidate.pid := by
  simp only [candidates, List.mem_map, Prod.exists, SortedSet.mem_range_iff]
  constructor
  · rintro ⟨player, elo, queued, rfl⟩
    exact ⟨queued, rfl⟩
  · rintro ⟨queued, same⟩
    exact ⟨_, _, queued, by rw [← same]⟩

theorem candidates_sorted :
    (queue.candidates settings now).Pairwise fun first second => first.place < second.place :=
  List.pairwise_map.mpr (SortedSet.range_sorted queue.queue)

theorem acceptable_iff_compatible {first second : Candidate}
    (firstMem : first ∈ queue.candidates settings now)
    (secondMem : second ∈ queue.candidates settings now) (ordered : first.place < second.place) :
    queue.Acceptable settings now (first.pid, first.elo) (second.pid, second.elo) ↔
      compatible first second = true := by
  obtain ⟨firstQueued, firstTolerance⟩ := (mem_candidates_iff first).mp firstMem
  obtain ⟨secondQueued, secondTolerance⟩ := (mem_candidates_iff second).mp secondMem
  rw [compatible, Bool.and_eq_true, decide_eq_true_iff, decide_eq_true_iff, firstTolerance,
    secondTolerance]
  constructor
  · intro acceptable
    exact ⟨acceptable.firstAccepts, acceptable.secondAccepts⟩
  · rintro ⟨firstAccepts, secondAccepts⟩
    refine ⟨firstQueued, secondQueued, fun same => ordered.ne ?_, firstAccepts, secondAccepts⟩
    -- A player is queued with one rating.
    have same : first.pid = second.pid := same
    have sameElo : first.elo = second.elo := by
      rw [same, secondQueued] at firstQueued
      exact (Option.some.inj firstQueued).symm
    rw [Candidate.place, Candidate.place, same, sameElo]

/-- Acceptable players are two candidates, in one order or the other. -/
theorem Acceptable.candidates {one other : PlayerId × Int}
    (acceptable : queue.Acceptable settings now one other) (ordered : place one < place other) :
    ∃ first ∈ queue.candidates settings now, ∃ second ∈ queue.candidates settings now,
      first.place = place one ∧ second.place = place other ∧ compatible first second = true := by
  have oneMem := (mem_candidates_iff ⟨one.1, one.2, queue.tolerance settings now one.1⟩).mpr
    ⟨acceptable.firstQueued, rfl⟩
  have otherMem := (mem_candidates_iff ⟨other.1, other.2, queue.tolerance settings now other.1⟩).mpr
    ⟨acceptable.secondQueued, rfl⟩
  exact ⟨_, oneMem, _, otherMem, rfl, rfl,
    (acceptable_iff_compatible oneMem otherMem ordered).mp acceptable⟩

theorem Acceptable.ordered {one other : PlayerId × Int}
    (acceptable : queue.Acceptable settings now one other) :
    place one < place other ∨ place other < place one := by
  apply lt_or_gt_of_ne
  intro same
  apply acceptable.different
  exact (Prod.mk.inj (toLex_inj.mp same)).2

theorem findPair_eq_none_iff :
    findPair (queue.candidates settings now) = none ↔
      ¬ ∃ first second, queue.Acceptable settings now first second := by
  rw [findPair_eq_find, FirstPair.find_eq_none_iff,
    FirstPair.pairwise_iff_of_sorted candidates_sorted]
  constructor
  · rintro rejected ⟨one, other, acceptable⟩
    have notOrdered {one other : PlayerId × Int}
        (acceptable : queue.Acceptable settings now one other) : ¬ place one < place other := by
      intro ordered
      obtain ⟨first, firstMem, second, secondMem, firstPlace, secondPlace, compatible⟩ :=
        acceptable.candidates ordered
      have refused := rejected first firstMem second secondMem
        (by rwa [firstPlace, secondPlace])
      rw [compatible] at refused
      cases refused
    exact acceptable.ordered.elim (notOrdered acceptable) (notOrdered acceptable.symm)
  · intro none first firstMem second secondMem ordered
    apply Bool.eq_false_of_not_eq_true
    intro compatible
    apply none
    exact ⟨_, _, (acceptable_iff_compatible firstMem secondMem ordered).mpr compatible⟩

theorem tryMatch_eq_none_iff :
    (queue.tryMatch settings now).2 = none ↔ findPair (queue.candidates settings now) = none := by
  unfold tryMatch
  cases findPair (queue.candidates settings now) <;> simp

/-- The pair the script returns is the pair its loops find. -/
theorem findPair_of_tryMatch {pair : MatchedPair}
    (matched : (queue.tryMatch settings now).2 = some pair) :
    ∃ first second, findPair (queue.candidates settings now) = some (first, second) ∧
      first ∈ queue.candidates settings now ∧ second ∈ queue.candidates settings now ∧
      first.place < second.place ∧ compatible first second = true ∧
      pair = ⟨first.pid, first.elo, second.pid, second.elo⟩ := by
  unfold tryMatch at matched
  split at matched
  · cases matched
  rename_i first second found
  cases matched
  obtain ⟨compatible, sublist⟩ := FirstPair.find_eq_some (findPair_eq_find _ ▸ found)
  have ordered : first.place < second.place := by
    simpa using candidates_sorted.sublist sublist
  exact ⟨first, second, found, sublist.subset (by simp), sublist.subset (by simp), ordered,
    compatible, rfl⟩

theorem accepted_of_tryMatch {pair : MatchedPair}
    (matched : (queue.tryMatch settings now).2 = some pair) :
    queue.Acceptable settings now (pair.playerA, pair.eloA) (pair.playerB, pair.eloB) ∧
      place (pair.playerA, pair.eloA) < place (pair.playerB, pair.eloB) := by
  obtain ⟨first, second, -, firstMem, secondMem, ordered, compatible, rfl⟩ :=
    findPair_of_tryMatch matched
  exact ⟨(acceptable_iff_compatible firstMem secondMem ordered).mpr compatible, ordered⟩

theorem first_of_tryMatch {pair : MatchedPair}
    (matched : (queue.tryMatch settings now).2 = some pair) {one other : PlayerId × Int}
    (acceptable : queue.Acceptable settings now one other) (ordered : place one < place other) :
    toLex (place (pair.playerA, pair.eloA), place (pair.playerB, pair.eloB)) ≤
      toLex (place one, place other) := by
  obtain ⟨first, second, found, -, -, -, -, rfl⟩ := findPair_of_tryMatch matched
  obtain ⟨one', oneMem, other', otherMem, onePlace, otherPlace, compatible⟩ :=
    acceptable.candidates ordered
  rw [← onePlace, ← otherPlace] at ordered ⊢
  exact FirstPair.find_least candidates_sorted (findPair_eq_find _ ▸ found) oneMem otherMem
    ordered compatible

theorem removed_of_tryMatch {pair : MatchedPair}
    (matched : (queue.tryMatch settings now).2 = some pair) (player : PlayerId) :
    ((queue.tryMatch settings now).1.queue.lookup player =
      if player ∈ pair.playerIds then none else queue.queue.lookup player) ∧
    (queue.tryMatch settings now).1.timestamps.lookup player =
      if player ∈ pair.playerIds then none else queue.timestamps.lookup player := by
  have result : queue.tryMatch settings now = ((queue.tryMatch settings now).1, some pair) := by
    rw [← matched]
  obtain ⟨-, -, -, queueEq, timestampsEq⟩ := tryMatch_eq_some result
  rw [queueEq, timestampsEq]
  simp only [Dict.lookup_erase, MatchedPair.playerIds, List.mem_cons, List.not_mem_nil, or_false]
  by_cases isA : player = pair.playerA <;> by_cases isB : player = pair.playerB <;>
    simp [isA, isB]

theorem mem_keys_of_lookup {set : SortedSet PlayerId} {player : PlayerId} {elo : Int}
    (queued : set.lookup player = some elo) : player ∈ set.keys := by
  rw [← AList.mem_keys, ← AList.lookup_isSome, queued]
  rfl

/-- A player who is still queued after a successful call was not touched by
it. -/
theorem kept_of_tryMatch {after : MatchmakingQueue} {pair : MatchedPair}
    (matched : queue.tryMatch settings now = (after, some pair)) {player : PlayerId}
    (queued : player ∈ after.queue.keys) :
    after.queue.lookup player = queue.queue.lookup player ∧
      after.timestamps.lookup player = queue.timestamps.lookup player := by
  have returned : (queue.tryMatch settings now).2 = some pair := by rw [matched]
  obtain ⟨queueEq, timestampsEq⟩ := removed_of_tryMatch returned player
  rw [matched] at queueEq timestampsEq
  have unpaired : player ∉ pair.playerIds := by
    intro paired
    rw [if_pos paired] at queueEq
    rw [← AList.mem_keys, ← AList.lookup_isSome, queueEq] at queued
    cases queued
  rw [if_neg unpaired] at queueEq timestampsEq
  exact ⟨queueEq, timestampsEq⟩

theorem tolerance_congr {other : MatchmakingQueue} {player : PlayerId}
    (same : other.timestamps.lookup player = queue.timestamps.lookup player) :
    other.tolerance settings now player = queue.tolerance settings now player := by
  simp only [tolerance, Dict.getD, same]

theorem selectsFirst (settings : Settings) (queue : MatchmakingQueue) (now : Time) :
    SelectsFirst settings queue now where
  returns_iff := by
    rw [Option.isSome_iff_ne_none, Ne, tryMatch_eq_none_iff, findPair_eq_none_iff, not_not]
  accepted _ matched := accepted_of_tryMatch matched
  first _ matched _ _ acceptable ordered := first_of_tryMatch matched acceptable ordered
  removed _ matched player := removed_of_tryMatch matched player
  unchanged unmatched := tryMatch_eq_none (by rw [← unmatched])

end MatchmakingQueue

end TerritoryBackend

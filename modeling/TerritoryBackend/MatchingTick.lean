import TerritoryBackend.PairSelection

/-!
# One tick of the matching loop

`_matching_loop` calls the script until it returns no pair.  Forming a match
writes the room and sends the offers; it leaves the queue as it is.
-/

namespace TerritoryBackend

namespace MatchmakingQueue

variable {settings : Settings} {queue : MatchmakingQueue} {now : Time}

/-- The queue before a successful call consists of the pair and of the players
that are left. -/
theorem keys_tryMatch {after : MatchmakingQueue} {pair : MatchedPair}
    (matched : queue.tryMatch settings now = (after, some pair)) :
    (pair.playerIds ++ after.queue.keys).Perm queue.queue.keys := by
  obtain ⟨different, queuedA, queuedB, left, -⟩ := tryMatch_eq_some matched
  have memA := mem_keys_of_lookup queuedA
  have memB := (List.mem_erase_of_ne different.symm).mpr (mem_keys_of_lookup queuedB)
  rw [left, AList.keys_erase, AList.keys_erase]
  exact (((List.perm_cons_erase memA).trans ((List.perm_cons_erase memB).cons _))).symm

theorem card_tryMatch {after : MatchmakingQueue} {pair : MatchedPair}
    (matched : queue.tryMatch settings now = (after, some pair)) :
    after.queue.card + 2 = queue.queue.card := by
  have lengths := (keys_tryMatch matched).length_eq
  simp only [MatchedPair.playerIds, AList.keys, List.keys, List.length_append, List.length_map,
    List.length_cons, List.length_nil] at lengths
  unfold SortedSet.card
  omega

/-- The inner loop of `_matching_loop`: the pairs it forms and the queue it
leaves.  The call of this number reads the clock of this number. -/
def matchingTick (settings : Settings) (clock : ℕ → Time) (call : ℕ) (queue : MatchmakingQueue) :
    List MatchedPair × MatchmakingQueue :=
  match _result : queue.tryMatch settings (clock call) with
  | (after, none) => ([], after)
  | (after, some pair) =>
      let others := matchingTick settings clock (call + 1) after
      (pair :: others.1, others.2)
termination_by queue.queue.card
decreasing_by
  have smaller := card_tryMatch _result
  omega

/-- The tick forms at most half as many matches as there are players; the
queue is divided into the players of the matches and those that are left; every
match is accepted by both players at the time of its call, and no two of the
players left accept each other at the time of the last call. -/
structure DrainsMaximally (settings : Settings) (clock : ℕ → Time) (queue : MatchmakingQueue) :
    Prop where
  bounded : (matchingTick settings clock 0 queue).1.length ≤ queue.queue.card / 2
  divided : ((matchingTick settings clock 0 queue).1.flatMap MatchedPair.playerIds ++
    (matchingTick settings clock 0 queue).2.queue.keys).Perm queue.queue.keys
  disjoint : ((matchingTick settings clock 0 queue).1.flatMap MatchedPair.playerIds ++
    (matchingTick settings clock 0 queue).2.queue.keys).Nodup
  kept : ∀ player ∈ (matchingTick settings clock 0 queue).2.queue.keys,
    (matchingTick settings clock 0 queue).2.queue.lookup player = queue.queue.lookup player ∧
      (matchingTick settings clock 0 queue).2.timestamps.lookup player =
        queue.timestamps.lookup player
  accepted : ∀ call pair, (matchingTick settings clock 0 queue).1[call]? = some pair →
    queue.Acceptable settings (clock call) (pair.playerA, pair.eloA) (pair.playerB, pair.eloB)
  maximal : ¬ ∃ first second, (matchingTick settings clock 0 queue).2.Acceptable settings
    (clock (matchingTick settings clock 0 queue).1.length) first second

/-- Players who accept each other after a call did so before. -/
theorem Acceptable.of_tryMatch {after : MatchmakingQueue} {pair : MatchedPair} {later : Time}
    (matched : queue.tryMatch settings now = (after, some pair)) {first second : PlayerId × Int}
    (acceptable : after.Acceptable settings later first second) :
    queue.Acceptable settings later first second := by
  obtain ⟨firstQueued, firstStamp⟩ :=
    kept_of_tryMatch matched (mem_keys_of_lookup acceptable.firstQueued)
  obtain ⟨secondQueued, secondStamp⟩ :=
    kept_of_tryMatch matched (mem_keys_of_lookup acceptable.secondQueued)
  exact {
    firstQueued := firstQueued ▸ acceptable.firstQueued
    secondQueued := secondQueued ▸ acceptable.secondQueued
    different := acceptable.different
    firstAccepts := tolerance_congr firstStamp ▸ acceptable.firstAccepts
    secondAccepts := tolerance_congr secondStamp ▸ acceptable.secondAccepts }

variable {clock : ℕ → Time}

theorem matchingTick_of_none {call : ℕ} {after : MatchmakingQueue}
    (unmatched : queue.tryMatch settings (clock call) = (after, none)) :
    matchingTick settings clock call queue = ([], queue) := by
  have same := tryMatch_eq_none unmatched
  rw [matchingTick]
  split
  · rename_i result
    rw [unmatched, same] at result
    cases result
    rfl
  · rename_i result
    rw [unmatched] at result
    cases result

theorem matchingTick_of_some {call : ℕ} {after : MatchmakingQueue} {pair : MatchedPair}
    (matched : queue.tryMatch settings (clock call) = (after, some pair)) :
    matchingTick settings clock call queue =
      (pair :: (matchingTick settings clock (call + 1) after).1,
        (matchingTick settings clock (call + 1) after).2) := by
  rw [matchingTick]
  split
  · rename_i result
    rw [matched] at result
    cases result
  · rename_i result
    rw [matched] at result
    cases result
    rfl

/-- What holds when a call returns no pair, and before a call that returns one
if it holds of the following calls, holds of every tick. -/
theorem matchingTick_induction (settings : Settings) (clock : ℕ → Time)
    {motive : ℕ → MatchmakingQueue → List MatchedPair × MatchmakingQueue → Prop}
    (stop : ∀ call queue, (queue.tryMatch settings (clock call)).2 = none →
      motive call queue ([], queue))
    (next : ∀ call queue after pair others,
      queue.tryMatch settings (clock call) = (after, some pair) →
      motive (call + 1) after others → motive call queue (pair :: others.1, others.2))
    (call : ℕ) (queue : MatchmakingQueue) :
    motive call queue (matchingTick settings clock call queue) := by
  induction size : queue.queue.card using Nat.strong_induction_on generalizing call queue with
  | _ size ih =>
      cases result : queue.tryMatch settings (clock call) with
      | mk after found =>
          cases found with
          | none =>
              rw [matchingTick_of_none result]
              exact stop call queue (by rw [result])
          | some pair =>
              rw [matchingTick_of_some result]
              have smaller := card_tryMatch result
              exact next call queue after pair _ result
                (ih after.queue.card (by omega) (call + 1) after rfl)

theorem matchingTick_divided (settings : Settings) (clock : ℕ → Time) (call : ℕ)
    (queue : MatchmakingQueue) :
    ((matchingTick settings clock call queue).1.flatMap MatchedPair.playerIds ++
      (matchingTick settings clock call queue).2.queue.keys).Perm queue.queue.keys := by
  refine matchingTick_induction settings clock
    (motive := fun _ queue tick => (tick.1.flatMap MatchedPair.playerIds ++ tick.2.queue.keys).Perm
    queue.queue.keys) (fun _ _ _ => List.Perm.refl _) ?_ call queue
  intro _ _ _ pair _ matched divided
  rw [List.flatMap_cons, List.append_assoc]
  exact (divided.append_left pair.playerIds).trans (keys_tryMatch matched)

theorem matchingTick_kept (settings : Settings) (clock : ℕ → Time) (call : ℕ)
    (queue : MatchmakingQueue) :
    ∀ player ∈ (matchingTick settings clock call queue).2.queue.keys,
      (matchingTick settings clock call queue).2.queue.lookup player =
          queue.queue.lookup player ∧
        (matchingTick settings clock call queue).2.timestamps.lookup player =
          queue.timestamps.lookup player := by
  refine matchingTick_induction settings clock
    (motive := fun _ queue tick => ∀ player ∈ tick.2.queue.keys, tick.2.queue.lookup player =
    queue.queue.lookup player ∧ tick.2.timestamps.lookup player = queue.timestamps.lookup player)
    (fun _ _ _ _ _ => ⟨rfl, rfl⟩) ?_ call queue
  intro _ _ after _ others matched kept player left
  obtain ⟨queueEq, timestampsEq⟩ := kept player left
  have queued : player ∈ after.queue.keys := by
    rw [← AList.mem_keys, ← AList.lookup_isSome] at left ⊢
    rwa [← queueEq]
  obtain ⟨queueBefore, timestampsBefore⟩ := kept_of_tryMatch matched queued
  exact ⟨queueEq.trans queueBefore, timestampsEq.trans timestampsBefore⟩

theorem matchingTick_accepted (settings : Settings) (clock : ℕ → Time) (call : ℕ)
    (queue : MatchmakingQueue) :
    ∀ index pair, (matchingTick settings clock call queue).1[index]? = some pair →
      queue.Acceptable settings (clock (call + index)) (pair.playerA, pair.eloA)
        (pair.playerB, pair.eloB) := by
  refine matchingTick_induction settings clock
    (motive := fun call queue tick => ∀ index pair, tick.1[index]? = some pair →
      queue.Acceptable settings (clock (call + index)) (pair.playerA, pair.eloA)
        (pair.playerB, pair.eloB))
    (fun _ _ _ _ _ present => by simp at present)
    (fun call queue after formed others matched accepted index pair present => ?_) call queue
  cases index with
  | zero =>
      cases present
      exact (accepted_of_tryMatch (by rw [Nat.add_zero, matched])).1
  | succ index =>
      have later := accepted index pair present
      rw [Nat.add_right_comm] at later
      exact later.of_tryMatch matched

theorem matchingTick_maximal (settings : Settings) (clock : ℕ → Time) (call : ℕ)
    (queue : MatchmakingQueue) :
    ¬ ∃ first second, (matchingTick settings clock call queue).2.Acceptable settings
      (clock (call + (matchingTick settings clock call queue).1.length)) first second := by
  refine matchingTick_induction settings clock
    (motive := fun call _ tick => ¬ ∃ first second, tick.2.Acceptable settings
    (clock (call + tick.1.length)) first second) ?_ ?_ call queue
  · intro _ _ unmatched
    rwa [tryMatch_eq_none_iff, findPair_eq_none_iff] at unmatched
  · intro call _ _ _ others _ maximal
    rwa [List.length_cons, ← Nat.add_assoc, Nat.add_right_comm]

theorem drainsMaximally (settings : Settings) (clock : ℕ → Time) (queue : MatchmakingQueue) :
    DrainsMaximally settings clock queue where
  bounded := by
    have lengths := (matchingTick_divided settings clock 0 queue).length_eq
    have twoEach : ∀ formed : List MatchedPair,
        (formed.flatMap MatchedPair.playerIds).length = 2 * formed.length := by
      intro formed
      induction formed with
      | nil => rfl
      | cons pair others ih =>
          rw [List.flatMap_cons, List.length_append, ih, List.length_cons]
          simp only [MatchedPair.playerIds, List.length_cons, List.length_nil]
          omega
    rw [List.length_append, twoEach] at lengths
    have cardEq : queue.queue.keys.length = queue.queue.card := by
      simp [AList.keys, List.keys, SortedSet.card]
    omega
  divided := matchingTick_divided settings clock 0 queue
  disjoint := (matchingTick_divided settings clock 0 queue).nodup_iff.mpr queue.queue.keys_nodup
  kept := matchingTick_kept settings clock 0 queue
  accepted call pair present := by
    have accepted := matchingTick_accepted settings clock 0 queue call pair present
    rwa [Nat.zero_add] at accepted
  maximal := by
    have maximal := matchingTick_maximal settings clock 0 queue
    rwa [Nat.zero_add] at maximal

end MatchmakingQueue

end TerritoryBackend

import TerritoryBackend.Matchmaking

/-!
# Histories of the matchmaking queue

The instances share one queue, and each of their pipelines and script runs is
one atomic step, so whatever they do is a sequence of commands.  An enqueue is
used up by the pair or the removal that takes the player out.  A rating fits
the integer column of the player table, so the score and the text the script
returns have all its digits.
-/

namespace TerritoryBackend

/-- A command of some instance, with its settings and its clock. -/
inductive QueueCommand where
  | enqueuePlayer (player : PlayerId) (eloRating : Int) (now : Time)
  | dequeuePlayer (player : PlayerId)
  | tryMatch (settings : Settings) (now : Time)

/-- A command as seen by its caller. -/
inductive QueueEvent where
  | enqueued (player : PlayerId) (eloRating : Int)
  | dequeued (player : PlayerId) (removed : Bool)
  | matched (pair : Option MatchedPair)

namespace MatchmakingQueue

def perform (queue : MatchmakingQueue) : QueueCommand → MatchmakingQueue × QueueEvent
  | .enqueuePlayer player eloRating now =>
      (queue.enqueuePlayer player eloRating now, .enqueued player eloRating)
  | .dequeuePlayer player =>
      ((queue.dequeuePlayer player).1, .dequeued player (queue.dequeuePlayer player).2)
  | .tryMatch settings now =>
      ((queue.tryMatch settings now).1, .matched (queue.tryMatch settings now).2)

def performAll (queue : MatchmakingQueue) (commands : List QueueCommand) : MatchmakingQueue :=
  commands.foldl (fun queue command => (queue.perform command).1) queue

def events (queue : MatchmakingQueue) : List QueueCommand → List QueueEvent
  | [] => []
  | command :: commands =>
      (queue.perform command).2 :: (queue.perform command).1.events commands

def isQueued (queue : MatchmakingQueue) (player : PlayerId) : Bool :=
  (queue.queue.lookup player).isSome

end MatchmakingQueue

namespace QueueEvent

def isEnqueueOf (player : PlayerId) : QueueEvent → Bool
  | .enqueued queued _ => decide (queued = player)
  | _ => false

/-- A call of `dequeue_player` for the player that returned `True`. -/
def isRemovalOf (player : PlayerId) : QueueEvent → Bool
  | .dequeued left removed => decide (left = player) && removed
  | _ => false

def isPairingOf (player : PlayerId) : QueueEvent → Bool
  | .matched pair => pair.any fun pair => decide (player ∈ pair.playerIds)
  | _ => false

def ratingOf (player : PlayerId) : QueueEvent → Option Int
  | .enqueued queued eloRating => if queued = player then some eloRating else none
  | _ => none

end QueueEvent

/-- The rating of a player's latest enqueue. -/
def latestRating (player : PlayerId) (events : List QueueEvent) : Option Int :=
  (events.filterMap (QueueEvent.ratingOf player)).getLast?

/-- What is promised of the queue and its history so far. -/
structure QueueSound (queue : MatchmakingQueue) (events : List QueueEvent) : Prop where
  keys : ∀ player, player ∈ queue.queue ↔ player ∈ queue.timestamps
  pairs : ∀ settings now pair, (queue.tryMatch settings now).2 = some pair →
    pair.playerA ≠ pair.playerB ∧ pair.playerA ∈ queue.queue ∧ pair.playerB ∈ queue.queue ∧
      latestRating pair.playerA events = some pair.eloA ∧
      latestRating pair.playerB events = some pair.eloB
  once : ∀ player,
    events.countP (QueueEvent.isPairingOf player) +
        events.countP (QueueEvent.isRemovalOf player) ≤
      events.countP (QueueEvent.isEnqueueOf player)

namespace MatchmakingQueue

variable {queue : MatchmakingQueue} {player : PlayerId}

theorem perform_tryMatch_cases (queue : MatchmakingQueue) (settings : Settings) (now : Time) :
    queue.perform (.tryMatch settings now) = (queue, .matched none) ∨
      ∃ after pair, queue.tryMatch settings now = (after, some pair) ∧
        queue.perform (.tryMatch settings now) = (after, .matched (some pair)) := by
  cases matched : queue.tryMatch settings now with
  | mk after result =>
      cases result with
      | none =>
          have same := tryMatch_eq_none matched
          exact .inl (by simp [perform, matched, same])
      | some pair => exact .inr ⟨after, pair, rfl, by simp [perform, matched]⟩

def SameKeys (queue : MatchmakingQueue) : Prop :=
  ∀ player, player ∈ queue.queue ↔ player ∈ queue.timestamps

theorem SameKeys.perform (same : queue.SameKeys) (command : QueueCommand) :
    (queue.perform command).1.SameKeys := by
  intro player
  have before := same player
  cases command with
  | enqueuePlayer enqueued eloRating now =>
      simp [MatchmakingQueue.perform, enqueuePlayer, before]
  | dequeuePlayer dequeued => simp [MatchmakingQueue.perform, dequeuePlayer, before]
  | tryMatch settings now =>
      rcases perform_tryMatch_cases queue settings now with
        nothing | ⟨after, pair, matched, performed⟩
      · rw [nothing]
        exact before
      · obtain ⟨-, -, -, queued, stamped⟩ := tryMatch_eq_some matched
        simp [performed, queued, stamped, before]

theorem SameKeys.performAll (same : queue.SameKeys) (commands : List QueueCommand) :
    (queue.performAll commands).SameKeys := by
  induction commands generalizing queue with
  | nil => exact same
  | cons command commands ih => exact ih (same.perform command)

/-- A player is queued with the rating just given or as before. -/
theorem lookup_perform (queue : MatchmakingQueue) (command : QueueCommand) {rating : Int}
    (queued : (queue.perform command).1.queue.lookup player = some rating) :
    (queue.perform command).2.ratingOf player = some rating ∨
      (queue.perform command).2.ratingOf player = none ∧
        queue.queue.lookup player = some rating := by
  cases command with
  | enqueuePlayer enqueued eloRating now =>
      simp only [perform, enqueuePlayer, Dict.lookup_insert] at queued
      split at queued
      · rename_i same
        exact .inl (by simpa [perform, QueueEvent.ratingOf, same] using queued)
      · rename_i other
        exact .inr ⟨by simp [perform, QueueEvent.ratingOf, Ne.symm other], queued⟩
  | dequeuePlayer dequeued =>
      simp only [perform, dequeuePlayer, Dict.lookup_erase] at queued
      split at queued
      · cases queued
      · exact .inr ⟨rfl, queued⟩
  | tryMatch settings now =>
      right
      refine ⟨rfl, ?_⟩
      rcases perform_tryMatch_cases queue settings now with
        nothing | ⟨after, pair, matched, performed⟩
      · rwa [nothing] at queued
      · rw [performed, (tryMatch_eq_some matched).2.2.2.1, Dict.lookup_erase,
          Dict.lookup_erase] at queued
        split at queued
        · cases queued
        split at queued
        · cases queued
        · exact queued

theorem lookup_performAll (queue : MatchmakingQueue) (commands : List QueueCommand)
    {rating : Int} (queued : (queue.performAll commands).queue.lookup player = some rating) :
    latestRating player (queue.events commands) = some rating ∨
      (queue.events commands).filterMap (QueueEvent.ratingOf player) = [] ∧
        queue.queue.lookup player = some rating := by
  induction commands generalizing queue with
  | nil => exact .inr ⟨rfl, queued⟩
  | cons command commands ih =>
      unfold latestRating
      rw [events, List.filterMap_cons]
      rcases ih (queue.perform command).1 queued with latest | ⟨none, early⟩
      · left
        split
        · exact latest
        · rw [List.getLast?_cons, show List.getLast? _ = some rating from latest]
          rfl
      · rw [none]
        rcases lookup_perform queue command early with given | ⟨silent, earlier⟩
        · exact .inl (by simp [given])
        · exact .inr ⟨by simp [silent], earlier⟩

theorem conserved_perform (queue : MatchmakingQueue) (command : QueueCommand)
    (player : PlayerId) :
    ((queue.perform command).2.isPairingOf player).toNat +
        ((queue.perform command).2.isRemovalOf player).toNat +
          ((queue.perform command).1.isQueued player).toNat ≤
      ((queue.perform command).2.isEnqueueOf player).toNat + (queue.isQueued player).toNat := by
  cases command with
  | enqueuePlayer enqueued eloRating now =>
      by_cases same : player = enqueued
      · subst same
        simp [perform, enqueuePlayer, isQueued, QueueEvent.isPairingOf, QueueEvent.isRemovalOf,
          QueueEvent.isEnqueueOf]
      · simp [perform, enqueuePlayer, isQueued, QueueEvent.isPairingOf, QueueEvent.isRemovalOf,
          same]
  | dequeuePlayer dequeued =>
      by_cases same : player = dequeued
      · subst same
        simp [perform, dequeuePlayer, isQueued, QueueEvent.isPairingOf, QueueEvent.isRemovalOf]
      · simp [perform, dequeuePlayer, isQueued, QueueEvent.isPairingOf, QueueEvent.isRemovalOf,
          same, Ne.symm same]
  | tryMatch settings now =>
      rcases perform_tryMatch_cases queue settings now with
        nothing | ⟨after, pair, matched, performed⟩
      · simp [nothing, QueueEvent.isPairingOf, QueueEvent.isRemovalOf]
      · obtain ⟨-, queuedA, queuedB, left, -⟩ := tryMatch_eq_some matched
        rw [performed]
        by_cases plays : player = pair.playerA ∨ player = pair.playerB
        · rcases plays with rfl | rfl <;>
            simp [QueueEvent.isPairingOf, QueueEvent.isRemovalOf, isQueued, left, queuedA,
              queuedB, MatchedPair.playerIds]
        · obtain ⟨notA, notB⟩ := not_or.mp plays
          simp [QueueEvent.isPairingOf, QueueEvent.isRemovalOf, isQueued, left,
            MatchedPair.playerIds, notA, notB]

theorem conserved_performAll (queue : MatchmakingQueue) (commands : List QueueCommand)
    (player : PlayerId) :
    (queue.events commands).countP (QueueEvent.isPairingOf player) +
        (queue.events commands).countP (QueueEvent.isRemovalOf player) +
          ((queue.performAll commands).isQueued player).toNat ≤
      (queue.events commands).countP (QueueEvent.isEnqueueOf player) +
        (queue.isQueued player).toNat := by
  induction commands generalizing queue with
  | nil => simp [events, performAll]
  | cons command commands ih =>
      have later := ih (queue.perform command).1
      have first := conserved_perform queue command player
      have unfolded : queue.performAll (command :: commands) =
          (queue.perform command).1.performAll commands := rfl
      have count (occurs : Bool) : (if occurs = true then 1 else 0) = occurs.toNat := by
        cases occurs <;> rfl
      simp only [events, List.countP_cons, unfolded, count]
      omega

end MatchmakingQueue

/-- Main result: whatever the instances do to the queue, it is coherent, and no
enqueue is used twice. -/
theorem queueSound_of_performAll (commands : List QueueCommand) :
    QueueSound (({} : MatchmakingQueue).performAll commands)
      (({} : MatchmakingQueue).events commands) where
  keys := MatchmakingQueue.SameKeys.performAll (fun player => by simp) commands
  pairs settings now pair matched := by
    have found : (({} : MatchmakingQueue).performAll commands).tryMatch settings now =
        (((({} : MatchmakingQueue).performAll commands).tryMatch settings now).1, some pair) :=
      Prod.ext rfl matched
    obtain ⟨different, queuedA, queuedB, -⟩ := MatchmakingQueue.tryMatch_eq_some found
    have latest {player : PlayerId} {rating : Int}
        (queued : (({} : MatchmakingQueue).performAll commands).queue.lookup player =
          some rating) :
        latestRating player (({} : MatchmakingQueue).events commands) = some rating := by
      rcases MatchmakingQueue.lookup_performAll {} commands queued with same | ⟨-, impossible⟩
      · exact same
      · simp at impossible
    exact ⟨different, AList.lookup_isSome.mp (by simp [queuedA]),
      AList.lookup_isSome.mp (by simp [queuedB]), latest queuedA, latest queuedB⟩
  once player := by
    have total := MatchmakingQueue.conserved_performAll {} commands player
    simp only [MatchmakingQueue.isQueued, Dict.lookup_empty, Option.isSome_none,
      Bool.toNat_false] at total
    omega

end TerritoryBackend

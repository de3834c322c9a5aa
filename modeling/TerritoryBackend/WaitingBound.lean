import TerritoryBackend.ServerQueue
import TerritoryBackend.Spacing

/-!
# How many players can be left waiting

A player who has waited long enough accepts the largest rating difference there is.
Two such players are matched unless their ratings are farther apart, so whenever the
matching loop has found no pair only a few of them can be waiting, and this stays so
until new players have waited as long.
-/

namespace TerritoryBackend

open EventLoop

/-- The player is queued with the rating, and has been waiting since before the time
for long enough to accept the largest difference at that time. -/
structure WaitingSince (settings : Settings) (queue : MatchmakingQueue) (time : Time)
    (player : PlayerId) (elo : Int) : Prop where
  queued : queue.queue.lookup player = some elo
  patient : ∃ joined, queue.timestamps.lookup player = some joined ∧ joined < time ∧
    (settings.eloToleranceMax : ℚ) ≤
      settings.eloToleranceBase + (time - joined) * settings.eloToleranceExpansionPerSec

/-- From the moment a call of the script has found no pair, the players waiting since
long before it are farther apart than the largest difference, so that an interval of
ratings has room for few of them. -/
structure FewWaiting (settings : Settings) (idle later : ServerConfig) : Prop where
  apart : ∀ first second elo other, first ≠ second →
    WaitingSince settings later.state.redis.matchmaking idle.state.clock first elo →
    WaitingSince settings later.state.redis.matchmaking idle.state.clock second other →
    settings.eloToleranceMax < (elo - other).natAbs
  bounded : ∀ (entries : List (PlayerId × Int)) (lo hi : Int), (entries.map Prod.fst).Nodup →
    (∀ entry ∈ entries, lo ≤ entry.2 ∧ entry.2 ≤ hi ∧
      WaitingSince settings later.state.redis.matchmaking idle.state.clock entry.1 entry.2) →
    entries.length ≤ ((hi - lo) / (settings.eloToleranceMax + 1)).toNat + 1

variable {settings : Settings} {choice : ServerChoice} {before after idle later : ServerConfig}
  {player : PlayerId} {elo : Int} {joined time : Time}

namespace MatchmakingQueue

/-- Who has been queued since before a command was so when it was run. -/
theorem joined_before_perform {queue : MatchmakingQueue} {command : QueueCommand}
    (queued : (queue.perform command).1.queue.lookup player = some elo)
    (since : (queue.perform command).1.timestamps.lookup player = some joined)
    (earlier : ∀ rating now, command = .enqueuePlayer player rating now → joined < now) :
    queue.queue.lookup player = some elo ∧ queue.timestamps.lookup player = some joined := by
  cases command with
  | enqueuePlayer other rating now =>
      by_cases same : player = other
      · subst same
        simp only [perform, enqueuePlayer, AList.lookup_insert, Option.some.injEq] at since
        exact absurd since.symm (earlier rating now rfl).ne
      · simp only [perform, enqueuePlayer, AList.lookup_insert_ne same] at queued since
        exact ⟨queued, since⟩
  | dequeuePlayer other =>
      by_cases same : player = other
      · subst same
        simp [perform, dequeuePlayer] at queued
      · simp only [perform, dequeuePlayer, AList.lookup_erase_ne same] at queued since
        exact ⟨queued, since⟩
  | tryMatch settings now =>
      rcases perform_tryMatch_cases queue settings now with
        nothing | ⟨after, pair, matched, performed⟩
      · rw [nothing] at queued since
        exact ⟨queued, since⟩
      · rw [performed] at queued since
        obtain ⟨sameElo, sameStamp⟩ := kept_of_tryMatch matched (mem_keys_of_lookup queued)
        exact ⟨sameElo ▸ queued, sameStamp ▸ since⟩

theorem joined_before_performAll {queue : MatchmakingQueue} {commands : List QueueCommand}
    (queued : (queue.performAll commands).queue.lookup player = some elo)
    (since : (queue.performAll commands).timestamps.lookup player = some joined)
    (earlier : ∀ rating now, .enqueuePlayer player rating now ∈ commands → joined < now) :
    queue.queue.lookup player = some elo ∧ queue.timestamps.lookup player = some joined := by
  induction commands generalizing queue with
  | nil => exact ⟨queued, since⟩
  | cons command commands ih =>
      obtain ⟨queuedBefore, sinceBefore⟩ := ih queued since fun rating now member =>
        earlier rating now (List.mem_cons_of_mem _ member)
      apply joined_before_perform queuedBefore sinceBefore
      intro rating now same
      exact earlier rating now (same ▸ List.mem_cons_self)

end MatchmakingQueue

/-- Players are queued at the time of the clock. -/
theorem now_of_observeQueue {rating : Int} {now : Time}
    (observed : .enqueuePlayer player rating now ∈ observeQueue settings choice before) :
    now = before.state.clock := by
  unfold observeQueue at observed
  split at observed
  · split at observed
    · rename_i instruction _
      unfold Instr.queueCommand at observed
      split at observed
      · cases List.mem_singleton.mp observed
        rfl
      · simp at observed
      · simp at observed
      · cases observed
    · cases observed
  · cases observed

/-- Whoever is waiting since before a time was waiting when it came. -/
theorem WaitingSince.of_step
    (waiting : WaitingSince settings after.state.redis.matchmaking time player elo)
    (step : (server settings).step choice before = some after) (past : time ≤ before.state.clock) :
    WaitingSince settings before.state.redis.matchmaking time player elo := by
  obtain ⟨queued, joined, since, early, enough⟩ := waiting
  rw [queue_step step] at queued since
  obtain ⟨queuedBefore, sinceBefore⟩ := MatchmakingQueue.joined_before_performAll queued since
    fun rating now observed => by
      rw [now_of_observeQueue observed]
      exact early.trans_le past
  exact ⟨queuedBefore, joined, sinceBefore, early, enough⟩

theorem WaitingSince.of_reaches
    (reached : (server settings).Reaches idle unguarded later)
    (waiting : WaitingSince settings later.state.redis.matchmaking idle.state.clock player elo) :
    WaitingSince settings idle.state.redis.matchmaking idle.state.clock player elo := by
  have past : ∀ {config : ServerConfig}, (server settings).Reaches idle unguarded config →
      idle.state.clock ≤ config.state.clock := by
    intro config reached
    induction reached with
    | start => exact le_rfl
    | step _ _ step ih => exact ih.trans (clock_mono step)
  induction reached with
  | start => exact waiting
  | step reached _ step ih => exact ih (waiting.of_step step (past reached))

/-- Who has waited long enough accepts the largest difference. -/
theorem WaitingSince.tolerance_eq
    (waiting : WaitingSince settings before.state.redis.matchmaking time player elo) :
    before.state.redis.matchmaking.tolerance settings time player = settings.eloToleranceMax := by
  obtain ⟨-, joined, since, -, enough⟩ := waiting
  simpa [MatchmakingQueue.tolerance, Dict.getD, since] using enough

/-- Main result: since the last time the script has found no pair, only players who
are farther apart than the largest difference have been waiting. -/
theorem fewWaiting_of_idle (nonneg : 0 ≤ settings.eloToleranceMax)
    (idleCall : (idle.state.redis.matchmaking.tryMatch settings idle.state.clock).2 = none)
    (reached : (server settings).Reaches idle unguarded later) :
    FewWaiting settings idle later := by
  have apart (first second : PlayerId) (elo other : Int) (different : first ≠ second)
      (firstWaits : WaitingSince settings later.state.redis.matchmaking idle.state.clock first elo)
      (secondWaits :
        WaitingSince settings later.state.redis.matchmaking idle.state.clock second other) :
      settings.eloToleranceMax < (elo - other).natAbs := by
    have firstWaited := firstWaits.of_reaches reached
    have secondWaited := secondWaits.of_reaches reached
    rw [MatchmakingQueue.tryMatch_eq_none_iff, MatchmakingQueue.findPair_eq_none_iff] at idleCall
    by_contra close
    have accepts : (((elo - other).natAbs : Int) : ℚ) ≤ settings.eloToleranceMax :=
      Int.cast_le.mpr (not_lt.mp close)
    rw [Int.cast_natCast] at accepts
    exact idleCall ⟨(first, elo), (second, other), firstWaited.queued, secondWaited.queued,
      different, firstWaited.tolerance_eq ▸ accepts, secondWaited.tolerance_eq ▸ accepts⟩
  refine ⟨apart, ?_⟩
  intro entries lo hi distinct waiting
  rw [← List.length_map (f := Prod.snd)]
  refine Spacing.length_le_of_apart nonneg ?_ ?_
  · intro value member
    obtain ⟨entry, listed, rfl⟩ := List.mem_map.mp member
    exact ⟨(waiting entry listed).1, (waiting entry listed).2.1⟩
  · refine List.pairwise_map.mpr ((List.pairwise_map.mp distinct).imp_of_mem ?_)
    intro first second firstListed secondListed different
    exact apart first.1 second.1 first.2 second.2 different (waiting first firstListed).2.2
      (waiting second secondListed).2.2

/-- Two players who are too far apart have been waiting for a minute. -/
def distantPlayers : Redis where
  matchmaking :=
    (({} : MatchmakingQueue).enqueuePlayer "ada" 1000 0).enqueuePlayer "bob" 2000 0

def minuteLater : ServerConfig where
  state := { redis := distantPlayers, clock := 60 }
  tasks := [[.matchingLoop], [.snapshotLoop]]

theorem fewWaiting_of_idle_distantPlayers : ∃ later,
    (server { instanceId := "inst-1" }).Reaches minuteLater unguarded later ∧
      WaitingSince { instanceId := "inst-1" } later.state.redis.matchmaking 60 "ada" 1000 ∧
      FewWaiting { instanceId := "inst-1" } minuteLater later := by
  have runs : ((server { instanceId := "inst-1" }).run [.resume 0 .done, .event (.advance 1)]
      minuteLater).any (fun later =>
        later.state.redis.matchmaking.queue.lookup "ada" == some 1000 &&
          later.state.redis.matchmaking.timestamps.lookup "ada" == some 0) = true := by
    decide +kernel
  obtain ⟨later, executed, holds⟩ := Option.any_eq_true _ _ |>.mp runs
  rw [Bool.and_eq_true, beq_iff_eq, beq_iff_eq] at holds
  have reached := Machine.reaches_of_run .start executed
  refine ⟨later, reached, ⟨holds.1, 0, holds.2, by decide +kernel, by decide +kernel⟩,
    fewWaiting_of_idle (by decide) ?_ reached⟩
  decide +kernel

end TerritoryBackend

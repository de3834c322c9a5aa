import TerritoryBackend.PairSelection
import TerritoryBackend.QueueHistory

/-!
# Waiting and the tolerance of a player

The tolerance of a queued player grows with the time since the stored
timestamp.  An enqueue stores a new timestamp also for a player who is queued
already, so that a repeated request takes the tolerance gained so far back.
-/

namespace TerritoryBackend

/-- Time passes, or a command is executed at the time reached. -/
inductive QueueTurn where
  | wait (elapsed : NNRat)
  | enqueuePlayer (player : PlayerId) (eloRating : Int)
  | dequeuePlayer (player : PlayerId)
  | tryMatch (settings : Settings)

namespace QueueTurn

def elapsed : QueueTurn → Time
  | wait elapsed => elapsed
  | _ => 0

def commands (now : Time) : QueueTurn → List QueueCommand
  | wait _ => []
  | enqueuePlayer player eloRating => [.enqueuePlayer player eloRating now]
  | dequeuePlayer player => [.dequeuePlayer player]
  | tryMatch settings => [.tryMatch settings now]

end QueueTurn

structure ClockedQueue where
  queue : MatchmakingQueue := {}
  now : Time := 0

namespace ClockedQueue

open MatchmakingQueue (Acceptable)

def take (clocked : ClockedQueue) (turn : QueueTurn) : ClockedQueue where
  queue := clocked.queue.performAll (turn.commands clocked.now)
  now := clocked.now + turn.elapsed

def after (clocked : ClockedQueue) (turns : List QueueTurn) : ClockedQueue :=
  turns.foldl take clocked

def tolerance (settings : Settings) (clocked : ClockedQueue) (player : PlayerId) : ℚ :=
  clocked.queue.tolerance settings clocked.now player

/-- The player is queued with the rating before, between and after the
turns. -/
def Stays (clocked : ClockedQueue) (turns : List QueueTurn) (entry : PlayerId × Int) : Prop :=
  ∀ part rest, turns = part ++ rest →
    (clocked.after part).queue.queue.lookup entry.1 = some entry.2

/-- Of two players who stay in the queue with their ratings, each accepts at the
end what it accepted at the beginning. -/
def NeverHarder (settings : Settings) (clocked : ClockedQueue) (turns : List QueueTurn) : Prop :=
  ∀ earlier during later, turns = earlier ++ during ++ later →
    ∀ first second : PlayerId × Int, first.1 ≠ second.1 →
      (clocked.after earlier).Stays during first → (clocked.after earlier).Stays during second →
      (clocked.after earlier).tolerance settings first.1 ≤
          (clocked.after (earlier ++ during)).tolerance settings first.1 ∧
        (clocked.after earlier).tolerance settings second.1 ≤
          (clocked.after (earlier ++ during)).tolerance settings second.1 ∧
        ((clocked.after earlier).queue.Acceptable settings (clocked.after earlier).now first
            second →
          (clocked.after (earlier ++ during)).queue.Acceptable settings
            (clocked.after (earlier ++ during)).now first second)

/-- The turn is the request of a player who is queued with the same rating, next
to another player, and whose tolerance has grown by now. -/
def SetsBack (settings : Settings) (clocked : ClockedQueue) : QueueTurn → Prop
  | .enqueuePlayer player eloRating =>
      clocked.queue.queue.lookup player = some eloRating ∧
        (∃ other rating, other ≠ player ∧ clocked.queue.queue.lookup other = some rating) ∧
        0 < settings.eloToleranceExpansionPerSec ∧
        settings.eloToleranceBase < settings.eloToleranceMax ∧
        ∃ joined, clocked.queue.timestamps.lookup player = some joined ∧ joined < clocked.now
  | _ => False

variable {settings : Settings} {clocked : ClockedQueue}

theorem after_append (earlier later : List QueueTurn) :
    clocked.after (earlier ++ later) = (clocked.after earlier).after later :=
  List.foldl_append

theorem after_concat (earlier : List QueueTurn) (turn : QueueTurn) :
    clocked.after (earlier ++ [turn]) = (clocked.after earlier).take turn := by
  simp [after]

@[simp]
theorem take_enqueuePlayer (player : PlayerId) (eloRating : Int) :
    clocked.take (.enqueuePlayer player eloRating) =
      ⟨clocked.queue.enqueuePlayer player eloRating clocked.now, clocked.now⟩ := by
  simp [take, QueueTurn.commands, QueueTurn.elapsed, MatchmakingQueue.performAll,
    MatchmakingQueue.perform]

@[simp]
theorem take_dequeuePlayer (player : PlayerId) :
    clocked.take (.dequeuePlayer player) =
      ⟨(clocked.queue.dequeuePlayer player).1, clocked.now⟩ := by
  simp [take, QueueTurn.commands, QueueTurn.elapsed, MatchmakingQueue.performAll,
    MatchmakingQueue.perform]

@[simp]
theorem take_tryMatch (other : Settings) :
    clocked.take (.tryMatch other) =
      ⟨(clocked.queue.tryMatch other clocked.now).1, clocked.now⟩ := by
  simp [take, QueueTurn.commands, QueueTurn.elapsed, MatchmakingQueue.performAll,
    MatchmakingQueue.perform]

theorem tolerance_le_of_wait (patient : 0 ≤ settings.eloToleranceExpansionPerSec)
    (queue : MatchmakingQueue) {now later : Time} (ordered : now ≤ later) (player : PlayerId) :
    queue.tolerance settings now player ≤ queue.tolerance settings later player := by
  have rate : (0 : ℚ) ≤ settings.eloToleranceExpansionPerSec := by exact_mod_cast patient
  unfold MatchmakingQueue.tolerance Dict.getD
  refine min_le_min_right _ (add_le_add_right (mul_le_mul_of_nonneg_right ?_ rate) _)
  cases queue.timestamps.lookup player with
  | none => simp
  | some joined => exact sub_le_sub_right ordered joined

/-- The tolerance of a player who has just joined is the least. -/
theorem tolerance_le_of_joined {before after : MatchmakingQueue} {now : Time} {player : PlayerId}
    (joins : after.timestamps.lookup player = some now)
    (kept : ∀ joined, before.timestamps.lookup player = some joined →
      0 < settings.eloToleranceExpansionPerSec →
      settings.eloToleranceBase < settings.eloToleranceMax → now ≤ joined)
    (patient : 0 ≤ settings.eloToleranceExpansionPerSec) :
    before.tolerance settings now player ≤ after.tolerance settings now player := by
  have rate : (0 : ℚ) ≤ settings.eloToleranceExpansionPerSec := by exact_mod_cast patient
  have reset : after.tolerance settings now player =
      min (settings.eloToleranceBase : ℚ) settings.eloToleranceMax := by
    simp [MatchmakingQueue.tolerance, Dict.getD, joins]
  rw [reset]
  unfold MatchmakingQueue.tolerance Dict.getD
  cases present : before.timestamps.lookup player with
  | none => simp
  | some joined =>
      rw [Option.getD_some]
      by_cases gains : 0 < settings.eloToleranceExpansionPerSec
      · by_cases bounded : settings.eloToleranceBase < settings.eloToleranceMax
        · have unwaited : now - joined ≤ 0 := sub_nonpos.mpr (kept joined present gains bounded)
          have gained := mul_nonpos_of_nonpos_of_nonneg unwaited rate
          exact min_le_min_right _ (by linarith)
        · have capped : (settings.eloToleranceMax : ℚ) ≤ settings.eloToleranceBase := by
            exact_mod_cast not_lt.mp bounded
          exact le_min ((min_le_right _ _).trans capped) (min_le_right _ _)
      · have still : settings.eloToleranceExpansionPerSec = 0 :=
          le_antisymm (not_lt.mp gains) patient
        simp [still]

/-- Unless it is set back, a player who stays does not become harder to
match. -/
theorem tolerance_take (patient : 0 ≤ settings.eloToleranceExpansionPerSec) (turn : QueueTurn)
    {entry other : PlayerId × Int} (different : other.1 ≠ entry.1)
    (queued : clocked.queue.queue.lookup entry.1 = some entry.2)
    (stays : (clocked.take turn).queue.queue.lookup entry.1 = some entry.2)
    (otherQueued : clocked.queue.queue.lookup other.1 = some other.2)
    (kept : ¬ clocked.SetsBack settings turn) :
    clocked.tolerance settings entry.1 ≤ (clocked.take turn).tolerance settings entry.1 := by
  cases turn with
  | wait elapsed =>
      refine tolerance_le_of_wait patient clocked.queue ?_ entry.1
      exact le_add_of_nonneg_right elapsed.2
  | enqueuePlayer player eloRating =>
      rw [take_enqueuePlayer] at stays ⊢
      by_cases same : entry.1 = player
      · subst same
        have rating : eloRating = entry.2 := by
          simpa [MatchmakingQueue.enqueuePlayer] using stays
        subst rating
        refine tolerance_le_of_joined (by simp [MatchmakingQueue.enqueuePlayer])
          (fun joined present gains bounded => not_lt.mp fun waited => kept ?_) patient
        exact ⟨queued, ⟨other.1, other.2, different, otherQueued⟩, gains, bounded, joined,
          present, waited⟩
      · refine (MatchmakingQueue.tolerance_congr ?_).ge
        simp [MatchmakingQueue.enqueuePlayer, same]
  | dequeuePlayer player =>
      rw [take_dequeuePlayer] at stays ⊢
      refine (MatchmakingQueue.tolerance_congr ?_).ge
      have remained : entry.1 ≠ player := by
        intro same
        simp [MatchmakingQueue.dequeuePlayer, same] at stays
      simp [MatchmakingQueue.dequeuePlayer, remained]
  | tryMatch other =>
      rw [take_tryMatch] at stays ⊢
      refine (MatchmakingQueue.tolerance_congr ?_).ge
      cases result : clocked.queue.tryMatch other clocked.now with
      | mk after found =>
          cases found with
          | none => rw [MatchmakingQueue.tryMatch_eq_none result]
          | some pair =>
              rw [result] at stays
              exact (MatchmakingQueue.kept_of_tryMatch result
                (MatchmakingQueue.mem_keys_of_lookup stays)).2

/-- A request that sets a player back takes some of the tolerance away. -/
theorem tolerance_take_lt {player : PlayerId} {eloRating : Int}
    (setBack : clocked.SetsBack settings (.enqueuePlayer player eloRating)) :
    (clocked.take (.enqueuePlayer player eloRating)).tolerance settings player <
      clocked.tolerance settings player := by
  obtain ⟨-, -, gains, bounded, joined, present, waited⟩ := setBack
  have rate : (0 : ℚ) < settings.eloToleranceExpansionPerSec := by exact_mod_cast gains
  have room : (settings.eloToleranceBase : ℚ) < settings.eloToleranceMax := by
    exact_mod_cast bounded
  have gained := mul_pos (sub_pos.mpr waited) rate
  rw [take_enqueuePlayer]
  simp only [tolerance, MatchmakingQueue.tolerance, Dict.getD, MatchmakingQueue.enqueuePlayer,
    Dict.lookup_insert, if_true, present, Option.getD_some, sub_self, zero_mul, add_zero,
    min_eq_left room.le]
  exact lt_min (by linarith) room

theorem Stays.at_start {turns : List QueueTurn} {entry : PlayerId × Int}
    (stays : clocked.Stays turns entry) : clocked.queue.queue.lookup entry.1 = some entry.2 :=
  stays [] turns rfl

theorem Stays.of_append {earlier later : List QueueTurn} {entry : PlayerId × Int}
    (stays : clocked.Stays (earlier ++ later) entry) : clocked.Stays earlier entry := by
  rintro part rest rfl
  exact stays part (rest ++ later) (by simp)

theorem Stays.at_end {turns : List QueueTurn} {entry : PlayerId × Int}
    (stays : clocked.Stays turns entry) :
    (clocked.after turns).queue.queue.lookup entry.1 = some entry.2 :=
  stays turns [] (by simp)

theorem stays_singleton_iff {turn : QueueTurn} {entry : PlayerId × Int} :
    clocked.Stays [turn] entry ↔ clocked.queue.queue.lookup entry.1 = some entry.2 ∧
      (clocked.take turn).queue.queue.lookup entry.1 = some entry.2 := by
  constructor
  · intro stays
    exact ⟨stays.at_start, stays.at_end⟩
  · rintro ⟨before, afterwards⟩ part rest split
    cases part with
    | nil => exact before
    | cons first others =>
        obtain ⟨rfl, nothing⟩ := List.cons.inj split
        obtain ⟨rfl, -⟩ := List.append_eq_nil_iff.mp nothing.symm
        exact afterwards

theorem tolerance_after (patient : 0 ≤ settings.eloToleranceExpansionPerSec)
    {turns : List QueueTurn} {entry other : PlayerId × Int} (different : other.1 ≠ entry.1)
    (stays : clocked.Stays turns entry) (otherStays : clocked.Stays turns other)
    (kept : ∀ earlier turn later, turns = earlier ++ turn :: later →
      ¬ (clocked.after earlier).SetsBack settings turn) :
    clocked.tolerance settings entry.1 ≤ (clocked.after turns).tolerance settings entry.1 := by
  induction turns using List.reverseRecOn with
  | nil => exact le_rfl
  | append_singleton earlier turn ih =>
      have soFar := ih stays.of_append otherStays.of_append
        fun before turn' between split => kept before turn' (between ++ [turn]) (by simp [split])
      apply soFar.trans
      have atEnd := stays.at_end
      rw [after_concat] at atEnd ⊢
      exact tolerance_take patient turn different stays.of_append.at_end atEnd
        otherStays.of_append.at_end (kept earlier turn [] rfl)

/-- Waiting never makes players harder to match, except by the requests of
players who are queued already. -/
theorem neverHarder_iff (patient : 0 ≤ settings.eloToleranceExpansionPerSec)
    (clocked : ClockedQueue) (turns : List QueueTurn) :
    clocked.NeverHarder settings turns ↔ ∀ earlier turn later, turns = earlier ++ turn :: later →
      ¬ (clocked.after earlier).SetsBack settings turn := by
  constructor
  · intro neverHarder earlier turn later split setBack
    cases turn with
    | enqueuePlayer player eloRating =>
        have ⟨queued, ⟨other, rating, different, otherQueued⟩, _⟩ := setBack
        have playerStays : (clocked.after earlier).Stays [.enqueuePlayer player eloRating]
            (player, eloRating) :=
          stays_singleton_iff.mpr ⟨queued, by simp [MatchmakingQueue.enqueuePlayer]⟩
        have otherStays : (clocked.after earlier).Stays [.enqueuePlayer player eloRating]
            (other, rating) :=
          stays_singleton_iff.mpr
            ⟨otherQueued, by simpa [MatchmakingQueue.enqueuePlayer, different] using otherQueued⟩
        have kept := (neverHarder earlier [.enqueuePlayer player eloRating] later (by simp [split])
          (player, eloRating) (other, rating) different.symm playerStays otherStays).1
        rw [after_concat] at kept
        exact absurd kept (tolerance_take_lt setBack).not_ge
    | wait | dequeuePlayer | tryMatch => exact setBack
  · rintro kept earlier during later rfl first second different firstStays secondStays
    have keptDuring : ∀ before turn between, during = before ++ turn :: between →
        ¬ ((clocked.after earlier).after before).SetsBack settings turn := by
      rintro before turn between rfl
      rw [← after_append]
      exact kept (earlier ++ before) turn (between ++ later) (by simp)
    have firstTolerance := tolerance_after patient different.symm firstStays secondStays keptDuring
    have secondTolerance := tolerance_after patient different secondStays firstStays keptDuring
    rw [after_append]
    exact ⟨firstTolerance, secondTolerance, fun acceptable =>
      { firstQueued := firstStays.at_end
        secondQueued := secondStays.at_end
        different := different
        firstAccepts := acceptable.firstAccepts.trans firstTolerance
        secondAccepts := acceptable.secondAccepts.trans secondTolerance }⟩

/-- Ada and Bob accept each other after half a minute. -/
def halfMinute : List QueueTurn :=
  [.enqueuePlayer "ada" 1000, .enqueuePlayer "bob" 1300, .wait 30]

theorem halfMinute_neverHarder : NeverHarder { instanceId := "server-1" } {} halfMinute := by
  apply (neverHarder_iff (by decide) {} halfMinute).mpr
  intro earlier turn later split setBack
  -- Neither player is queued when the request arrives.
  match earlier, split with
  | [], split =>
      obtain ⟨rfl, -⟩ := List.cons.inj split
      exact absurd setBack.1 (by decide)
  | [_], split =>
      simp only [halfMinute, List.cons_append, List.nil_append, List.cons.injEq] at split
      obtain ⟨rfl, rfl, -⟩ := split
      exact absurd setBack.1 (by decide)
  | [_, _], split =>
      simp only [halfMinute, List.cons_append, List.nil_append, List.cons.injEq] at split
      obtain ⟨rfl, rfl, rfl, -⟩ := split
      exact setBack
  | _ :: _ :: _ :: _, split => simp [halfMinute] at split

/-- Then Ada sends her request again, and the pair is no longer acceptable. -/
theorem requestAgain_setsBack :
    (({} : ClockedQueue).after halfMinute).queue.Acceptable { instanceId := "server-1" }
        (({} : ClockedQueue).after halfMinute).now ("ada", 1000) ("bob", 1300) ∧
      ¬ NeverHarder { instanceId := "server-1" } {}
        (halfMinute ++ [.enqueuePlayer "ada" 1000]) := by
  refine ⟨⟨by decide, by decide, by decide, by decide +kernel, by decide +kernel⟩,
    fun neverHarder => ?_⟩
  have adaStays : (({} : ClockedQueue).after halfMinute).Stays [.enqueuePlayer "ada" 1000]
      ("ada", 1000) := stays_singleton_iff.mpr ⟨by decide, by decide⟩
  have bobStays : (({} : ClockedQueue).after halfMinute).Stays [.enqueuePlayer "ada" 1000]
      ("bob", 1300) := stays_singleton_iff.mpr ⟨by decide, by decide⟩
  have kept := (neverHarder halfMinute [.enqueuePlayer "ada" 1000] [] (by simp) ("ada", 1000)
    ("bob", 1300) (by decide) adaStays bobStays).1
  exact absurd kept (by decide +kernel)

end ClockedQueue

end TerritoryBackend

import TerritoryBackend.FirstPair
import TerritoryBackend.RedisModels
import TerritoryBackend.SortedSet
import Mathlib.Data.String.Basic

/-!
# The matchmaking queue

The sorted set `mm:queue` with the hash `mm:timestamps`, the operations of
`app/core/matchmaking.py` on them, and the Lua script that pops a pair.  Each
pipeline and each run of the script is one atomic Redis step.  Ratings are
integers and waiting times are exact.
-/

namespace TerritoryBackend

structure MatchmakingQueue where
  queue : SortedSet PlayerId := ∅
  timestamps : Dict PlayerId Time := ∅

structure MatchedPair where
  playerA : PlayerId
  eloA : Int
  playerB : PlayerId
  eloB : Int
  deriving DecidableEq

namespace MatchmakingQueue

def enqueuePlayer (queue : MatchmakingQueue) (player : PlayerId) (eloRating : Int)
    (now : Time) : MatchmakingQueue where
  queue := queue.queue.insert player eloRating
  timestamps := queue.timestamps.insert player now

/-- The pipeline of `dequeue_player`, and whether the player was queued. -/
def dequeuePlayer (queue : MatchmakingQueue) (player : PlayerId) : MatchmakingQueue × Bool :=
  ({ queue := queue.queue.erase player
     timestamps := queue.timestamps.erase player },
    (queue.queue.lookup player).isSome)

structure Candidate where
  pid : PlayerId
  elo : Int
  tolerance : ℚ

/-- The rating difference a player accepts by now; one without a timestamp has
just joined. -/
def tolerance (settings : Settings) (queue : MatchmakingQueue) (now : Time)
    (player : PlayerId) : ℚ :=
  let waitSeconds := now - queue.timestamps.getD player now
  min (settings.eloToleranceBase + waitSeconds * settings.eloToleranceExpansionPerSec)
    settings.eloToleranceMax

def candidates (settings : Settings) (queue : MatchmakingQueue) (now : Time) :
    List Candidate :=
  queue.queue.range.map fun entry => ⟨entry.1, entry.2, queue.tolerance settings now entry.1⟩

def compatible (first second : Candidate) : Bool :=
  let eloDiff : ℚ := (first.elo - second.elo).natAbs
  decide (eloDiff ≤ first.tolerance) && decide (eloDiff ≤ second.tolerance)

/-- The two nested loops: the first valid pair wins. -/
def findPair : List Candidate → Option (Candidate × Candidate)
  | [] => none
  | first :: others =>
      match others.find? (compatible first) with
      | some second => some (first, second)
      | none => findPair others

/-- `MATCHMAKING_LUA` -/
def tryMatch (settings : Settings) (queue : MatchmakingQueue) (now : Time) :
    MatchmakingQueue × Option MatchedPair :=
  match findPair (queue.candidates settings now) with
  | none => (queue, none)
  | some (first, second) =>
      ({ queue := (queue.queue.erase first.pid).erase second.pid
         timestamps := (queue.timestamps.erase first.pid).erase second.pid },
        some ⟨first.pid, first.elo, second.pid, second.elo⟩)

def estimateWait (queueSize : Nat) : Nat :=
  if 2 ≤ queueSize then 5 else if queueSize = 1 then 15 else 30

theorem findPair_eq_find (players : List Candidate) :
    findPair players = FirstPair.find compatible players := by
  induction players with
  | nil => rfl
  | cons first others ih =>
      rw [findPair, FirstPair.find, ih]
      cases others.find? (compatible first) <;> rfl

/-- A pair popped by the script consists of two queued players with their
queued ratings, and both leave the queue. -/
theorem tryMatch_eq_some {settings : Settings} {queue after : MatchmakingQueue}
    {now : Time} {pair : MatchedPair}
    (matched : queue.tryMatch settings now = (after, some pair)) :
    pair.playerA ≠ pair.playerB ∧ queue.queue.lookup pair.playerA = some pair.eloA ∧
      queue.queue.lookup pair.playerB = some pair.eloB ∧
      after.queue = (queue.queue.erase pair.playerA).erase pair.playerB ∧
      after.timestamps = (queue.timestamps.erase pair.playerA).erase pair.playerB := by
  unfold tryMatch at matched
  split at matched
  · cases matched
  rename_i first second found
  cases matched
  obtain ⟨-, sublist⟩ := FirstPair.find_eq_some (findPair_eq_find _ ▸ found)
  have listed {candidate : Candidate} (member : candidate ∈ [first, second]) :
      queue.queue.lookup candidate.pid = some candidate.elo := by
    obtain ⟨⟨player, elo⟩, entryMem, rfl⟩ := List.mem_map.mp (sublist.subset member)
    exact (SortedSet.mem_range_iff queue.queue player elo).mp entryMem
  have distinct : [first.pid, second.pid].Nodup := by
    have nodup := SortedSet.range_nodup queue.queue
    apply List.Nodup.sublist (sublist.map Candidate.pid)
    simpa [candidates, List.map_map, Function.comp_def] using nodup
  exact ⟨by simpa using distinct, listed (by simp), listed (by simp), rfl, rfl⟩

theorem tryMatch_eq_none {settings : Settings} {queue after : MatchmakingQueue} {now : Time}
    (unmatched : queue.tryMatch settings now = (after, none)) : after = queue := by
  unfold tryMatch at unmatched
  split at unmatched
  · cases unmatched
    rfl
  · cases unmatched

end MatchmakingQueue

namespace MatchedPair

/-- The players in the order `_create_match` passes them on. -/
def playerIds (pair : MatchedPair) : List PlayerId := [pair.playerA, pair.playerB]

/-- The ratings `_create_match` passes to `create_game`. -/
def playerElos (pair : MatchedPair) : Dict PlayerId Int :=
  AList.insert pair.playerB pair.eloB (AList.insert pair.playerA pair.eloA ∅)

end MatchedPair

def rookies : MatchedPair := ⟨"ada", 1000, "bob", 1000⟩

/-- The room hash written by `_create_match`. -/
def RedisRoom.ofPair (settings : Settings) (room : RoomId) (pair : MatchedPair) (now : Time) :
    RedisRoom where
  roomId := room
  ownerInstanceId := settings.instanceId
  playerIds := pair.playerIds
  status := RoomStatus.full.value
  createdAt := now

def GameEngine.createMatchedGame (engine : GameEngine) (room : RoomId) (pair : MatchedPair)
    (now : Time) : GameEngine :=
  engine.createGame room pair.playerIds pair.playerElos now

end TerritoryBackend

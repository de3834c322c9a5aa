import TerritoryBackend.Constants
import TerritoryBackend.SlidingWindow
import Mathlib.Algebra.Order.Field.Rat
import Mathlib.Tactic.Linarith

/-!
# The rate limiter

`check_rate_limit` of `app/api/middleware.py` for one identifier.  The four
commands of its pipeline are one atomic step.  The key is gone when its
deadline has come; a deadline that is not in the future deletes it at once.
-/

namespace TerritoryBackend

open SlidingWindow (Recent)

/-- The key `rl:{identifier}`: the times of the calls by their members. -/
structure RateLimitKey where
  calls : TimedSet String Time
  expiresAt : Time

structure RateLimitCall where
  now : Time
  member : String
  deriving DecidableEq

namespace RateLimitKey

/-- The sorted set a command finds under the key. -/
def live (key : Option RateLimitKey) (now : Time) : TimedSet String Time :=
  match key with
  | some key => if now < key.expiresAt then key.calls else ∅
  | none => ∅

end RateLimitKey

/-- `check_rate_limit`, and `check_ws_rate_limit` with a window of a second. -/
def checkRateLimit (maxRequests windowSeconds : Int) (key : Option RateLimitKey)
    (call : RateLimitCall) : Option RateLimitKey × Bool :=
  let windowStart := call.now - windowSeconds
  let kept := (RateLimitKey.live key call.now).removeUpTo windowStart
  let added := kept.insert call.member call.now
  (some ⟨added, call.now + (windowSeconds + 1)⟩, decide ((TimedSet.card added : Int) ≤ maxRequests))

/-- The key after a sequence of calls. -/
def rateLimitKey (maxRequests windowSeconds : Int) (calls : List RateLimitCall) :
    Option RateLimitKey :=
  calls.foldl (fun key call => (checkRateLimit maxRequests windowSeconds key call).1) none

/-- The answer to a call that comes after others. -/
def rateLimitAllows (maxRequests windowSeconds : Int) (earlier : List RateLimitCall)
    (call : RateLimitCall) : Bool :=
  (checkRateLimit maxRequests windowSeconds (rateLimitKey maxRequests windowSeconds earlier) call).2

/-- The calls of a sequence with their answers. -/
def rateLimitAnswers (maxRequests windowSeconds : Int) :
    Option RateLimitKey → List RateLimitCall → List (RateLimitCall × Bool)
  | _, [] => []
  | key, call :: calls =>
      let checked := checkRateLimit maxRequests windowSeconds key call
      (call, checked.2) :: rateLimitAnswers maxRequests windowSeconds checked.1 calls

/-- The number of allowed calls at the times of an interval. -/
def allowedIn (maxRequests windowSeconds : Int) (calls : List RateLimitCall)
    (interval : Time → Bool) : Nat :=
  (rateLimitAnswers maxRequests windowSeconds none calls).countP fun answered =>
    answered.2 && interval answered.1.now

/-- The limiter decides by the calls of the window, the call itself included; no
interval of the length of the window has more allowed calls; and what is lost
when the key expires has left the window. -/
structure LimitsExactly (maxRequests windowSeconds : Int) (calls : List RateLimitCall) : Prop where
  decides : ∀ earlier call later, calls = earlier ++ call :: later →
    (rateLimitAllows maxRequests windowSeconds earlier call = true ↔
      ((earlier.countP (Recent RateLimitCall.now windowSeconds call.now) : Int) + 1 ≤ maxRequests))
  /-- When later calls are later in time, the window may as well be read off all
  calls. -/
  decidesAmongAll : 0 < windowSeconds → ∀ earlier call later, calls = earlier ++ call :: later →
    (∀ other ∈ later, call.now < other.now) →
    (rateLimitAllows maxRequests windowSeconds earlier call = true ↔
      ((calls.countP fun other => decide (call.now - windowSeconds < other.now) &&
        decide (other.now ≤ call.now) : ℕ) : Int) ≤ maxRequests)
  closedOpen : ∀ start, allowedIn maxRequests windowSeconds calls (fun time =>
    decide (start ≤ time) && decide (time < start + windowSeconds)) ≤ maxRequests.toNat
  openClosed : ∀ start, allowedIn maxRequests windowSeconds calls (fun time =>
    decide (start < time) && decide (time ≤ start + windowSeconds)) ≤ maxRequests.toNat
  expiry : ∀ earlier call later, calls = earlier ++ call :: later →
    ∀ key, rateLimitKey maxRequests windowSeconds earlier = some key → key.expiresAt ≤ call.now →
    ∀ entry ∈ key.calls.entries, entry.2 ≤ call.now - windowSeconds

variable {maxRequests windowSeconds : Int} {calls earlier : List RateLimitCall}
  {call : RateLimitCall}

def RateLimitCall.entry (call : RateLimitCall) : Sigma fun _ : String => Time :=
  ⟨call.member, call.now⟩

theorem rateLimitKey_concat (earlier : List RateLimitCall) (call : RateLimitCall) :
    rateLimitKey maxRequests windowSeconds (earlier ++ [call]) =
      (checkRateLimit maxRequests windowSeconds (rateLimitKey maxRequests windowSeconds earlier)
        call).1 := by
  simp [rateLimitKey]

/-- The calls of a sequence that are in the window of a later call, the latest
first. -/
def recentCalls (windowSeconds : Int) (earlier : List RateLimitCall) (now : Time) :
    List RateLimitCall :=
  (earlier.filter (Recent RateLimitCall.now windowSeconds now)).reverse

theorem length_recentCalls (earlier : List RateLimitCall) (now : Time) :
    (recentCalls windowSeconds earlier now).length =
      earlier.countP (Recent RateLimitCall.now windowSeconds now) := by
  rw [recentCalls, List.length_reverse, List.countP_eq_length_filter]

theorem recentCalls_concat (earlier : List RateLimitCall) (last : RateLimitCall) (now : Time) :
    recentCalls windowSeconds (earlier ++ [last]) now =
      [last].filter (Recent RateLimitCall.now windowSeconds now) ++
        recentCalls windowSeconds earlier now := by
  rw [recentCalls, List.filter_append, List.reverse_append, recentCalls]
  congr 1
  by_cases recent : Recent RateLimitCall.now windowSeconds now last <;> simp [recent]

/-- A later window keeps the calls that are in it. -/
theorem filter_recentCalls (earlier : List RateLimitCall) {before now : Time}
    (ordered : before ≤ now) :
    (recentCalls windowSeconds earlier before).filter
        (Recent RateLimitCall.now windowSeconds now) = recentCalls windowSeconds earlier now := by
  rw [recentCalls, List.filter_reverse, List.filter_filter, recentCalls]
  congr 1
  apply List.filter_congr
  intro other _
  rw [Bool.and_eq_left_iff_imp, decide_eq_true_iff, decide_eq_true_iff]
  intro recent
  exact (sub_le_sub_right ordered _).trans_lt recent

theorem recentCalls_eq_nil {now : Time}
    (left : ∀ other ∈ earlier, other.now ≤ now - windowSeconds) :
    recentCalls windowSeconds earlier now = [] := by
  rw [recentCalls, List.reverse_eq_nil_iff, List.filter_eq_nil_iff]
  intro other member recent
  exact not_lt.mpr (left other member) (of_decide_eq_true recent)

/-- What a call finds, once the expired entries are removed, is the calls in its
window. -/
def Pruned (maxRequests windowSeconds : Int) (earlier : List RateLimitCall) : Prop :=
  ∀ now, (∀ other ∈ earlier, other.now ≤ now) →
    (TimedSet.removeUpTo (RateLimitKey.live (rateLimitKey maxRequests windowSeconds earlier) now)
      (now - windowSeconds)).entries =
      (recentCalls windowSeconds earlier now).map RateLimitCall.entry

/-- The key a call leaves holds the call and the calls in its window. -/
theorem Pruned.rateLimitKey_concat (pruned : Pruned maxRequests windowSeconds earlier)
    (ordered : ∀ other ∈ earlier, other.now ≤ call.now)
    (fresh : call.member ∉ earlier.map RateLimitCall.member) :
    ∃ calls, rateLimitKey maxRequests windowSeconds (earlier ++ [call]) =
        some ⟨calls, call.now + (windowSeconds + 1)⟩ ∧
      calls.entries =
        (call :: recentCalls windowSeconds earlier call.now).map RateLimitCall.entry ∧
      rateLimitAllows maxRequests windowSeconds earlier call =
        decide ((calls.entries.length : Int) ≤ maxRequests) := by
  have kept := pruned call.now ordered
  refine ⟨_, TerritoryBackend.rateLimitKey_concat earlier call, ?_, rfl⟩
  rw [AList.entries_insert_of_notMem ?_, kept]
  · rfl
  · rw [AList.mem_keys, AList.keys, kept]
    intro member
    simp only [List.keys, List.map_map, recentCalls, List.mem_map, List.mem_reverse] at member
    obtain ⟨other, recent, same⟩ := member
    exact fresh (List.mem_map.mpr ⟨other, (List.mem_filter.mp recent).1, same⟩)

theorem pruned_of_ordered (ordered : (earlier.map RateLimitCall.now).Pairwise (· ≤ ·))
    (distinct : (earlier.map RateLimitCall.member).Nodup) :
    Pruned maxRequests windowSeconds earlier := by
  induction earlier using List.reverseRecOn with
  | nil => intro now _; rfl
  | append_singleton earlier last ih =>
      rw [List.map_append, List.pairwise_append] at ordered
      rw [List.map_append, List.nodup_append] at distinct
      have beforeLast : ∀ other ∈ earlier, other.now ≤ last.now := fun other member =>
        ordered.2.2 other.now (List.mem_map_of_mem member) last.now (by simp)
      have fresh : last.member ∉ earlier.map RateLimitCall.member := fun member =>
        distinct.2.2 last.member member last.member (by simp) rfl
      obtain ⟨calls, key, entries, -⟩ :=
        (ih ordered.1 distinct.1).rateLimitKey_concat beforeLast fresh
      intro now latest
      have lastBefore : last.now ≤ now := latest last (by simp)
      rw [key, RateLimitKey.live]
      split
      · rw [recentCalls_concat, ← filter_recentCalls earlier lastBefore, ← List.filter_append]
        change calls.entries.filter _ = _
        rw [entries, List.filter_map]
        rfl
      · rename_i gone
        -- Even the last call has left the window when the key expires.
        have left : ∀ other ∈ earlier ++ [last], other.now ≤ now - windowSeconds := by
          intro other member
          have beforeLast : other.now ≤ last.now := by
            obtain inEarlier | rfl := by simpa using member
            · exact beforeLast other inEarlier
            · exact le_rfl
          have expired := not_lt.mp gone
          linarith
        rw [recentCalls_eq_nil left]
        rfl

/-- The calls of a run, each with its own member, in the order of their
times. -/
structure WellTimed (calls : List RateLimitCall) : Prop where
  ordered : (calls.map RateLimitCall.now).Pairwise (· ≤ ·)
  distinct : (calls.map RateLimitCall.member).Nodup

theorem WellTimed.of_append {later : List RateLimitCall} (timed : WellTimed (earlier ++ later)) :
    WellTimed earlier where
  ordered := (List.pairwise_append.mp (List.map_append ▸ timed.ordered)).1
  distinct := (List.nodup_append.mp (List.map_append ▸ timed.distinct)).1

theorem WellTimed.before {later : List RateLimitCall} (timed : WellTimed (earlier ++ call :: later))
    {other : RateLimitCall} (member : other ∈ earlier) : other.now ≤ call.now :=
  (List.pairwise_append.mp (List.map_append ▸ timed.ordered)).2.2 other.now
    (List.mem_map_of_mem member) call.now (by simp)

theorem WellTimed.fresh {later : List RateLimitCall}
    (timed : WellTimed (earlier ++ call :: later)) :
    call.member ∉ earlier.map RateLimitCall.member := fun member =>
  (List.nodup_append.mp (List.map_append ▸ timed.distinct)).2.2 call.member member call.member
    (by simp) rfl

/-- The key a call of a run leaves, and its answer. -/
theorem WellTimed.rateLimitKey_concat {later : List RateLimitCall}
    (timed : WellTimed (earlier ++ call :: later)) :
    ∃ calls, rateLimitKey maxRequests windowSeconds (earlier ++ [call]) =
        some ⟨calls, call.now + (windowSeconds + 1)⟩ ∧
      calls.entries =
        (call :: recentCalls windowSeconds earlier call.now).map RateLimitCall.entry ∧
      rateLimitAllows maxRequests windowSeconds earlier call =
        decide ((calls.entries.length : Int) ≤ maxRequests) :=
  (pruned_of_ordered timed.of_append.ordered timed.of_append.distinct).rateLimitKey_concat
    (fun _ => timed.before) timed.fresh

theorem rateLimitAllows_iff {later : List RateLimitCall}
    (timed : WellTimed (earlier ++ call :: later)) :
    rateLimitAllows maxRequests windowSeconds earlier call = true ↔
      ((earlier.countP (Recent RateLimitCall.now windowSeconds call.now) : Int) + 1 ≤
        maxRequests) := by
  obtain ⟨calls, -, entries, answer⟩ := timed.rateLimitKey_concat
  rw [answer, decide_eq_true_iff, entries, List.length_map, List.length_cons, length_recentCalls]
  push_cast
  rfl

/-- The calls up to now that are in the window, counted among all calls. -/
theorem countP_window {later : List RateLimitCall} (timed : WellTimed (earlier ++ call :: later))
    (positive : 0 < windowSeconds) (after : ∀ other ∈ later, call.now < other.now) :
    (earlier ++ call :: later).countP (fun other =>
        decide (call.now - windowSeconds < other.now) && decide (other.now ≤ call.now)) =
      earlier.countP (Recent RateLimitCall.now windowSeconds call.now) + 1 := by
  have width : (0 : ℚ) < windowSeconds := by exact_mod_cast positive
  have none : later.countP (fun other =>
      decide (call.now - windowSeconds < other.now) && decide (other.now ≤ call.now)) = 0 := by
    apply List.countP_eq_zero.mpr
    intro other member
    simp [after other member]
  have inside : call.now - windowSeconds < call.now := sub_lt_self _ width
  rw [List.countP_append, List.countP_cons, none, Nat.zero_add]
  refine congrArg₂ _ (List.countP_congr ?_) (by simp [inside])
  intro other member
  rw [Bool.and_eq_true, decide_eq_true_iff, decide_eq_true_iff, decide_eq_true_iff,
    and_iff_left (timed.before member)]
  rfl

theorem rateLimitAnswers_fst (key : Option RateLimitKey) (calls : List RateLimitCall) :
    (rateLimitAnswers maxRequests windowSeconds key calls).map Prod.fst = calls := by
  induction calls generalizing key with
  | nil => rfl
  | cons call calls ih => exact congrArg (call :: ·) (ih _)

theorem rateLimitAnswers_split {key : Option RateLimitKey}
    {before after : List (RateLimitCall × Bool)} {answered : RateLimitCall × Bool}
    (split : rateLimitAnswers maxRequests windowSeconds key calls =
      before ++ answered :: after) :
    calls = before.map Prod.fst ++ answered.1 :: after.map Prod.fst ∧
      answered.2 = (checkRateLimit maxRequests windowSeconds
        ((before.map Prod.fst).foldl
          (fun key call => (checkRateLimit maxRequests windowSeconds key call).1) key)
        answered.1).2 := by
  induction before generalizing key calls with
  | nil =>
      cases calls with
      | nil => cases split
      | cons call calls =>
          obtain ⟨rfl, rest⟩ := List.cons.inj split
          exact ⟨by rw [← rest, rateLimitAnswers_fst]; rfl, rfl⟩
  | cons first before ih =>
      cases calls with
      | nil => cases split
      | cons call calls =>
          obtain ⟨rfl, rest⟩ := List.cons.inj split
          obtain ⟨same, answer⟩ := ih rest
          exact ⟨by rw [same]; rfl, answer⟩

/-- Of the calls whose times are in each other's windows no more are allowed
than the limit says. -/
theorem allowedIn_le (timed : WellTimed calls) {interval : Time → Bool}
    (close : ∀ time other, interval time = true → interval other = true →
      time - windowSeconds < other) :
    allowedIn maxRequests windowSeconds calls interval ≤ maxRequests.toNat := by
  have limited : ∀ before answered after,
      rateLimitAnswers maxRequests windowSeconds none calls = before ++ answered :: after →
      answered.2 = true →
      before.countP (fun other => decide (Recent (fun answered : RateLimitCall × Bool =>
        answered.1.now) (windowSeconds : Time) answered.1.now other)) + 1 ≤ maxRequests.toNat := by
    intro before answered after split allowed
    obtain ⟨rfl, answer⟩ := rateLimitAnswers_split split
    have within := (rateLimitAllows_iff timed).mp (answer ▸ allowed)
    rw [List.countP_map] at within
    exact Int.ofNat_le.mp (within.trans (Int.self_le_toNat maxRequests))
  exact SlidingWindow.countP_le_of_recent limited fun answered other inside otherInside =>
    close answered.1.now other.1.now inside otherInside

/-- The entries of a key are those of calls made before. -/
theorem entry_le_of_expired {later : List RateLimitCall}
    (timed : WellTimed (earlier ++ call :: later)) {key : RateLimitKey}
    (stored : rateLimitKey maxRequests windowSeconds earlier = some key)
    (expired : key.expiresAt ≤ call.now) :
    ∀ entry ∈ key.calls.entries, entry.2 ≤ call.now - windowSeconds := by
  obtain rfl | ⟨before, last, rfl⟩ := earlier.eq_nil_or_concat'
  · cases stored
  · have timedLast : WellTimed (before ++ last :: []) := timed.of_append
    obtain ⟨entries, keyEq, entriesEq, -⟩ := timedLast.rateLimitKey_concat
    rw [keyEq] at stored
    cases stored
    intro entry member
    rw [entriesEq] at member
    obtain ⟨other, among, rfl⟩ := List.mem_map.mp member
    have latest : other.now ≤ last.now := by
      obtain rfl | recent := List.mem_cons.mp among
      · exact le_rfl
      · exact timedLast.before (List.mem_filter.mp (List.mem_reverse.mp recent)).1
    have gone : last.now + (windowSeconds + 1) ≤ call.now := expired
    change other.now ≤ call.now - windowSeconds
    linarith

theorem limitsExactly (timed : WellTimed calls) :
    LimitsExactly maxRequests windowSeconds calls where
  decides earlier call later split := by
    subst split
    exact rateLimitAllows_iff timed
  decidesAmongAll positive earlier call later split after := by
    subst split
    rw [rateLimitAllows_iff timed, countP_window timed positive after]
    push_cast
    rfl
  closedOpen start := allowedIn_le timed fun time other inside otherInside => by
    rw [Bool.and_eq_true, decide_eq_true_iff, decide_eq_true_iff] at inside otherInside
    linarith
  openClosed start := allowedIn_le timed fun time other inside otherInside => by
    rw [Bool.and_eq_true, decide_eq_true_iff, decide_eq_true_iff] at inside otherInside
    linarith
  expiry earlier call later split key stored expired := by
    subst split
    exact entry_le_of_expired timed stored expired

/-- Three calls with a limit of two: the third is rejected within the second and
counts against the calls after it. -/
def burst : List RateLimitCall := [⟨0, "0:1"⟩, ⟨1 / 2, "0.5:2"⟩, ⟨1 / 2, "0.5:3"⟩, ⟨1, "1:4"⟩]

example : (rateLimitAnswers 2 1 none burst).map Prod.snd = [true, true, false, false] := by
  decide +kernel

theorem burst_limitsExactly : LimitsExactly 2 1 burst :=
  limitsExactly ⟨by decide +kernel, by decide⟩

end TerritoryBackend

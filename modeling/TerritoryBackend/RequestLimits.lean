import TerritoryBackend.KeyedMachines
import TerritoryBackend.RateLimiter

/-!
# Rate limits of clients and players

`RateLimitMiddleware.dispatch` and `check_ws_rate_limit` of `app/api/middleware.py`
on one Redis: requests of any number of clients and frames of any number of players,
at any instance and in any order.
-/

namespace TerritoryBackend

open SlidingWindow (Recent)

/-- The fields of `Settings` the limits are taken from. -/
structure RateLimitSettings where
  wsMessagesPerSec : Int := 30
  restRequestsPerMin : Int := 60

/-- What the middleware reads of a request. -/
structure HttpRequest where
  /-- the header `upgrade` -/
  upgrade : Option String := none
  path : String
  /-- the host of `request.client` -/
  client : Option String

/-- WebSocket upgrades and some paths are not limited. -/
def HttpRequest.exempt (request : HttpRequest) : Bool :=
  (request.upgrade.getD "").toLower == "websocket" ||
    ["/health", "/docs", "/openapi.json"].contains request.path

/-- A request that meets the middleware of an instance, whose Redis pool may not be
there yet, or a frame of a player. -/
inductive Traffic where
  | http (request : HttpRequest) (redisReady : Bool) (call : RateLimitCall)
  | frame (player : PlayerId) (call : RateLimitCall)

/-- Who is limited. -/
inductive Limited where
  | client (ip : String)
  | player (id : PlayerId)
  deriving DecidableEq

namespace Limited

/-- `identifier` in `check_rate_limit` -/
def identifier : Limited → String
  | .client ip => "rest:" ++ ip
  | .player id => "ws:" ++ id

def key (limited : Limited) : String := "rl:" ++ limited.identifier

def maxRequests (settings : RateLimitSettings) : Limited → Int
  | .client _ => settings.restRequestsPerMin
  | .player _ => settings.wsMessagesPerSec

def windowSeconds : Limited → Int
  | .client _ => 60
  | .player _ => 1

end Limited

namespace Traffic

def call : Traffic → RateLimitCall
  | .http _ _ call | .frame _ call => call

/-- Whose limit the traffic counts against, if it counts; `get_redis` raises a
`RuntimeError` during startup, and the request passes. -/
def limited : Traffic → Option Limited
  | .http request redisReady _ =>
      if request.exempt || !redisReady then none
      else some (.client (request.client.getD "unknown"))
  | .frame player _ => some (.player player)

end Traffic

/-- The limiters as keys of one Redis; `true` lets the traffic through, `false`
answers it with status 429 or the error `RATE_LIMITED`. -/
def rateLimits (settings : RateLimitSettings) :
    KeyedMachine String (Option RateLimitKey) Traffic Bool where
  key traffic := traffic.limited.map Limited.key
  act traffic key :=
    match traffic.limited with
    | some limited =>
        checkRateLimit (limited.maxRequests settings) limited.windowSeconds key traffic.call
    | none => (key, true)
  free _ := true

/-- The traffic with the verdicts, on a Redis without rate-limit keys. -/
def verdicts (settings : RateLimitSettings) (traffic : List Traffic) : List (Traffic × Bool) :=
  (rateLimits settings).answers (fun _ => none) traffic

/-- The traffic that counts against a limit. -/
def countedFor (limited : Limited) (traffic : List Traffic) : List Traffic :=
  traffic.filter fun item => item.limited = some limited

def callsFor (limited : Limited) (traffic : List Traffic) : List RateLimitCall :=
  (countedFor limited traffic).map Traffic.call

/-- The verdicts on the calls that count against a limit. -/
def verdictsFor (settings : RateLimitSettings) (limited : Limited) (traffic : List Traffic) :
    List (RateLimitCall × Bool) :=
  ((verdicts settings traffic).filter fun judged => judged.1.limited = some limited).map
    fun judged => (judged.1.call, judged.2)

/-- Nobody's verdicts depend on the traffic of others: they are those of a limiter
used by nobody else, which counts the calls of the window and lets no more than the
limit through in any interval of its length. -/
structure LimitsApart (settings : RateLimitSettings) (traffic : List Traffic) : Prop where
  exempt : ∀ judged ∈ verdicts settings traffic, judged.1.limited = none → judged.2 = true
  alone : ∀ limited, verdictsFor settings limited traffic =
    rateLimitAnswers (limited.maxRequests settings) limited.windowSeconds none
      (callsFor limited traffic)
  decides : ∀ limited earlier judged later,
    verdictsFor settings limited traffic = earlier ++ judged :: later →
    (judged.2 = true ↔
      (earlier.countP (fun other =>
        Recent RateLimitCall.now limited.windowSeconds judged.1.now other.1) : Int) + 1 ≤
        limited.maxRequests settings)
  bounded : ∀ limited (start : Time), (verdictsFor settings limited traffic).countP (fun judged =>
    judged.2 && (decide (start ≤ judged.1.now) &&
      decide (judged.1.now < start + limited.windowSeconds))) ≤
        (limited.maxRequests settings).toNat

variable {settings : RateLimitSettings} {traffic : List Traffic} {limited other : Limited}

theorem Limited.toList_key (limited : Limited) :
    limited.key.toList = 'r' :: 'l' :: ':' ::
      match limited with
      | .client ip => 'r' :: 'e' :: 's' :: 't' :: ':' :: ip.toList
      | .player id => 'w' :: 's' :: ':' :: id.toList := by
  cases limited <;> simp [key, identifier]

theorem Limited.key_injective (same : limited.key = other.key) : limited = other := by
  have letters := congrArg String.toList same
  rw [toList_key, toList_key] at letters
  cases limited <;> cases other <;> simp_all [String.toList_inj]

theorem eventsOf_key (limited : Limited) (traffic : List Traffic) :
    (rateLimits settings).eventsOf limited.key traffic = countedFor limited traffic := by
  apply List.filter_congr
  intro item _
  cases counted : item.limited with
  | none => simp [rateLimits, counted]
  | some own =>
      simp only [rateLimits, counted, Option.map_some, Option.some.injEq, decide_eq_decide]
      exact ⟨Limited.key_injective, congrArg Limited.key⟩

theorem answersAlone_eq (key : Option RateLimitKey)
    (counted : ∀ item ∈ traffic, item.limited = some limited) :
    ((rateLimits settings).answersAlone key traffic).map
        (fun judged => (judged.1.call, judged.2)) =
      rateLimitAnswers (limited.maxRequests settings) limited.windowSeconds key
        (traffic.map Traffic.call) := by
  induction traffic generalizing key with
  | nil => rfl
  | cons item traffic ih =>
      have first := counted item List.mem_cons_self
      simp only [KeyedMachine.answersAlone, rateLimits, first, List.map_cons, rateLimitAnswers]
      rw [← ih _ fun other member => counted other (List.mem_cons_of_mem _ member)]
      rfl

theorem verdictsFor_eq (settings : RateLimitSettings) (limited : Limited)
    (traffic : List Traffic) :
    verdictsFor settings limited traffic =
      rateLimitAnswers (limited.maxRequests settings) limited.windowSeconds none
        (callsFor limited traffic) := by
  have keyed := (rateLimits settings).answers_eventsOf (fun _ => none) limited.key traffic
  rw [eventsOf_key] at keyed
  have same : ((verdicts settings traffic).filter fun judged => judged.1.limited = some limited) =
      (rateLimits settings).answersAlone none (countedFor limited traffic) := by
    rw [← keyed]
    apply List.filter_congr
    intro judged _
    cases counted : judged.1.limited with
    | none => simp [rateLimits, counted]
    | some own =>
        simp only [rateLimits, counted, Option.map_some, Option.some.injEq, decide_eq_decide]
        exact ⟨congrArg Limited.key, Limited.key_injective⟩
  have counted : ∀ item ∈ countedFor limited traffic, item.limited = some limited :=
    fun item member => of_decide_eq_true (List.mem_filter.mp member).2
  rw [verdictsFor, same, answersAlone_eq none counted]
  rfl

/-- Main result: when the clock never goes back and members are not used twice,
everybody has a limiter of his own. -/
theorem limitsApart (ordered : (traffic.map fun item => item.call.now).Pairwise (· ≤ ·))
    (distinct : ∀ limited, ((callsFor limited traffic).map RateLimitCall.member).Nodup) :
    LimitsApart settings traffic := by
  have timed (limited : Limited) : WellTimed (callsFor limited traffic) := by
    refine ⟨?_, distinct limited⟩
    rw [callsFor, List.map_map]
    exact ordered.sublist (List.filter_sublist.map _)
  constructor
  · intro judged member free
    apply (rateLimits settings).answers_free _ traffic judged member
    simp [rateLimits, free]
  · intro limited
    exact verdictsFor_eq settings limited traffic
  · intro limited earlier judged later split
    rw [verdictsFor_eq] at split
    obtain ⟨calls, answer⟩ := rateLimitAnswers_split split
    have counts : rateLimitAllows (limited.maxRequests settings) limited.windowSeconds
        (earlier.map Prod.fst) judged.1 = true ↔ _ := rateLimitAllows_iff (calls ▸ timed limited)
    rw [List.countP_map] at counts
    exact answer ▸ counts
  · intro limited start
    have close (time other : Time)
        (inside : (decide (start ≤ time) && decide (time < start + limited.windowSeconds)) = true)
        (otherInside :
          (decide (start ≤ other) && decide (other < start + limited.windowSeconds)) = true) :
        time - limited.windowSeconds < other := by
      rw [Bool.and_eq_true, decide_eq_true_iff, decide_eq_true_iff] at inside otherInside
      linarith
    have allowed : allowedIn (limited.maxRequests settings) limited.windowSeconds _ _ ≤ _ :=
      allowedIn_le (timed limited) close
    rw [verdictsFor_eq]
    exact allowed

/-- A client at its limit, a player whose name looks like its address, and a probe. -/
def mixedTraffic : List Traffic :=
  [.http { path := "/api/login", client := some "10.0.0.1" } true ⟨0, "0:1"⟩,
    .frame "10.0.0.1" ⟨1, "1:2"⟩,
    .http { path := "/api/login", client := some "10.0.0.1" } true ⟨1, "1:3"⟩,
    .http { path := "/health", client := some "10.0.0.1" } true ⟨2, "2:4"⟩,
    .frame "10.0.0.1" ⟨3, "3:5"⟩]

theorem limitsApart_mixedTraffic :
    LimitsApart { wsMessagesPerSec := 1, restRequestsPerMin := 1 } mixedTraffic ∧
      (verdicts { wsMessagesPerSec := 1, restRequestsPerMin := 1 } mixedTraffic).map Prod.snd =
        [true, true, false, true, true] := by
  refine ⟨limitsApart (by decide +kernel) ?_, by decide +kernel⟩
  intro limited
  have members : (mixedTraffic.map fun item => item.call.member).Nodup := by decide +kernel
  rw [callsFor, List.map_map]
  exact members.sublist (List.filter_sublist.map _)

end TerritoryBackend

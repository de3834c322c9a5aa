import TerritoryBackend.Constants
import Mathlib.Algebra.Order.Field.Rat
import Mathlib.Logic.Function.Basic
import Mathlib.Tactic.Linarith

/-!
# Heartbeats of instances

Every instance keeps a key with a time to live in Redis and renews it in
`_instance_heartbeat_loop`; `is_instance_alive` asks whether the key is there.  An
instance that stops is taken for dead when the time to live of its last heartbeat
is over, and one that keeps running is never taken for dead, provided that its
loop is prompt and does not fail too often in a row.
-/

namespace TerritoryBackend

structure HeartbeatSettings where
  instanceHeartbeatIntervalSec : Nat := 5
  instanceHeartbeatTtlSec : Nat := 15

/-- The key `inst:{instance_id}:heartbeat`. -/
structure HeartbeatKey where
  value : Time
  expiresAt : Time

/-- Where the loop of an instance is. -/
inductive HeartbeatLoop where
  /-- in `asyncio.sleep`, or before its first iteration -/
  | sleeping (deadline : Time)
  /-- the command has been sent -/
  | registering (sentAt : Time)
  /-- Redis has executed the command, and the answer is on its way -/
  | registered (executedAt : Time)

/-- The instances, and what Redis keeps of them. -/
structure Heartbeats where
  clock : Time := 0
  keys : InstanceId → Option HeartbeatKey := fun _ => none
  loops : InstanceId → Option HeartbeatLoop := fun _ => none
  /-- how often `heartbeat_error` has been logged since the last answer -/
  errors : InstanceId → Nat := fun _ => 0
  /-- commands that may still reach Redis though nobody waits for them any more -/
  abandoned : List (InstanceId × Time) := []

inductive HeartbeatEvent where
  | advance (seconds : Time)
  /-- `lifespan` creates the task -/
  | start (instanceId : InstanceId)
  /-- the task is cancelled, or the instance crashes -/
  | stop (instanceId : InstanceId)
  | wake (instanceId : InstanceId)
  | execute (instanceId : InstanceId)
  | answer (instanceId : InstanceId)
  /-- the command fails, or its answer is lost -/
  | fail (instanceId : InstanceId)
  | executeAbandoned (instanceId : InstanceId) (sentAt : Time)

namespace HeartbeatLoop

/-- Since when the loop could go on. -/
def since : HeartbeatLoop → Time
  | .sleeping deadline => deadline
  | .registering sentAt => sentAt
  | .registered executedAt => executedAt

/-- The command that is under way. -/
def command (instanceId : InstanceId) : HeartbeatLoop → List (InstanceId × Time)
  | .registering sentAt => [(instanceId, sentAt)]
  | _ => []

end HeartbeatLoop

namespace Heartbeats

/-- `register_instance_heartbeat`, as Redis executes it. -/
def registerInstanceHeartbeat (settings : HeartbeatSettings) (heartbeats : Heartbeats)
    (instanceId : InstanceId) (value : Time) : Heartbeats :=
  { heartbeats with
    keys := Function.update heartbeats.keys instanceId
      (some ⟨value, heartbeats.clock + settings.instanceHeartbeatTtlSec⟩) }

def isInstanceAlive (heartbeats : Heartbeats) (instanceId : InstanceId) : Bool :=
  (heartbeats.keys instanceId).any fun key => decide (heartbeats.clock < key.expiresAt)

def setLoop (heartbeats : Heartbeats) (instanceId : InstanceId) (loop : Option HeartbeatLoop)
    (errors : Nat) : Heartbeats :=
  { heartbeats with
    loops := Function.update heartbeats.loops instanceId loop
    errors := Function.update heartbeats.errors instanceId errors }

/-- Nobody waits for the command of the loop any more. -/
def abandon (heartbeats : Heartbeats) (instanceId : InstanceId) (loop : HeartbeatLoop) :
    Heartbeats :=
  { heartbeats with abandoned := loop.command instanceId ++ heartbeats.abandoned }

/-- One step of `_instance_heartbeat_loop`, of Redis or of the environment, `none`
when it is not possible. -/
def step (settings : HeartbeatSettings) (heartbeats : Heartbeats) :
    HeartbeatEvent → Option Heartbeats
  | .advance seconds =>
      if 0 ≤ seconds then some { heartbeats with clock := heartbeats.clock + seconds } else none
  | .start instanceId =>
      match heartbeats.loops instanceId with
      | none => some (heartbeats.setLoop instanceId (some (.sleeping heartbeats.clock)) 0)
      | some _ => none
  | .stop instanceId =>
      match heartbeats.loops instanceId with
      | some loop => some ((heartbeats.abandon instanceId loop).setLoop instanceId none 0)
      | none => none
  | .wake instanceId =>
      match heartbeats.loops instanceId with
      | some (.sleeping deadline) =>
          if heartbeats.clock < deadline then none
          else
            some (heartbeats.setLoop instanceId (some (.registering heartbeats.clock))
              (heartbeats.errors instanceId))
      | _ => none
  | .execute instanceId =>
      match heartbeats.loops instanceId with
      | some (.registering sentAt) =>
          some ((heartbeats.registerInstanceHeartbeat settings instanceId sentAt).setLoop
            instanceId (some (.registered heartbeats.clock)) (heartbeats.errors instanceId))
      | _ => none
  | .answer instanceId =>
      match heartbeats.loops instanceId with
      | some (.registered _) =>
          some (heartbeats.setLoop instanceId
            (some (.sleeping (heartbeats.clock + settings.instanceHeartbeatIntervalSec))) 0)
      | _ => none
  | .fail instanceId =>
      match heartbeats.loops instanceId with
      | some (.registering sentAt) =>
          some ((heartbeats.abandon instanceId (.registering sentAt)).setLoop instanceId
            (some (.sleeping (heartbeats.clock + 5))) (heartbeats.errors instanceId + 1))
      | some (.registered _) =>
          some (heartbeats.setLoop instanceId (some (.sleeping (heartbeats.clock + 5)))
            (heartbeats.errors instanceId + 1))
      | _ => none
  | .executeAbandoned instanceId sentAt =>
      if (instanceId, sentAt) ∈ heartbeats.abandoned then
        some
          { heartbeats.registerInstanceHeartbeat settings instanceId sentAt with
            abandoned := heartbeats.abandoned.erase (instanceId, sentAt) }
      else none

/-- The heartbeat Redis executes in a step, and when. -/
def beats (heartbeats : Heartbeats) : HeartbeatEvent → List (InstanceId × Time)
  | .execute instanceId | .executeAbandoned instanceId _ => [(instanceId, heartbeats.clock)]
  | _ => []

/-- A run with the heartbeats Redis executes, every step of which meets the guard. -/
inductive Run (settings : HeartbeatSettings) (guard : HeartbeatEvent → Heartbeats → Prop)
    (first : Heartbeats) : List (InstanceId × Time) → Heartbeats → Prop where
  | start : Run settings guard first [] first
  | step {event : HeartbeatEvent} {before after : Heartbeats} {log : List (InstanceId × Time)}
      (earlier : Run settings guard first log before) (allowed : guard event before)
      (happens : before.step settings event = some after) :
      Run settings guard first (log ++ before.beats event) after

/-- The instance is not stopped, goes on within the latency whenever it can, and
fails only so often in a row. -/
structure Punctual (latency : Time) (failures : Nat) (instanceId : InstanceId)
    (event : HeartbeatEvent) (heartbeats : Heartbeats) : Prop where
  runs : event ≠ .stop instanceId
  prompt : ∀ seconds loop, event = .advance seconds →
    heartbeats.loops instanceId = some loop → heartbeats.clock + seconds ≤ loop.since + latency
  survives : event = .fail instanceId → heartbeats.errors instanceId < failures

/-- The longest time between two commands of a punctual loop. -/
def period (settings : HeartbeatSettings) (latency : Time) : Time :=
  max (settings.instanceHeartbeatIntervalSec : Time) 5 + 2 * latency

end Heartbeats

open Heartbeats

/-- An instance is alive to others exactly as long as the time to live of a
heartbeat that was executed lasts. -/
structure DetectsFailures (settings : HeartbeatSettings) : Prop where
  exact : ∀ log heartbeats, Run settings (fun _ _ => True) {} log heartbeats → ∀ instanceId,
    (heartbeats.isInstanceAlive instanceId = true ↔
      ∃ time, (instanceId, time) ∈ log ∧
        heartbeats.clock < time + settings.instanceHeartbeatTtlSec)
  complete : ∀ log heartbeats, Run settings (fun _ _ => True) {} log heartbeats →
    ∀ instanceId last, (∀ time, (instanceId, time) ∈ log → time ≤ last) →
      last + settings.instanceHeartbeatTtlSec ≤ heartbeats.clock →
      heartbeats.isInstanceAlive instanceId = false
  /-- whatever happened before, a running instance stays alive from its first
  heartbeat on -/
  accurate : ∀ (latency : Time) (failures : Nat) (instanceId : InstanceId), 0 ≤ latency →
    period settings latency * (failures + 1) + latency < settings.instanceHeartbeatTtlSec →
    ∀ before after : Heartbeats, before.step settings (.execute instanceId) = some after →
      ∀ log heartbeats,
        Run settings (Punctual latency failures instanceId) after log heartbeats →
        heartbeats.isInstanceAlive instanceId = true

variable {settings : HeartbeatSettings} {guard : HeartbeatEvent → Heartbeats → Prop}
  {event : HeartbeatEvent} {first before after heartbeats : Heartbeats}
  {log : List (InstanceId × Time)} {instanceId : InstanceId} {latency last : Time}
  {failures : Nat}

namespace Heartbeats

/-- What the steps do. -/
inductive Happens (settings : HeartbeatSettings) (before : Heartbeats) :
    HeartbeatEvent → Heartbeats → Prop where
  | advance {seconds : Time} (forward : 0 ≤ seconds) :
      Happens settings before (.advance seconds)
        { before with clock := before.clock + seconds }
  | start {instanceId : InstanceId} (idle : before.loops instanceId = none) :
      Happens settings before (.start instanceId)
        (before.setLoop instanceId (some (.sleeping before.clock)) 0)
  | stop {instanceId : InstanceId} {loop : HeartbeatLoop}
      (running : before.loops instanceId = some loop) :
      Happens settings before (.stop instanceId)
        ((before.abandon instanceId loop).setLoop instanceId none 0)
  | wake {instanceId : InstanceId} {deadline : Time}
      (asleep : before.loops instanceId = some (.sleeping deadline))
      (due : deadline ≤ before.clock) :
      Happens settings before (.wake instanceId)
        (before.setLoop instanceId (some (.registering before.clock)) (before.errors instanceId))
  | execute {instanceId : InstanceId} {sentAt : Time}
      (sent : before.loops instanceId = some (.registering sentAt)) :
      Happens settings before (.execute instanceId)
        ((before.registerInstanceHeartbeat settings instanceId sentAt).setLoop instanceId
          (some (.registered before.clock)) (before.errors instanceId))
  | answer {instanceId : InstanceId} {executedAt : Time}
      (executed : before.loops instanceId = some (.registered executedAt)) :
      Happens settings before (.answer instanceId)
        (before.setLoop instanceId
          (some (.sleeping (before.clock + settings.instanceHeartbeatIntervalSec))) 0)
  | fail {instanceId : InstanceId} {loop : HeartbeatLoop}
      (running : before.loops instanceId = some loop)
      (awaits : ∀ deadline, loop ≠ .sleeping deadline) :
      Happens settings before (.fail instanceId)
        ((before.abandon instanceId loop).setLoop instanceId
          (some (.sleeping (before.clock + 5))) (before.errors instanceId + 1))
  | executeAbandoned {instanceId : InstanceId} {sentAt : Time}
      (sent : (instanceId, sentAt) ∈ before.abandoned) :
      Happens settings before (.executeAbandoned instanceId sentAt)
        { before.registerInstanceHeartbeat settings instanceId sentAt with
          abandoned := before.abandoned.erase (instanceId, sentAt) }

theorem step_cases (happens : before.step settings event = some after) :
    Happens settings before event after := by
  cases event with
  | advance seconds =>
      simp only [step] at happens
      split at happens
      · cases happens
        exact .advance ‹_›
      · cases happens
  | start instanceId =>
      simp only [step] at happens
      split at happens
      · cases happens
        exact .start ‹_›
      · cases happens
  | stop instanceId =>
      simp only [step] at happens
      split at happens
      · cases happens
        exact .stop ‹_›
      · cases happens
  | wake instanceId =>
      simp only [step] at happens
      split at happens
      · split at happens
        · cases happens
        · cases happens
          exact .wake ‹_› (not_lt.mp ‹_›)
      · cases happens
  | execute instanceId =>
      simp only [step] at happens
      split at happens
      · cases happens
        exact .execute ‹_›
      · cases happens
  | answer instanceId =>
      simp only [step] at happens
      split at happens
      · cases happens
        exact .answer ‹_›
      · cases happens
  | fail instanceId =>
      simp only [step] at happens
      split at happens
      · cases happens
        exact .fail ‹_› (by simp)
      · cases happens
        exact .fail ‹_› (by simp)
      · cases happens
  | executeAbandoned instanceId sentAt =>
      simp only [step] at happens
      split at happens
      · cases happens
        exact .executeAbandoned ‹_›
      · cases happens

theorem Run.invariant {invariant : List (InstanceId × Time) → Heartbeats → Prop}
    (run : Run settings guard first log heartbeats) (initial : invariant [] first)
    (preserved : ∀ event before after log, guard event before → invariant log before →
      Happens settings before event after → invariant (log ++ before.beats event) after) :
    invariant log heartbeats := by
  induction run with
  | start => exact initial
  | step earlier allowed happens ih => exact preserved _ _ _ _ allowed ih (step_cases happens)

/-- The last heartbeat that was executed. -/
def IsLast (log : List (InstanceId × Time)) (instanceId : InstanceId) (last : Time) : Prop :=
  (instanceId, last) ∈ log ∧ ∀ time, (instanceId, time) ∈ log → time ≤ last

/-- The key of an instance lasts as long as its last heartbeat. -/
structure KeysLast (settings : HeartbeatSettings) (log : List (InstanceId × Time))
    (heartbeats : Heartbeats) : Prop where
  past : ∀ instanceId time, (instanceId, time) ∈ log → time ≤ heartbeats.clock
  missing : ∀ instanceId, heartbeats.keys instanceId = none →
    ∀ time, (instanceId, time) ∉ log
  present : ∀ instanceId key, heartbeats.keys instanceId = some key →
    ∃ last, IsLast log instanceId last ∧
      key.expiresAt = last + settings.instanceHeartbeatTtlSec

/-- A step that executes no heartbeat. -/
theorem KeysLast.of_quiet (lasting : KeysLast settings log before)
    (forward : before.clock ≤ after.clock) (keys : after.keys = before.keys) :
    KeysLast settings (log ++ []) after := by
  rw [List.append_nil]
  constructor
  · intro instanceId time member
    exact (lasting.past instanceId time member).trans forward
  · rw [keys]
    exact lasting.missing
  · rw [keys]
    exact lasting.present

theorem KeysLast.of_beat (lasting : KeysLast settings log before) {value : Time}
    (sameClock : after.clock = before.clock)
    (keys : after.keys = (before.registerInstanceHeartbeat settings instanceId value).keys) :
    KeysLast settings (log ++ [(instanceId, before.clock)]) after := by
  have past (other : InstanceId) (time : Time)
      (member : (other, time) ∈ log ++ [(instanceId, before.clock)]) : time ≤ before.clock := by
    rcases List.mem_append.mp member with old | new
    · exact lasting.past other time old
    · cases List.mem_singleton.mp new
      exact le_rfl
  constructor
  · rw [sameClock]
    exact past
  · intro other missing
    rw [keys] at missing
    by_cases same : other = instanceId
    · subst same
      simp [registerInstanceHeartbeat] at missing
    · simp only [registerInstanceHeartbeat, Function.update_of_ne same] at missing
      intro time member
      rcases List.mem_append.mp member with old | new
      · exact lasting.missing other missing time old
      · exact same (congrArg Prod.fst (List.mem_singleton.mp new))
  · intro other key present
    rw [keys] at present
    by_cases same : other = instanceId
    · subst same
      simp only [registerInstanceHeartbeat, Function.update_self, Option.some.injEq] at present
      subst present
      exact ⟨before.clock, ⟨by simp, past other⟩, rfl⟩
    · simp only [registerInstanceHeartbeat, Function.update_of_ne same] at present
      obtain ⟨last, ⟨member, latest⟩, expires⟩ := lasting.present other key present
      refine ⟨last, ⟨List.mem_append_left _ member, ?_⟩, expires⟩
      intro time beat
      rcases List.mem_append.mp beat with old | new
      · exact latest time old
      · exact absurd (congrArg Prod.fst (List.mem_singleton.mp new)) same

theorem KeysLast.step (lasting : KeysLast settings log before)
    (happens : Happens settings before event after) :
    KeysLast settings (log ++ before.beats event) after := by
  cases happens with
  | advance forward => exact lasting.of_quiet (le_add_of_nonneg_right forward) rfl
  | start | stop | wake | answer | fail => exact lasting.of_quiet le_rfl rfl
  | execute | executeAbandoned => exact lasting.of_beat rfl rfl

theorem keysLast_of_run (run : Run settings guard {} log heartbeats) :
    KeysLast settings log heartbeats := by
  apply run.invariant
  · constructor
    · intro instanceId time member
      cases member
    · intro instanceId missing time member
      cases member
    · intro instanceId key present
      cases present
  · intro event before after log allowed lasting happens
    exact lasting.step happens

theorem KeysLast.isInstanceAlive_iff (lasting : KeysLast settings log heartbeats)
    (instanceId : InstanceId) :
    heartbeats.isInstanceAlive instanceId = true ↔
      ∃ time, (instanceId, time) ∈ log ∧
        heartbeats.clock < time + settings.instanceHeartbeatTtlSec := by
  unfold isInstanceAlive
  cases key : heartbeats.keys instanceId with
  | none =>
      simp only [Option.any_none, Bool.false_eq_true, false_iff]
      rintro ⟨time, member, -⟩
      exact lasting.missing instanceId key time member
  | some key' =>
      obtain ⟨last, ⟨member, latest⟩, expires⟩ := lasting.present instanceId key' key
      simp only [Option.any_some, decide_eq_true_eq, expires]
      constructor
      · intro lives
        exact ⟨last, member, lives⟩
      · rintro ⟨time, beat, lives⟩
        have bounded := latest time beat
        linarith

/-- How far a loop may be behind its last heartbeat, by the failures in a row. -/
inductive WithinPeriods (settings : HeartbeatSettings) (latency : Time) (failures errors : Nat)
    (last : Time) : HeartbeatLoop → Prop where
  | registered {executedAt : Time} (recent : executedAt ≤ last) :
      WithinPeriods settings latency failures errors last (.registered executedAt)
  | registering {sentAt : Time} (few : errors ≤ failures)
      (recent : sentAt ≤ last + period settings latency * (errors + 1)) :
      WithinPeriods settings latency failures errors last (.registering sentAt)
  | sleeping {deadline : Time} (few : errors ≤ failures)
      (recent : deadline + latency ≤ last + period settings latency * (errors + 1)) :
      WithinPeriods settings latency failures errors last (.sleeping deadline)

/-- The loop runs, and is not further behind the heartbeat the key is from. -/
structure KeepsUp (settings : HeartbeatSettings) (latency : Time) (failures : Nat)
    (instanceId : InstanceId) (last : Time) (loop : HeartbeatLoop) (heartbeats : Heartbeats) :
    Prop where
  running : heartbeats.loops instanceId = some loop
  renewed : ∃ value, heartbeats.keys instanceId =
    some ⟨value, last + settings.instanceHeartbeatTtlSec⟩
  past : last ≤ heartbeats.clock
  prompt : heartbeats.clock ≤ loop.since + latency
  within : WithinPeriods settings latency failures (heartbeats.errors instanceId) last loop

theorem period_bounds (settings : HeartbeatSettings) (latency : Time) :
    (settings.instanceHeartbeatIntervalSec : Time) + 2 * latency ≤ period settings latency ∧
      5 + 2 * latency ≤ period settings latency := by
  unfold period
  constructor
  · linarith [le_max_left (settings.instanceHeartbeatIntervalSec : Time) 5]
  · linarith [le_max_right (settings.instanceHeartbeatIntervalSec : Time) 5]

theorem WithinPeriods.mono {errors : Nat} {later : Time} {loop : HeartbeatLoop}
    (within : WithinPeriods settings latency failures errors last loop) (ordered : last ≤ later) :
    WithinPeriods settings latency failures errors later loop := by
  cases within with
  | registered recent => exact .registered (recent.trans ordered)
  | registering few recent => exact .registering few (by linarith)
  | sleeping few recent => exact .sleeping few (by linarith)

/-! Steps of other instances do not matter. -/

theorem KeepsUp.setLoop {loop : HeartbeatLoop} {other : InstanceId}
    (keeps : KeepsUp settings latency failures instanceId last loop before)
    (different : instanceId ≠ other) (others : Option HeartbeatLoop) (errors : Nat) :
    KeepsUp settings latency failures instanceId last loop
      (before.setLoop other others errors) := by
  constructor
  · simpa [Heartbeats.setLoop, different] using keeps.running
  · exact keeps.renewed
  · exact keeps.past
  · exact keeps.prompt
  · simpa [Heartbeats.setLoop, different] using keeps.within

theorem KeepsUp.register {loop : HeartbeatLoop} {other : InstanceId}
    (keeps : KeepsUp settings latency failures instanceId last loop before)
    (different : instanceId ≠ other) (value : Time) :
    KeepsUp settings latency failures instanceId last loop
      (before.registerInstanceHeartbeat settings other value) := by
  refine ⟨keeps.running, ?_, keeps.past, keeps.prompt, keeps.within⟩
  simpa [registerInstanceHeartbeat, different] using keeps.renewed

/-- Who waits for which command does not matter either. -/
theorem KeepsUp.abandoned {loop : HeartbeatLoop}
    (keeps : KeepsUp settings latency failures instanceId last loop before)
    (commands : List (InstanceId × Time)) :
    KeepsUp settings latency failures instanceId last loop
      { before with abandoned := commands } :=
  ⟨keeps.running, keeps.renewed, keeps.past, keeps.prompt, keeps.within⟩

/-- A heartbeat that is executed late renews the key all the same. -/
theorem KeepsUp.late {loop : HeartbeatLoop}
    (keeps : KeepsUp settings latency failures instanceId last loop before) (value : Time) :
    KeepsUp settings latency failures instanceId before.clock loop
      (before.registerInstanceHeartbeat settings instanceId value) := by
  refine ⟨keeps.running, ⟨value, ?_⟩, le_rfl, keeps.prompt, keeps.within.mono keeps.past⟩
  simp [registerInstanceHeartbeat]

theorem KeepsUp.of_wake {deadline : Time} (nonneg : 0 ≤ latency)
    (keeps : KeepsUp settings latency failures instanceId last (.sleeping deadline) before) :
    KeepsUp settings latency failures instanceId last (.registering before.clock)
      (before.setLoop instanceId (some (.registering before.clock))
        (before.errors instanceId)) := by
  constructor
  · simp [Heartbeats.setLoop]
  · exact keeps.renewed
  · exact keeps.past
  · exact le_add_of_nonneg_right nonneg
  · cases keeps.within with
    | sleeping few recent =>
        simp only [Heartbeats.setLoop, Function.update_self]
        exact .registering few (keeps.prompt.trans recent)

/-- The loop goes to sleep, counting the failures anew or once more. -/
theorem KeepsUp.of_sleep {loop : HeartbeatLoop} {pause : Time} {errors : Nat}
    (keeps : KeepsUp settings latency failures instanceId last loop before)
    (nonneg : 0 ≤ pause + latency) (few : errors ≤ failures)
    (recent : before.clock + pause + latency ≤ last + period settings latency * (errors + 1)) :
    KeepsUp settings latency failures instanceId last (.sleeping (before.clock + pause))
      (before.setLoop instanceId (some (.sleeping (before.clock + pause))) errors) := by
  constructor
  · simp [Heartbeats.setLoop]
  · exact keeps.renewed
  · exact keeps.past
  · show before.clock ≤ before.clock + pause + latency
    linarith
  · simp only [Heartbeats.setLoop, Function.update_self]
    exact .sleeping few recent

theorem KeepsUp.of_answer {executedAt : Time} (nonneg : 0 ≤ latency)
    (keeps : KeepsUp settings latency failures instanceId last (.registered executedAt) before) :
    KeepsUp settings latency failures instanceId last
      (.sleeping (before.clock + settings.instanceHeartbeatIntervalSec))
      (before.setLoop instanceId
        (some (.sleeping (before.clock + settings.instanceHeartbeatIntervalSec))) 0) := by
  obtain ⟨interval, -⟩ := period_bounds settings latency
  have prompt : before.clock ≤ executedAt + latency := keeps.prompt
  cases keeps.within with
  | registered recent =>
      apply keeps.of_sleep
      · positivity
      · exact Nat.zero_le failures
      · simp only [Nat.cast_zero, zero_add, mul_one]
        linarith

theorem KeepsUp.of_fail {loop : HeartbeatLoop} (nonneg : 0 ≤ latency)
    (keeps : KeepsUp settings latency failures instanceId last loop before)
    (awaits : ∀ deadline, loop ≠ .sleeping deadline)
    (survives : before.errors instanceId < failures) :
    KeepsUp settings latency failures instanceId last (.sleeping (before.clock + 5))
      (before.setLoop instanceId (some (.sleeping (before.clock + 5)))
        (before.errors instanceId + 1)) := by
  obtain ⟨-, pause⟩ := period_bounds settings latency
  have prompt := keeps.prompt
  apply keeps.of_sleep
  · positivity
  · exact survives
  · push_cast
    cases keeps.within with
    | registered recent =>
        have earlier : (0 : Time) ≤ period settings latency * (before.errors instanceId + 1) :=
          mul_nonneg (by linarith) (by positivity)
        simp only [HeartbeatLoop.since] at prompt
        linarith
    | registering few recent =>
        simp only [HeartbeatLoop.since] at prompt
        linarith
    | sleeping => exact absurd rfl (awaits _)

/-- Some loop keeps up with some heartbeat. -/
def Keeping (settings : HeartbeatSettings) (latency : Time) (failures : Nat)
    (instanceId : InstanceId) (heartbeats : Heartbeats) : Prop :=
  ∃ last loop, KeepsUp settings latency failures instanceId last loop heartbeats

theorem Keeping.of_execute (nonneg : 0 ≤ latency)
    (happens : Happens settings before (.execute instanceId) after) :
    Keeping settings latency failures instanceId after := by
  cases happens with
  | @execute _ sentAt sent =>
      refine ⟨before.clock, .registered before.clock, ?_⟩
      constructor
      · simp [setLoop]
      · exact ⟨sentAt, by simp [setLoop, registerInstanceHeartbeat]⟩
      · exact le_rfl
      · exact le_add_of_nonneg_right nonneg
      · exact .registered le_rfl

theorem Keeping.step (nonneg : 0 ≤ latency)
    (keeping : Keeping settings latency failures instanceId before)
    (punctual : Punctual latency failures instanceId event before)
    (happens : Happens settings before event after) :
    Keeping settings latency failures instanceId after := by
  obtain ⟨last, loop, keeps⟩ := keeping
  cases happens with
  | advance forward =>
      refine ⟨last, loop, keeps.running, keeps.renewed, ?_, ?_, keeps.within⟩
      · exact keeps.past.trans (le_add_of_nonneg_right forward)
      · exact punctual.prompt _ loop rfl keeps.running
  | @start other idle =>
      have different : instanceId ≠ other := by
        rintro rfl
        rw [keeps.running] at idle
        cases idle
      exact ⟨last, loop, keeps.setLoop different _ _⟩
  | @stop other stopped running =>
      have different : instanceId ≠ other := by
        rintro rfl
        exact punctual.runs rfl
      exact ⟨last, loop, (keeps.abandoned _).setLoop different _ _⟩
  | @wake other deadline asleep due =>
      by_cases same : instanceId = other
      · subst same
        cases keeps.running.symm.trans asleep
        exact ⟨last, _, keeps.of_wake nonneg⟩
      · exact ⟨last, loop, keeps.setLoop same _ _⟩
  | @execute other sentAt sent =>
      by_cases same : instanceId = other
      · subst same
        exact Keeping.of_execute nonneg (.execute sent)
      · exact ⟨last, loop, (keeps.register same _).setLoop same _ _⟩
  | @answer other executedAt executed =>
      by_cases same : instanceId = other
      · subst same
        cases keeps.running.symm.trans executed
        exact ⟨last, _, keeps.of_answer nonneg⟩
      · exact ⟨last, loop, keeps.setLoop same _ _⟩
  | @fail other failed running awaits =>
      by_cases same : instanceId = other
      · subst same
        cases keeps.running.symm.trans running
        exact ⟨last, _, (keeps.abandoned _).of_fail nonneg awaits (punctual.survives rfl)⟩
      · exact ⟨last, loop, (keeps.abandoned _).setLoop same _ _⟩
  | @executeAbandoned other sentAt sent =>
      by_cases same : instanceId = other
      · subst same
        exact ⟨before.clock, loop, (keeps.late _).abandoned _⟩
      · exact ⟨last, loop, (keeps.register same _).abandoned _⟩

/-- A loop that keeps up renews the key before it expires. -/
theorem Keeping.isInstanceAlive (nonneg : 0 ≤ latency)
    (bound : period settings latency * (failures + 1) + latency <
      settings.instanceHeartbeatTtlSec)
    (keeping : Keeping settings latency failures instanceId heartbeats) :
    heartbeats.isInstanceAlive instanceId = true := by
  obtain ⟨last, loop, keeps⟩ := keeping
  obtain ⟨value, renewed⟩ := keeps.renewed
  obtain ⟨-, pause⟩ := period_bounds settings latency
  have positive : 0 ≤ period settings latency := by linarith
  have worst (few : heartbeats.errors instanceId ≤ failures) :
      period settings latency * (heartbeats.errors instanceId + 1) ≤
        period settings latency * (failures + 1) := by
    apply mul_le_mul_of_nonneg_left _ positive
    exact_mod_cast Nat.succ_le_succ few
  simp only [Heartbeats.isInstanceAlive, renewed, Option.any_some, decide_eq_true_eq]
  have prompt := keeps.prompt
  cases keeps.within with
  | registered recent =>
      have some : 0 ≤ period settings latency * ((failures : Time) + 1) := by positivity
      simp only [HeartbeatLoop.since] at prompt
      linarith
  | registering few recent =>
      have atMost := worst few
      simp only [HeartbeatLoop.since] at prompt
      linarith
  | sleeping few recent =>
      have atMost := worst few
      simp only [HeartbeatLoop.since] at prompt
      linarith

end Heartbeats

/-- Main result: an instance is taken for dead if and only if its heartbeats have
stopped for their time to live, which never happens to a punctual instance. -/
theorem detectsFailures (settings : HeartbeatSettings) : DetectsFailures settings := by
  constructor
  · intro log heartbeats run instanceId
    exact (keysLast_of_run run).isInstanceAlive_iff instanceId
  · intro log heartbeats run instanceId last stopped expired
    rw [Bool.eq_false_iff, ne_eq, (keysLast_of_run run).isInstanceAlive_iff instanceId]
    rintro ⟨time, beat, lives⟩
    have bounded := stopped time beat
    linarith
  · intro latency failures instanceId nonneg bound before after executed log heartbeats run
    have keeping : Keeping settings latency failures instanceId heartbeats := by
      apply run.invariant
      · exact .of_execute nonneg (step_cases executed)
      · intro event earlier later _ punctual keeping happens
        exact keeping.step nonneg punctual happens
    exact keeping.isInstanceAlive nonneg bound

/-- Two heartbeats lost in a row are too many for the default settings. -/
example : ((([.start "inst-1", .wake "inst-1", .execute "inst-1", .answer "inst-1", .advance 5,
      .wake "inst-1", .fail "inst-1", .advance 5, .wake "inst-1", .fail "inst-1", .advance 5] :
        List HeartbeatEvent).foldlM (Heartbeats.step {}) {}).map
      fun heartbeats => heartbeats.isInstanceAlive "inst-1") = some false := by
  decide +kernel

end TerritoryBackend

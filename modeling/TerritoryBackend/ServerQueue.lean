import TerritoryBackend.Coroutines
import TerritoryBackend.MatchingTick
import TerritoryBackend.QueueHistory
import TerritoryBackend.ServerSteps

/-!
# The queue of a running server

What a running server does to the matchmaking queue is a history of queue
commands, and the script calls of its matching loop between two pauses are one
tick as long as nobody enters or leaves the queue.
-/

namespace TerritoryBackend

open EventLoop

/-- The queue command an instruction runs, if it runs one. -/
def Instr.queueCommand (settings : Settings) (now : Time) : Instr → Answer → List QueueCommand
  | .enqueuePlayer player eloRating, _ => [.enqueuePlayer player eloRating now]
  | .dequeuePlayer player _, _ => [.dequeuePlayer player]
  | .matchingLoop, .done => [.tryMatch settings now]
  | _, _ => []

def observeQueue (settings : Settings) (choice : ServerChoice) (config : ServerConfig) :
    List QueueCommand :=
  match choice with
  | .resume _ answer =>
      match config.executed choice with
      | some instruction => instruction.queueCommand settings config.state.clock answer
      | none => []
  | _ => []

variable {settings : Settings} {choice : ServerChoice} {start before after config : ServerConfig}

theorem queue_block {instruction : Instr} {answer : Answer} {world : World}
    {block : Block World Instr} (effect : instruction.block settings answer world = some block) :
    block.state.redis.matchmaking =
      world.redis.matchmaking.performAll
        (instruction.queueCommand settings world.clock answer) := by
  cases instruction with
  | enqueuePlayer | dequeuePlayer =>
      cases effect
      rfl
  | matchingLoop =>
      simp only [Instr.block, World.matchingLoop] at effect
      split at effect
      · split at effect <;> rename_i result <;> cases effect <;>
          exact (congrArg Prod.fst result).symm
      · cases effect
        rfl
      · cases effect
  | _ =>
      have writes := Instr.block_writes effect
      generalize block.state = written at writes
      cases writes <;> rfl

theorem queue_step (step : (server settings).step choice before = some after) :
    after.state.redis.matchmaking =
      before.state.redis.matchmaking.performAll (observeQueue settings choice before) := by
  cases Machine.step_cases step with
  | @resumed task answer instruction rest block running current effect =>
      have executed : before.executed (.resume task answer : ServerChoice) = some instruction :=
        Config.executed_of_current current
      simp only [observeQueue, executed]
      exact queue_block effect
  | failed => rfl
  | happened effect => exact (ServerEvent.frame effect).2.2.2.2

/-- The queue of a running server is what the commands observed so far have made
of it. -/
theorem queue_of_logged {guard : ServerChoice → ServerConfig → Prop} {log : List QueueCommand}
    (logged : (server settings).Logged start guard (observeQueue settings) log config) :
    config.state.redis.matchmaking = start.state.redis.matchmaking.performAll log := by
  induction logged with
  | start => rfl
  | step _ _ step ih =>
      rw [queue_step step, ih]
      exact (List.foldl_append ..).symm

namespace MatchmakingQueue

theorem length_events (queue : MatchmakingQueue) (commands : List QueueCommand) :
    (queue.events commands).length = commands.length := by
  induction commands generalizing queue with
  | nil => rfl
  | cons command commands ih => simp [events, ih]

/-- Script calls of which all but the last one return a pair are one tick. -/
theorem matchingTick_of_events {clock : ℕ → Time} {last : Time} {times : List Time}
    {pairs : List MatchedPair} {queue : MatchmakingQueue} {call : ℕ}
    (reads : ∀ index time, (times ++ [last])[index]? = some time → clock (call + index) = time)
    (answers : queue.events ((times ++ [last]).map (.tryMatch settings)) =
      (pairs.map some ++ [none]).map .matched) :
    matchingTick settings clock call queue =
      (pairs, queue.performAll ((times ++ [last]).map (.tryMatch settings))) := by
  have lengths := congrArg List.length answers
  simp only [length_events, List.length_map, List.length_append, List.length_singleton] at lengths
  induction times generalizing pairs queue call with
  | nil =>
      have now : clock call = last := reads 0 last rfl
      obtain rfl : pairs = [] := List.length_eq_zero_iff.mp (by simpa using lengths.symm)
      have unmatched : queue.tryMatch settings (clock call) =
          ((queue.tryMatch settings last).1, none) := by
        rw [now]
        exact Prod.ext rfl (QueueEvent.matched.inj (List.cons.inj answers).1)
      rw [matchingTick_of_none unmatched]
      exact congrArg (Prod.mk []) (tryMatch_eq_none (now ▸ unmatched)).symm
  | cons time times ih =>
      have now : clock call = time := reads 0 time rfl
      cases pairs with
      | nil => simp at lengths
      | cons pair pairs =>
          obtain ⟨first, others⟩ := List.cons.inj answers
          have matched : queue.tryMatch settings (clock call) =
              ((queue.tryMatch settings time).1, some pair) := by
            rw [now]
            exact Prod.ext rfl (QueueEvent.matched.inj first)
          have rest : matchingTick settings clock (call + 1) (queue.tryMatch settings time).1 = _ :=
            ih (fun index read present => by
              rw [← reads (index + 1) read present, Nat.add_right_comm, Nat.add_assoc]) others
              (by simpa using lengths)
          rw [matchingTick_of_some matched, rest]
          rfl

end MatchmakingQueue

/-- When the commands of a run are the script calls of one round of the loop,
the last one returning no pair, the run has executed one tick. -/
theorem matchingTick_of_logged {guard : ServerChoice → ServerConfig → Prop} {last : Time}
    {times : List Time} {pairs : List MatchedPair}
    (logged : (server settings).Logged start guard (observeQueue settings)
      ((times ++ [last]).map (.tryMatch settings)) config)
    (answers : start.state.redis.matchmaking.events ((times ++ [last]).map (.tryMatch settings)) =
      (pairs.map some ++ [none]).map .matched) :
    MatchmakingQueue.matchingTick settings (fun index => (times ++ [last]).getD index last) 0
        start.state.redis.matchmaking =
      (pairs, config.state.redis.matchmaking) := by
  rw [queue_of_logged logged]
  refine MatchmakingQueue.matchingTick_of_events ?_ answers
  intro index time present
  rw [Nat.zero_add, List.getD_eq_getElem?_getD, present, Option.getD_some]

end TerritoryBackend

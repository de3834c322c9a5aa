import TerritoryBackend.Dict
import Mathlib.Order.Lattice
import Mathlib.Data.List.Induction

/-!
# Sliding windows

A sorted set whose scores are the times of its members, which is pruned up to
the start of a window, and the number of events a limit on the recent ones
leaves in any interval of the length of the window.
-/

abbrev TimedSet (α τ : Type*) := Dict α τ

namespace TimedSet

variable {α τ : Type*} [DecidableEq α] [LinearOrder τ]

/-- `ZREMRANGEBYSCORE key -inf bound` -/
def removeUpTo (set : TimedSet α τ) (bound : τ) : TimedSet α τ where
  entries := set.entries.filter fun entry => bound < entry.2
  nodupKeys := set.nodupKeys.sublist List.filter_sublist

/-- `ZCARD key` -/
def card (set : TimedSet α τ) : Nat := set.entries.length

end TimedSet

namespace SlidingWindow

variable {ε τ : Type*} [Sub τ] [LinearOrder τ]

/-- The event is later than the start of the window that ends at the time. -/
def Recent (time : ε → τ) (width now : τ) (event : ε) : Prop := now - width < time event

instance (time : ε → τ) (width now : τ) : DecidablePred (Recent time width now) := fun event =>
  inferInstanceAs (Decidable (now - width < time event))

/-- When an accepted event is always one of a bounded number of recent accepted
events, no set of events that are recent to each other has more of them. -/
theorem countP_le_of_recent {events : List ε} {time : ε → τ} {width : τ} {accepted : ε → Bool}
    {limit : ℕ}
    (limited : ∀ earlier event later, events = earlier ++ event :: later → accepted event = true →
      earlier.countP (fun other => decide (Recent time width (time event) other)) + 1 ≤ limit)
    {inside : ε → Bool}
    (close : ∀ event other, inside event = true → inside other = true →
      Recent time width (time event) other) :
    events.countP (fun event => accepted event && inside event) ≤ limit := by
  induction events using List.reverseRecOn with
  | nil => exact Nat.zero_le limit
  | append_singleton earlier last ih =>
      rw [List.countP_append, List.countP_singleton]
      split
      · rename_i counted
        obtain ⟨lastAccepted, lastInside⟩ := Bool.and_eq_true_iff.mp counted
        refine le_trans (Nat.add_le_add_right (List.countP_mono_left ?_) 1)
          (limited earlier last [] rfl lastAccepted)
        intro event _ both
        exact decide_eq_true (close last event lastInside (Bool.and_eq_true_iff.mp both).2)
      · apply ih
        intro before event after split
        apply limited before event (after ++ [last])
        rw [split, List.append_assoc, List.cons_append]

end SlidingWindow

import Mathlib.Algebra.Ring.Nat
import Mathlib.Data.List.AList

/-!
# Dictionaries

Association lists without duplicate keys, read through `lookup`.  The two
equations below state how an insertion and a deletion are seen by every key.
-/

abbrev Dict (K V : Type*) := AList fun _ : K => V

namespace Dict

variable {K V : Type*} [DecidableEq K]

def getD (dict : Dict K V) (key : K) (default : V) : V :=
  (dict.lookup key).getD default

@[simp]
theorem lookup_insert (dict : Dict K V) (inserted key : K) (value : V) :
    (dict.insert inserted value).lookup key =
      if key = inserted then some value else dict.lookup key := by
  split
  · subst key
    exact AList.lookup_insert dict
  · exact AList.lookup_insert_ne ‹_›

@[simp]
theorem lookup_erase (dict : Dict K V) (erased key : K) :
    (dict.erase erased).lookup key =
      if key = erased then none else dict.lookup key := by
  split
  · subst key
    exact AList.lookup_erase erased dict
  · exact AList.lookup_erase_ne ‹_›

@[simp]
theorem lookup_empty (key : K) : (∅ : Dict K V).lookup key = none :=
  AList.lookup_empty key

theorem getD_insert (dict : Dict K V) (inserted key : K) (value default : V) :
    getD (dict.insert inserted value) key default =
      if key = inserted then value else dict.getD key default := by
  unfold getD
  rw [lookup_insert]
  split <;> rfl

/-- The sum of a measure over the values. -/
def total (measure : V → ℕ) (dict : Dict K V) : ℕ :=
  (dict.entries.map fun entry => measure entry.2).sum

theorem total_insert_of_none {dict : Dict K V} {key : K} (absent : dict.lookup key = none)
    (measure : V → ℕ) (value : V) :
    total measure (dict.insert key value) = total measure dict + measure value := by
  have fresh : key ∉ dict := AList.lookup_eq_none.mp absent
  rw [total, AList.entries_insert_of_notMem fresh, List.map_cons, List.sum_cons, Nat.add_comm]
  rfl

/-- Replacing a value changes the total by the difference of the two. -/
theorem total_insert_of_some {dict : Dict K V} {key : K} {old : V}
    (stored : dict.lookup key = some old) (measure : V → ℕ) (value : V) :
    total measure (dict.insert key value) + measure old = total measure dict + measure value := by
  have present : key ∈ dict.entries.keys :=
    AList.mem_keys.mp (AList.lookup_isSome.mp (by rw [stored]; rfl))
  obtain ⟨found, earlier, later, -, split, remaining⟩ := List.exists_of_kerase present
  have same : found = old := by
    have listed : (⟨key, found⟩ : Sigma fun _ : K => V) ∈ dict.entries := by simp [split]
    exact Option.some.inj ((AList.mem_lookup_iff.mpr listed).symm.trans stored)
  rw [total, total, AList.entries_insert, remaining, split, same]
  simp only [List.map_cons, List.map_append, List.sum_cons, List.sum_append]
  omega

end Dict

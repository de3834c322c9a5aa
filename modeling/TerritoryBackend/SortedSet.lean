import TerritoryBackend.Dict
import Mathlib.Data.List.Sort
import Mathlib.Data.Prod.Lex

/-!
# Redis sorted sets

A sorted set gives each of its members an integer score.  Reading a range
lists the members by score, members of one score in their own order.
-/

abbrev SortedSet (α : Type*) := Dict α Int

namespace SortedSet

variable {α : Type*} [LinearOrder α]

/-- Members of lower scores come first. -/
def Precedes (first second : α × Int) : Prop :=
  first.2 < second.2 ∨ (first.2 = second.2 ∧ first.1 ≤ second.1)

instance : DecidableRel (Precedes (α := α)) := fun first second =>
  inferInstanceAs (Decidable (first.2 < second.2 ∨ (first.2 = second.2 ∧ first.1 ≤ second.1)))

/-- `ZRANGEBYSCORE key -inf +inf WITHSCORES` -/
def range (set : SortedSet α) : List (α × Int) :=
  (set.entries.map fun entry => (entry.1, entry.2)).insertionSort Precedes

/-- `ZRANK key member` -/
def rank (set : SortedSet α) (member : α) : Option Nat :=
  (set.range.map Prod.fst).idxOf? member

/-- `ZCARD key` -/
def card (set : SortedSet α) : Nat := set.entries.length

theorem mem_range_iff (set : SortedSet α) (member : α) (score : Int) :
    (member, score) ∈ set.range ↔ set.lookup member = some score := by
  rw [range, List.mem_insertionSort, List.mem_map, ← Option.mem_def, AList.mem_lookup_iff]
  constructor
  · rintro ⟨⟨key, value⟩, entryMem, same⟩
    cases same
    exact entryMem
  · intro entryMem
    exact ⟨⟨member, score⟩, entryMem, rfl⟩

theorem range_nodup (set : SortedSet α) : (set.range.map Prod.fst).Nodup := by
  have keysNodup : (set.entries.map Sigma.fst).Nodup := set.nodupKeys
  have sorted := (List.perm_insertionSort Precedes
    (set.entries.map fun entry => (entry.1, entry.2))).map Prod.fst
  apply sorted.nodup_iff.mpr
  simpa [List.map_map, Function.comp_def] using keysNodup

/-- The place of a member in the order of the set. -/
def place (entry : α × Int) : ℤ ×ₗ α := toLex (entry.2, entry.1)

theorem precedes_iff (first second : α × Int) :
    Precedes first second ↔ place first ≤ place second := by
  rw [place, place, Prod.Lex.toLex_le_toLex]
  rfl

theorem range_sorted (set : SortedSet α) :
    set.range.Pairwise fun first second => place first < place second := by
  have : Std.Total (Precedes (α := α)) :=
    ⟨fun first second => by simpa only [precedes_iff] using le_total (place first) (place second)⟩
  have : IsTrans _ (Precedes (α := α)) :=
    ⟨fun first second third => by simpa only [precedes_iff] using le_trans⟩
  have sorted : set.range.Pairwise Precedes := List.pairwise_insertionSort _ _
  have distinct : set.range.Pairwise fun first second => first.1 ≠ second.1 :=
    List.pairwise_map.mp (range_nodup set)
  refine (sorted.and distinct).imp fun {first second} => ?_
  rintro ⟨precedes, different⟩
  apply lt_of_le_of_ne ((precedes_iff first second).mp precedes)
  intro same
  apply different
  exact (Prod.mk.inj (toLex_inj.mp same)).2

end SortedSet

import Mathlib.Data.List.Sort
import Mathlib.Data.List.Nodup

/-!
# Pages of a sorted list

Rows are ordered by a descending key, with rows of equal key in any order, and
each page is cut out of an ordering of its own.  The keys on the pages do not
depend on the orderings.  The rows do, unless every page ends between two
different keys.
-/

namespace Pagination

variable {α K : Type*} [LinearOrder K] {key : α → K} {rows order other : List α}
  {size number count : ℕ} {orders : ℕ → List α}

/-- The rows in some order by descending key. -/
structure IsOrdering (key : α → K) (rows order : List α) : Prop where
  perm : order.Perm rows
  sorted : order.Pairwise fun first second => key second ≤ key first

/-- A page, counted from zero. -/
def page (size number : ℕ) (order : List α) : List α := (order.drop (number * size)).take size

/-- The first pages one after the other, each of an ordering of its own. -/
def walk (size count : ℕ) (orders : ℕ → List α) : List α :=
  (List.range count).flatMap fun number => page size number (orders number)

/-- Rows of equal key stand on both sides of the end of a page. -/
def CutsTie (key : α → K) (rows : List α) (size : ℕ) : Prop :=
  ∃ number value, rows.countP (fun row => decide (value < key row)) < number * size ∧
    number * size < rows.countP fun row => decide (value ≤ key row)

theorem take_append_page (size number : ℕ) (order : List α) :
    order.take (number * size) ++ page size number order = order.take ((number + 1) * size) := by
  rw [page, Nat.succ_mul, List.take_add]

theorem walk_succ (size count : ℕ) (orders : ℕ → List α) :
    walk size (count + 1) orders = walk size count orders ++ page size count (orders count) := by
  simp [walk, List.range_succ]

theorem walk_const (size count : ℕ) (order : List α) :
    walk size count (fun _ => order) = order.take (count * size) := by
  induction count with
  | zero => simp [walk]
  | succ count ih => rw [walk_succ, ih, take_append_page]

theorem map_walk {β : Type*} (change : α → β) (size count : ℕ) (orders : ℕ → List α) :
    (walk size count orders).map change = walk size count fun number =>
      (orders number).map change := by
  simp [walk, page, List.map_flatMap, List.map_take, List.map_drop]

theorem getElem_mem_page {position : ℕ} (bound : position < order.length)
    (low : number * size ≤ position) (high : position < (number + 1) * size) :
    order[position] ∈ page size number order := by
  rw [Nat.succ_mul] at high
  refine List.mem_take_iff_getElem.mpr ⟨position - number * size, ?_, ?_⟩
  · rw [List.length_drop]
    omega
  · simp [Nat.add_sub_cancel' low]

section Prefixes

variable {test : α → Bool}

/-- Rows that pass come before those that do not. -/
theorem getElem_iff_lt_countP
    (downward : order.Pairwise fun first second => test second = true → test first = true)
    {position : ℕ} (bound : position < order.length) :
    test order[position] = true ↔ position < order.countP test := by
  induction order generalizing position with
  | nil => cases bound
  | cons first others ih =>
      obtain ⟨before, downward⟩ := List.pairwise_cons.mp downward
      by_cases passes : test first = true
      · rw [List.countP_cons_of_pos passes]
        cases position with
        | zero => simpa using passes
        | succ position => simpa using ih downward (by simpa using bound)
      · have none : others.countP test = 0 := List.countP_eq_zero.mpr fun row member passed =>
          passes (before row member passed)
        rw [List.countP_cons_of_neg passes, none]
        refine iff_of_false ?_ (Nat.not_lt_zero _)
        intro passed
        cases position with
        | zero => exact passes passed
        | succ position => exact passes (before _ (List.getElem_mem _) passed)

theorem take_countP
    (downward : order.Pairwise fun first second => test second = true → test first = true) :
    order.take (order.countP test) = order.filter test := by
  induction order with
  | nil => rfl
  | cons first others ih =>
      obtain ⟨before, downward⟩ := List.pairwise_cons.mp downward
      by_cases passes : test first = true
      · simp [passes, ih downward]
      · have fails : ∀ row ∈ others, ¬ test row = true := fun row member passed =>
          passes (before row member passed)
        rw [List.countP_cons_of_neg passes, List.filter_cons_of_neg passes,
          List.countP_eq_zero.mpr fails, List.filter_eq_nil_iff.mpr fails, List.take_zero]

end Prefixes

namespace IsOrdering

theorem downward_le (ordering : IsOrdering key rows order) (value : K) :
    order.Pairwise fun first second =>
      decide (value ≤ key second) = true → decide (value ≤ key first) = true :=
  ordering.sorted.imp fun ordered => by simpa using fun reaches => reaches.trans ordered

theorem downward_lt (ordering : IsOrdering key rows order) (value : K) :
    order.Pairwise fun first second =>
      decide (value < key second) = true → decide (value < key first) = true :=
  ordering.sorted.imp fun ordered => by simpa using fun exceeds => exceeds.trans_le ordered

theorem le_key_iff (ordering : IsOrdering key rows order) {position : ℕ}
    (bound : position < order.length) (value : K) :
    value ≤ key order[position] ↔ position < rows.countP fun row => decide (value ≤ key row) := by
  rw [← ordering.perm.countP_eq, ← getElem_iff_lt_countP (ordering.downward_le value) bound,
    decide_eq_true_iff]

theorem lt_key_iff (ordering : IsOrdering key rows order) {position : ℕ}
    (bound : position < order.length) (value : K) :
    value < key order[position] ↔ position < rows.countP fun row => decide (value < key row) := by
  rw [← ordering.perm.countP_eq, ← getElem_iff_lt_countP (ordering.downward_lt value) bound,
    decide_eq_true_iff]

theorem sorted_map_key (ordering : IsOrdering key rows order) :
    (order.map key).Pairwise fun first second => second ≤ first :=
  List.pairwise_map.mpr ordering.sorted

theorem map_key_eq (ordering : IsOrdering key rows order) (ofOther : IsOrdering key rows other) :
    order.map key = other.map key :=
  List.Perm.eq_of_pairwise (fun _ _ _ _ atLeast atMost => le_antisymm atMost atLeast)
    ordering.sorted_map_key ofOther.sorted_map_key
    ((ordering.perm.trans ofOther.perm.symm).map key)

/-- Where no page cuts a tie, the rows of the first pages are the same in every
ordering. -/
theorem take_perm (uncut : ¬ CutsTie key rows size) (ordering : IsOrdering key rows order)
    (ofOther : IsOrdering key rows other) (number : ℕ) :
    (order.take (number * size)).Perm (other.take (number * size)) := by
  have length := ordering.perm.length_eq
  have otherLength := ofOther.perm.length_eq
  by_cases whole : order.length ≤ number * size
  · rw [List.take_of_length_le whole, List.take_of_length_le (by omega)]
    exact ordering.perm.trans ofOther.perm.symm
  by_cases empty : number * size = 0
  · simp [empty]
  have bound : number * size - 1 < order.length := by omega
  -- The last row of the page has the least key on the pages so far.
  generalize least : key order[number * size - 1] = value at *
  have reached := (ordering.le_key_iff bound value).mp least.ge
  have notExceeded := mt (ordering.lt_key_iff bound value).mpr least.le.not_gt
  have counted : rows.countP (fun row => decide (value ≤ key row)) = number * size := by
    by_contra different
    exact uncut ⟨number, value, by omega, by omega⟩
  have taken {any : List α} (isOrdering : IsOrdering key rows any) :
      any.take (number * size) = any.filter fun row => decide (value ≤ key row) := by
    rw [← counted, ← isOrdering.perm.countP_eq]
    exact take_countP (isOrdering.downward_le value)
  rw [taken ordering, taken ofOther]
  exact (ordering.perm.trans ofOther.perm.symm).filter _

end IsOrdering

/-- The keys on the pages are the sorted keys of the rows. -/
theorem map_key_walk (orderings : ∀ number, IsOrdering key rows (orders number))
    (covers : rows.length ≤ count * size) :
    (walk size count orders).map key = (orders 0).map key := by
  have same : (fun number => (orders number).map key) = fun _ => (orders 0).map key :=
    funext fun number => (orderings number).map_key_eq (orderings 0)
  rw [map_walk, same, walk_const, List.take_of_length_le]
  rw [List.length_map, (orderings 0).perm.length_eq]
  exact covers

theorem walk_perm (uncut : ¬ CutsTie key rows size)
    (orderings : ∀ number, IsOrdering key rows (orders number))
    (covers : rows.length ≤ count * size) : (walk size count orders).Perm rows := by
  have upTo (count : ℕ) : (walk size count orders).Perm ((orders 0).take (count * size)) := by
    induction count with
    | zero => simp [walk]
    | succ count ih =>
        rw [walk_succ]
        apply (ih.append_right _).trans
        apply (((orderings 0).take_perm uncut (orderings count) count).append_right _).trans
        rw [take_append_page]
        exact (orderings count).take_perm uncut (orderings 0) (count + 1)
  apply (upTo count).trans
  rw [List.take_of_length_le ((orderings 0).perm.length_eq.trans_le covers)]
  exact (orderings 0).perm

/-- Two neighbours of equal key may change places. -/
theorem IsOrdering.swap {front back : List α} {first second : α}
    (ordering : IsOrdering key rows (front ++ first :: second :: back))
    (tied : key first = key second) :
    IsOrdering key rows (front ++ second :: first :: back) where
  perm := ((List.Perm.swap first second back).append_left front).trans ordering.perm
  sorted := by
    have sorted := ordering.sorted
    simp only [List.pairwise_append, List.pairwise_cons, List.mem_cons, forall_eq_or_imp] at *
    rw [tied] at *
    tauto

/-- A row on two pages stands twice on the walk. -/
theorem not_nodup_walk (row : α) {first second : ℕ} (ordered : first < second)
    (within : second < count) (onFirst : row ∈ page size first (orders first))
    (onSecond : row ∈ page size second (orders second)) : ¬ (walk size count orders).Nodup := by
  intro nodup
  have disjoint := List.pairwise_iff_getElem.mp (List.nodup_flatMap.mp nodup).2 first second
    (by simp only [List.length_range]; omega) (by simpa using within) ordered
  simp only [List.getElem_range] at disjoint
  exact disjoint onFirst onSecond

/-- Where a page cuts a tie, some choice of orderings shows a row twice. -/
theorem exists_not_nodup (cut : CutsTie key rows size) (covers : rows.length ≤ count * size) :
    ∃ orders, (∀ number, IsOrdering key rows (orders number)) ∧
      ¬ (walk size count orders).Nodup := by
  obtain ⟨number, value, above, reaching⟩ := cut
  obtain ⟨last, next⟩ : ∃ last, number * size = last + 1 := ⟨number * size - 1, by omega⟩
  obtain ⟨previous, rfl⟩ : ∃ previous, number = previous + 1 :=
    Nat.exists_eq_add_one_of_ne_zero (by rintro rfl; simp at next)
  let order := rows.insertionSort fun first second => key second ≤ key first
  have ordering : IsOrdering key rows order :=
    ⟨List.perm_insertionSort _ rows, List.pairwise_insertionSort _ rows⟩
  have length := ordering.perm.length_eq
  have total := List.countP_le_length (l := rows) (p := fun row => decide (value ≤ key row))
  have bound : last + 1 < order.length := by omega
  have key_eq {position : ℕ} (within : position < order.length) (low : last ≤ position)
      (high : position ≤ last + 1) : key order[position] = value :=
    le_antisymm
      (not_lt.mp fun exceeds => by have := (ordering.lt_key_iff within value).mp exceeds; omega)
      ((ordering.le_key_iff within value).mpr (by omega))
  have split : order =
      order.take last ++ order[last] :: order[last + 1] :: order.drop (last + 2) := by
    rw [← List.drop_eq_getElem_cons, ← List.drop_eq_getElem_cons, List.take_append_drop]
  let swapped := order.take last ++ order[last + 1] :: order[last] :: order.drop (last + 2)
  have swappedOrdering : IsOrdering key rows swapped := by
    apply IsOrdering.swap (split ▸ ordering)
    rw [key_eq _ le_rfl (by omega), key_eq bound (by omega) le_rfl]
  have rest : swapped.drop (last + 1) = order[last] :: order.drop (last + 2) := by
    have taken : (order.take last).length = last := by rw [List.length_take]; omega
    simp [swapped, List.drop_append, taken]
  -- The pages up to the cut come from one ordering, the others from the second.
  refine ⟨fun number => if number ≤ previous then order else swapped, ?_, ?_⟩
  · intro number
    dsimp only
    split
    · exact ordering
    · exact swappedOrdering
  · have fits : previous + 1 < count := by
      by_contra beyond
      have := Nat.mul_le_mul_right size (not_lt.mp beyond)
      omega
    have sized : 0 < size := Nat.pos_of_ne_zero (by rintro rfl; simp at next)
    have onPrevious : order[last] ∈ page size previous order :=
      getElem_mem_page _ (by rw [Nat.succ_mul] at next; omega) (by omega)
    have onNext : order[last] ∈ page size (previous + 1) swapped := by
      rw [page, next, rest]
      exact List.mem_take_iff_getElem.mpr ⟨0, by simpa using sized, rfl⟩
    refine not_nodup_walk order[last] (Nat.lt_succ_self previous) fits ?_ ?_
    · rwa [if_pos le_rfl]
    · rwa [if_neg (Nat.not_succ_le_self previous)]

end Pagination

import Mathlib.Data.List.Perm.Basic
import Mathlib.Data.Prod.Lex
import Mathlib.Order.Defs.LinearOrder

/-!
# The first accepted pair of a list

Two nested loops search a list for two elements that a test accepts, the later
element in the inner loop.  In a list sorted by a key the pair they find has the
least keys.
-/

namespace FirstPair

variable {α β : Type*}

/-- `for i: for j > i: if accepts(i, j): return i, j` -/
def find (accepts : α → α → Bool) : List α → Option (α × α)
  | [] => none
  | first :: others =>
      match others.find? (accepts first) with
      | some second => some (first, second)
      | none => find accepts others

theorem find_eq_none_iff {accepts : α → α → Bool} {elements : List α} :
    find accepts elements = none ↔
      elements.Pairwise fun first second => accepts first second = false := by
  induction elements with
  | nil => simp [find]
  | cons first others ih =>
      rw [find, List.pairwise_cons, ← ih]
      cases partner : others.find? (accepts first) with
      | none =>
          have rejected : ∀ second ∈ others, accepts first second = false := by
            simpa using List.find?_eq_none.mp partner
          exact (and_iff_right rejected).symm
      | some second =>
          have accepted := List.find?_some partner
          have member := List.mem_of_find?_eq_some partner
          simp only [reduceCtorEq, false_iff, not_and]
          intro rejected
          rw [rejected second member] at accepted
          cases accepted

theorem find_eq_some {accepts : α → α → Bool} {elements : List α} {first second : α}
    (found : find accepts elements = some (first, second)) :
    accepts first second = true ∧ List.Sublist [first, second] elements := by
  induction elements with
  | nil => cases found
  | cons head others ih =>
      simp only [find] at found
      split at found
      · rename_i partner partnerEq
        cases found
        have partnerMem := List.mem_of_find?_eq_some partnerEq
        exact ⟨List.find?_some partnerEq, (List.singleton_sublist.mpr partnerMem).cons_cons _⟩
      · have ⟨accepted, sublist⟩ := ih found
        exact ⟨accepted, sublist.cons head⟩

/-- In a sorted list the elements before another are those with lower keys. -/
theorem pairwise_iff_of_sorted [LinearOrder β] {key : α → β} {elements : List α}
    (sorted : elements.Pairwise fun first second => key first < key second)
    {relation : α → α → Prop} :
    elements.Pairwise relation ↔ ∀ first ∈ elements, ∀ second ∈ elements,
      key first < key second → relation first second := by
  constructor
  · intro related
    induction elements with
    | nil => simp
    | cons head others ih =>
        obtain ⟨beforeOthers, sortedOthers⟩ := List.pairwise_cons.mp sorted
        obtain ⟨headRelated, othersRelated⟩ := List.pairwise_cons.mp related
        intro first firstMem second secondMem ordered
        obtain rfl | secondLater := List.mem_cons.mp secondMem
        · obtain rfl | firstLater := List.mem_cons.mp firstMem
          · exact absurd ordered (lt_irrefl _)
          · exact absurd ordered (beforeOthers first firstLater).asymm
        · obtain rfl | firstLater := List.mem_cons.mp firstMem
          · exact headRelated second secondLater
          · exact ih sortedOthers othersRelated first firstLater second secondLater ordered
  · intro related
    exact sorted.imp_of_mem fun firstMem secondMem => related _ firstMem _ secondMem

/-- An element of a sorted list that passes a test does not precede the first
one that does. -/
theorem find?_least [LinearOrder β] {key : α → β} {elements : List α}
    (sorted : elements.Pairwise fun first second => key first < key second)
    {test : α → Bool} {found other : α} (foundEq : elements.find? test = some found)
    (member : other ∈ elements) (passes : test other = true) : key found ≤ key other := by
  obtain ⟨-, earlier, later, rfl, rejected⟩ := List.find?_eq_some_iff_append.mp foundEq
  rw [List.pairwise_append, List.pairwise_cons] at sorted
  obtain ⟨-, ⟨afterFound, -⟩, -⟩ := sorted
  obtain inEarlier | rfl | inLater := by simpa using member
  · exact absurd passes (by simpa using rejected other inEarlier)
  · exact le_rfl
  · exact (afterFound other inLater).le

/-- The pair found in a sorted list comes first, by its first element and then
by its second. -/
theorem find_least [LinearOrder β] {key : α → β} {elements : List α}
    (sorted : elements.Pairwise fun first second => key first < key second)
    {accepts : α → α → Bool} {first second : α}
    (found : find accepts elements = some (first, second)) {one other : α}
    (oneMember : one ∈ elements) (otherMember : other ∈ elements) (ordered : key one < key other)
    (accepted : accepts one other = true) :
    toLex (key first, key second) ≤ toLex (key one, key other) := by
  rw [Prod.Lex.toLex_le_toLex]
  induction elements with
  | nil => cases oneMember
  | cons head others ih =>
      obtain ⟨beforeOthers, sortedOthers⟩ := List.pairwise_cons.mp sorted
      have otherLater : other ∈ others := by
        apply (List.mem_cons.mp otherMember).resolve_left
        rintro rfl
        obtain rfl | oneLater := List.mem_cons.mp oneMember
        · exact lt_irrefl _ ordered
        · exact lt_asymm ordered (beforeOthers one oneLater)
      simp only [find] at found
      split at found
      · rename_i partner partnerEq
        cases found
        obtain rfl | oneLater := List.mem_cons.mp oneMember
        · exact .inr ⟨rfl, find?_least sortedOthers partnerEq otherLater accepted⟩
        · exact .inl (beforeOthers one oneLater)
      · rename_i alone
        obtain rfl | oneLater := List.mem_cons.mp oneMember
        · exact absurd accepted (List.find?_eq_none.mp alone other otherLater)
        · exact ih sortedOthers found oneLater otherLater

end FirstPair

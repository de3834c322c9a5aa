import Mathlib.Data.List.Nodup
import Mathlib.Data.List.Perm.Basic

/-!
# Dictionaries of lists

A dictionary whose values are lists, with its entries in the order of their
insertion.  `dict.setdefault(key, []).append(value)` is its only way to grow
from the outside; a list taken out of it may also be extended in place.
-/

structure ListDict (K V : Type*) where
  entries : List (K × List V) := []
  nodup : (entries.map Prod.fst).Nodup := by simp

namespace ListDict

variable {K V : Type*}

def keys (dict : ListDict K V) : List K := dict.entries.map Prod.fst

/-- The values of all keys that satisfy a test, key after key. -/
def valuesWhere (dict : ListDict K V) (test : K → Bool) : List V :=
  dict.entries.flatMap fun entry => if test entry.1 then entry.2 else []

/-- The entry of a key that is present, and entries of other keys. -/
theorem exists_entry (dict : ListDict K V) {key : K} (present : key ∈ dict.keys) :
    ∃ earlier values later, dict.entries = earlier ++ (key, values) :: later ∧
      (∀ entry ∈ earlier, entry.1 ≠ key) ∧ ∀ entry ∈ later, entry.1 ≠ key := by
  obtain ⟨⟨first, values⟩, member, rfl⟩ := List.mem_map.mp present
  obtain ⟨earlier, later, split⟩ := List.append_of_mem member
  have nodup := dict.nodup
  rw [split, List.map_append, List.map_cons, List.nodup_append, List.nodup_cons] at nodup
  obtain ⟨-, ⟨notLater, -⟩, notEarlier⟩ := nodup
  refine ⟨earlier, values, later, split, ?_, ?_⟩
  · intro entry inEarlier
    exact notEarlier _ (List.mem_map_of_mem inEarlier) _ List.mem_cons_self
  · intro entry inLater same
    exact notLater (same ▸ List.mem_map_of_mem inLater)

variable [DecidableEq K]

/-- `dict.get(key, [])` -/
def get (dict : ListDict K V) (key : K) : List V := (dict.entries.lookup key).getD []

/-- `dict[key] = []` unless the key is present. -/
def setDefault (dict : ListDict K V) (key : K) : ListDict K V :=
  if present : key ∈ dict.keys then dict
  else
    { entries := dict.entries ++ [(key, [])]
      nodup := by
        rw [List.map_append, List.map_singleton]
        refine List.nodup_append.mpr ⟨dict.nodup, List.nodup_singleton key, ?_⟩
        rintro other member _ isKey rfl
        have isKey : other = key := List.mem_singleton.mp isKey
        exact present (isKey ▸ member) }

/-- `dict[key].extend(values)` for a key that is present. -/
def extend (dict : ListDict K V) (key : K) (values : List V) : ListDict K V where
  entries := dict.entries.map fun entry =>
    if entry.1 = key then (entry.1, entry.2 ++ values) else entry
  nodup := by
    have same : (Prod.fst ∘ fun entry : K × List V =>
        if entry.1 = key then (entry.1, entry.2 ++ values) else entry) = Prod.fst := by
      funext entry
      by_cases isKey : entry.1 = key <;> simp [isKey]
    rw [List.map_map, same]
    exact dict.nodup

def append (dict : ListDict K V) (key : K) (value : V) : ListDict K V :=
  (dict.setDefault key).extend key [value]

theorem get_eq_valuesWhere (dict : ListDict K V) (key : K) :
    dict.get key = dict.valuesWhere fun other => decide (other = key) := by
  unfold get valuesWhere
  by_cases present : key ∈ dict.keys
  · obtain ⟨earlier, values, later, split, notEarlier, notLater⟩ := dict.exists_entry present
    have before : earlier.lookup key = none :=
      List.lookup_eq_none_iff.mpr fun entry member => by
        simpa using (notEarlier entry member).symm
    have nothing {entries : List (K × List V)} (others : ∀ entry ∈ entries, entry.1 ≠ key) :
        (entries.flatMap fun entry => if decide (entry.1 = key) then entry.2 else []) = [] :=
      List.flatMap_eq_nil_iff.mpr fun entry member => by simp [others entry member]
    rw [split, List.lookup_append, before, List.flatMap_append, List.flatMap_cons,
      nothing notEarlier, nothing notLater]
    simp
  · have none : dict.entries.lookup key = none :=
      List.lookup_eq_none_iff.mpr fun entry member => by
        have different : entry.1 ≠ key := by
          rintro rfl
          exact present (List.mem_map_of_mem member)
        simpa using different.symm
    rw [none, Option.getD_none, eq_comm]
    apply List.flatMap_eq_nil_iff.mpr
    intro entry member
    apply if_neg
    rintro same
    exact present (of_decide_eq_true same ▸ List.mem_map_of_mem member)

theorem keys_extend (dict : ListDict K V) (key : K) (values : List V) :
    (dict.extend key values).keys = dict.keys := by
  simp only [keys, extend, List.map_map]
  apply List.map_congr_left
  intro entry _
  by_cases isKey : entry.1 = key <;> simp [isKey]

theorem mem_keys_setDefault_iff (dict : ListDict K V) (key other : K) :
    other ∈ (dict.setDefault key).keys ↔ other ∈ dict.keys ∨ other = key := by
  unfold setDefault
  split
  · rename_i present
    exact ⟨Or.inl, fun either => either.elim id fun same => same ▸ present⟩
  · simp [keys]

theorem mem_keys_append (dict : ListDict K V) (key other : K) (value : V) :
    other ∈ (dict.append key value).keys ↔ other ∈ dict.keys ∨ other = key := by
  rw [append, keys_extend, mem_keys_setDefault_iff]

/-- Only values added to a key that is present are kept. -/
theorem extend_eq_self_iff (dict : ListDict K V) (key : K) (values : List V) :
    dict.extend key values = dict ↔ key ∉ dict.keys ∨ values = [] := by
  constructor
  · intro same
    apply or_iff_not_imp_left.mpr
    intro present
    obtain ⟨earlier, listed, later, split, notEarlier, -⟩ :=
      dict.exists_entry (not_not.mp present)
    have listedTwice : (key, listed ++ values) ∈ dict.entries := by
      rw [← same]
      refine List.mem_map.mpr ⟨(key, listed), ?_, if_pos rfl⟩
      rw [split]
      exact List.mem_append_right _ List.mem_cons_self
    have listedOnce : (key, listed) ∈ dict.entries := by
      rw [split]
      exact List.mem_append_right _ List.mem_cons_self
    have equal := List.inj_on_of_nodup_map dict.nodup listedTwice listedOnce rfl
    exact List.append_right_eq_self.mp (Prod.mk.inj equal).2
  · intro trivial
    suffices entries : (dict.extend key values).entries = dict.entries by
      obtain ⟨_, _⟩ := dict
      unfold extend at entries ⊢
      simpa using entries
    refine (List.map_congr_left ?_).trans (List.map_id _)
    intro entry member
    obtain absent | rfl := trivial
    · have different : entry.1 ≠ key := fun same =>
        absent (same ▸ List.mem_map_of_mem member)
      simp [different]
    · simp

theorem valuesWhere_setDefault (dict : ListDict K V) (key : K) (test : K → Bool) :
    (dict.setDefault key).valuesWhere test = dict.valuesWhere test := by
  unfold setDefault
  split
  · rfl
  · simp [valuesWhere]

/-- Extending one list adds its new values to those of the tests its key
passes. -/
theorem valuesWhere_extend (dict : ListDict K V) {key : K} (present : key ∈ dict.keys)
    (values : List V) (test : K → Bool) :
    ((dict.extend key values).valuesWhere test).Perm
      (dict.valuesWhere test ++ if test key then values else []) := by
  obtain ⟨earlier, listed, later, split, notEarlier, notLater⟩ := dict.exists_entry present
  have unchanged {entries : List (K × List V)} (others : ∀ entry ∈ entries, entry.1 ≠ key) :
      (entries.map fun entry => if entry.1 = key then (entry.1, entry.2 ++ values) else entry) =
        entries := by
    refine (List.map_congr_left ?_).trans (List.map_id entries)
    intro entry member
    simp [others entry member]
  unfold valuesWhere extend
  simp only [split, List.map_append, List.map_cons, unchanged notEarlier, unchanged notLater,
    if_true, List.flatMap_append, List.flatMap_cons]
  cases test key
  · simp
  · simp only [if_true, List.append_assoc]
    exact (List.perm_append_comm.append_left listed).append_left _

/-- Extending one list adds values to no other list. -/
theorem mem_get_extend {dict : ListDict K V} {key other : K}
    {values : List V} {value : V} (member : value ∈ (dict.extend key values).get other) :
    value ∈ dict.get other ∨ other = key ∧ value ∈ values := by
  by_cases present : key ∈ dict.keys
  · rw [get_eq_valuesWhere,
      (dict.valuesWhere_extend present values _).mem_iff, List.mem_append,
      ← get_eq_valuesWhere] at member
    apply member.imp_right
    intro added
    by_cases same : key = other
    · exact ⟨same.symm, by simpa [same] using added⟩
    · simp [same] at added
  · rw [(dict.extend_eq_self_iff key values).mpr (.inl present)] at member
    exact .inl member

theorem valuesWhere_append (dict : ListDict K V) (key : K) (value : V) (test : K → Bool) :
    ((dict.append key value).valuesWhere test).Perm
      (dict.valuesWhere test ++ if test key then [value] else []) := by
  have extended := valuesWhere_extend (dict.setDefault key)
    ((mem_keys_setDefault_iff dict key key).mpr (Or.inr rfl)) [value]
    test
  rwa [valuesWhere_setDefault] at extended

end ListDict

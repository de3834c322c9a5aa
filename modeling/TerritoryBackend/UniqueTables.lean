import Mathlib.Data.List.Pairwise

/-!
# Tables with unique columns

Rows are inserted by transactions that may be open at the same time.  An insert
fails when a committed row has the same value in a unique column, and it waits for
the transaction of an uncommitted row that has.  A transaction ends by committing
its row or by taking it back.

Nothing in this file depends on the program being run.
-/

/-- The committed rows, and those inserted by transactions that are still open. -/
structure UniqueTable (ρ : Type*) where
  committed : List ρ := []
  uncommitted : List ρ := []

namespace UniqueTable

variable {ρ κ : Type*}

/-- What becomes of an insert. -/
inductive Insertion (ρ : Type*) where
  | waits
  | violates
  | inserted (table : UniqueTable ρ)

def rows (table : UniqueTable ρ) : List ρ := table.committed ++ table.uncommitted

/-- Two rows have the same value in one of the columns. -/
def Clash (columns : List (ρ → κ)) (first second : ρ) : Prop :=
  ∃ column ∈ columns, column first = column second

instance [DecidableEq κ] (columns : List (ρ → κ)) : DecidableRel (Clash columns) :=
  fun first second => inferInstanceAs (Decidable (∃ column ∈ columns, column first = column second))

/-- No two rows clash, committed or not. -/
def Consistent (columns : List (ρ → κ)) (table : UniqueTable ρ) : Prop :=
  table.rows.Pairwise fun first second => ¬ Clash columns first second

def insert [DecidableEq κ] (columns : List (ρ → κ)) (table : UniqueTable ρ) (row : ρ) :
    Insertion ρ :=
  if ∃ other ∈ table.committed, Clash columns row other then .violates
  else if ∃ other ∈ table.uncommitted, Clash columns row other then .waits
  else .inserted { table with uncommitted := row :: table.uncommitted }

/-- Commit a row the transaction has inserted. -/
def commit [DecidableEq ρ] (table : UniqueTable ρ) (row : ρ) : Option (UniqueTable ρ) :=
  if row ∈ table.uncommitted then
    some { committed := table.committed ++ [row], uncommitted := table.uncommitted.erase row }
  else none

def rollback [DecidableEq ρ] (table : UniqueTable ρ) (row : ρ) : UniqueTable ρ :=
  { table with uncommitted := table.uncommitted.erase row }

/-- An update of committed rows. -/
def update (table : UniqueTable ρ) (change : ρ → ρ) : UniqueTable ρ :=
  { table with committed := table.committed.map change }

/-- `SELECT ... WHERE column = value`: only committed rows are seen. -/
def select [DecidableEq κ] (table : UniqueTable ρ) (column : ρ → κ) (value : κ) : Option ρ :=
  table.committed.find? fun row => column row == value

variable {columns : List (ρ → κ)} {table after : UniqueTable ρ} {row other : ρ}

theorem Clash.symm (clash : Clash columns row other) : Clash columns other row := by
  obtain ⟨column, member, same⟩ := clash
  exact ⟨column, member, same.symm⟩

/-- A row that is inserted clashes with no other. -/
theorem insert_eq_inserted [DecidableEq κ]
    (inserted : table.insert columns row = .inserted after) :
    (∀ other ∈ table.rows, ¬ Clash columns row other) ∧
      after = { table with uncommitted := row :: table.uncommitted } := by
  unfold insert at inserted
  split at inserted
  · cases inserted
  rename_i free
  split at inserted
  · cases inserted
  rename_i unclaimed
  cases inserted
  refine ⟨?_, rfl⟩
  intro other member clash
  rcases List.mem_append.mp member with committed | uncommitted
  · exact free ⟨other, committed, clash⟩
  · exact unclaimed ⟨other, uncommitted, clash⟩

theorem commit_eq_some [DecidableEq ρ] (commits : table.commit row = some after) :
    row ∈ table.uncommitted ∧
      after = { committed := table.committed ++ [row]
                uncommitted := table.uncommitted.erase row } := by
  unfold commit at commits
  split at commits
  · rename_i member
    exact ⟨member, (Option.some.inj commits).symm⟩
  · cases commits

theorem select_eq_some [DecidableEq κ] {column : ρ → κ} {value : κ}
    (selects : table.select column value = some row) :
    row ∈ table.committed ∧ column row = value := by
  have member := List.mem_of_find?_eq_some selects
  have found := List.find?_some selects
  exact ⟨member, by simpa using found⟩

theorem select_eq_none [DecidableEq κ] {column : ρ → κ} {value : κ}
    (missing : table.select column value = none) (member : row ∈ table.committed) :
    column row ≠ value := by
  have differs := List.find?_eq_none.mp missing row member
  simpa using differs

theorem consistent_of_perm (consistent : Consistent columns table)
    (same : after.rows.Perm table.rows) : Consistent columns after := by
  have symmetric {first second : ρ} (apart : ¬ Clash columns first second) :
      ¬ Clash columns second first := fun clash => apart clash.symm
  exact (same.pairwise_iff symmetric).mpr consistent

theorem Consistent.insert [DecidableEq κ] (consistent : Consistent columns table)
    (inserted : table.insert columns row = .inserted after) : Consistent columns after := by
  obtain ⟨free, rfl⟩ := insert_eq_inserted inserted
  have grown : Consistent columns ⟨row :: table.committed, table.uncommitted⟩ := by
    unfold Consistent rows
    rw [List.cons_append]
    exact List.pairwise_cons.mpr ⟨free, consistent⟩
  exact consistent_of_perm grown List.perm_middle

theorem Consistent.commit [DecidableEq ρ] (consistent : Consistent columns table)
    (commits : table.commit row = some after) : Consistent columns after := by
  obtain ⟨member, rfl⟩ := commit_eq_some commits
  apply consistent_of_perm consistent
  unfold rows
  rw [List.append_assoc]
  exact (List.perm_cons_erase member).symm.append_left table.committed

theorem Consistent.rollback [DecidableEq ρ] (consistent : Consistent columns table) (row : ρ) :
    Consistent columns (table.rollback row) :=
  consistent.sublist (List.erase_sublist.append_left table.committed)

/-- An update of other columns keeps the table consistent. -/
theorem Consistent.update (consistent : Consistent columns table) {change : ρ → ρ}
    (kept : ∀ row, ∀ column ∈ columns, column (change row) = column row) :
    Consistent columns (table.update change) := by
  have kept' {first second : ρ} : Clash columns (change first) second → Clash columns first second
    | ⟨column, member, same⟩ => ⟨column, member, (kept first column member).symm.trans same⟩
  obtain ⟨among, left, between⟩ := List.pairwise_append.mp consistent
  refine List.pairwise_append.mpr ⟨List.pairwise_map.mpr (among.imp ?_), left, ?_⟩
  · intro first second apart clash
    exact apart (kept' (kept' clash).symm).symm
  · intro first changed second member clash
    obtain ⟨origin, known, rfl⟩ := List.mem_map.mp changed
    exact between origin known second member (kept' clash)

/-- A committed row is known by its value in a column. -/
theorem Consistent.eq_of_column (consistent : Consistent columns table) (column : ρ → κ)
    (unique : column ∈ columns) (first : row ∈ table.committed) (second : other ∈ table.committed)
    (same : column row = column other) : row = other := by
  by_contra different
  have symmetric : Std.Symm fun first second : ρ => ¬ Clash columns first second :=
    ⟨fun _ _ apart clash => apart clash.symm⟩
  have committed := (List.pairwise_append.mp consistent).1
  exact committed.forall first second different ⟨column, unique, same⟩

/-- A committed row clashes with no uncommitted one. -/
theorem Consistent.apart (consistent : Consistent columns table) (committed : row ∈ table.committed)
    (uncommitted : other ∈ table.uncommitted) : ¬ Clash columns row other :=
  (List.pairwise_append.mp consistent).2.2 row committed other uncommitted

end UniqueTable

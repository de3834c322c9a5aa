import Mathlib.Logic.Function.Basic

/-!
# Typed keys in a store of names

A client of a key-value store thinks of keys of several kinds, each with its own type
of values.  The store only knows names and untyped values, and a command that finds a
value of another kind fails.  As long as different keys have different names, atomic
programs on the keys do the same on the names, and they never fail.

Nothing in this file depends on the program being run.
-/

/-- An atomic program: it reads and writes one key after another, each write depending
on the value it replaces, and answers in the end. -/
inductive KeyProgram {K : Type*} (V : K → Type*) (ρ : Type*) where
  | done (answer : ρ)
  | access (key : K) (write : Option (V key) → Option (V key))
      (next : Option (V key) → KeyProgram V ρ)

/-- The names of the keys, and the values as the store keeps them. -/
structure Keyspace {K : Type*} (V : K → Type*) (ν β : Type*) where
  name : K → ν
  wrap : (key : K) → V key → β
  unwrap : (key : K) → β → Option (V key)
  /-- the keys programs may use -/
  Usable : K → Prop
  unwrap_wrap : ∀ key value, unwrap key (wrap key value) = some value
  name_injective : ∀ first second, Usable first → Usable second → name first = name second →
    first = second

namespace KeyProgram

variable {K : Type*} {V : K → Type*} {ν β ρ : Type*}

/-- What the program does to the keys. -/
def run [DecidableEq K] : KeyProgram V ρ → (∀ key, Option (V key)) → ρ × ∀ key, Option (V key)
  | .done answer, values => (answer, values)
  | .access key write next, values =>
      (next (values key)).run (Function.update values key (write (values key)))

/-- What the program does to the names, `none` when it fails. -/
def runNamed [DecidableEq ν] (space : Keyspace V ν β) :
    KeyProgram V ρ → (ν → Option β) → Option (ρ × (ν → Option β))
  | .done answer, store => some (answer, store)
  | .access key write next, store =>
      match store (space.name key) with
      | none =>
          (next none).runNamed space
            (Function.update store (space.name key) ((write none).map (space.wrap key)))
      | some value =>
          (space.unwrap key value).bind fun held =>
            (next (some held)).runNamed space
              (Function.update store (space.name key) ((write (some held)).map (space.wrap key)))

/-- The program only uses such keys. -/
def Within (allowed : K → Prop) : KeyProgram V ρ → Prop
  | .done _ => True
  | .access key _ next => allowed key ∧ ∀ held, (next held).Within allowed

/-- One program after another, with the answers of both. -/
def runAll [DecidableEq K] (values : ∀ key, Option (V key)) :
    List (KeyProgram V ρ) → List ρ × ∀ key, Option (V key)
  | [] => ([], values)
  | program :: programs =>
      let done := program.run values
      let rest := runAll done.2 programs
      (done.1 :: rest.1, rest.2)

def runAllNamed [DecidableEq ν] (space : Keyspace V ν β) (store : ν → Option β) :
    List (KeyProgram V ρ) → Option (List ρ × (ν → Option β))
  | [] => some ([], store)
  | program :: programs =>
      (program.runNamed space store).bind fun done =>
        (runAllNamed space done.2 programs).map fun rest => (done.1 :: rest.1, rest.2)

theorem runAll_append [DecidableEq K] (values : ∀ key, Option (V key))
    (programs others : List (KeyProgram V ρ)) :
    runAll values (programs ++ others) =
      ((runAll values programs).1 ++ (runAll (runAll values programs).2 others).1,
        (runAll (runAll values programs).2 others).2) := by
  induction programs generalizing values with
  | nil => rfl
  | cons program programs ih => simp [runAll, ih]

end KeyProgram

namespace Keyspace

variable {K : Type*} {V : K → Type*} {ν β ρ : Type*} {space : Keyspace V ν β}
  {original store : ν → Option β} {values : ∀ key, Option (V key)}

/-- The store has the values of the keys under their names, and what it had before
under all other names. -/
structure Represents (space : Keyspace V ν β) (original store : ν → Option β)
    (values : ∀ key, Option (V key)) : Prop where
  keys : ∀ key, space.Usable key → store (space.name key) = (values key).map (space.wrap key)
  others : ∀ name, (∀ key, space.Usable key → space.name key ≠ name) →
    store name = original name

theorem Represents.update [DecidableEq K] [DecidableEq ν]
    (represents : space.Represents original store values) {key : K} (usable : space.Usable key)
    (value : Option (V key)) :
    space.Represents original
      (Function.update store (space.name key) (value.map (space.wrap key)))
      (Function.update values key value) where
  keys other otherUsable := by
    by_cases same : other = key
    · subst same
      simp
    · have different : space.name other ≠ space.name key :=
        fun named => same (space.name_injective other key otherUsable usable named)
      rw [Function.update_of_ne different, Function.update_of_ne same]
      exact represents.keys other otherUsable
  others name unused := by
    rw [Function.update_of_ne fun named => unused key usable named.symm]
    exact represents.others name unused

/-- A program does on the names what it does on the keys. -/
theorem Represents.runNamed [DecidableEq K] [DecidableEq ν] {program : KeyProgram V ρ}
    (represents : space.Represents original store values)
    (within : program.Within space.Usable) :
    ∃ after, program.runNamed space store = some ((program.run values).1, after) ∧
      space.Represents original after (program.run values).2 := by
  induction program generalizing store values with
  | done answer => exact ⟨store, rfl, represents⟩
  | access key write next ih =>
      have held := represents.keys key within.1
      have written := represents.update within.1 (write (values key))
      obtain ⟨after, runs, later⟩ := ih (values key) written (within.2 _)
      refine ⟨after, ?_, later⟩
      rw [KeyProgram.run, ← runs, KeyProgram.runNamed]
      cases stored : values key with
      | none => simp [held, stored]
      | some value => simp [held, stored, space.unwrap_wrap]

/-- Programs one after another do on the names what they do on the keys. -/
theorem Represents.runAllNamed [DecidableEq K] [DecidableEq ν]
    {programs : List (KeyProgram V ρ)} (represents : space.Represents original store values)
    (within : ∀ program ∈ programs, program.Within space.Usable) :
    ∃ after, KeyProgram.runAllNamed space store programs =
        some ((KeyProgram.runAll values programs).1, after) ∧
      space.Represents original after (KeyProgram.runAll values programs).2 := by
  induction programs generalizing store values with
  | nil => exact ⟨store, rfl, represents⟩
  | cons program programs ih =>
      obtain ⟨middle, first, between⟩ := represents.runNamed (within program List.mem_cons_self)
      obtain ⟨after, rest, later⟩ :=
        ih between fun other member => within other (List.mem_cons_of_mem _ member)
      exact ⟨after, by simp [KeyProgram.runAllNamed, KeyProgram.runAll, first, rest], later⟩

end Keyspace

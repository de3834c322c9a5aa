import Mathlib.Data.Option.Basic

/-!
# Redis hashes with an expiry

A key holding a hash is absent, or has a value for some of its fields and
possibly a time to live.  `HSET` creates an absent key without an expiry and
keeps the expiry of a present one; `EXPIRE` only acts on a present key.  A
`MULTI`/`EXEC` pipeline is the composition of its commands.
-/

/-- A present hash key: its fields and its time to live in seconds. -/
structure RedisHash (F V : Type*) where
  fields : F → Option V
  ttl : Option Nat := none

namespace RedisHash

variable {F V : Type*}

/-- `HSET key mapping` -/
def hset (updates : F → Option V) (key : Option (RedisHash F V)) : Option (RedisHash F V) :=
  some
    { fields := fun field => (updates field).or (key.bind fun hash => hash.fields field)
      ttl := key.bind RedisHash.ttl }

/-- `EXPIRE key seconds` -/
def expire (seconds : Nat) (key : Option (RedisHash F V)) : Option (RedisHash F V) :=
  key.map fun hash => { hash with ttl := some seconds }

/-- The server deletes a key whose time to live has run out; a key without one
never goes away by itself. -/
def lapse (key : Option (RedisHash F V)) : Option (RedisHash F V) :=
  key.filter fun hash => hash.ttl.isNone

@[simp]
theorem hset_some (updates : F → Option V) (hash : RedisHash F V) :
    hset updates (some hash) =
      some ⟨fun field => (updates field).or (hash.fields field), hash.ttl⟩ := rfl

@[simp]
theorem hset_none (updates : F → Option V) :
    hset updates none = some ⟨updates, none⟩ := by
  simp [hset]

@[simp]
theorem expire_some (seconds : Nat) (hash : RedisHash F V) :
    expire seconds (some hash) = some ⟨hash.fields, some seconds⟩ := rfl

end RedisHash

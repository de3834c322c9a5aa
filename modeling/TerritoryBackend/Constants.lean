import Mathlib.Data.Rat.Defs

/-!
# Constants, enumerations and settings

The enumerations of `app/utils/constants.py` with the strings they serialize
to, the board constants, and the part of `app/config.py` the modelled code
reads.  Settings are loaded from the environment, so every value is arbitrary
here.
-/

namespace TerritoryBackend

abbrev PlayerId := String
abbrev RoomId := String
abbrev ConnectionId := String
abbrev InstanceId := String

/-- A reading of `time.time()`, in seconds. -/
abbrev Time := ℚ

def boardSize : Nat := 10

/-- `MAX_TURNS`, the safety cap of a game. -/
def maxTurns : Nat := 100

inductive GameStatus where
  | waiting
  | inProgress
  | paused
  | finished
  | abandoned
  deriving DecidableEq, Repr

namespace GameStatus

/-- The string a status compares equal to and is serialized as. -/
def value : GameStatus → String
  | waiting => "waiting"
  | inProgress => "in_progress"
  | paused => "paused"
  | finished => "finished"
  | abandoned => "abandoned"

def ofValue (text : String) : Option GameStatus :=
  [waiting, inProgress, paused, finished, abandoned].find? fun status => status.value == text

@[simp]
theorem ofValue_value (status : GameStatus) : ofValue status.value = some status := by
  cases status <;> decide

end GameStatus

inductive RoomStatus where
  | open
  | full
  | inGame
  | closed
  deriving DecidableEq, Repr

def RoomStatus.value : RoomStatus → String
  | .open => "open"
  | .full => "full"
  | .inGame => "in_game"
  | .closed => "closed"

inductive PlayerConnectionState where
  | connected
  | disconnected
  | reconnecting
  | inMatchmaking
  | inGame
  deriving DecidableEq, Repr

def PlayerConnectionState.value : PlayerConnectionState → String
  | .connected => "connected"
  | .disconnected => "disconnected"
  | .reconnecting => "reconnecting"
  | .inMatchmaking => "in_matchmaking"
  | .inGame => "in_game"

/-- How deep lists and dictionaries may nest in a value: for an f-string, which raises
`RecursionError` beyond what the call stack leaves it, for `orjson.dumps`, and for
`model_dump`, which takes a value that is deeper still for a circular one.  The messages
of the server itself have five levels at most. -/
structure NestingLimits where
  format : Nat
  write : Nat
  dump : Nat
  flat : 5 ≤ write
  dumps : write ≤ dump

/-- The limits of the libraries, and of an f-string with most of the stack left. -/
def NestingLimits.standard : NestingLimits where
  format := 900
  write := 254
  dump := 256
  flat := by decide
  dumps := by decide

/-- The fields of `Settings` read by the modelled services, and what the libraries
allow. -/
structure Settings where
  instanceId : InstanceId
  matchmakingIntervalMs : Nat := 500
  eloToleranceBase : Int := 100
  eloToleranceExpansionPerSec : Int := 10
  eloToleranceMax : Int := 500
  sessionTtlSec : Nat := 3600
  reconnectGracePeriodSec : Nat := 30
  stateSnapshotIntervalSec : Nat := 2
  nesting : NestingLimits := .standard

end TerritoryBackend

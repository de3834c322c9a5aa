import TerritoryBackend.NamedStores
import TerritoryBackend.RecoveryPoints
import TerritoryBackend.RequestLimits

/-!
# The one keyspace of Redis

Sessions, rooms, snapshots, the queue, heartbeats and rate limits all live in one Redis
under the names of `RedisKey` in `app/utils/constants.py` and of `check_rate_limit`.
The other modules give each of them a table of its own.  Here the commands run on the
names: whatever the server, the rate limiters and the heartbeats do in between, no two
of them meet under one name.  A room identifier with a colon in it could make them meet;
the ones `_create_match` draws have none.
-/

namespace TerritoryBackend

open EventLoop

inductive RedisKey where
  | session (player : PlayerId)
  | room (room : RoomId)
  | roomState (room : RoomId)
  | matchmakingQueue
  | matchmakingTimestamps
  | playerRoom (player : PlayerId)
  | instanceHeartbeat (instanceId : InstanceId)
  | rateLimit (limited : Limited)
  deriving DecidableEq

/-- A value as Redis keeps it.  The kinds are finer than the types a command checks. -/
inductive RedisValue where
  | sessionHash (hash : RedisHash SessionField RedisText)
  | roomHash (fields : RoomField → Option RedisText)
  | document (document : Json)
  | ratings (members : SortedSet PlayerId)
  | joinTimes (fields : Dict PlayerId Time)
  | text (text : String)
  | moment (time : Time)
  | calls (key : RateLimitKey)

namespace RedisKey

def text : RedisKey → String
  | .session player => "sess:" ++ player
  | .room roomId => "room:" ++ roomId
  | .roomState roomId => "room:" ++ roomId ++ ":state"
  | .matchmakingQueue => "mm:queue"
  | .matchmakingTimestamps => "mm:timestamps"
  | .playerRoom player => "player:" ++ player ++ ":room"
  | .instanceHeartbeat instanceId => "inst:" ++ instanceId ++ ":heartbeat"
  | .rateLimit limited => limited.key

abbrev Value : RedisKey → Type
  | .session _ => RedisHash SessionField RedisText
  | .room _ => RoomField → Option RedisText
  | .roomState _ => Json
  | .matchmakingQueue => SortedSet PlayerId
  | .matchmakingTimestamps => Dict PlayerId Time
  | .playerRoom _ => RoomId
  | .instanceHeartbeat _ => Time
  | .rateLimit _ => RateLimitKey

def wrap : (key : RedisKey) → key.Value → RedisValue
  | .session _, hash => .sessionHash hash
  | .room _, fields => .roomHash fields
  | .roomState _, document => .document document
  | .matchmakingQueue, members => .ratings members
  | .matchmakingTimestamps, fields => .joinTimes fields
  | .playerRoom _, roomId => .text roomId
  | .instanceHeartbeat _, time => .moment time
  | .rateLimit _, key => .calls key

/-- Commands on a value of another kind fail. -/
def unwrap : (key : RedisKey) → RedisValue → Option key.Value
  | .session _, .sessionHash hash => some hash
  | .room _, .roomHash fields => some fields
  | .roomState _, .document document => some document
  | .matchmakingQueue, .ratings members => some members
  | .matchmakingTimestamps, .joinTimes fields => some fields
  | .playerRoom _, .text roomId => some roomId
  | .instanceHeartbeat _, .moment time => some time
  | .rateLimit _, .calls key => some key
  | _, _ => none

/-- Identifiers of rooms have no colon. -/
def Usable : RedisKey → Prop
  | .room roomId => ':' ∉ roomId.toList
  | _ => True

theorem toList_text (key : RedisKey) :
    key.text.toList =
      match key with
      | .session player => 's' :: 'e' :: 's' :: 's' :: ':' :: player.toList
      | .room roomId => 'r' :: 'o' :: 'o' :: 'm' :: ':' :: roomId.toList
      | .roomState roomId =>
          'r' :: 'o' :: 'o' :: 'm' :: ':' :: (roomId.toList ++ [':', 's', 't', 'a', 't', 'e'])
      | .matchmakingQueue => ['m', 'm', ':', 'q', 'u', 'e', 'u', 'e']
      | .matchmakingTimestamps =>
          ['m', 'm', ':', 't', 'i', 'm', 'e', 's', 't', 'a', 'm', 'p', 's']
      | .playerRoom player =>
          'p' :: 'l' :: 'a' :: 'y' :: 'e' :: 'r' :: ':' ::
            (player.toList ++ [':', 'r', 'o', 'o', 'm'])
      | .instanceHeartbeat instanceId =>
          'i' :: 'n' :: 's' :: 't' :: ':' ::
            (instanceId.toList ++ [':', 'h', 'e', 'a', 'r', 't', 'b', 'e', 'a', 't'])
      | .rateLimit limited => limited.key.toList := by
  cases key <;> simp [text]

/-- Different keys have different names. -/
theorem text_injective {first second : RedisKey} (usable : first.Usable)
    (otherUsable : second.Usable) (same : first.text = second.text) : first = second := by
  have letters := congrArg String.toList same
  rw [toList_text, toList_text] at letters
  cases first <;> cases second <;>
    simp_all [Limited.toList_key, String.toList_inj, Usable]
  case roomState.room => exact otherUsable (by simp [← letters])
  case rateLimit.rateLimit => exact Limited.key_injective same

end RedisKey

def redisKeyspace : Keyspace RedisKey.Value String RedisValue where
  name := RedisKey.text
  wrap := RedisKey.wrap
  unwrap := RedisKey.unwrap
  Usable := RedisKey.Usable
  unwrap_wrap key value := by cases key <;> rfl
  name_injective _ _ := RedisKey.text_injective

/-- A pipeline, a script or a single command, with the verdict if it is a call of the
rate limiter. -/
abbrev RedisProgram := KeyProgram RedisKey.Value (Option Bool)

namespace RedisProgram

/-- A hash or a sorted set that has become empty is deleted. -/
def stored {α β : Type*} (dict : Dict α β) : Option (Dict α β) :=
  if dict.entries = [] then none else some dict

def modify (key : RedisKey) (command : Option key.Value → Option key.Value) : RedisProgram :=
  .access key command fun _ => .done none

def set (key : RedisKey) (value : key.Value) : RedisProgram := modify key fun _ => some value

def delete : List RedisKey → RedisProgram
  | [] => .done none
  | key :: keys => .access key (fun _ => none) fun _ => delete keys

/-- The pipeline of `enqueue_player`. -/
def enqueuePlayer (player : PlayerId) (eloRating : Int) (now : Time) : RedisProgram :=
  .access .matchmakingQueue (fun members => some ((members.getD ∅).insert player eloRating))
    fun _ => modify .matchmakingTimestamps fun fields => some ((fields.getD ∅).insert player now)

/-- The pipeline of `dequeue_player`. -/
def dequeuePlayer (player : PlayerId) : RedisProgram :=
  .access .matchmakingQueue (fun members => stored ((members.getD ∅).erase player))
    fun _ => modify .matchmakingTimestamps fun fields => stored ((fields.getD ∅).erase player)

/-- `MATCHMAKING_LUA` -/
def tryMatch (settings : Settings) (now : Time) : RedisProgram :=
  .access .matchmakingQueue id fun members =>
    .access .matchmakingTimestamps id fun fields =>
      match (MatchmakingQueue.tryMatch settings ⟨members.getD ∅, fields.getD ∅⟩ now).2 with
      | none => .done none
      | some pair =>
          .access .matchmakingQueue
            (fun members => stored (((members.getD ∅).erase pair.playerA).erase pair.playerB))
            fun _ => modify .matchmakingTimestamps fun fields =>
              stored (((fields.getD ∅).erase pair.playerA).erase pair.playerB)

def storeRoom (settings : Settings) (room : RoomId) (pair : MatchedPair) (now : Time) :
    RedisProgram :=
  modify (.room room) fun data => some fun field =>
    ((RedisRoom.ofPair settings room pair now).toDict field).or (data.bind fun data => data field)

/-- The pipeline of `check_rate_limit`. -/
def checkRateLimit (settings : RateLimitSettings) (limited : Limited) (call : RateLimitCall) :
    RedisProgram :=
  .access (.rateLimit limited)
    (fun key => (TerritoryBackend.checkRateLimit (limited.maxRequests settings)
      limited.windowSeconds key call).1)
    fun key => .done (some (TerritoryBackend.checkRateLimit (limited.maxRequests settings)
      limited.windowSeconds key call).2)

/-- `register_instance_heartbeat` -/
def registerInstanceHeartbeat (instanceId : InstanceId) (now : Time) : RedisProgram :=
  set (.instanceHeartbeat instanceId) now

end RedisProgram

/-- What an instruction of the server makes Redis do. -/
def Instr.program (settings : Settings) (now : Time) : Instr → Answer → RedisProgram
  | .attemptReconnectWrite player connection _, _ =>
      .modify (.session player) (SessionManager.attemptReconnect settings connection now)
  | .createSession player connection, _ =>
      .modify (.session player)
        (SessionManager.createSession settings player connection 1000 "" now)
  | .updateActivity player, _ =>
      .modify (.session player) (SessionManager.updateActivity settings now)
  | .updateSessionState player state room, _ =>
      .modify (.session player) (SessionManager.updateSessionState state room now)
  | .markDisconnectedWrite player _ _, _ =>
      .modify (.session player) (SessionManager.markDisconnected settings now)
  | .enqueuePlayer player eloRating, _ => .enqueuePlayer player eloRating now
  | .dequeuePlayer player _, _ => .dequeuePlayer player
  | .matchingLoop, .done => .tryMatch settings now
  | .storeRoom room pair, _ => .storeRoom settings room pair now
  | .setPlayerRoom player room, _ => .set (.playerRoom player) room
  | .setSnapshot room document, _ => .set (.roomState room) document
  | .deleteRoomKeys room playerIds, _ =>
      .delete (.room room :: .roomState room :: playerIds.map .playerRoom)
  | _, _ => .done none

/-- Keys whose time to live has run out. -/
def ServerEvent.program : ServerEvent → RedisProgram
  | .sessionExpires player => .modify (.session player) RedisHash.lapse
  | .playerRoomExpires player => .delete [.playerRoom player]
  | .roomStateExpires room => .delete [.roomState room]
  | _ => .done none

/-- What a step of the server makes Redis do. -/
def redisProgram (settings : Settings) (choice : ServerChoice) (config : ServerConfig) :
    RedisProgram :=
  match choice with
  | .resume _ answer =>
      match config.executed choice with
      | some instruction => instruction.program settings config.state.clock answer
      | none => .done none
  | .event event => event.program
  | .fail _ => .done none

/-- What a request or a frame makes Redis do; what is not limited passes. -/
def Traffic.program (limits : RateLimitSettings) (item : Traffic) : RedisProgram :=
  match item.limited with
  | some limited => .checkRateLimit limits limited item.call
  | none => .done (some true)

/-- Identifiers of rooms are drawn without a colon. -/
def DrawsPlain (choice : ServerChoice) (_ : ServerConfig) : Prop :=
  ∀ task room, choice = .resume task (.drawn room) → ':' ∉ room.toList

/-- A run of the server with traffic that is limited and heartbeats of instances in
between, the heartbeats that have not expired, and the programs all of them make Redis
run. -/
inductive SharedRun (settings : Settings) (limits : RateLimitSettings) (start : ServerConfig) :
    ServerConfig → List Traffic → (InstanceId → Option Time) → List RedisProgram → Prop where
  | start : SharedRun settings limits start start [] (fun _ => none) []
  | server {choice : ServerChoice} {before after : ServerConfig} {traffic : List Traffic}
      {heartbeats : InstanceId → Option Time} {programs : List RedisProgram}
      (earlier : SharedRun settings limits start before traffic heartbeats programs)
      (plain : DrawsPlain choice before)
      (step : (server settings).step choice before = some after) :
      SharedRun settings limits start after traffic heartbeats
        (programs ++ [redisProgram settings choice before])
  | traffic {config : ServerConfig} {traffic : List Traffic}
      {heartbeats : InstanceId → Option Time} {programs : List RedisProgram} (item : Traffic)
      (earlier : SharedRun settings limits start config traffic heartbeats programs) :
      SharedRun settings limits start config (traffic ++ [item]) heartbeats
        (programs ++ [item.program limits])
  | heartbeat {config : ServerConfig} {traffic : List Traffic}
      {heartbeats : InstanceId → Option Time} {programs : List RedisProgram}
      (instanceId : InstanceId) (now : Time)
      (earlier : SharedRun settings limits start config traffic heartbeats programs) :
      SharedRun settings limits start config traffic
        (Function.update heartbeats instanceId (some now))
        (programs ++ [.registerInstanceHeartbeat instanceId now])
  | heartbeatExpires {config : ServerConfig} {traffic : List Traffic}
      {heartbeats : InstanceId → Option Time} {programs : List RedisProgram}
      (instanceId : InstanceId)
      (earlier : SharedRun settings limits start config traffic heartbeats programs) :
      SharedRun settings limits start config traffic (Function.update heartbeats instanceId none)
        (programs ++ [.delete [.instanceHeartbeat instanceId]])

/-- The tables the other modules keep. -/
structure RedisTables where
  redis : Redis := {}
  limits : String → Option RateLimitKey := fun _ => none
  heartbeats : InstanceId → Option Time := fun _ => none

namespace RedisTables

/-- The tables as values of the keys. -/
def read (tables : RedisTables) : (key : RedisKey) → Option key.Value
  | .session player => tables.redis.sessions player
  | .room room => tables.redis.rooms room
  | .roomState room => tables.redis.roomStates room
  | .matchmakingQueue => RedisProgram.stored tables.redis.matchmaking.queue
  | .matchmakingTimestamps => RedisProgram.stored tables.redis.matchmaking.timestamps
  | .playerRoom player => tables.redis.playerRooms player
  | .instanceHeartbeat instanceId => tables.heartbeats instanceId
  | .rateLimit limited => tables.limits limited.key

end RedisTables

/-- The programs of a run never fail on this store, the rate limiter gives the verdicts
it gives on a Redis of its own, and in the end the names of the keys hold what the
tables say, all other names what they held before. -/
def SharesRedis (limits : RateLimitSettings) (store : String → Option RedisValue)
    (config : ServerConfig) (traffic : List Traffic) (heartbeats : InstanceId → Option Time)
    (programs : List RedisProgram) : Prop :=
  ∃ answers after, KeyProgram.runAllNamed redisKeyspace store programs = some (answers, after) ∧
    answers.filterMap id = (verdicts limits traffic).map Prod.snd ∧
    redisKeyspace.Represents store after
      (RedisTables.mk config.state.redis
        ((rateLimits limits).finalState (fun _ => none) traffic) heartbeats).read

variable {settings : Settings} {limits : RateLimitSettings} {choice : ServerChoice}
  {start before after config : ServerConfig} {tables changed : RedisTables} {room : RoomId}

namespace RedisProgram

variable {α β : Type*}

@[simp]
theorem getD_stored (dict : Dict α β) : (stored dict).getD ∅ = dict := by
  unfold stored
  split
  · exact AList.ext (Eq.symm ‹_›)
  · rfl

theorem stored_insert [DecidableEq α] (dict : Dict α β) (key : α) (value : β) :
    stored (dict.insert key value) = some (dict.insert key value) :=
  if_neg (by simp [AList.entries_insert])

theorem run_modify (key : RedisKey) (command : Option key.Value → Option key.Value)
    (values : ∀ key : RedisKey, Option key.Value) :
    (modify key command).run values = (none, Function.update values key (command (values key))) :=
  rfl

theorem run_delete (keys : List RedisKey) (values : ∀ key : RedisKey, Option key.Value) :
    (delete keys).run values = (none, fun key => if key ∈ keys then none else values key) := by
  induction keys generalizing values with
  | nil => simp [delete, KeyProgram.run]
  | cons deleted keys ih =>
      rw [delete, KeyProgram.run, ih]
      refine Prod.ext rfl ?_
      funext key
      by_cases same : key = deleted
      · subst same
        simp
      · simp [same]

end RedisProgram

/-- Writing a key changes the tables as far as it is read through this key. -/
theorem RedisTables.update_read {key : RedisKey} {value : Option key.Value}
    (own : changed.read key = value)
    (others : ∀ other, other ≠ key → changed.read other = tables.read other) :
    Function.update tables.read key value = changed.read := by
  funext other
  by_cases same : other = key
  · subst same
    rw [Function.update_self, own]
  · rw [Function.update_of_ne same, others other same]

/-- The tables with another matchmaking queue. -/
def RedisTables.requeue (tables : RedisTables) (queue : MatchmakingQueue) : RedisTables :=
  { tables with redis := { tables.redis with matchmaking := queue } }

theorem run_enqueuePlayer (player : PlayerId) (eloRating : Int) (now : Time) :
    (RedisProgram.enqueuePlayer player eloRating now).run tables.read =
      (none, (tables.requeue
        (tables.redis.matchmaking.enqueuePlayer player eloRating now)).read) := by
  rw [RedisProgram.enqueuePlayer, KeyProgram.run, RedisProgram.run_modify]
  refine Prod.ext rfl ?_
  funext key
  cases key <;> simp [RedisTables.read, RedisTables.requeue, MatchmakingQueue.enqueuePlayer,
    RedisProgram.stored_insert]

theorem run_dequeuePlayer (player : PlayerId) :
    (RedisProgram.dequeuePlayer player).run tables.read =
      (none, (tables.requeue (tables.redis.matchmaking.dequeuePlayer player).1).read) := by
  rw [RedisProgram.dequeuePlayer, KeyProgram.run, RedisProgram.run_modify]
  refine Prod.ext rfl ?_
  funext key
  cases key <;> simp [RedisTables.read, RedisTables.requeue, MatchmakingQueue.dequeuePlayer]

theorem run_tryMatch (now : Time) :
    (RedisProgram.tryMatch settings now).run tables.read =
      (none, (tables.requeue (tables.redis.matchmaking.tryMatch settings now).1).read) := by
  rw [RedisProgram.tryMatch, KeyProgram.run, id, Function.update_eq_self, KeyProgram.run, id,
    Function.update_eq_self]
  simp only [RedisTables.read, RedisProgram.getD_stored]
  cases matched : tables.redis.matchmaking.tryMatch settings now with
  | mk queue pair =>
      cases pair with
      | none =>
          rw [MatchmakingQueue.tryMatch_eq_none matched]
          rfl
      | some pair =>
          obtain ⟨-, -, -, members, fields⟩ := MatchmakingQueue.tryMatch_eq_some matched
          refine Prod.ext rfl ?_
          funext key
          cases key <;> simp [KeyProgram.run, RedisProgram.modify, RedisTables.read,
            RedisTables.requeue, members, fields]

theorem run_session (player : PlayerId) (command : SessionKey → SessionKey) :
    (RedisProgram.modify (.session player) command).run tables.read =
      (none, (RedisTables.mk (tables.redis.updateSession player command) tables.limits
        tables.heartbeats).read) := by
  rw [RedisProgram.run_modify]
  refine Prod.ext rfl ?_
  apply RedisTables.update_read
  · simp [RedisTables.read, Redis.updateSession]
  · intro other different
    cases other <;> simp_all [RedisTables.read, Redis.updateSession]

theorem run_deleteRoomKeys (room : RoomId) (playerIds : List PlayerId) :
    (RedisProgram.delete (.room room :: .roomState room :: playerIds.map .playerRoom)).run
        tables.read =
      (none, (RedisTables.mk (tables.redis.deleteRoomKeys room playerIds) tables.limits
        tables.heartbeats).read) := by
  rw [RedisProgram.run_delete]
  refine Prod.ext rfl ?_
  funext key
  cases key <;> simp [RedisTables.read, Redis.deleteRoomKeys, Function.update_apply]

/-- A block changes the tables as its program does. -/
theorem program_block {instruction : Instr} {answer : Answer} {world : World}
    {block : Block World Instr} (effect : instruction.block settings answer world = some block)
    (limiters : String → Option RateLimitKey) (heartbeats : InstanceId → Option Time) :
    (instruction.program settings world.clock answer).run
        (RedisTables.mk world.redis limiters heartbeats).read =
      (none, (RedisTables.mk block.state.redis limiters heartbeats).read) := by
  cases instruction with
  | attemptReconnectWrite player | createSession player | updateActivity player
  | updateSessionState player | markDisconnectedWrite player =>
      cases effect
      exact run_session player _
  | enqueuePlayer player eloRating =>
      cases effect
      exact run_enqueuePlayer player eloRating world.clock
  | dequeuePlayer player =>
      cases effect
      exact run_dequeuePlayer player
  | deleteRoomKeys room playerIds =>
      cases effect
      exact run_deleteRoomKeys room playerIds
  | matchingLoop =>
      simp only [Instr.block, World.matchingLoop] at effect
      split at effect
      · have script := @run_tryMatch settings ⟨world.redis, limiters, heartbeats⟩ world.clock
        split at effect <;> rename_i result <;> cases effect <;> rw [result] at script <;>
          exact script
      · cases effect
        rfl
      · cases effect
  | storeRoom room pair =>
      cases effect
      refine Prod.ext rfl ?_
      apply RedisTables.update_read
      · simp [RedisTables.read, World.storeRoom, World.updateRedis, World.goOn]
      · intro other different
        cases other <;> simp_all [RedisTables.read, World.storeRoom, World.updateRedis, World.goOn]
  | setPlayerRoom player room =>
      cases effect
      refine Prod.ext rfl ?_
      apply RedisTables.update_read
      · simp [RedisTables.read, World.setPlayerRoom, Redis.setPlayerRoom, World.updateRedis,
          World.goOn]
      · intro other different
        cases other <;> simp_all [RedisTables.read, World.setPlayerRoom, Redis.setPlayerRoom,
          World.updateRedis, World.goOn]
  | setSnapshot room document =>
      cases effect
      refine Prod.ext rfl ?_
      apply RedisTables.update_read
      · simp [RedisTables.read, World.setSnapshot, World.updateRedis, World.goOn]
      · intro other different
        cases other <;> simp_all [RedisTables.read, World.setSnapshot, World.updateRedis,
          World.goOn]
  | _ =>
      have sessions : block.state.redis.sessions = world.redis.sessions :=
        funext fun player => Instr.sessions_block effect rfl
      have writes := Instr.block_writes effect
      generalize block.state = written at writes sessions
      cases writes with
      | session _ player command =>
          have unchanged : world.redis.updateSession player command = world.redis :=
            congrArg (fun sessions => { world.redis with sessions := sessions }) sessions
          rw [World.updateRedis, unchanged]
          rfl
      | _ => rfl

theorem program_event {event : ServerEvent} {world after : World} {spawned : List (List Instr)}
    (effect : event.effect world = some (after, spawned))
    (limiters : String → Option RateLimitKey) (heartbeats : InstanceId → Option Time) :
    event.program.run (RedisTables.mk world.redis limiters heartbeats).read =
      (none, (RedisTables.mk after.redis limiters heartbeats).read) := by
  cases event with
  | sessionExpires player =>
      cases effect
      exact run_session player _
  | playerRoomExpires | roomStateExpires =>
      cases effect
      rw [ServerEvent.program, RedisProgram.run_delete]
      refine Prod.ext rfl ?_
      funext key
      cases key <;> simp [RedisTables.read, World.updateRedis, Function.update_apply]
  | accept | advance =>
      simp only [ServerEvent.effect] at effect
      split at effect <;> cases effect
      rfl
  | _ =>
      cases effect
      rfl

/-- A step changes the tables as its program does. -/
theorem program_step (step : (server settings).step choice before = some after)
    (limiters : String → Option RateLimitKey) (heartbeats : InstanceId → Option Time) :
    (redisProgram settings choice before).run
        (RedisTables.mk before.state.redis limiters heartbeats).read =
      (none, (RedisTables.mk after.state.redis limiters heartbeats).read) := by
  cases Machine.step_cases step with
  | @resumed task answer instruction rest block running current effect =>
      have executed : before.executed (.resume task answer : ServerChoice) = some instruction :=
        Config.executed_of_current current
      simp only [redisProgram, executed]
      exact program_block effect limiters heartbeats
  | failed => rfl
  | happened effect => exact program_event effect limiters heartbeats

/-- What limited traffic does to the table of the limiters, and its verdict. -/
theorem program_traffic (item : Traffic) :
    (item.program limits).run tables.read =
      (some ((rateLimits limits).step tables.limits item).2,
        (RedisTables.mk tables.redis ((rateLimits limits).step tables.limits item).1
          tables.heartbeats).read) := by
  unfold Traffic.program KeyedMachine.step
  cases counted : item.limited with
  | none =>
      simp only [rateLimits, counted, Option.map_none]
      rfl
  | some limited =>
      simp only [rateLimits, counted, Option.map_some]
      refine Prod.ext rfl ?_
      apply RedisTables.update_read
      · simp [RedisTables.read]
      · intro other different
        cases other with
        | rateLimit other =>
            have apart : other.key ≠ limited.key := fun same =>
              different (congrArg RedisKey.rateLimit (Limited.key_injective same))
            simp [RedisTables.read, apart]
        | _ => rfl

theorem program_heartbeat (instanceId : InstanceId) (now : Time) :
    (RedisProgram.registerInstanceHeartbeat instanceId now).run tables.read =
      (none, (RedisTables.mk tables.redis tables.limits
        (Function.update tables.heartbeats instanceId (some now))).read) := by
  refine Prod.ext rfl ?_
  apply RedisTables.update_read
  · simp [RedisTables.read]
  · intro other different
    cases other <;> simp_all [RedisTables.read]

theorem program_heartbeatExpires (instanceId : InstanceId) :
    (RedisProgram.delete [.instanceHeartbeat instanceId]).run tables.read =
      (none, (RedisTables.mk tables.redis tables.limits
        (Function.update tables.heartbeats instanceId none)).read) := by
  rw [RedisProgram.run_delete]
  refine Prod.ext rfl ?_
  funext key
  cases key <;> simp [RedisTables.read, Function.update_apply]

/-- Every identifier of a room has been drawn, and none of them has a colon. -/
structure PlainRooms (config : ServerConfig) : Prop where
  plain : ∀ room ∈ config.state.roomIds, ':' ∉ room.toList
  storing : ∀ room pair, .storeRoom room pair ∈ config.pending → room ∈ config.state.roomIds
  deleting : ∀ room playerIds, .deleteRoomKeys room playerIds ∈ config.pending →
    room ∈ config.state.roomIds

/-- A new identifier of a room is the one the step has drawn. -/
theorem drawn_before (step : (server settings).step choice before = some after)
    (drawn : room ∈ after.state.roomIds) :
    room ∈ before.state.roomIds ∨ ∃ task, choice = .resume task (.drawn room) := by
  cases Machine.step_cases step with
  | @resumed task answer instruction rest block running current effect =>
      rcases (Instr.block_writes effect).roomIds with same | ⟨pair, _, rfl, -, -⟩
      · exact .inl (same ▸ drawn)
      · change before.state.createMatch pair answer = some block at effect
        unfold World.createMatch at effect
        split at effect
        · split at effect <;> cases effect
          rcases List.mem_cons.mp drawn with rfl | old
          · exact .inr ⟨task, rfl⟩
          · exact .inl old
        · cases effect
  | failed => exact .inl drawn
  | happened effect => exact .inl ((ServerEvent.frame effect).2.1 ▸ drawn)

theorem PlainRooms.step (rooms : PlainRooms before) (registered : Registered before)
    (plain : DrawsPlain choice before)
    (step : (server settings).step choice before = some after) : PlainRooms after where
  plain room drawn := by
    rcases drawn_before step drawn with old | ⟨task, draws⟩
    · exact rooms.plain room old
    · exact plain task room draws
  storing room pair pending := by
    rcases storing_before step pending with old | ⟨-, -, drawn⟩
    · exact roomIds_step step (rooms.storing room pair old)
    · exact drawn
  deleting room playerIds pending := by
    rcases deleteRoomKeys_before step pending with old | ⟨game, -, found, -⟩
    · exact roomIds_step step (rooms.deleting room playerIds old)
    · have stored := (GameEngine.find_eq_some.mp found).2
      exact roomIds_step step (registered.drawn (.inr (by rw [stored]; rfl)))

theorem within_delete {allowed : RedisKey → Prop} {keys : List RedisKey}
    (usable : ∀ key ∈ keys, allowed key) : (RedisProgram.delete keys).Within allowed := by
  induction keys with
  | nil => trivial
  | cons key keys ih =>
      exact ⟨usable key List.mem_cons_self, fun _ =>
        ih fun other member => usable other (List.mem_cons_of_mem _ member)⟩

theorem within_tryMatch (now : Time) :
    (RedisProgram.tryMatch settings now).Within RedisKey.Usable := by
  refine ⟨trivial, fun members => ⟨trivial, ?_⟩⟩
  intro fields
  dsimp only
  split
  · trivial
  · exact ⟨trivial, fun _ => ⟨trivial, fun _ => trivial⟩⟩

/-- The server uses no room key with a colon. -/
theorem PlainRooms.within (rooms : PlainRooms before) {instruction : Instr}
    (pending : instruction ∈ before.pending) (now : Time) (answer : Answer) :
    (instruction.program settings now answer).Within RedisKey.Usable := by
  cases instruction with
  | storeRoom room pair =>
      exact ⟨rooms.plain room (rooms.storing room pair pending), fun _ => trivial⟩
  | deleteRoomKeys room playerIds =>
      have plain := rooms.plain room (rooms.deleting room playerIds pending)
      apply within_delete
      intro key member
      simp only [List.mem_cons, List.mem_map] at member
      rcases member with rfl | rfl | ⟨player, -, rfl⟩
      · exact plain
      all_goals trivial
  | matchingLoop =>
      cases answer with
      | done => exact within_tryMatch now
      | _ => trivial
  | enqueuePlayer | dequeuePlayer => exact ⟨trivial, fun _ => ⟨trivial, fun _ => trivial⟩⟩
  | attemptReconnectWrite | createSession | updateActivity | updateSessionState
  | markDisconnectedWrite | setPlayerRoom | setSnapshot => exact ⟨trivial, fun _ => trivial⟩
  | _ => trivial

theorem PlainRooms.within_redisProgram (rooms : PlainRooms before) (choice : ServerChoice) :
    (redisProgram settings choice before).Within RedisKey.Usable := by
  cases choice with
  | resume task answer =>
      simp only [redisProgram]
      split
      · rename_i instruction executed
        exact rooms.within (Config.mem_pending_of_executed executed) _ answer
      · trivial
  | fail task => trivial
  | event event =>
      cases event with
      | sessionExpires | playerRoomExpires | roomStateExpires => exact ⟨trivial, fun _ => trivial⟩
      | _ => trivial

variable {traffic : List Traffic} {heartbeats : InstanceId → Option Time}
  {programs : List RedisProgram} {redis : Redis} {roomIds : List RoomId}

theorem plainRooms_of_sharedRun (plain : ∀ room ∈ roomIds, ':' ∉ room.toList)
    (run : SharedRun settings limits (booted redis roomIds) config traffic heartbeats programs) :
    PlainRooms config ∧ Registered config := by
  induction run with
  | start =>
      have nowhere : (server settings).Reaches (booted redis roomIds) unguarded _ := .start
      exact ⟨⟨plain, by simp [booted, Config.pending], by simp [booted, Config.pending]⟩,
        registered_of_reaches nowhere⟩
  | server _ draws step ih => exact ⟨ih.1.step ih.2 draws step, ih.2.step step⟩
  | traffic _ _ ih | heartbeat _ _ _ ih | heartbeatExpires _ _ ih => exact ih

/-- The tables after the programs of a run. -/
theorem runAll_of_sharedRun
    (run : SharedRun settings limits start config traffic heartbeats programs) :
    (KeyProgram.runAll (RedisTables.mk start.state.redis (fun _ => none) fun _ => none).read
        programs).1.filterMap id = (verdicts limits traffic).map Prod.snd ∧
      (KeyProgram.runAll (RedisTables.mk start.state.redis (fun _ => none) fun _ => none).read
        programs).2 =
        (RedisTables.mk config.state.redis
          ((rateLimits limits).finalState (fun _ => none) traffic) heartbeats).read := by
  induction run with
  | start => exact ⟨rfl, rfl⟩
  | server _ _ step ih =>
      simp only [KeyProgram.runAll_append, KeyProgram.runAll, ih.2, program_step step,
        List.filterMap_append]
      exact ⟨by simpa using ih.1, trivial⟩
  | traffic item _ ih =>
      simp only [KeyProgram.runAll_append, KeyProgram.runAll, ih.2, program_traffic,
        List.filterMap_append, ih.1]
      constructor
      · rw [verdicts, verdicts, KeyedMachine.answers_append, List.map_append]
        rfl
      · rw [KeyedMachine.finalState, KeyedMachine.finalState, List.foldl_append]
        rfl
  | heartbeat instanceId now _ ih =>
      simp only [KeyProgram.runAll_append, KeyProgram.runAll, ih.2, program_heartbeat,
        List.filterMap_append]
      exact ⟨by simpa using ih.1, trivial⟩
  | heartbeatExpires instanceId _ ih =>
      simp only [KeyProgram.runAll_append, KeyProgram.runAll, ih.2, program_heartbeatExpires,
        List.filterMap_append]
      exact ⟨by simpa using ih.1, trivial⟩

theorem within_of_sharedRun (plain : ∀ room ∈ roomIds, ':' ∉ room.toList)
    (run : SharedRun settings limits (booted redis roomIds) config traffic heartbeats programs) :
    ∀ program ∈ programs, program.Within RedisKey.Usable := by
  induction run with
  | start => simp
  | server earlier _ _ ih =>
      have rooms := (plainRooms_of_sharedRun plain earlier).1
      simpa [or_imp, forall_and] using And.intro ih (rooms.within_redisProgram _)
  | traffic item _ ih =>
      have usable : (item.program limits).Within RedisKey.Usable := by
        unfold Traffic.program
        split
        · exact ⟨trivial, fun _ => trivial⟩
        · trivial
      simpa [or_imp, forall_and] using And.intro ih usable
  | heartbeat instanceId now _ ih =>
      have usable : (RedisProgram.registerInstanceHeartbeat instanceId now).Within
          RedisKey.Usable := ⟨trivial, fun _ => trivial⟩
      simpa [or_imp, forall_and] using And.intro ih usable
  | heartbeatExpires instanceId _ ih =>
      have usable : (RedisProgram.delete [.instanceHeartbeat instanceId]).Within
          RedisKey.Usable := ⟨trivial, fun _ => trivial⟩
      simpa [or_imp, forall_and] using And.intro ih usable

/-- Main result: the server, the rate limiters and the heartbeats share one Redis as if
each of their tables was alone. -/
theorem sharesRedis_of_run {store : String → Option RedisValue}
    (plain : ∀ room ∈ roomIds, ':' ∉ room.toList)
    (holds : ∀ key : RedisKey, key.Usable → store key.text =
      ((RedisTables.mk redis (fun _ => none) fun _ => none).read key).map key.wrap)
    (run : SharedRun settings limits (booted redis roomIds) config traffic heartbeats programs) :
    SharesRedis limits store config traffic heartbeats programs := by
  obtain ⟨answers, same⟩ := runAll_of_sharedRun run
  have represents : redisKeyspace.Represents store store _ := ⟨holds, fun _ _ => rfl⟩
  obtain ⟨after, runs, represents⟩ := represents.runAllNamed (within_of_sharedRun plain run)
  exact ⟨_, after, runs, answers, same ▸ represents⟩

theorem sharedRun_of_run {choices : List ServerChoice}
    (run : SharedRun settings limits start before traffic heartbeats programs)
    (plain : ∀ choice ∈ choices, ∀ config, DrawsPlain choice config)
    (executed : (server settings).run choices before = some after) :
    ∃ later, SharedRun settings limits start after traffic heartbeats later := by
  induction choices generalizing before programs with
  | nil =>
      cases executed
      exact ⟨programs, run⟩
  | cons choice choices ih =>
      obtain ⟨middle, first, others⟩ := Option.bind_eq_some_iff.mp executed
      exact ih (run.server (plain choice List.mem_cons_self before) first)
        (fun choice member => plain choice (List.mem_cons_of_mem _ member)) others

/-- The queue of the rookies beside a key of another application. -/
def waitingStore : String → Option RedisValue :=
  Function.update
    (Function.update (Function.update (fun _ => none) "celery" (some (.text "busy")))
      RedisKey.matchmakingQueue.text (some (.ratings waitingRookies.matchmaking.queue)))
    RedisKey.matchmakingTimestamps.text (some (.joinTimes waitingRookies.matchmaking.timestamps))

theorem waitingStore_text (key : RedisKey) (usable : key.Usable) :
    waitingStore key.text =
      ((RedisTables.mk waitingRookies (fun _ => none) fun _ => none).read key).map key.wrap := by
  have foreign : key.text ≠ "celery" := by
    intro same
    have letters := congrArg String.toList same
    rw [RedisKey.toList_text] at letters
    cases key <;> simp [Limited.toList_key] at letters
  have named (other : RedisKey) (otherUsable : other.Usable) (different : key ≠ other) :
      key.text ≠ other.text :=
    fun same => different (RedisKey.text_injective usable otherUsable same)
  by_cases queue : key = .matchmakingQueue
  · subst queue
    rfl
  by_cases timestamps : key = .matchmakingTimestamps
  · subst timestamps
    rfl
  rw [waitingStore, Function.update_of_ne (named .matchmakingTimestamps trivial timestamps),
    Function.update_of_ne (named .matchmakingQueue trivial queue), Function.update_of_ne foreign]
  cases key <;> first | rfl | contradiction

theorem sharesRedis_of_run_rookies : ∃ config programs,
    SharedRun { instanceId := "inst-1" } {} (booted waitingRookies []) config
      [.frame "ada" ⟨1, "1:1"⟩] (Function.update (fun _ => none) "inst-1" (some 1)) programs ∧
    (config.state.redis.rooms "room-0a1b2c3d4e5f").isSome = true ∧
    SharesRedis {} waitingStore config [.frame "ada" ⟨1, "1:1"⟩]
      (Function.update (fun _ => none) "inst-1" (some 1)) programs := by
  have runs : ((server { instanceId := "inst-1" }).run
      (proceed 0 1 ++ [.resume 0 (.drawn "room-0a1b2c3d4e5f")] ++ proceed 0 1)
      (booted waitingRookies [])).any (fun config =>
        (config.state.redis.rooms "room-0a1b2c3d4e5f").isSome) = true := by
    decide +kernel
  obtain ⟨config, executed, stored⟩ := Option.any_eq_true _ _ |>.mp runs
  have beat : SharedRun { instanceId := "inst-1" } {} (booted waitingRookies []) _ _ _ _ :=
    .heartbeat "inst-1" 1 (.traffic (.frame "ada" ⟨1, "1:1"⟩) .start)
  have plain : ∀ choice ∈ (proceed 0 1 ++ [.resume 0 (.drawn "room-0a1b2c3d4e5f")] ++
      proceed 0 1 : List ServerChoice), ∀ config, DrawsPlain choice config := by
    simp [proceed, DrawsPlain]
  obtain ⟨programs, run⟩ := sharedRun_of_run beat plain executed
  exact ⟨config, programs, run, stored, sharesRedis_of_run (by simp) waitingStore_text run⟩

end TerritoryBackend

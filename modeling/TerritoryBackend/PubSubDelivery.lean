import TerritoryBackend.ConnectionManager
import TerritoryBackend.PubSub
import TerritoryBackend.RedisModels

/-!
# Messages between instances

`start`, `_listen_loop` and the publishing methods of `app/core/redis_pubsub.py`
with the two handlers of `app/dependencies.py`, on any number of instances.  Redis
keeps the frames for each subscriber in the order in which they were published,
once for every subscription their channel matches.  Neither of the two handlers
raises, so that a dispatch calls all that it lists.
-/

namespace TerritoryBackend

/-- `PubSubMessage`, whose fields are not validated.  The time is `none` where the
reader fills in its own. -/
structure PubSubMessage where
  event : Json
  roomId : Json
  senderInstanceId : Json
  payload : Json := .obj []
  timestamp : Option Json := none

namespace PubSubMessage

def fieldNames : List String :=
  ["event", "room_id", "sender_instance_id", "payload", "timestamp"]

/-- `serialize`, the document `self.__dict__` is dumped as. -/
def serialize (message : PubSubMessage) : Json :=
  .obj ([("event", message.event), ("room_id", message.roomId),
    ("sender_instance_id", message.senderInstanceId), ("payload", message.payload)] ++
    message.timestamp.toList.map fun time => ("timestamp", time))

/-- `deserialize`, `cls(**parsed)`: other keyword arguments are a `TypeError`, and so
is a document that is not an object. -/
def deserialize : Json → Except PythonError PubSubMessage
  | .obj members =>
      if members.all fun member => fieldNames.contains member.1 then
        match members.lookup "event", members.lookup "room_id",
            members.lookup "sender_instance_id" with
        | some event, some roomId, some senderInstanceId =>
            .ok
              { event, roomId, senderInstanceId
                payload := (members.lookup "payload").getD (.obj [])
                timestamp := members.lookup "timestamp" }
        | _, _, _ => .error .typeError
      else .error .typeError
  | _ => .error .typeError

theorem deserialize_serialize (message : PubSubMessage) :
    deserialize message.serialize = .ok message := by
  obtain ⟨event, roomId, senderInstanceId, payload, timestamp⟩ := message
  cases timestamp <;>
    simp [deserialize, serialize, fieldNames, List.lookup_cons]

end PubSubMessage

inductive Subscription where
  /-- `subscribe` -/
  | channel (name : String)
  /-- `psubscribe` -/
  | pattern (glob : String)

def Subscription.receives (channel : String) : Subscription → Bool
  | .channel name => decide (name = channel)
  | .pattern glob => globMatches glob.toList channel.toList

/-- The subscriptions made by `start`. -/
def subscriptionsOf (instanceId : InstanceId) (subscriptions : List String) :
    List Subscription :=
  .channel ("ch:instance:" ++ instanceId) :: subscriptions.map fun name =>
    if '*' ∈ name.toList then .pattern name else .channel name

/-- `RedisKey.channel_player` -/
def channelPlayer (player : PlayerId) : String := "ch:player:" ++ player

/-- `RedisKey.channel_room` -/
def channelRoom (room : RoomId) : String := "ch:room:" ++ room

/-- `channel.split(":")[2]`, `none` where there are fewer parts. -/
def addresseeOf (channel : String) : Option String :=
  (channel.toList.splitOn ':')[2]?.map String.ofList

inductive PubSubHandler where
  | handlePlayerMessage
  | handleRoomMessage
  deriving DecidableEq

abbrev PubSubCall := HandlerCall PubSubHandler PubSubMessage

/-- The registrations made by `init_dependencies`. -/
def gameHandlers : List (Registration PubSubHandler) :=
  [.patternHandler "ch:player:*" .handlePlayerMessage,
    .patternHandler "ch:room:*" .handleRoomMessage]

namespace ConnectionManager

def isPlayerConnected (manager : ConnectionManager) (player : PlayerId) : Bool :=
  (manager.playerConnections.lookup player).isSome

/-- The registered connections of the members of a room. -/
def membersOf (manager : ConnectionManager) (room : RoomId) : List ConnectionId :=
  manager.connections.keys.filter fun connection => decide (manager.Member connection room)

/-- The connections a handler sends the payload to. -/
def recipients (manager : ConnectionManager) (call : PubSubCall) : List ConnectionId :=
  match call.handler, addresseeOf call.channel with
  | _, none => []
  | .handlePlayerMessage, some player =>
      if manager.isPlayerConnected player then (manager.connectionOf player).toList else []
  | .handleRoomMessage, some room => manager.membersOf room

end ConnectionManager

/-- A frame, by the document it encodes if it is JSON. -/
structure Frame where
  channel : String
  data : Option Json

/-- An instance as far as Pub/Sub is concerned: its registries, the frames Redis
holds for it, and what its listener is doing and has done. -/
structure Subscriber where
  instanceId : InstanceId
  connections : ConnectionManager := {}
  coordinator : RedisPubSubCoordinator PubSubHandler := {}
  subscriptions : List Subscription := []
  inbox : List Frame := []
  /-- the handlers `_dispatch` still has to call -/
  calls : List PubSubCall := []
  /-- the sends the handler waits for -/
  sending : List ConnectionId := []
  forwarded : List (ConnectionId × PubSubCall) := []
  initialised : Bool := false

inductive SubscriberAction where
  /-- a new process subscribes -/
  | start
  /-- the end of `init_dependencies` -/
  | registerHandlers
  /-- the listener reads the next frame -/
  | listen
  /-- `_dispatch` calls the next handler -/
  | callHandler
  /-- a send has succeeded or failed -/
  | sent (connection : ConnectionId) (succeeded : Bool)
  /-- another coroutine changes the registries -/
  | updateConnections (update : ConnectionManager → ConnectionManager)

inductive PubSubEvent where
  | act (own : InstanceId) (action : SubscriberAction)
  /-- `publish_to_player` of an instance -/
  | publishToPlayer (sender : InstanceId) (player : PlayerId) (event : String) (room : RoomId)
      (payload : Json) (now : Time)
  /-- `publish_to_room` of an instance -/
  | publishToRoom (sender : InstanceId) (room : RoomId) (event : String) (payload : Json)
      (now : Time)
  /-- something else publishes -/
  | publish (frame : Frame)

namespace Subscriber

/-- `start` in a new process. -/
def start (own : InstanceId) : Subscriber where
  instanceId := own
  subscriptions := subscriptionsOf own ["ch:room:*", "ch:player:*"]

/-- A process that has started registers the handlers once. -/
def registerHandlers (subscriber : Subscriber) : Option Subscriber :=
  if subscriber.initialised || subscriber.subscriptions.isEmpty then none
  else
    some
      { subscriber with
        coordinator := gameHandlers.foldl .register subscriber.coordinator
        initialised := true }

/-- Redis queues a frame for every subscription its channel matches. -/
def receive (subscriber : Subscriber) (frame : Frame) : Subscriber :=
  { subscriber with
    inbox := subscriber.inbox ++
      List.replicate (subscriber.subscriptions.countP (Subscription.receives frame.channel)) frame }

/-- The message of a frame, unless it does not parse or is the instance's own. -/
def readFrame (own : InstanceId) (frame : Frame) : Option PubSubMessage :=
  match frame.data.map PubSubMessage.deserialize with
  | some (.ok message) =>
      if message.senderInstanceId.isString own then none else some message
  | _ => none

/-- An iteration of `_listen_loop`, after the handlers of the last one. -/
def listen (subscriber : Subscriber) : Option Subscriber :=
  match subscriber.inbox, subscriber.calls, subscriber.sending with
  | frame :: inbox, [], [] =>
      match readFrame subscriber.instanceId frame with
      | none => some { subscriber with inbox := inbox }
      | some message =>
          some
            { subscriber with
              inbox := inbox
              coordinator := subscriber.coordinator.extended frame.channel
              calls := (subscriber.coordinator.handlersFor frame.channel).map fun handler =>
                ⟨handler, frame.channel, message⟩ }
  | _, _, _ => none

/-- A handler hands the payload to the sockets, after the handlers before it. -/
def callHandler (subscriber : Subscriber) : Option Subscriber :=
  match subscriber.calls, subscriber.sending with
  | call :: calls, [] =>
      let recipients := subscriber.connections.recipients call
      some
        { subscriber with
          calls := calls
          sending := recipients
          forwarded := subscriber.forwarded ++ recipients.map fun connection => (connection, call) }
  | _, _ => none

/-- The end of a send; a connection it fails on is closed. -/
def sent (subscriber : Subscriber) (connection : ConnectionId) (succeeded : Bool) :
    Option Subscriber :=
  if connection ∈ subscriber.sending then
    some
      { subscriber with
        sending := subscriber.sending.erase connection
        connections :=
          if succeeded then subscriber.connections
          else subscriber.connections.disconnect connection }
  else none

def act (subscriber : Subscriber) : SubscriberAction → Option Subscriber
  | .start => some (start subscriber.instanceId)
  | .registerHandlers => subscriber.registerHandlers
  | .listen => subscriber.listen
  | .callHandler => subscriber.callHandler
  | .sent connection succeeded => subscriber.sent connection succeeded
  | .updateConnections update =>
      some { subscriber with connections := update subscriber.connections }

end Subscriber

/-- The frame an event publishes. -/
def PubSubEvent.frame? : PubSubEvent → Option Frame
  | .act .. => none
  | .publishToPlayer sender player event room payload now =>
      some ⟨channelPlayer player, some (PubSubMessage.serialize
        ⟨.str event, .str room, .str sender, payload, some (.float now)⟩)⟩
  | .publishToRoom sender room event payload now =>
      some ⟨channelRoom room, some (PubSubMessage.serialize
        ⟨.str event, .str room, .str sender, payload, some (.float now)⟩)⟩
  | .publish frame => some frame

/-- The instances by their identifiers. -/
abbrev PubSubNet := InstanceId → Subscriber

namespace PubSubNet

def step (net : PubSubNet) (event : PubSubEvent) : Option PubSubNet :=
  match event with
  | .act own action => ((net own).act action).map (Function.update net own)
  | _ => event.frame?.map fun frame own => (net own).receive frame

def run (net : PubSubNet) : List PubSubEvent → Option PubSubNet
  | [] => some net
  | event :: events => (net.step event).bind fun next => next.run events

/-- No process has started. -/
def silent : PubSubNet := fun own => { instanceId := own }

end PubSubNet

/-- Whom a message is published to. -/
inductive Address where
  | player (player : PlayerId)
  | room (room : RoomId)
  deriving DecidableEq

def Address.channel : Address → String
  | .player identifier => channelPlayer identifier
  | .room identifier => channelRoom identifier

def Address.identifier : Address → String
  | .player identifier | .room identifier => identifier

/-- The handler of the messages to an address. -/
def Address.handler : Address → PubSubHandler
  | .player _ => .handlePlayerMessage
  | .room _ => .handleRoomMessage

/-- The payload of a call that is made for the address. -/
def PubSubCall.payloadFor (address : Address) (call : PubSubCall) : Option Json :=
  if call.handler = address.handler ∧ addresseeOf call.channel = some address.identifier then
    some call.message.payload
  else none

/-- The connection is the one of the player, or that of a member of the room. -/
def ConnectionManager.Serves (manager : ConnectionManager) (connection : ConnectionId)
    (address : Address) : Prop :=
  match address with
  | .player player => manager.connectionOf player = some connection
  | .room room => connection ∈ manager.membersOf room

namespace Subscriber

/-- The calls a frame leads to. -/
def callsFor (own : InstanceId) (frame : Frame) : List PubSubCall :=
  match readFrame own frame with
  | none => []
  | some message =>
      ((RedisPubSubCoordinator.registerAll gameHandlers).handlersFor frame.channel).map
        fun handler => ⟨handler, frame.channel, message⟩

/-- What the listener has taken to the counted connections for an address. -/
def forwardedWhere (subscriber : Subscriber) (counted : ConnectionId → Bool)
    (address : Address) : List Json :=
  subscriber.forwarded.filterMap fun entry =>
    if counted entry.1 then PubSubCall.payloadFor address entry.2 else none

/-- What the listener has taken to a connection for an address. -/
def forwardedOn (subscriber : Subscriber) (connection : ConnectionId) (address : Address) :
    List Json :=
  subscriber.forwardedWhere (fun other => decide (other = connection)) address

/-- What the listener has taken to any connection for a player. -/
def forwardedFor (subscriber : Subscriber) (player : PlayerId) : List Json :=
  subscriber.forwardedWhere (fun _ => true) (.player player)

/-- What the listener has still to take to an address. -/
def pendingFor (subscriber : Subscriber) (address : Address) : List Json :=
  (subscriber.calls ++ subscriber.inbox.flatMap (callsFor subscriber.instanceId)).filterMap
    (PubSubCall.payloadFor address)

end Subscriber

/-- The address and the payload an instance publishes, and the instance. -/
def PubSubEvent.publication? : PubSubEvent → Option (Address × Json × InstanceId)
  | .publishToPlayer sender player _ _ payload _ => some (.player player, payload, sender)
  | .publishToRoom sender room _ payload _ => some (.room room, payload, sender)
  | _ => none

/-- The payloads that other instances publish to an address. -/
def publishedTo (own : InstanceId) (address : Address) (events : List PubSubEvent) : List Json :=
  events.filterMap fun event =>
    match event.publication? with
    | some (recipient, payload, sender) =>
        if recipient = address ∧ sender ≠ own then some payload else none
    | none => none

/-- Identifiers of players and rooms have no colon, as those drawn by `uuid4`, and
what comes from elsewhere is no message of an instance. -/
structure WellPublished (events : List PubSubEvent) : Prop where
  identifiers : ∀ event ∈ events, ∀ address payload sender,
    event.publication? = some (address, payload, sender) → ':' ∉ address.identifier.toList
  foreign : ∀ frame, .publish frame ∈ events → ∀ own, Subscriber.readFrame own frame = none

end TerritoryBackend

import TerritoryBackend.PubSubDelivery

/-!
# Delivery across instances

What an instance hands to its sockets for a player is taken, in order and each
message once, from what the other instances publish to that player; while the
player stays connected to the instance nothing is lost.  It is all a matter of what
the listener has still to do: publishing adds to it, and handling takes from it.
-/

namespace TerritoryBackend

/-- The connection is the one of the player, or that of a member of the room, all the
time. -/
def StaysServed (net : PubSubNet) (events : List PubSubEvent) (own : InstanceId)
    (address : Address) (connection : ConnectionId) : Prop :=
  ∀ done net', done <+: events → net.run done = some net' →
    (net' own).connections.Serves connection address

/-- The instance has been initialised and is not started again. -/
def StaysUp (net : PubSubNet) (events : List PubSubEvent) (own : InstanceId) : Prop :=
  (net own).initialised = true ∧ .act own .start ∉ events

/-- A run in which instances start, publish and listen has led to a state in which
each instance has handed on messages of others only, to those they were addressed to,
each at most once and in order; and from there on it loses none. -/
structure DeliversAcross (events : List PubSubEvent) (net : PubSubNet) : Prop where
  toPlayers : ∀ own player,
    ((net own).forwardedFor player ++ (net own).pendingFor (.player player)).Sublist
      (publishedTo own (.player player) events)
  toConnections : ∀ own address connection,
    ((net own).forwardedOn connection address ++ (net own).pendingFor address).Sublist
      (publishedTo own address events)
  /-- whoever is handed a payload is whom it was for when the handler was called -/
  addressed : ∀ own connection call, (connection, call) ∈ (net own).forwarded →
    ∃ address payload, PubSubCall.payloadFor address call = some payload ∧
      ∃ done later middle, events = done ++ .act own .callHandler :: later ∧
        PubSubNet.silent.run done = some middle ∧ (middle own).calls.head? = some call ∧
        (middle own).connections.Serves connection address
  kept : ∀ later net' own address connection, WellPublished later →
    net.run later = some net' → StaysUp net later own →
    StaysServed net later own address connection →
    (net' own).forwardedOn connection address ++ (net' own).pendingFor address =
      (net own).forwardedOn connection address ++ (net own).pendingFor address ++
        publishedTo own address later

variable {own sender : InstanceId} {address recipient : Address} {connection : ConnectionId}
  {counted : ConnectionId → Bool} {subscriber next : Subscriber} {net net' : PubSubNet}
  {events : List PubSubEvent}

theorem addresseeOf_channel (plain : ':' ∉ address.identifier.toList) :
    addresseeOf address.channel = some address.identifier := by
  have parts : ∃ kind, address.channel.toList.splitOn ':' =
      ["ch".toList, kind, address.identifier.toList] := by
    cases address with
    | player player =>
        refine ⟨"player".toList, ?_⟩
        rw [Address.channel, channelPlayer, String.toList_append,
          show "ch:player:".toList ++ player.toList =
            "ch".toList ++ ':' :: ("player".toList ++ ':' :: player.toList) from rfl,
          List.splitOn_append_cons_self_of_not_mem (by decide),
          List.splitOn_append_cons_self_of_not_mem (by decide)]
        exact congrArg _ (congrArg _ (List.splitOn_eq_singleton plain))
    | room room =>
        refine ⟨"room".toList, ?_⟩
        rw [Address.channel, channelRoom, String.toList_append,
          show "ch:room:".toList ++ room.toList =
            "ch".toList ++ ':' :: ("room".toList ++ ':' :: room.toList) from rfl,
          List.splitOn_append_cons_self_of_not_mem (by decide),
          List.splitOn_append_cons_self_of_not_mem (by decide)]
        exact congrArg _ (congrArg _ (List.splitOn_eq_singleton plain))
  obtain ⟨kind, parts⟩ := parts
  simp [addresseeOf, parts]

/-- Which of the two patterns a channel matches. -/
theorem startsWithPrefix_channel (address : Address) :
    startsWithPrefix "ch:player:*" address.channel =
        decide (address.handler = .handlePlayerMessage) ∧
      startsWithPrefix "ch:room:*" address.channel =
        decide (address.handler = .handleRoomMessage) := by
  cases address <;>
    simp [startsWithPrefix, Address.channel, Address.handler, channelPlayer, channelRoom,
      List.isPrefixOf]

/-- A message is received once by every instance that has started. -/
theorem countP_receives_channel (own : InstanceId) (address : Address) :
    (subscriptionsOf own ["ch:room:*", "ch:player:*"]).countP
      (Subscription.receives address.channel) = 1 := by
  obtain ⟨players, rooms⟩ := startsWithPrefix_channel address
  rw [startsWithPrefix_eq_globMatches ⟨"ch:player:".toList, rfl, by decide⟩] at players
  rw [startsWithPrefix_eq_globMatches ⟨"ch:room:".toList, rfl, by decide⟩] at rooms
  have different : "ch:instance:" ++ own ≠ address.channel := by
    intro same
    cases address <;>
      simpa [Address.channel, channelPlayer, channelRoom] using congrArg String.toList same
  have listed : subscriptionsOf own ["ch:room:*", "ch:player:*"] =
      [.channel ("ch:instance:" ++ own), .pattern "ch:room:*", .pattern "ch:player:*"] := by
    simp [subscriptionsOf]
  rw [listed]
  simp only [List.countP_cons, Subscription.receives, players, rooms, different]
  cases address <;> rfl

theorem entries_gameHandlers :
    (RedisPubSubCoordinator.registerAll gameHandlers).patternHandlers.entries =
      [("ch:player:*", [.handlePlayerMessage]), ("ch:room:*", [.handleRoomMessage])] := by
  simp [RedisPubSubCoordinator.registerAll, gameHandlers, RedisPubSubCoordinator.register,
    ListDict.append, ListDict.setDefault, ListDict.extend, ListDict.keys]

theorem handlersFor_channel (address : Address) :
    (RedisPubSubCoordinator.registerAll gameHandlers).handlersFor address.channel =
      [address.handler] := by
  obtain ⟨players, rooms⟩ := startsWithPrefix_channel address
  have none : (RedisPubSubCoordinator.registerAll gameHandlers).handlers = {} := rfl
  simp only [RedisPubSubCoordinator.handlersFor, none, ListDict.valuesWhere,
    entries_gameHandlers, List.flatMap_cons, List.flatMap_nil, players, rooms]
  cases address <;> rfl

namespace Subscriber

/-- What a frame will lead to for an address. -/
def payloadsOf (own : InstanceId) (address : Address) (frame : Frame) : List Json :=
  (callsFor own frame).filterMap (PubSubCall.payloadFor address)

theorem payloadsOf_channel (plain : ':' ∉ recipient.identifier.toList) (event room : Json)
    (payload : Json) (time : Option Json) :
    payloadsOf own address ⟨recipient.channel, some (PubSubMessage.serialize
        ⟨event, room, .str sender, payload, time⟩)⟩ =
      if recipient = address ∧ sender ≠ own then [payload] else [] := by
  have same : recipient.handler = address.handler ∧ recipient.identifier = address.identifier ↔
      recipient = address := by
    cases recipient <;> cases address <;> simp [Address.handler, Address.identifier]
  simp only [payloadsOf, callsFor, readFrame, Option.map_some,
    PubSubMessage.deserialize_serialize, Json.isString, beq_iff_eq]
  by_cases mine : sender = own
  · simp [mine]
  · simp only [if_neg mine, handlersFor_channel, List.map_cons, List.map_nil,
      List.filterMap_cons, List.filterMap_nil, PubSubCall.payloadFor, addresseeOf_channel plain,
      Option.some.injEq, same]
    by_cases same : recipient = address <;> simp [same, mine]

theorem payloadsOf_foreign {frame : Frame} (unread : readFrame own frame = none) :
    payloadsOf own address frame = [] := by
  simp [payloadsOf, callsFor, unread]

theorem listen_eq_some (listens : subscriber.listen = some next) :
    ∃ frame inbox, subscriber.inbox = frame :: inbox ∧ subscriber.calls = [] ∧
      ((readFrame subscriber.instanceId frame = none ∧
          next = { subscriber with inbox := inbox }) ∨
        ∃ message, readFrame subscriber.instanceId frame = some message ∧
          next = { subscriber with
            inbox := inbox
            coordinator := subscriber.coordinator.extended frame.channel
            calls := (subscriber.coordinator.handlersFor frame.channel).map fun handler =>
              ⟨handler, frame.channel, message⟩ }) := by
  unfold listen at listens
  split at listens
  · rename_i frame inbox queued idle _
    refine ⟨frame, inbox, queued, idle, ?_⟩
    split at listens
    · exact .inl ⟨‹_›, (Option.some.inj listens).symm⟩
    · exact .inr ⟨_, ‹_›, (Option.some.inj listens).symm⟩
  · cases listens

theorem callHandler_eq_some (handles : subscriber.callHandler = some next) :
    ∃ call calls, subscriber.calls = call :: calls ∧
      next = { subscriber with
        calls := calls
        sending := subscriber.connections.recipients call
        forwarded := subscriber.forwarded ++
          (subscriber.connections.recipients call).map fun connection => (connection, call) } := by
  unfold callHandler at handles
  split at handles
  · exact ⟨_, _, ‹_›, (Option.some.inj handles).symm⟩
  · cases handles

/-- An instance as its past leaves it. -/
structure Sound (own : InstanceId) (subscriber : Subscriber) : Prop where
  instanceId : subscriber.instanceId = own
  subscriptions : subscriber.subscriptions = [] ∨
    subscriber.subscriptions = subscriptionsOf own ["ch:room:*", "ch:player:*"]
  subscribed : subscriber.initialised = true → subscriber.subscriptions ≠ []
  coordinator : subscriber.coordinator =
    if subscriber.initialised then RedisPubSubCoordinator.registerAll gameHandlers else {}

theorem Sound.receive (sound : Sound own subscriber) (frame : Frame) :
    Sound own (subscriber.receive frame) :=
  ⟨sound.instanceId, sound.subscriptions, sound.subscribed, sound.coordinator⟩

/-- No channel has handlers of its own, so that a dispatch changes nothing. -/
theorem Sound.extended (sound : Sound own subscriber) (channel : String) :
    subscriber.coordinator.extended channel = subscriber.coordinator := by
  rw [sound.coordinator]
  split <;> rfl

theorem Sound.act (sound : Sound own subscriber) {action : SubscriberAction}
    (acts : subscriber.act action = some next) : Sound own next := by
  cases action with
  | start =>
      cases acts
      rw [sound.instanceId]
      exact ⟨rfl, .inr rfl, (by rintro ⟨⟩), rfl⟩
  | registerHandlers =>
      simp only [Subscriber.act, registerHandlers] at acts
      split at acts
      · cases acts
      · rename_i fresh
        simp only [Bool.or_eq_true, not_or, List.isEmpty_iff, Bool.not_eq_true] at fresh
        cases acts
        refine ⟨sound.instanceId, sound.subscriptions, fun _ => fresh.2, ?_⟩
        have empty := sound.coordinator
        rw [fresh.1] at empty
        simp only [empty]
        rfl
  | listen =>
      obtain ⟨frame, inbox, -, -, ⟨-, rfl⟩ | ⟨message, -, rfl⟩⟩ := listen_eq_some acts
      · exact ⟨sound.instanceId, sound.subscriptions, sound.subscribed, sound.coordinator⟩
      · exact ⟨sound.instanceId, sound.subscriptions, sound.subscribed,
          (sound.extended frame.channel).trans sound.coordinator⟩
  | callHandler =>
      obtain ⟨call, calls, -, rfl⟩ := callHandler_eq_some acts
      exact ⟨sound.instanceId, sound.subscriptions, sound.subscribed, sound.coordinator⟩
  | sent connection succeeded =>
      simp only [Subscriber.act, sent] at acts
      split at acts <;> cases acts
      exact ⟨sound.instanceId, sound.subscriptions, sound.subscribed, sound.coordinator⟩
  | updateConnections update =>
      cases acts
      exact ⟨sound.instanceId, sound.subscriptions, sound.subscribed, sound.coordinator⟩

theorem pendingFor_eq (subscriber : Subscriber) (address : Address) :
    subscriber.pendingFor address =
      subscriber.calls.filterMap (PubSubCall.payloadFor address) ++
        subscriber.inbox.flatMap (payloadsOf subscriber.instanceId address) := by
  simp only [pendingFor, List.filterMap_append, List.filterMap_flatMap]
  rfl

theorem pendingFor_receive (frame : Frame) :
    (subscriber.receive frame).pendingFor address = subscriber.pendingFor address ++
      (List.replicate
        (subscriber.subscriptions.countP (Subscription.receives frame.channel)) frame).flatMap
        (payloadsOf subscriber.instanceId address) := by
  simp [pendingFor_eq, receive]

end Subscriber

namespace ConnectionManager

/-- The connections a payload for an address is sent to. -/
def recipientsOf (manager : ConnectionManager) : Address → List ConnectionId
  | .player player =>
      if manager.isPlayerConnected player then (manager.connectionOf player).toList else []
  | .room room => manager.membersOf room

theorem recipients_of_payloadFor {manager : ConnectionManager} {call : PubSubCall}
    {payload : Json} (isFor : PubSubCall.payloadFor address call = some payload) :
    manager.recipients call = manager.recipientsOf address := by
  unfold PubSubCall.payloadFor at isFor
  split at isFor
  · rename_i addressed
    unfold recipients
    rw [addressed.1, addressed.2]
    cases address <;> rfl
  · cases isFor

theorem mem_recipientsOf (manager : ConnectionManager) (address : Address)
    (connection : ConnectionId) :
    connection ∈ manager.recipientsOf address ↔ manager.Serves connection address := by
  cases address with
  | player player =>
      have known : manager.connectionOf player = some connection →
          manager.isPlayerConnected player = true := by
        intro connected
        obtain ⟨registered, -⟩ := Option.filter_eq_some_iff.mp connected
        simp [isPlayerConnected, registered]
      simp only [recipientsOf, Serves]
      split
      · exact Option.mem_toList
      · rename_i unknown
        simp only [List.not_mem_nil, false_iff]
        intro connected
        exact unknown (known connected)
  | room room => exact Iff.rfl

theorem nodup_recipientsOf (manager : ConnectionManager) (address : Address) :
    (manager.recipientsOf address).Nodup := by
  cases address with
  | player player =>
      simp only [recipientsOf]
      split
      · cases manager.connectionOf player <;> simp
      · exact List.nodup_nil
  | room room => exact (AList.keys_nodup _).filter _

/-- Of the connections a payload is sent to, one at most is counted. -/
def CountsOne (counted : ConnectionId → Bool) (address : Address) : Prop :=
  ∀ manager : ConnectionManager, ((manager.recipientsOf address).filter counted).length ≤ 1

theorem countsOne_connection (connection : ConnectionId) (address : Address) :
    CountsOne (fun other => decide (other = connection)) address := by
  intro manager
  rw [← List.countP_eq_length_filter]
  exact List.nodup_iff_count_le_one.mp (manager.nodup_recipientsOf address) connection

theorem countsOne_player (player : PlayerId) : CountsOne (fun _ => true) (.player player) := by
  intro manager
  rw [List.filter_true]
  simp only [recipientsOf]
  split
  · cases manager.connectionOf player <;> simp
  · simp

end ConnectionManager

namespace Subscriber

/-- What a call takes to the counted connections for an address. -/
theorem handed_eq (manager : ConnectionManager) (counted : ConnectionId → Bool)
    (address : Address) (call : PubSubCall) :
    ((manager.recipients call).map fun connection => (connection, call)).filterMap
        (fun entry => if counted entry.1 then PubSubCall.payloadFor address entry.2 else none) =
      (List.replicate ((manager.recipientsOf address).filter counted).length
        (PubSubCall.payloadFor address call)).filterMap id := by
  cases isFor : PubSubCall.payloadFor address call with
  | none => simp [List.filterMap_map, isFor]
  | some payload =>
      rw [ConnectionManager.recipients_of_payloadFor isFor]
      induction manager.recipientsOf address with
      | nil => rfl
      | cons first others ih =>
          by_cases counts : counted first = true <;>
            simp [List.replicate_succ, counts, isFor, ih]

theorem handed_sublist (manager : ConnectionManager)
    (one : ConnectionManager.CountsOne counted address) (call : PubSubCall) :
    (((manager.recipients call).map fun connection => (connection, call)).filterMap
      fun entry => if counted entry.1 then PubSubCall.payloadFor address entry.2
        else none).Sublist (PubSubCall.payloadFor address call).toList := by
  rw [handed_eq]
  obtain none | single := Nat.le_one_iff_eq_zero_or_eq_one.mp (one manager)
  · rw [none]
    exact List.nil_sublist _
  · rw [single]
    cases PubSubCall.payloadFor address call <;> exact .refl _

theorem handed_of_serves {manager : ConnectionManager}
    (serves : manager.Serves connection address) (call : PubSubCall) :
    (((manager.recipients call).map fun connection => (connection, call)).filterMap fun entry =>
      if decide (entry.1 = connection) then PubSubCall.payloadFor address entry.2 else none) =
        (PubSubCall.payloadFor address call).toList := by
  have single : ((manager.recipientsOf address).filter
      fun other => decide (other = connection)).length = 1 := by
    rw [← List.countP_eq_length_filter]
    exact List.count_eq_one_of_mem (manager.nodup_recipientsOf address)
      ((manager.mem_recipientsOf address connection).mpr serves)
  rw [handed_eq manager (fun other => decide (other = connection)), single]
  cases PubSubCall.payloadFor address call <;> rfl

/-- Every connection a call is handed to is the one of its addressee. -/
theorem exists_payloadFor {manager : ConnectionManager} {call : PubSubCall}
    (recipient : connection ∈ manager.recipients call) :
    ∃ address payload, PubSubCall.payloadFor address call = some payload ∧
      manager.Serves connection address := by
  have named : ∃ address : Address, call.handler = address.handler ∧
      addresseeOf call.channel = some address.identifier := by
    unfold ConnectionManager.recipients at recipient
    split at recipient
    · cases recipient
    · rename_i player handler channel
      exact ⟨.player player, handler, channel⟩
    · rename_i room handler channel
      exact ⟨.room room, handler, channel⟩
  obtain ⟨address, same⟩ := named
  have isFor : PubSubCall.payloadFor address call = some call.message.payload := if_pos same
  rw [ConnectionManager.recipients_of_payloadFor isFor] at recipient
  exact ⟨address, _, isFor, (manager.mem_recipientsOf address connection).mp recipient⟩

theorem filterMap_payloadFor_cons (call : PubSubCall) (calls : List PubSubCall) :
    (call :: calls).filterMap (PubSubCall.payloadFor address) =
      (PubSubCall.payloadFor address call).toList ++
        calls.filterMap (PubSubCall.payloadFor address) := by
  cases isFor : PubSubCall.payloadFor address call <;> simp [isFor]

/-- Nothing is delivered that was not to be delivered. -/
theorem Sound.act_sublist (sound : Sound own subscriber)
    (one : ConnectionManager.CountsOne counted address) {action : SubscriberAction}
    (acts : subscriber.act action = some next) :
    (next.forwardedWhere counted address ++ next.pendingFor address).Sublist
      (subscriber.forwardedWhere counted address ++ subscriber.pendingFor address) := by
  cases action with
  | start =>
      cases acts
      simp [forwardedWhere, pendingFor, start]
  | registerHandlers =>
      simp only [Subscriber.act, registerHandlers] at acts
      split at acts <;> cases acts
      exact .refl _
  | listen =>
      refine List.Sublist.append (by
        obtain ⟨_, _, -, -, ⟨-, rfl⟩ | ⟨_, -, rfl⟩⟩ := listen_eq_some acts <;> exact .refl _) ?_
      obtain ⟨frame, inbox, queued, idle, ⟨unread, rfl⟩ | ⟨message, read, rfl⟩⟩ :=
        listen_eq_some acts
      · rw [pendingFor_eq, pendingFor_eq, queued, List.flatMap_cons]
        exact (List.sublist_append_right _ _).append_left _
      · rw [pendingFor_eq, pendingFor_eq, queued, idle, List.flatMap_cons, List.filterMap_nil,
          List.nil_append]
        refine List.Sublist.append ?_ (.refl _)
        simp only [payloadsOf, callsFor, read]
        rw [sound.coordinator]
        split
        · exact .refl _
        · exact List.nil_sublist _
  | callHandler =>
      obtain ⟨call, calls, waiting, rfl⟩ := callHandler_eq_some acts
      have handed := handed_sublist subscriber.connections one call
      rw [pendingFor_eq, pendingFor_eq, waiting, filterMap_payloadFor_cons]
      simp only [forwardedWhere, List.filterMap_append, List.append_assoc]
      exact (handed.append_right _).append_left _
  | sent connection succeeded =>
      simp only [Subscriber.act, sent] at acts
      split at acts <;> cases acts
      exact .refl _
  | updateConnections update =>
      cases acts
      exact .refl _

/-- What was to be delivered to a connection of the addressee is delivered. -/
theorem Sound.act_eq (sound : Sound own subscriber) (up : subscriber.initialised = true)
    (serves : subscriber.connections.Serves connection address)
    {action : SubscriberAction} (stays : action ≠ .start)
    (acts : subscriber.act action = some next) :
    next.forwardedOn connection address ++ next.pendingFor address =
      subscriber.forwardedOn connection address ++ subscriber.pendingFor address := by
  cases action with
  | start => exact absurd rfl stays
  | registerHandlers =>
      simp only [Subscriber.act, registerHandlers] at acts
      split at acts <;> cases acts
      rfl
  | listen =>
      obtain ⟨frame, inbox, queued, idle, ⟨unread, rfl⟩ | ⟨message, read, rfl⟩⟩ :=
        listen_eq_some acts
      · rw [pendingFor_eq, pendingFor_eq, queued, List.flatMap_cons, payloadsOf_foreign unread]
        rfl
      · rw [pendingFor_eq, pendingFor_eq, queued, idle, List.flatMap_cons]
        simp only [payloadsOf, callsFor, read, sound.coordinator, up, if_true]
        rfl
  | callHandler =>
      obtain ⟨call, calls, waiting, rfl⟩ := callHandler_eq_some acts
      have handed := handed_of_serves serves call
      rw [pendingFor_eq, pendingFor_eq, waiting, filterMap_payloadFor_cons]
      simp only [forwardedOn, forwardedWhere, List.filterMap_append, List.append_assoc, handed]
  | sent _ succeeded =>
      simp only [Subscriber.act, sent] at acts
      split at acts <;> cases acts
      rfl
  | updateConnections update =>
      cases acts
      rfl

theorem initialised_of_act {action : SubscriberAction} (stays : action ≠ .start)
    (up : subscriber.initialised = true) (acts : subscriber.act action = some next) :
    next.initialised = true := by
  cases action with
  | start => exact absurd rfl stays
  | registerHandlers =>
      simp only [Subscriber.act, registerHandlers] at acts
      split at acts <;> cases acts
      rfl
  | listen =>
      obtain ⟨frame, inbox, -, -, ⟨-, rfl⟩ | ⟨message, -, rfl⟩⟩ := listen_eq_some acts
      · exact up
      · exact up
  | callHandler =>
      obtain ⟨call, calls, -, rfl⟩ := callHandler_eq_some acts
      exact up
  | sent _ succeeded =>
      simp only [Subscriber.act, sent] at acts
      split at acts <;> cases acts
      exact up
  | updateConnections update =>
      cases acts
      exact up

end Subscriber

theorem PubSubNet.step_cases {event : PubSubEvent} (steps : net.step event = some net') :
    (∃ own action next, event = .act own action ∧ (net own).act action = some next ∧
        net' = Function.update net own next) ∨
      ∃ frame, event.frame? = some frame ∧ net' = fun own => (net own).receive frame := by
  cases event with
  | act own action =>
      obtain ⟨next, acts, same⟩ := Option.map_eq_some_iff.mp steps
      exact .inl ⟨own, action, next, rfl, acts, same.symm⟩
  | publishToPlayer | publishToRoom | publish => exact .inr ⟨_, rfl, (Option.some.inj steps).symm⟩

/-- What a published frame adds to the messages for an address. -/
theorem payloadsOf_frame (own : InstanceId) (address : Address) {event : PubSubEvent}
    {frame : Frame} (published : event.frame? = some frame) (well : WellPublished [event]) :
    Subscriber.payloadsOf own address frame = publishedTo own address [event] ∧
      (publishedTo own address [event] = [] ∨
        ∃ recipient : Address, frame.channel = recipient.channel) := by
  cases event with
  | act => cases published
  | publishToPlayer sender recipient event room payload now =>
      cases published
      have plain := well.identifiers _ List.mem_cons_self _ _ _ rfl
      refine ⟨(Subscriber.payloadsOf_channel plain _ _ _ _).trans ?_, ?_⟩
      · simp only [publishedTo, PubSubEvent.publication?, List.filterMap_cons, List.filterMap_nil]
        split <;> simp_all
      · right
        exact ⟨.player recipient, rfl⟩
  | publishToRoom sender room event payload now =>
      cases published
      have plain := well.identifiers _ List.mem_cons_self _ _ _ rfl
      refine ⟨(Subscriber.payloadsOf_channel plain _ _ _ _).trans ?_, ?_⟩
      · simp only [publishedTo, PubSubEvent.publication?, List.filterMap_cons, List.filterMap_nil]
        split <;> simp_all
      · right
        exact ⟨.room room, rfl⟩
  | publish foreign =>
      cases published
      refine ⟨Subscriber.payloadsOf_foreign (well.foreign _ List.mem_cons_self own), ?_⟩
      left
      rfl

theorem publishedTo_cons (own : InstanceId) (address : Address) (event : PubSubEvent)
    (events : List PubSubEvent) :
    publishedTo own address (event :: events) =
      publishedTo own address [event] ++ publishedTo own address events :=
  List.filterMap_append (l := [event])

theorem WellPublished.of_cons {event : PubSubEvent} (well : WellPublished (event :: events)) :
    WellPublished [event] ∧ WellPublished events := by
  constructor
  · constructor
    · intro other member
      exact well.identifiers other (List.mem_cons.mpr (.inl (List.mem_singleton.mp member)))
    · intro frame member
      exact well.foreign frame (List.mem_cons.mpr (.inl (List.mem_singleton.mp member)))
  · constructor
    · intro other member
      exact well.identifiers other (List.mem_cons_of_mem _ member)
    · intro frame member
      exact well.foreign frame (List.mem_cons_of_mem _ member)

/-- A published frame adds its payload once, if the instance has started. -/
theorem Subscriber.Sound.receive_adds (sound : Subscriber.Sound own subscriber)
    (address : Address) {event : PubSubEvent} {frame : Frame}
    (published : event.frame? = some frame) (well : WellPublished [event]) :
    ∃ added, (subscriber.receive frame).pendingFor address =
        subscriber.pendingFor address ++ added ∧
      added.Sublist (publishedTo own address [event]) ∧
      (subscriber.subscriptions ≠ [] → added = publishedTo own address [event]) := by
  obtain ⟨payloads, nothing | ⟨recipient, channel⟩⟩ :=
    payloadsOf_frame own address published well
  · refine ⟨[], ?_, List.nil_sublist _, fun _ => nothing.symm⟩
    rw [Subscriber.pendingFor_receive, sound.instanceId, List.flatMap_eq_nil_iff.mpr]
    intro other member
    rw [List.eq_of_mem_replicate member, payloads, nothing]
  · refine ⟨_, Subscriber.pendingFor_receive frame, ?_⟩
    rw [sound.instanceId, channel]
    rcases sound.subscriptions with none | listed
    · rw [none]
      exact ⟨List.nil_sublist _, fun some => absurd rfl some⟩
    · rw [listed, countP_receives_channel]
      simp only [List.replicate_one, List.flatMap_cons, List.flatMap_nil, List.append_nil,
        payloads]
      exact ⟨.refl _, fun _ => trivial⟩

theorem PubSubNet.step_sound {event : PubSubEvent}
    (sound : ∀ own, Subscriber.Sound own (net own)) (steps : net.step event = some net') :
    ∀ own, Subscriber.Sound own (net' own) := by
  intro other
  rcases step_cases steps with ⟨actor, action, next, rfl, acts, rfl⟩ | ⟨frame, published, rfl⟩
  · by_cases same : other = actor
    · subst same
      rw [Function.update_self]
      exact (sound other).act acts
    · rw [Function.update_of_ne same]
      exact sound other
  · exact (sound other).receive frame

/-- One event, seen from an instance. -/
theorem PubSubNet.step_delivers (own : InstanceId)
    (one : ConnectionManager.CountsOne counted address) {event : PubSubEvent}
    (sound : ∀ own, Subscriber.Sound own (net own)) (steps : net.step event = some net')
    (well : WellPublished [event]) :
    ((net' own).forwardedWhere counted address ++ (net' own).pendingFor address).Sublist
      ((net own).forwardedWhere counted address ++ (net own).pendingFor address ++
        publishedTo own address [event]) := by
  rcases step_cases steps with ⟨actor, action, next, rfl, acts, rfl⟩ | ⟨frame, published, rfl⟩
  · have none : publishedTo own address [.act actor action] = [] := rfl
    rw [none, List.append_nil]
    by_cases same : own = actor
    · subst same
      rw [Function.update_self]
      exact (sound own).act_sublist one acts
    · rw [Function.update_of_ne same]
  · obtain ⟨added, pending, adds, -⟩ := (sound own).receive_adds address published well
    rw [pending, ← List.append_assoc]
    exact adds.append_left _

theorem PubSubNet.run_sound (sound : ∀ own, Subscriber.Sound own (net own))
    (ran : net.run events = some net') : ∀ own, Subscriber.Sound own (net' own) := by
  induction events generalizing net with
  | nil =>
      cases ran
      exact sound
  | cons event events ih =>
      obtain ⟨middle, first, others⟩ := Option.bind_eq_some_iff.mp ran
      exact ih (step_sound sound first) others

theorem PubSubNet.run_delivers (own : InstanceId)
    (one : ConnectionManager.CountsOne counted address)
    (sound : ∀ own, Subscriber.Sound own (net own)) (well : WellPublished events)
    (ran : net.run events = some net') :
    ((net' own).forwardedWhere counted address ++ (net' own).pendingFor address).Sublist
      ((net own).forwardedWhere counted address ++ (net own).pendingFor address ++
        publishedTo own address events) := by
  induction events generalizing net with
  | nil =>
      cases ran
      exact List.sublist_append_left _ _
  | cons event events ih =>
      obtain ⟨middle, first, others⟩ := Option.bind_eq_some_iff.mp ran
      obtain ⟨wellFirst, wellOthers⟩ := well.of_cons
      have here := step_delivers own one sound first wellFirst
      refine (ih (step_sound sound first) wellOthers others).trans ?_
      rw [publishedTo_cons, ← List.append_assoc]
      exact here.append_right _

/-- An instance that is up loses no message for a connection of the addressee. -/
theorem PubSubNet.step_keeps {event : PubSubEvent}
    (sound : Subscriber.Sound own (net own)) (steps : net.step event = some net')
    (well : WellPublished [event]) (up : (net own).initialised = true)
    (stays : event ≠ .act own .start)
    (serves : (net own).connections.Serves connection address) :
    (net' own).initialised = true ∧
      (net' own).forwardedOn connection address ++ (net' own).pendingFor address =
        (net own).forwardedOn connection address ++ (net own).pendingFor address ++
          publishedTo own address [event] := by
  rcases step_cases steps with ⟨actor, action, next, rfl, acts, rfl⟩ | ⟨frame, published, rfl⟩
  · have none : publishedTo own address [.act actor action] = [] := rfl
    rw [none, List.append_nil]
    by_cases same : own = actor
    · subst same
      have same : action ≠ .start := by
        rintro rfl
        exact stays rfl
      rw [Function.update_self]
      exact ⟨Subscriber.initialised_of_act same up acts, sound.act_eq up serves same acts⟩
    · rw [Function.update_of_ne same]
      exact ⟨up, rfl⟩
  · obtain ⟨added, pending, -, whole⟩ := sound.receive_adds address published well
    refine ⟨up, ?_⟩
    rw [pending, whole (sound.subscribed up), ← List.append_assoc]
    rfl

theorem StaysServed.tail {event : PubSubEvent}
    (served : StaysServed net (event :: events) own address connection)
    (steps : net.step event = some net') : StaysServed net' events own address connection :=
  fun done reached earlier ran => served (event :: done) reached
    (List.cons_prefix_cons.mpr ⟨rfl, earlier⟩) (by simp [PubSubNet.run, steps, ran])

theorem PubSubNet.run_keeps (sound : ∀ own, Subscriber.Sound own (net own))
    (well : WellPublished events) (ran : net.run events = some net') (up : StaysUp net events own)
    (served : StaysServed net events own address connection) :
    (net' own).forwardedOn connection address ++ (net' own).pendingFor address =
      (net own).forwardedOn connection address ++ (net own).pendingFor address ++
        publishedTo own address events := by
  induction events generalizing net with
  | nil =>
      cases ran
      exact (List.append_nil _).symm
  | cons event events ih =>
      obtain ⟨middle, first, others⟩ := Option.bind_eq_some_iff.mp ran
      obtain ⟨wellFirst, wellOthers⟩ := well.of_cons
      obtain ⟨initialised, noStart⟩ := up
      rw [List.mem_cons, not_or] at noStart
      have now := served [] net List.nil_prefix rfl
      obtain ⟨upMiddle, here⟩ := step_keeps (sound own) first wellFirst initialised
        (Ne.symm noStart.1) now
      rw [ih (step_sound sound first) wellOthers others ⟨upMiddle, noStart.2⟩
        (served.tail first), here, publishedTo_cons own address event events, List.append_assoc]

theorem PubSubNet.run_append (net : PubSubNet) (first others : List PubSubEvent) :
    net.run (first ++ others) = (net.run first).bind fun middle => middle.run others := by
  induction first generalizing net with
  | nil => rfl
  | cons event first ih =>
      rw [List.cons_append, run, run, Option.bind_assoc]
      exact congrArg _ (funext fun middle => ih middle)

/-- What is forwarded has been so before or by this call. -/
theorem Subscriber.forwarded_of_act {action : SubscriberAction}
    (acts : subscriber.act action = some next) {call : PubSubCall}
    (taken : (connection, call) ∈ next.forwarded) :
    (connection, call) ∈ subscriber.forwarded ∨
      action = .callHandler ∧ subscriber.calls.head? = some call ∧
        connection ∈ subscriber.connections.recipients call := by
  cases action with
  | start =>
      cases acts
      cases taken
  | registerHandlers =>
      simp only [Subscriber.act, registerHandlers] at acts
      split at acts <;> cases acts
      exact .inl taken
  | listen =>
      obtain ⟨_, _, -, -, ⟨-, rfl⟩ | ⟨_, -, rfl⟩⟩ := listen_eq_some acts
      · exact .inl taken
      · exact .inl taken
  | callHandler =>
      obtain ⟨first, calls, waiting, rfl⟩ := callHandler_eq_some acts
      rcases List.mem_append.mp taken with before | now
      · exact .inl before
      · obtain ⟨recipient, inside, same⟩ := List.mem_map.mp now
        cases same
        right
        exact ⟨rfl, by rw [waiting]; rfl, inside⟩
  | sent _ succeeded =>
      simp only [Subscriber.act, sent] at acts
      split at acts <;> cases acts
      exact .inl taken
  | updateConnections update =>
      cases acts
      exact .inl taken

/-- Whatever has been forwarded was for whom it was forwarded to. -/
theorem PubSubNet.addressed_of_run (ran : PubSubNet.silent.run events = some net)
    {call : PubSubCall} (taken : (connection, call) ∈ (net own).forwarded) :
    ∃ address payload, PubSubCall.payloadFor address call = some payload ∧
      ∃ done later middle, events = done ++ .act own .callHandler :: later ∧
        PubSubNet.silent.run done = some middle ∧ (middle own).calls.head? = some call ∧
        (middle own).connections.Serves connection address := by
  induction events using List.reverseRecOn generalizing net with
  | nil =>
      cases ran
      cases taken
  | append_singleton events event ih =>
      rw [run_append] at ran
      obtain ⟨before, earlier, last⟩ := Option.bind_eq_some_iff.mp ran
      have steps : before.step event = some net := by simpa [run] using last
      have weaken : (connection, call) ∈ (before own).forwarded →
          ∃ address payload, PubSubCall.payloadFor address call = some payload ∧
            ∃ done later middle, events ++ [event] = done ++ .act own .callHandler :: later ∧
              PubSubNet.silent.run done = some middle ∧
              (middle own).calls.head? = some call ∧
              (middle own).connections.Serves connection address := by
        intro taken
        obtain ⟨address, payload, isFor, done, later, middle, rfl, rest⟩ :=
          ih earlier taken
        exact ⟨address, payload, isFor, done, later ++ [event], middle, by simp, rest⟩
      rcases step_cases steps with ⟨actor, action, next, rfl, acts, rfl⟩ | ⟨frame, -, rfl⟩
      · by_cases same : own = actor
        · subst same
          rw [Function.update_self] at taken
          rcases Subscriber.forwarded_of_act acts taken with taken | ⟨rfl, head, recipient⟩
          · exact weaken taken
          · obtain ⟨address, payload, isFor, serves⟩ := Subscriber.exists_payloadFor recipient
            exact ⟨address, payload, isFor, events, [], before, rfl, earlier, head, serves⟩
        · rw [Function.update_of_ne same] at taken
          exact weaken taken
      · exact weaken taken

/-- Main result: across any number of instances messages are delivered in order and
at most once to those they are addressed to, and exactly once to a connection that
stays the player's or in the room. -/
theorem deliversAcross (well : WellPublished events)
    (ran : PubSubNet.silent.run events = some net) : DeliversAcross events net := by
  have silent own : Subscriber.Sound own (PubSubNet.silent own) :=
    ⟨rfl, .inl rfl, (by rintro ⟨⟩), rfl⟩
  have delivers (own : InstanceId) {counted : ConnectionId → Bool} {address : Address}
      (one : ConnectionManager.CountsOne counted address) :
      ((net own).forwardedWhere counted address ++ (net own).pendingFor address).Sublist
        (publishedTo own address events) := by
    simpa [Subscriber.forwardedWhere, Subscriber.pendingFor, PubSubNet.silent] using
      PubSubNet.run_delivers own one silent well ran
  constructor
  · intro own player
    exact delivers own (ConnectionManager.countsOne_player player)
  · intro own address connection
    exact delivers own (ConnectionManager.countsOne_connection connection address)
  · intro own connection call taken
    exact PubSubNet.addressed_of_run ran taken
  · intro later net' own address connection wellLater ranLater up served
    exact PubSubNet.run_keeps (PubSubNet.run_sound silent ran) wellLater ranLater up served

/-- Ada is connected to the second instance and a member of a room there; the first
one publishes to her and to the room. -/
def acrossInstances : List PubSubEvent :=
  [.act "inst-2" .start, .act "inst-2" .registerHandlers,
    .act "inst-2" (.updateConnections fun manager =>
      (manager.register "ada" "conn-1").joinRoom "conn-1" "room-1"),
    .publishToPlayer "inst-1" "ada" "match_found" "room-1" (.obj []) 0,
    .publishToRoom "inst-1" "room-1" "notice" (.obj []) 1,
    .act "inst-2" .listen, .act "inst-2" .callHandler, .act "inst-2" (.sent "conn-1" true),
    .act "inst-2" .listen, .act "inst-2" .callHandler]

theorem deliversAcross_ada : ∃ net, PubSubNet.silent.run acrossInstances = some net ∧
    DeliversAcross acrossInstances net ∧
      ((net "inst-2").forwardedOn "conn-1" (.player "ada")).length = 1 ∧
      ((net "inst-2").forwardedOn "conn-1" (.room "room-1")).length = 1 := by
  have runs : (PubSubNet.silent.run acrossInstances).any (fun net =>
      decide (((net "inst-2").forwardedOn "conn-1" (.player "ada")).length = 1 ∧
        ((net "inst-2").forwardedOn "conn-1" (.room "room-1")).length = 1)) = true := by
    decide +kernel
  obtain ⟨net, ran, handed⟩ := Option.any_eq_true _ _ |>.mp runs
  refine ⟨net, ran, deliversAcross ⟨?_, ?_⟩ ran, of_decide_eq_true handed⟩
  · intro event member address payload sender published
    simp only [acrossInstances, List.mem_cons, List.not_mem_nil, or_false] at member
    rcases member with rfl | rfl | rfl | rfl | rfl | rfl | rfl | rfl | rfl | rfl <;>
      cases published <;> decide
  · intro frame member
    simp [acrossInstances] at member

end TerritoryBackend

import Mathlib.Data.List.Infix
import TerritoryBackend.ListDict

/-!
# The Pub/Sub coordinator

The handler registry of `app/core/redis_pubsub.py` and `_dispatch`.  The list
of handlers a dispatch builds is, for a channel with handlers of its own, the
registered list itself, so that the handlers of matching patterns are added to
it for good.  The handlers are called in turn up to the first one that raises: the
log call meant for it passes `event` twice and raises as well.  Handlers and
messages are passed on without being looked at.
-/

namespace TerritoryBackend

/-- Whether a text matches a pattern in which `*` stands for any text. -/
def globMatches : List Char → List Char → Bool
  | [], text => text.isEmpty
  | symbol :: pattern, text =>
      if symbol = '*' then text.tails.any (globMatches pattern)
      else
        match text with
        | [] => false
        | first :: others => symbol == first && globMatches pattern others

/-- The only `*` of the pattern is its last symbol. -/
def EndsInStar (pattern : String) : Prop :=
  ∃ stem, pattern.toList = stem ++ ['*'] ∧ '*' ∉ stem

/-- `channel.startswith(pattern.split("*")[0])` -/
def startsWithPrefix (pattern channel : String) : Bool :=
  (pattern.toList.takeWhile (· != '*')).isPrefixOf channel.toList

theorem globMatches_append_star {stem : List Char} (plain : '*' ∉ stem) (text : List Char) :
    globMatches (stem ++ ['*']) text = stem.isPrefixOf text := by
  induction stem generalizing text with
  | nil =>
      -- A lone `*` leaves the empty end of the text.
      simp [globMatches, List.isPrefixOf]
  | cons symbol stem ih =>
      obtain ⟨different, plain⟩ := List.ne_and_not_mem_of_not_mem_cons plain
      cases text with
      | nil => simp [globMatches, Ne.symm different]
      | cons first others =>
          simp [globMatches, List.isPrefixOf, Ne.symm different, ih plain others]

/-- The test of the source is right for the patterns that end in their only
`*`. -/
theorem startsWithPrefix_eq_globMatches {pattern : String} (star : EndsInStar pattern)
    (channel : String) :
    startsWithPrefix pattern channel = globMatches pattern.toList channel.toList := by
  obtain ⟨stem, spelled, plain⟩ := star
  have others : ∀ symbol ∈ stem, (symbol != '*') = true := by
    intro symbol member
    rw [bne_iff_ne]
    rintro rfl
    exact plain member
  unfold startsWithPrefix
  rw [spelled, globMatches_append_star plain, List.takeWhile_append_of_pos others]
  simp

structure RedisPubSubCoordinator (H : Type*) where
  handlers : ListDict String H := {}
  patternHandlers : ListDict String H := {}

/-- A call of `register_handler` or `register_pattern_handler`. -/
inductive Registration (H : Type*) where
  | handler (channel : String) (handler : H)
  | patternHandler (pattern : String) (handler : H)

/-- A call of `_dispatch`, with which of the handlers it goes through raise. -/
structure DispatchCall (M : Type*) where
  channel : String
  message : M
  raises : ℕ → Bool := fun _ => false

structure HandlerCall (H M : Type*) where
  handler : H
  channel : String
  message : M

namespace RedisPubSubCoordinator

variable {H M : Type*}

def register (coordinator : RedisPubSubCoordinator H) :
    Registration H → RedisPubSubCoordinator H
  | .handler channel handler =>
      { coordinator with handlers := coordinator.handlers.append channel handler }
  | .patternHandler pattern handler =>
      { coordinator with
        patternHandlers := coordinator.patternHandlers.append pattern handler }

def registerAll (registrations : List (Registration H)) : RedisPubSubCoordinator H :=
  registrations.foldl register {}

/-- The handlers `_dispatch` goes through: those of the channel, then those of the
patterns. -/
def handlersFor (coordinator : RedisPubSubCoordinator H) (channel : String) : List H :=
  coordinator.handlers.get channel ++
    coordinator.patternHandlers.valuesWhere fun pattern => startsWithPrefix pattern channel

/-- The registry after `handlers.extend(pattern_handlers)`. -/
def extended (coordinator : RedisPubSubCoordinator H) (channel : String) :
    RedisPubSubCoordinator H :=
  { coordinator with
    handlers := coordinator.handlers.extend channel
      (coordinator.patternHandlers.valuesWhere fun pattern => startsWithPrefix pattern channel) }

/-- The handlers of the list that are called. -/
def callHandlers (raises : ℕ → Bool) : List H → List H
  | [] => []
  | handler :: others =>
      -- `logger.error(.., event=message.event, ..)` is a `TypeError`, which ends the loop.
      handler ::
        if raises 0 then [] else callHandlers (fun position => raises (position + 1)) others

/-- `_dispatch` -/
def dispatch (coordinator : RedisPubSubCoordinator H) (call : DispatchCall M) :
    RedisPubSubCoordinator H × List (HandlerCall H M) :=
  (coordinator.extended call.channel,
    (callHandlers call.raises (coordinator.handlersFor call.channel)).map fun handler =>
      ⟨handler, call.channel, call.message⟩)

/-- The registry after a sequence of messages. -/
def dispatchAll (coordinator : RedisPubSubCoordinator H) (messages : List (DispatchCall M)) :
    RedisPubSubCoordinator H :=
  messages.foldl (fun coordinator call => (coordinator.dispatch call).1) coordinator

end RedisPubSubCoordinator

namespace Registration

variable {H : Type*}

def target : Registration H → H
  | handler _ target | patternHandler _ target => target

def isForChannel (channel : String) : Registration H → Bool
  | handler registered _ => decide (registered = channel)
  | patternHandler _ _ => false

def isForPatternOf (channel : String) : Registration H → Bool
  | handler _ _ => false
  | patternHandler pattern _ => globMatches pattern.toList channel.toList

/-- The registration is for the channel or for a pattern the channel matches. -/
def appliesTo (channel : String) (registration : Registration H) : Bool :=
  registration.isForChannel channel || registration.isForPatternOf channel

def WellPatterned : Registration H → Prop
  | handler _ _ => True
  | patternHandler pattern _ => EndsInStar pattern

end Registration

namespace RedisPubSubCoordinator

variable {H M : Type*}

theorem registerAll_concat (registrations : List (Registration H)) (last : Registration H) :
    registerAll (registrations ++ [last]) = (registerAll registrations).register last := by
  simp [registerAll]

/-- A channel has the handlers that were registered for it. -/
theorem handlers_registerAll (registrations : List (Registration H)) (channel : String) :
    ((registerAll registrations).handlers.get channel).Perm
      ((registrations.filter (Registration.isForChannel channel)).map Registration.target) := by
  rw [ListDict.get_eq_valuesWhere]
  induction registrations using List.reverseRecOn with
  | nil => simp [registerAll, ListDict.valuesWhere]
  | append_singleton registrations last ih =>
      rw [registerAll_concat, List.filter_append, List.map_append]
      cases last with
      | handler registered target =>
          refine (ListDict.valuesWhere_append _ registered target _).trans (ih.append ?_)
          by_cases same : registered = channel <;>
            simp [same, Registration.isForChannel, Registration.target]
      | patternHandler pattern target =>
          simpa [register, Registration.isForChannel] using ih

/-- The patterns a channel starts with the prefix of have the handlers that
were registered for them. -/
theorem patternHandlers_registerAll {registrations : List (Registration H)}
    (wellPatterned : ∀ registration ∈ registrations, registration.WellPatterned)
    (channel : String) :
    ((registerAll registrations).patternHandlers.valuesWhere fun pattern =>
        startsWithPrefix pattern channel).Perm
      ((registrations.filter (Registration.isForPatternOf channel)).map Registration.target) := by
  induction registrations using List.reverseRecOn with
  | nil => simp [registerAll, ListDict.valuesWhere]
  | append_singleton registrations last ih =>
      have ih := ih fun registration member =>
        wellPatterned registration (List.mem_append_left _ member)
      have last_wellPatterned := wellPatterned last (by simp)
      rw [registerAll_concat, List.filter_append, List.map_append]
      cases last with
      | handler registered target => simpa [register, Registration.isForPatternOf] using ih
      | patternHandler pattern target =>
          refine (ListDict.valuesWhere_append _ pattern target _).trans (ih.append ?_)
          rw [startsWithPrefix_eq_globMatches last_wellPatterned]
          by_cases applies : globMatches pattern.toList channel.toList = true <;>
            simp [applies, Registration.isForPatternOf, Registration.target]

theorem mem_keys_registerAll (registrations : List (Registration H)) (channel : String) :
    channel ∈ (registerAll registrations).handlers.keys ↔
      ∃ registration ∈ registrations, registration.isForChannel channel = true := by
  induction registrations using List.reverseRecOn with
  | nil => simp [registerAll, ListDict.keys]
  | append_singleton registrations last ih =>
      rw [registerAll_concat]
      cases last with
      | handler registered target =>
          simp [register, ListDict.mem_keys_append, ih, Registration.isForChannel, or_and_right,
            exists_or, eq_comm (a := channel)]
      | patternHandler pattern target =>
          simp [register, ih, Registration.isForChannel, or_and_right, exists_or]

end RedisPubSubCoordinator

/-- Every message of the sequence is handled once for each registration that
applies to its channel, by a registry that stays as it was. -/
structure DeliversOnce {H M : Type*} (registrations : List (Registration H))
    (messages : List (DispatchCall M)) : Prop where
  calls : ∀ earlier call later, messages = earlier ++ call :: later →
    (((RedisPubSubCoordinator.registerAll registrations).dispatchAll earlier).dispatch
        call).2.Perm
      ((registrations.filter (Registration.appliesTo call.channel)).map fun registration =>
        ⟨registration.target, call.channel, call.message⟩)
  registry : ∀ earlier later, messages = earlier ++ later →
    (RedisPubSubCoordinator.registerAll registrations).dispatchAll earlier =
      RedisPubSubCoordinator.registerAll registrations

/-- The channel has a handler of its own and matches the pattern of another. -/
def Conflicted {H : Type*} (registrations : List (Registration H)) (channel : String) : Prop :=
  (∃ registration ∈ registrations, registration.isForChannel channel = true) ∧
    ∃ registration ∈ registrations, registration.isForPatternOf channel = true

/-- Of as many handlers none raises but the last. -/
def RaisesLast (handlers : ℕ) (raises : ℕ → Bool) : Prop :=
  ∀ position, raises position = true → handlers ≤ position + 1

/-- The message can be delivered once for each registration. -/
structure Deliverable {H M : Type*} (registrations : List (Registration H))
    (call : DispatchCall M) : Prop where
  unconflicted : ¬ Conflicted registrations call.channel
  raisesLast : RaisesLast (registrations.countP (Registration.appliesTo call.channel)) call.raises

namespace RedisPubSubCoordinator

variable {H M : Type*}

theorem dispatchAll_append_single (coordinator : RedisPubSubCoordinator H)
    (earlier : List (DispatchCall M)) (call : DispatchCall M) :
    coordinator.dispatchAll (earlier ++ [call]) =
      (coordinator.dispatchAll earlier).extended call.channel := by
  simp [dispatchAll, dispatch]

theorem length_callHandlers_eq_iff (raises : ℕ → Bool) (handlers : List H) :
    (callHandlers raises handlers).length = handlers.length ↔
      RaisesLast handlers.length raises := by
  induction handlers generalizing raises with
  | nil => simp [callHandlers, RaisesLast]
  | cons handler others ih =>
      simp only [callHandlers, List.length_cons, Nat.add_right_cancel_iff, RaisesLast,
        Nat.add_le_add_iff_right]
      constructor
      · intro same position raised
        cases position with
        | zero =>
            rw [if_pos raised] at same
            exact same.ge
        | succ position =>
            by_cases first : raises 0 = true
            · rw [if_pos first] at same
              exact same.ge.trans (Nat.zero_le _)
            · rw [if_neg first] at same
              exact (ih _).mp same position raised
      · intro last
        by_cases first : raises 0 = true
        · rw [if_pos first]
          exact (Nat.le_zero.mp (last 0 first)).symm
        · rw [if_neg first]
          exact (ih _).mpr fun position raised => last (position + 1) raised

theorem isPrefix_callHandlers (raises : ℕ → Bool) (handlers : List H) :
    callHandlers raises handlers <+: handlers := by
  induction handlers generalizing raises with
  | nil => exact List.prefix_refl []
  | cons handler others ih =>
      rw [callHandlers, List.prefix_cons_inj]
      split
      · exact List.nil_prefix
      · exact ih _

/-- All handlers are called when none raises before the last. -/
theorem callHandlers_eq_self {raises : ℕ → Bool} {handlers : List H}
    (last : RaisesLast handlers.length raises) : callHandlers raises handlers = handlers :=
  (isPrefix_callHandlers raises handlers).eq_of_length
    ((length_callHandlers_eq_iff raises handlers).mpr last)

/-- A dispatch keeps the registry except on a channel that has a handler of its
own and a matching pattern. -/
theorem extended_eq_self_iff {registrations : List (Registration H)}
    (wellPatterned : ∀ registration ∈ registrations, registration.WellPatterned)
    (channel : String) :
    (registerAll registrations).extended channel = registerAll registrations ↔
      ¬ Conflicted registrations channel := by
  have matching := patternHandlers_registerAll wellPatterned channel
  have kept : (registerAll registrations).extended channel = registerAll registrations ↔
        (registerAll registrations).handlers.extend channel
          ((registerAll registrations).patternHandlers.valuesWhere fun pattern =>
            startsWithPrefix pattern channel) = (registerAll registrations).handlers := by
    cases registerAll registrations
    simp [extended]
  rw [kept, ListDict.extend_eq_self_iff, mem_keys_registerAll, Conflicted, not_and_or]
  apply or_congr Iff.rfl
  rw [← List.length_eq_zero_iff, matching.length_eq, List.length_eq_zero_iff, List.map_eq_nil_iff,
    List.filter_eq_nil_iff]
  exact (not_exists.trans (forall_congr' fun _ => not_and)).symm

/-- The handlers of a fresh registry for a channel. -/
theorem handlersFor_registerAll {registrations : List (Registration H)}
    (wellPatterned : ∀ registration ∈ registrations, registration.WellPatterned)
    (channel : String) :
    ((registerAll registrations).handlersFor channel).Perm
      ((registrations.filter (Registration.appliesTo channel)).map Registration.target) := by
  have split : ((registrations.filter (Registration.isForChannel channel)) ++
      registrations.filter (Registration.isForPatternOf channel)).Perm
      (registrations.filter (Registration.appliesTo channel)) := by
    have parts := List.filter_append_perm (Registration.isForChannel channel)
      (registrations.filter (Registration.appliesTo channel))
    rw [List.filter_filter, List.filter_filter] at parts
    have forChannel : (fun registration : Registration H =>
        registration.isForChannel channel && registration.appliesTo channel) =
          Registration.isForChannel channel := by
      funext registration
      cases registration <;>
        simp [Registration.appliesTo, Registration.isForChannel, Registration.isForPatternOf]
    have forPattern : (fun registration : Registration H =>
        !registration.isForChannel channel && registration.appliesTo channel) =
          Registration.isForPatternOf channel := by
      funext registration
      cases registration <;>
        simp [Registration.appliesTo, Registration.isForChannel, Registration.isForPatternOf]
    rwa [forChannel, forPattern] at parts
  have listed := (handlers_registerAll registrations channel).append
    (patternHandlers_registerAll wellPatterned channel)
  rw [← List.map_append] at listed
  exact listed.trans (split.map _)

theorem length_handlersFor_registerAll {registrations : List (Registration H)}
    (wellPatterned : ∀ registration ∈ registrations, registration.WellPatterned)
    (channel : String) :
    ((registerAll registrations).handlersFor channel).length =
      registrations.countP (Registration.appliesTo channel) := by
  rw [(handlersFor_registerAll wellPatterned channel).length_eq, List.length_map,
    List.countP_eq_length_filter]

/-- A fresh registry calls every handler once for each of its registrations exactly
when none raises before the last. -/
theorem dispatch_calls_iff {registrations : List (Registration H)}
    (wellPatterned : ∀ registration ∈ registrations, registration.WellPatterned)
    (call : DispatchCall M) :
    ((registerAll registrations).dispatch call).2.Perm
        ((registrations.filter (Registration.appliesTo call.channel)).map fun registration =>
          ⟨registration.target, call.channel, call.message⟩) ↔
      RaisesLast (registrations.countP (Registration.appliesTo call.channel)) call.raises := by
  rw [← length_handlersFor_registerAll wellPatterned]
  constructor
  · intro called
    have same := called.length_eq
    rw [dispatch, List.length_map, List.length_map, ← List.countP_eq_length_filter,
      ← length_handlersFor_registerAll wellPatterned] at same
    exact (length_callHandlers_eq_iff _ _).mp same
  · intro last
    rw [dispatch, callHandlers_eq_self last]
    have listed := (handlersFor_registerAll wellPatterned call.channel).map fun handler =>
      (⟨handler, call.channel, call.message⟩ : HandlerCall H M)
    rwa [List.map_map] at listed

theorem dispatchAll_eq_self {registrations : List (Registration H)}
    (wellPatterned : ∀ registration ∈ registrations, registration.WellPatterned)
    {messages : List (DispatchCall M)}
    (unconflicted : ∀ call ∈ messages, ¬ Conflicted registrations call.channel) :
    (registerAll registrations).dispatchAll messages = registerAll registrations := by
  induction messages using List.reverseRecOn with
  | nil => rfl
  | append_singleton earlier call ih =>
      have same := ih fun other member => unconflicted other (List.mem_append_left _ member)
      rw [dispatchAll_append_single, same, extended_eq_self_iff wellPatterned]
      exact unconflicted call (by simp)

/-- Messages are delivered once for each registration, by an unchanged registry,
exactly when none of their channels has both a handler of its own and a matching
pattern, and none of the handlers called for them raises but the last. -/
theorem deliversOnce_iff {registrations : List (Registration H)}
    (wellPatterned : ∀ registration ∈ registrations, registration.WellPatterned)
    (messages : List (DispatchCall M)) :
    DeliversOnce registrations messages ↔ ∀ call ∈ messages, Deliverable registrations call := by
  constructor
  · intro delivers call member
    obtain ⟨earlier, later, rfl⟩ := List.append_of_mem member
    have before := delivers.registry earlier (call :: later) rfl
    constructor
    · have after := delivers.registry (earlier ++ [call]) later (by simp)
      rwa [dispatchAll_append_single, before, extended_eq_self_iff wellPatterned] at after
    · have called := delivers.calls earlier call later rfl
      rwa [before, dispatch_calls_iff wellPatterned] at called
  · intro deliverable
    constructor
    · rintro earlier call later rfl
      rw [dispatchAll_eq_self wellPatterned fun other member =>
        (deliverable other (List.mem_append_left _ member)).unconflicted,
        dispatch_calls_iff wellPatterned]
      exact (deliverable call (by simp)).raisesLast
    · rintro earlier later rfl
      exact dispatchAll_eq_self wellPatterned fun call member =>
        (deliverable call (List.mem_append_left _ member)).unconflicted

/-- The pattern's handler, which is the only one, may raise. -/
theorem handled_once :
    DeliversOnce [.handler "ch:room:1" 0, .patternHandler "ch:player:*" 1]
      [⟨"ch:room:1", "first", fun _ => false⟩, ⟨"ch:player:7", "other", fun _ => true⟩,
        ⟨"ch:room:1", "second", fun _ => false⟩] := by
  refine (deliversOnce_iff ?_ _).mpr ?_
  · intro registration member
    simp only [List.mem_cons, List.not_mem_nil, or_false] at member
    obtain rfl | rfl := member
    · trivial
    · exact ⟨"ch:player:".toList, by decide, by decide⟩
  · intro call member
    simp only [List.mem_cons, List.not_mem_nil, or_false] at member
    obtain rfl | rfl | rfl := member
    · exact ⟨by unfold Conflicted; decide, by simp [RaisesLast]⟩
    · refine ⟨by unfold Conflicted; decide, ?_⟩
      intro position _
      exact Nat.succ_le_succ (Nat.zero_le position)
    · exact ⟨by unfold Conflicted; decide, by simp [RaisesLast]⟩

/-- A handler of a channel and one of a pattern the channel matches. -/
def channelAndPattern : List (Registration ℕ) :=
  [.handler "ch:room:1" 0, .patternHandler "ch:room:*" 1]

/-- The second message of the channel is handled twice by the pattern's
handler. -/
theorem handled_twice :
    (∀ registration ∈ channelAndPattern, registration.WellPatterned) ∧
      (((registerAll channelAndPattern).dispatchAll
        [{ channel := "ch:room:1", message := "first" }]).dispatch
          { channel := "ch:room:1", message := "second" }).2.map HandlerCall.handler =
            [0, 1, 1] ∧
      ¬ DeliversOnce channelAndPattern
        [{ channel := "ch:room:1", message := "first" },
          { channel := "ch:room:1", message := "second" }] := by
  refine ⟨?_, by decide, ?_⟩
  · intro registration member
    simp only [channelAndPattern, List.mem_cons, List.not_mem_nil, or_false] at member
    obtain rfl | rfl := member
    · trivial
    · exact ⟨"ch:room:".toList, by decide, by decide⟩
  · intro delivers
    have calls := (delivers.calls [{ channel := "ch:room:1", message := "first" }]
      { channel := "ch:room:1", message := "second" } [] rfl).length_eq
    revert calls
    decide

/-- A handler that raises keeps the next one of the pattern from being called. -/
example : ((registerAll [.patternHandler "ch:room:*" 0, .patternHandler "ch:room:*" 1]).dispatch
    ⟨"ch:room:1", "joined", fun position => position == 0⟩).2.map HandlerCall.handler = [0] := by
  decide

end RedisPubSubCoordinator

end TerritoryBackend

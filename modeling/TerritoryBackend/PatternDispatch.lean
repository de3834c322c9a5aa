import Mathlib.Data.List.TakeWhile
import TerritoryBackend.PubSub

/-!
# Local dispatch and pattern subscriptions

A dispatch calls the handlers of a pattern when the channel begins with the
text before the pattern's first `*`, unless a handler before them raises; Redis
delivers a message to a pattern subscription when the channel matches the pattern
as a whole.  Where no handler raises the two agree on the patterns whose only stars
stand at their end.
-/

namespace TerritoryBackend

/-- The text consists of the pieces in their order, each after a gap of any
text, and nothing after the last one. -/
def Continues : List (List Char) → List Char → Prop
  | [], text => text = []
  | piece :: pieces, text => ∃ gap rest, text = gap ++ piece ++ rest ∧ Continues pieces rest

/-- The text before the pattern's first `*`. -/
def stem (pattern : String) : List Char := pattern.toList.takeWhile (· != '*')

/-- The pieces of the pattern after its first `*`. -/
def laterPieces (pattern : String) : List (List Char) := (pattern.toList.splitOn '*').tail

/-- What follows the stem in the channel is what the pattern asks for there. -/
def RestFits (pattern channel : String) : Prop :=
  ∀ rest, channel.toList = stem pattern ++ rest → Continues (laterPieces pattern) rest

/-- The only stars of the pattern, at least one, are at its end. -/
def EndsInStars (pattern : String) : Prop :=
  ∃ stars, pattern.toList = stem pattern ++ List.replicate (stars + 1) '*'

theorem splitOn_star_cons (symbol : Char) (pattern : List Char) :
    (symbol :: pattern).splitOn '*' =
      if symbol = '*' then [] :: pattern.splitOn '*'
      else (pattern.splitOn '*').modifyHead (symbol :: ·) := by
  simp [List.splitOn_cons_eq_if_modifyHead]

/-- The first piece of a pattern is its stem. -/
theorem head_splitOn_star (pattern : List Char) :
    pattern.splitOn '*' =
      pattern.takeWhile (· != '*') :: (pattern.splitOn '*').tail := by
  induction pattern with
  | nil => rfl
  | cons symbol pattern ih =>
      rw [splitOn_star_cons]
      by_cases star : symbol = '*'
      · simp [star]
      · rw [if_neg star, ih]
        simp [star]

theorem globMatches_star_cons (pattern text : List Char) :
    globMatches ('*' :: pattern) text = true ↔
      ∃ gap rest, text = gap ++ rest ∧ globMatches pattern rest = true := by
  simp only [globMatches, if_true, List.any_eq_true, List.mem_tails]
  constructor
  · rintro ⟨rest, ⟨gap, rfl⟩, found⟩
    exact ⟨gap, rest, rfl, found⟩
  · rintro ⟨gap, rest, rfl, found⟩
    exact ⟨rest, ⟨gap, rfl⟩, found⟩

theorem globMatches_plain_cons {symbol : Char} (plain : symbol ≠ '*')
    (pattern text : List Char) :
    globMatches (symbol :: pattern) text = true ↔
      ∃ rest, text = symbol :: rest ∧ globMatches pattern rest = true := by
  cases text with
  | nil => simp [globMatches, plain]
  | cons first others =>
      simp only [globMatches, plain, if_false, Bool.and_eq_true, beq_iff_eq, List.cons.injEq]
      constructor
      · rintro ⟨same, found⟩
        exact ⟨others, ⟨same.symm, rfl⟩, found⟩
      · rintro ⟨rest, ⟨same, rfl⟩, found⟩
        exact ⟨same.symm, found⟩

/-- A pattern is matched by its first piece followed by the later ones. -/
theorem globMatches_iff (pattern text : List Char) :
    globMatches pattern text = true ↔
      ∃ rest, text = pattern.takeWhile (· != '*') ++ rest ∧
        Continues (pattern.splitOn '*').tail rest := by
  induction pattern generalizing text with
  | nil => simp [globMatches, Continues]
  | cons symbol pattern ih =>
      rw [splitOn_star_cons]
      by_cases star : symbol = '*'
      · -- The first of the later pieces comes after the gap of this star.
        subst star
        rw [globMatches_star_cons, if_pos rfl, List.tail_cons, head_splitOn_star]
        simp only [ih, Continues]
        constructor
        · rintro ⟨gap, _, rfl, rest, rfl, continues⟩
          exact ⟨_, rfl, gap, rest, by simp, continues⟩
        · rintro ⟨_, rfl, gap, rest, rfl, continues⟩
          exact ⟨gap, _, by simp, rest, rfl, continues⟩
      · rw [globMatches_plain_cons star, if_neg star, List.tail_modifyHead]
        simp only [ih]
        constructor
        · rintro ⟨_, rfl, rest, rfl, continues⟩
          exact ⟨rest, by simp [star], continues⟩
        · rintro ⟨rest, rfl, continues⟩
          exact ⟨_, by simp [star], rest, rfl, continues⟩

theorem startsWithPrefix_iff (pattern channel : String) :
    startsWithPrefix pattern channel = true ↔ ∃ rest, channel.toList = stem pattern ++ rest := by
  rw [startsWithPrefix, List.isPrefixOf_iff_prefix]
  exact ⟨fun ⟨rest, spelled⟩ => ⟨rest, spelled.symm⟩, fun ⟨rest, spelled⟩ => ⟨rest, spelled.symm⟩⟩

/-- On one channel the two tests agree when the rest of the channel fits. -/
theorem startsWithPrefix_agrees_iff (pattern channel : String) :
    (startsWithPrefix pattern channel = true ↔
        globMatches pattern.toList channel.toList = true) ↔
      RestFits pattern channel := by
  rw [startsWithPrefix_iff, globMatches_iff]
  constructor
  · intro agrees rest spelled
    obtain ⟨other, respelled, continues⟩ := agrees.mp ⟨rest, spelled⟩
    rw [spelled] at respelled
    rwa [List.append_cancel_left respelled]
  · intro fits
    constructor
    · rintro ⟨rest, spelled⟩
      exact ⟨rest, spelled, fits rest spelled⟩
    · rintro ⟨rest, spelled, _⟩
      exact ⟨rest, spelled⟩

theorem continues_replicate (stars : Nat) (text : List Char) :
    Continues (List.replicate (stars + 1) []) text := by
  induction stars with
  | zero => exact ⟨text, [], by simp, rfl⟩
  | succ stars ih => exact ⟨[], text, by simp, ih⟩

theorem eq_nil_of_continues_nil {pieces : List (List Char)} (continues : Continues pieces []) :
    pieces = List.replicate pieces.length [] := by
  induction pieces with
  | nil => rfl
  | cons piece pieces ih =>
      obtain ⟨gap, rest, spelled, others⟩ := continues
      simp only [List.nil_eq, List.append_eq_nil_iff] at spelled
      obtain ⟨⟨-, rfl⟩, rfl⟩ := spelled
      rw [ih others]
      simp [List.replicate_succ]

theorem intercalate_replicate (first : List Char) (stars : Nat) :
    ['*'].intercalate (first :: List.replicate stars []) = first ++ List.replicate stars '*' := by
  induction stars generalizing first with
  | zero => simp
  | succ stars ih =>
      rw [List.replicate_succ, List.intercalate_cons_of_ne_nil (by simp), ih,
        List.replicate_succ]
      simp

theorem not_mem_stem (pattern : String) : '*' ∉ stem pattern := by
  intro member
  simpa using List.mem_takeWhile_imp member

/-- The later pieces are empty, and there are some, for the patterns that end
in their only stars. -/
theorem endsInStars_iff (pattern : String) :
    EndsInStars pattern ↔ ∃ stars, laterPieces pattern = List.replicate (stars + 1) [] := by
  have split : pattern.toList.splitOn '*' = stem pattern :: laterPieces pattern :=
    head_splitOn_star _
  constructor
  · rintro ⟨stars, spelled⟩
    refine ⟨stars, ?_⟩
    have pieces : (stem pattern :: List.replicate (stars + 1) []) = pattern.toList.splitOn '*' := by
      rw [spelled, ← intercalate_replicate, List.splitOn_intercalate]
      · intro piece member
        rcases List.mem_cons.mp member with rfl | empty
        · exact not_mem_stem pattern
        · simp [List.eq_of_mem_replicate empty]
      · simp
    rw [split] at pieces
    exact (List.cons.inj pieces).2.symm
  · rintro ⟨stars, pieces⟩
    refine ⟨stars, ?_⟩
    have joined : ['*'].intercalate (pattern.toList.splitOn '*') = pattern.toList :=
      List.intercalate_splitOn '*'
    rw [split, pieces, intercalate_replicate] at joined
    exact joined.symm

/-- Every channel's rest fits exactly the patterns that end in their only
stars. -/
theorem restFits_all_iff (pattern : String) :
    (∀ channel, RestFits pattern channel) ↔ EndsInStars pattern := by
  rw [endsInStars_iff]
  constructor
  · intro fits
    have empty := eq_nil_of_continues_nil
      (fits (String.ofList (stem pattern)) [] (by simp))
    cases pieces : laterPieces pattern with
    | nil =>
        -- Without a star nothing may follow, but a longer channel exists.
        have long := fits (String.ofList (stem pattern ++ ['x'])) ['x'] (by simp)
        rw [pieces] at long
        cases long
    | cons piece others =>
        rw [pieces] at empty
        exact ⟨others.length, empty⟩
  · rintro ⟨stars, pieces⟩ channel rest -
    rw [pieces]
    exact continues_replicate stars rest

/-- After the earlier messages, the message reaches the handler exactly when its
channel matches the pattern. -/
def DispatchAgrees {H M : Type*} (registrations : List (Registration H))
    (earlier : List (DispatchCall M)) (pattern : String) (handler : H)
    (call : DispatchCall M) : Prop :=
  handler ∈ (((RedisPubSubCoordinator.registerAll registrations).dispatchAll earlier).dispatch
      call).2.map HandlerCall.handler ↔
    globMatches pattern.toList call.channel.toList = true

/-- Of the handlers listed for the channel, one that raises stands before the
first place of the handler. -/
def RaisedBefore {H M : Type*} (coordinator : RedisPubSubCoordinator H) (handler : H)
    (call : DispatchCall M) : Prop :=
  ∃ before raising others, coordinator.handlersFor call.channel = before ++ raising :: others ∧
    handler ∉ before ++ [raising] ∧ call.raises before.length = true

namespace RedisPubSubCoordinator

variable {H M : Type*} {registrations : List (Registration H)} {pattern : String} {handler : H}

theorem mem_patternHandlers_registerAll (registrations : List (Registration H))
    (test : String → Bool) (handler : H) :
    handler ∈ (registerAll registrations).patternHandlers.valuesWhere test ↔
      ∃ pattern, .patternHandler pattern handler ∈ registrations ∧ test pattern = true := by
  induction registrations using List.reverseRecOn with
  | nil => simp [registerAll, ListDict.valuesWhere]
  | append_singleton registrations last ih =>
      rw [registerAll_concat]
      cases last with
      | handler channel target => simpa [register] using ih
      | patternHandler registered target =>
          simp only [register, (ListDict.valuesWhere_append _ registered target test).mem_iff,
            List.mem_append, ih, List.mem_singleton, Registration.patternHandler.injEq]
          by_cases applies : test registered = true
          · simp only [applies, if_true, List.mem_singleton]
            constructor
            · rintro (⟨other, member, holds⟩ | rfl)
              · exact ⟨other, .inl member, holds⟩
              · exact ⟨registered, .inr ⟨rfl, rfl⟩, applies⟩
            · rintro ⟨other, member | ⟨-, rfl⟩, holds⟩
              · exact .inl ⟨other, member, holds⟩
              · exact .inr rfl
          · simp only [applies, Bool.false_eq_true, if_false, List.not_mem_nil, or_false]
            constructor
            · rintro ⟨other, member, holds⟩
              exact ⟨other, .inl member, holds⟩
            · rintro ⟨other, member | ⟨rfl, -⟩, holds⟩
              · exact ⟨other, member, holds⟩
              · exact absurd holds applies

theorem patternHandlers_dispatchAll (coordinator : RedisPubSubCoordinator H)
    (messages : List (DispatchCall M)) :
    (coordinator.dispatchAll messages).patternHandlers = coordinator.patternHandlers := by
  induction messages using List.reverseRecOn with
  | nil => rfl
  | append_singleton earlier call ih => rw [dispatchAll_append_single, ← ih]; rfl

/-- The list of a channel holds the handler of a pattern only where a dispatch
on that channel put it. -/
theorem startsWithPrefix_of_mem_handlers
    (only : ∀ registration ∈ registrations, registration.target = handler →
      registration = .patternHandler pattern handler)
    (earlier : List (DispatchCall M)) {channel : String}
    (member : handler ∈ ((registerAll registrations).dispatchAll earlier).handlers.get channel) :
    startsWithPrefix pattern channel = true := by
  induction earlier using List.reverseRecOn with
  | nil =>
      rw [dispatchAll, List.foldl_nil,
        (handlers_registerAll registrations channel).mem_iff] at member
      obtain ⟨registration, kept, target⟩ := List.mem_map.mp member
      obtain ⟨registered, forChannel⟩ := List.mem_filter.mp kept
      rw [only registration registered target] at forChannel
      cases forChannel
  | append_singleton earlier call ih =>
      rw [dispatchAll_append_single] at member
      rcases ListDict.mem_get_extend member with old | ⟨rfl, added⟩
      · exact ih old
      · rw [patternHandlers_dispatchAll, mem_patternHandlers_registerAll] at added
        obtain ⟨other, registered, holds⟩ := added
        have same := only _ registered rfl
        cases same
        exact holds

/-- The handler is listed for the channels that begin with the stem of its
pattern. -/
theorem mem_handlersFor_iff (registered : .patternHandler pattern handler ∈ registrations)
    (only : ∀ registration ∈ registrations, registration.target = handler →
      registration = .patternHandler pattern handler)
    (earlier : List (DispatchCall M)) (channel : String) :
    handler ∈ ((registerAll registrations).dispatchAll earlier).handlersFor channel ↔
      startsWithPrefix pattern channel = true := by
  rw [handlersFor, List.mem_append, patternHandlers_dispatchAll, mem_patternHandlers_registerAll]
  constructor
  · rintro (listed | ⟨other, member, holds⟩)
    · exact startsWithPrefix_of_mem_handlers only earlier listed
    · have same := only _ member rfl
      cases same
      exact holds
  · intro holds
    right
    exact ⟨pattern, registered, holds⟩

/-- A listed handler is called unless one before it raises. -/
theorem mem_callHandlers_iff (raises : ℕ → Bool) (handlers : List H) (handler : H) :
    handler ∈ callHandlers raises handlers ↔
      handler ∈ handlers ∧ ¬ ∃ before raising others, handlers = before ++ raising :: others ∧
        handler ∉ before ++ [raising] ∧ raises before.length = true := by
  induction handlers generalizing raises with
  | nil => simp [callHandlers]
  | cons first others ih =>
      by_cases same : handler = first
      · subst same
        simp only [callHandlers, List.mem_cons, true_or, true_and, true_iff]
        rintro ⟨before, raising, rest, spelled, outside, -⟩
        cases before with
        | nil => cases spelled; simp at outside
        | cons head before => cases spelled; simp at outside
      · simp only [callHandlers, List.mem_cons, same, false_or]
        by_cases raised : raises 0 = true
        · rw [if_pos raised]
          simp only [List.not_mem_nil, false_iff, not_and, not_not]
          intro _
          exact ⟨[], first, others, rfl, by simpa using same, raised⟩
        · rw [if_neg raised, ih]
          refine and_congr_right fun _ => not_congr ?_
          constructor
          · rintro ⟨before, raising, rest, rfl, outside, there⟩
            exact ⟨first :: before, raising, rest, rfl, by simpa [same] using outside, there⟩
          · rintro ⟨before, raising, rest, spelled, outside, there⟩
            cases before with
            | nil => exact absurd there raised
            | cons head before =>
                cases spelled
                exact ⟨before, raising, rest, rfl,
                  fun inside => outside (List.mem_cons_of_mem _ inside), there⟩

/-- A message reaches the handler exactly when its channel begins with the stem of
the handler's pattern and no handler before it raises. -/
theorem mem_dispatch_iff (registered : .patternHandler pattern handler ∈ registrations)
    (only : ∀ registration ∈ registrations, registration.target = handler →
      registration = .patternHandler pattern handler)
    (earlier : List (DispatchCall M)) (call : DispatchCall M) :
    handler ∈ (((registerAll registrations).dispatchAll earlier).dispatch call).2.map
        HandlerCall.handler ↔
      startsWithPrefix pattern call.channel = true ∧
        ¬ RaisedBefore ((registerAll registrations).dispatchAll earlier) handler call := by
  rw [RaisedBefore, ← mem_handlersFor_iff registered only earlier, ← mem_callHandlers_iff]
  simp [dispatch]

/-- Main result: the dispatch agrees with the pattern subscription on the channels
that do not begin with the pattern's stem, and on the others if either they continue
it as the pattern does or a handler before it raises; and where none raises it agrees
on every channel exactly if the pattern ends in its only stars. -/
theorem dispatchAgrees_iff (registered : .patternHandler pattern handler ∈ registrations)
    (only : ∀ registration ∈ registrations, registration.target = handler →
      registration = .patternHandler pattern handler)
    (earlier : List (DispatchCall M)) (message : M) :
    (∀ channel raises,
      DispatchAgrees registrations earlier pattern handler ⟨channel, message, raises⟩ ↔
        (startsWithPrefix pattern channel = true →
          (RestFits pattern channel ↔ ¬ RaisedBefore
            ((registerAll registrations).dispatchAll earlier) handler
              (⟨channel, message, raises⟩ : DispatchCall M)))) ∧
    ((∀ channel, DispatchAgrees registrations earlier pattern handler { channel, message }) ↔
      EndsInStars pattern) := by
  have agrees (channel : String) (raises : ℕ → Bool) :
      DispatchAgrees registrations earlier pattern handler ⟨channel, message, raises⟩ ↔
        (startsWithPrefix pattern channel = true →
          (RestFits pattern channel ↔ ¬ RaisedBefore
            ((registerAll registrations).dispatchAll earlier) handler
              (⟨channel, message, raises⟩ : DispatchCall M))) := by
    have fits := startsWithPrefix_agrees_iff pattern channel
    have matching : globMatches pattern.toList channel.toList = true →
        startsWithPrefix pattern channel = true := by
      rw [globMatches_iff, startsWithPrefix_iff]
      rintro ⟨rest, spelled, -⟩
      exact ⟨rest, spelled⟩
    rw [DispatchAgrees, mem_dispatch_iff registered only, ← fits]
    tauto
  refine ⟨agrees, ?_⟩
  rw [← restFits_all_iff]
  refine forall_congr' fun channel => ?_
  have quiet : ¬ RaisedBefore ((registerAll registrations).dispatchAll earlier) handler
      ({ channel, message } : DispatchCall M) := by
    rintro ⟨_, _, _, -, -, raised⟩
    cases raised
  rw [agrees, iff_true_right quiet]
  constructor
  · intro fits rest spelled
    exact fits ((startsWithPrefix_iff pattern channel).mpr ⟨rest, spelled⟩) rest spelled
  · intro fits _
    exact fits

theorem dispatchAgrees_players :
    DispatchAgrees [.handler "ch:room:1" 0, .patternHandler "ch:player:*" 1]
      [{ channel := "ch:player:7", message := "first" }] "ch:player:*" 1
      { channel := "ch:player:42", message := "second" } :=
  (dispatchAgrees_iff (by simp) (by simp [Registration.target]) _ _).2.mpr ⟨0, by decide⟩ _

/-- Text after the star is not looked at. -/
theorem dispatch_past_star :
    ¬ DispatchAgrees [.patternHandler "ch:*:state" 1] [] "ch:*:state" 1
      { channel := "ch:room:1", message := "joined" } := by
  unfold DispatchAgrees
  decide

end RedisPubSubCoordinator

end TerritoryBackend

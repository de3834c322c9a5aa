import TerritoryBackend.GameEngine
import Mathlib.Data.Finset.Insert
import Mathlib.Data.List.Infix

/-!
# Who is absent from a game

A game sees the disconnects and reconnects of its players one after another,
interleaved with actions.  This file compares `disconnected_players` and the
status with the players whose latest event is a disconnect.  The early return
of `handle_player_disconnect` for a game that is not in progress drops the
second of two overlapping absences, and the agreement holds in exactly the
histories without one.
-/

namespace TerritoryBackend

/-- A call of the engine for one registered game. -/
inductive GameEvent where
  | disconnect (player : PlayerId)
  | reconnect (player : PlayerId)
  | action (player : PlayerId) (action data : Json) (now : Time)

namespace ActiveGame

/-- The game after a call, calls that are refused or raise leaving it as it
is. -/
def apply (game : ActiveGame) : GameEvent → ActiveGame
  | .disconnect player => (game.handlePlayerDisconnect player).getD game
  | .reconnect player => game.handlePlayerReconnect player
  | .action player action data now =>
      match game.processAction player action data now with
      | .ok (.passed result) => result.1
      | _ => game

def applyAll (game : ActiveGame) (events : List GameEvent) : ActiveGame :=
  events.foldl apply game

end ActiveGame

namespace GameEngine

/-- The state change of a call. -/
def call (engine : GameEngine) (room : RoomId) : GameEvent → GameEngine
  | .disconnect player => (engine.handlePlayerDisconnect room player).getD engine
  | .reconnect player => ((engine.handlePlayerReconnect room player).map Prod.fst).getD engine
  | .action player action data now => (engine.processAction room player action data now).1

def callAll (engine : GameEngine) (room : RoomId) (events : List GameEvent) : GameEngine :=
  events.foldl (fun engine event => engine.call room event) engine

theorem find_call {engine : GameEngine} {room : RoomId} {game : ActiveGame}
    (found : engine.find room = some game) (event : GameEvent) :
    (engine.call room event).find room = some (game.apply event) := by
  have present := (find_eq_some.mp found).1
  cases event with
  | disconnect player =>
      cases paused : game.handlePlayerDisconnect player <;>
        simp [call, handlePlayerDisconnect, ActiveGame.apply, found, paused, find_write present]
  | reconnect player =>
      simp [call, handlePlayerReconnect, ActiveGame.apply, found, find_write present]
  | action player action data now =>
      simp only [call, processAction, ActiveGame.apply, found]
      split <;> simp_all [find_write present]

theorem find_callAll {engine : GameEngine} {room : RoomId} {game : ActiveGame}
    (found : engine.find room = some game) (events : List GameEvent) :
    (engine.callAll room events).find room = some (game.applyAll events) := by
  induction events generalizing engine game with
  | nil => exact found
  | cons event events ih => exact ih (find_call found event)

end GameEngine

/-- The players whose latest event is a disconnect. -/
def absentees (events : List GameEvent) : Finset PlayerId :=
  events.foldl (fun absent event =>
    match event with
    | .disconnect player => insert player absent
    | .reconnect player => absent.erase player
    | .action .. => absent) ∅

/-- Each player alternates between disconnecting and reconnecting. -/
def Alternating (events : List GameEvent) : Prop :=
  (∀ before player, before ++ [.disconnect player] <+: events → player ∉ absentees before) ∧
    ∀ before player, before ++ [.reconnect player] <+: events → player ∈ absentees before

/-- The engine's view of an unfinished game agrees with the absent players. -/
def AbsenceExact (game : ActiveGame) (absent : Finset PlayerId) : Prop :=
  game.disconnectedPlayers = absent ∧
    (game.status = .inProgress ↔ absent = ∅) ∧ (game.status = .paused ↔ absent ≠ ∅)

/-- The view is exact after every part of the history that leaves the game
unfinished. -/
def AbsenceTracked (engine : GameEngine) (room : RoomId) (events : List GameEvent) : Prop :=
  ∀ before game, before <+: events → (engine.callAll room before).find room = some game →
    game.status ≠ .finished → AbsenceExact game (absentees before)

/-- No player of an unfinished game disconnects while another one is absent. -/
def NoOverlap (engine : GameEngine) (room : RoomId) (events : List GameEvent) : Prop :=
  ∀ before player game, before ++ [.disconnect player] <+: events →
    (engine.callAll room before).find room = some game →
    game.status ≠ .finished → absentees before = ∅

theorem applyAll_append_singleton (game : ActiveGame) (events : List GameEvent)
    (event : GameEvent) :
    game.applyAll (events ++ [event]) = (game.applyAll events).apply event := by
  simp [ActiveGame.applyAll]

theorem apply_action_unfinished {game : ActiveGame} {player : PlayerId} {action data : Json}
    {now : Time}
    (unfinished : (game.apply (.action player action data now)).status ≠ .finished) :
    (game.apply (.action player action data now)).status = game.status ∧
      (game.apply (.action player action data now)).disconnectedPlayers =
        game.disconnectedPlayers := by
  simp only [ActiveGame.apply] at unfinished ⊢
  split
  · rename_i result passed
    obtain ⟨-, -, -, absent, -, status⟩ := ActiveGame.processAction_frame passed
    have inProgress := (ActiveGame.processAction_passed passed).1
    rw [passed] at unfinished
    refine ⟨?_, absent⟩
    cases gameOver : result.2
    · simpa [gameOver, inProgress] using status
    · exact absurd (by simpa [gameOver] using status) unfinished
  · exact ⟨rfl, rfl⟩

theorem apply_finished {game : ActiveGame} (finished : game.status = .finished)
    (event : GameEvent) : (game.apply event).status = .finished := by
  cases event with
  | disconnect player =>
      simp [ActiveGame.apply, ActiveGame.handlePlayerDisconnect, finished]
  | reconnect player =>
      simp [ActiveGame.apply, ActiveGame.handlePlayerReconnect, finished]
  | action player action data now =>
      simp only [ActiveGame.apply]
      split
      · rename_i result passed
        have inProgress := (ActiveGame.processAction_passed passed).1
        rw [finished] at inProgress
        cases inProgress
      · exact finished

/-- One call preserves the exact view, provided a disconnect finds nobody
absent and a reconnect is the absent player's. -/
theorem AbsenceExact.apply {game : ActiveGame} {events : List GameEvent} {event : GameEvent}
    (exact : AbsenceExact game (absentees events))
    (unfinished : (game.apply event).status ≠ .finished)
    (alone : ∀ player, event = .disconnect player → absentees events = ∅) :
    AbsenceExact (game.apply event) (absentees (events ++ [event])) := by
  obtain ⟨same, running, paused⟩ := exact
  cases event with
  | disconnect player =>
      have nobody := alone player rfl
      have inProgress := running.mpr nobody
      simp [ActiveGame.apply, ActiveGame.handlePlayerDisconnect, inProgress, AbsenceExact,
        absentees, same]
  | reconnect player =>
      have erased : absentees (events ++ [.reconnect player]) =
          (absentees events).erase player := by
        simp [absentees]
      rw [erased]
      refine ⟨by simp [ActiveGame.apply, ActiveGame.handlePlayerReconnect, same], ?_⟩
      simp only [ActiveGame.apply, ActiveGame.handlePlayerReconnect, same]
      by_cases nobody : absentees events = ∅
      · simp [nobody, running.mpr nobody]
      · have isPaused := paused.mpr nobody
        by_cases last : (absentees events).erase player = ∅ <;> simp [isPaused, last]
  | action player action data now =>
      obtain ⟨status, absent⟩ := apply_action_unfinished unfinished
      have unchanged : absentees (events ++ [.action player action data now]) =
          absentees events := by
        simp [absentees]
      rw [unchanged]
      exact ⟨absent.trans same, by rw [status]; exact running, by rw [status]; exact paused⟩

theorem create_absenceExact (room : RoomId) (playerIds : List PlayerId)
    (playerElos : Dict PlayerId Int) (now : Time) :
    AbsenceExact (ActiveGame.create room playerIds playerElos now) (absentees []) := by
  simp [AbsenceExact, ActiveGame.create, absentees]

theorem find_createGame (engine : GameEngine) (room : RoomId) (playerIds : List PlayerId)
    (playerElos : Dict PlayerId Int) (now : Time) :
    (engine.createGame room playerIds playerElos now).find room =
      some (ActiveGame.create room playerIds playerElos now) := by
  simp [GameEngine.find_eq_some]

theorem absenceTracked_of_noOverlap {engine : GameEngine} {room : RoomId}
    {initial : ActiveGame} {events : List GameEvent}
    (found : engine.find room = some initial)
    (exact : AbsenceExact initial (absentees []))
    (noOverlap : NoOverlap engine room events) :
    AbsenceTracked engine room events := by
  intro before game isPrefix foundGame
  rw [GameEngine.find_callAll found] at foundGame
  cases foundGame
  induction before using List.reverseRecOn with
  | nil => exact fun _ => exact
  | append_singleton before event ih =>
      intro unfinished
      rw [applyAll_append_singleton] at unfinished ⊢
      have earlier : before <+: events := (List.prefix_append before [event]).trans isPrefix
      have wasUnfinished : (initial.applyAll before).status ≠ .finished :=
        fun finished => unfinished (apply_finished finished event)
      apply (ih earlier wasUnfinished).apply unfinished
      rintro player rfl
      exact noOverlap before player _ isPrefix (GameEngine.find_callAll found before)
        wasUnfinished

/-- The engine's view of who is absent is exact in precisely the histories
without overlapping absences. -/
theorem absenceTracked_iff_noOverlap (engine : GameEngine) (room : RoomId)
    (playerIds : List PlayerId) (playerElos : Dict PlayerId Int) (now : Time)
    (events : List GameEvent) (alternating : Alternating events) :
    AbsenceTracked (engine.createGame room playerIds playerElos now) room events ↔
      NoOverlap (engine.createGame room playerIds playerElos now) room events := by
  have found := find_createGame engine room playerIds playerElos now
  refine ⟨?_, absenceTracked_of_noOverlap found
    (create_absenceExact room playerIds playerElos now)⟩
  intro tracked before player game isPrefix foundGame unfinished
  by_contra somebody
  have earlier := (List.prefix_append before [GameEvent.disconnect player]).trans isPrefix
  obtain ⟨same, -, paused⟩ := tracked before game earlier foundGame unfinished
  -- the call returns early, so the second absence is not recorded
  have ignored : game.apply (.disconnect player) = game := by
    simp [ActiveGame.apply, ActiveGame.handlePlayerDisconnect, paused.mpr somebody]
  have foundLater : ((engine.createGame room playerIds playerElos now).callAll room
      (before ++ [.disconnect player])).find room = some game := by
    have called := GameEngine.find_call foundGame (.disconnect player)
    rw [ignored] at called
    simpa [GameEngine.callAll] using called
  have later := tracked _ game isPrefix foundLater unfinished
  have recorded : absentees (before ++ [.disconnect player]) =
      insert player (absentees before) := by
    simp [absentees]
  have isAbsent : player ∈ absentees before := by
    rw [← same, later.1, recorded]
    exact Finset.mem_insert_self _ _
  exact alternating.1 before player isPrefix isAbsent

/-- One player leaves and comes back. -/
def singleAbsence : List GameEvent := [.disconnect "ada", .reconnect "ada"]

/-- Both players leave, and the first one comes back. -/
def overlappingAbsences : List GameEvent :=
  [.disconnect "ada", .disconnect "bob", .reconnect "ada"]

private theorem singleAbsence_alternating : Alternating singleAbsence := by
  constructor
  all_goals
    intro before player isPrefix
    rcases before with _ | ⟨first, _ | ⟨second, before⟩⟩ <;>
      simp_all [singleAbsence, absentees, List.cons_prefix_cons]

private theorem overlappingAbsences_alternating : Alternating overlappingAbsences := by
  constructor
  all_goals
    intro before player isPrefix
    rcases before with _ | ⟨first, _ | ⟨second, _ | ⟨third, before⟩⟩⟩ <;>
      simp_all [overlappingAbsences, absentees, List.cons_prefix_cons]

theorem absenceTracked_iff_noOverlap_singleAbsence :
    AbsenceTracked (({} : GameEngine).createGame "room-1" ["ada", "bob"] ∅ 0) "room-1"
        singleAbsence ↔
      NoOverlap (({} : GameEngine).createGame "room-1" ["ada", "bob"] ∅ 0) "room-1"
        singleAbsence :=
  absenceTracked_iff_noOverlap {} "room-1" ["ada", "bob"] ∅ 0 singleAbsence
    singleAbsence_alternating

/-- The game is resumed while a player is still absent. -/
theorem overlappingAbsences_not_tracked :
    Alternating overlappingAbsences ∧
      ¬ AbsenceTracked (({} : GameEngine).createGame "room-1" ["ada", "bob"] ∅ 0) "room-1"
        overlappingAbsences := by
  refine ⟨overlappingAbsences_alternating, ?_⟩
  intro tracked
  have found := find_createGame {} "room-1" ["ada", "bob"] ∅ 0
  have resumed := tracked overlappingAbsences _ (List.prefix_refl _)
    (GameEngine.find_callAll found _) (by decide)
  exact absurd (resumed.2.1.mp (by decide)) (by decide)

end TerritoryBackend

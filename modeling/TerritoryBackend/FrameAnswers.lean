import TerritoryBackend.FairPlay
import TerritoryBackend.RedisModels
import TerritoryBackend.Snapshots

/-!
# Frames the server has an answer to

A frame takes values the client chose through `_route_message`, `process_action` and
`_apply_place_action`, which read, compare and index them, format them in the text of an
error, or record them in the history of the game, which is published and stored.  Here
are the conditions under which each of these operations succeeds.
-/

namespace TerritoryBackend

/-- The values of `x` and `y` that `_apply_place_action` has an answer to, for data that
can be published and stored once a move is made with them. -/
inductive CoordinatesTyped (limits : NestingLimits) (data x y : Json) : Prop where
  | missing (absent : x.isNone = true ∨ y.isNone = true)
  | outside {column : ℚ} (number : x.number? = some column)
      (off : ¬ (0 ≤ column ∧ column < boardSize)) (formats : y.depth ≤ limits.format)
  | above {column row : ℚ} (number : x.number? = some column) (other : y.number? = some row)
      (off : ¬ (0 ≤ row ∧ row < boardSize))
  | integers (column : x.isInteger = true) (row : y.isInteger = true)
      (writes : data.depth + 3 ≤ limits.write)

/-- The data of a placement. -/
def PlaceData (limits : NestingLimits) (data : Json) : Prop :=
  ∃ fields, data = .obj fields ∧
    CoordinatesTyped limits data ((fields.lookup "x").getD .null) ((fields.lookup "y").getD .null)

structure AnswerableAction (limits : NestingLimits) (action data : Json) : Prop where
  formats : action.depth ≤ limits.format
  placement : action.isString "place" = true → PlaceData limits data

/-- The objects `_route_message` has an answer to. -/
structure AnswerableMessage (limits : NestingLimits) (fields : List (String × Json)) : Prop where
  formats : ((fields.lookup "type").getD .null).truthy = true →
    ((fields.lookup "type").getD .null).depth ≤ limits.format
  action : ((fields.lookup "type").getD .null).isString "game_action" = true →
    AnswerableAction limits ((fields.lookup "action").getD (.str ""))
      ((fields.lookup "data").getD (.obj []))

/-- The frames the message loop has an answer to. -/
def Answerable (limits : NestingLimits) (frame : Option Json) : Prop :=
  ∀ message, frame = some message →
    ∃ fields, message = .obj fields ∧ AnswerableMessage limits fields

/-- What the engine returns can be formatted, or published and stored. -/
def Answers {α : Type} (limits : NestingLimits) (data : Json) :
    Except PythonError (ActiveGame.Checked α) → Prop
  | .error _ => False
  | .ok (.refused error) => error.message.depth ≤ limits.format
  | .ok (.passed _) => data.depth + 3 ≤ limits.write

namespace ActiveGame

variable {limits : NestingLimits} {game : ActiveGame} {player : PlayerId} {action data x y : Json}
  {fields : List (String × Json)}

theorem withinBoard_eq (x y : Json) {column : ℚ} (number : x.number? = some column) :
    withinBoard x y =
      if 0 ≤ column ∧ column < boardSize then y.inRange boardSize else .ok false := by
  by_cases on : 0 ≤ column ∧ column < boardSize <;>
    simp [withinBoard, Json.inRange, number, on, bind, Except.bind, pure, Except.pure]

theorem coordinatesTyped_iff (present : x.isNone = false ∧ y.isNone = false) :
    CoordinatesTyped limits data x y ↔
      withinBoard x y = .ok false ∧ max x.depth y.depth ≤ limits.format ∨
        withinBoard x y = .ok true ∧ x.isInteger = true ∧ y.isInteger = true ∧
          data.depth + 3 ≤ limits.write := by
  constructor
  · rintro (absent | ⟨number, off, formats⟩ | ⟨number, other, off⟩ |
      ⟨xInteger, yInteger, writes⟩)
    · simp [present] at absent
    · left
      rw [withinBoard_eq x y number, if_neg off, Json.depth_of_number? number]
      exact ⟨rfl, by simpa using formats⟩
    · left
      rw [withinBoard_eq x y number, Json.inRange_of_number? other, decide_eq_false off,
        Json.depth_of_number? number, Json.depth_of_number? other]
      exact ⟨by split <;> rfl, Nat.zero_le _⟩
    · obtain ⟨column, number⟩ := Json.number?_of_isInteger xInteger
      obtain ⟨row, other⟩ := Json.number?_of_isInteger yInteger
      have decided : ∃ within, withinBoard x y = .ok within := by
        rw [withinBoard_eq x y number, Json.inRange_of_number? other]
        split <;> exact ⟨_, rfl⟩
      obtain ⟨within, decided⟩ := decided
      cases within with
      | false =>
          left
          rw [Json.depth_of_number? number, Json.depth_of_number? other]
          exact ⟨decided, Nat.zero_le _⟩
      | true => exact .inr ⟨decided, xInteger, yInteger, writes⟩
  · rintro (⟨off, formats⟩ | ⟨-, xInteger, yInteger, writes⟩)
    · cases number : x.number? with
      | none => simp [withinBoard, Json.inRange, number, bind, Except.bind] at off
      | some column =>
          rw [withinBoard_eq x y number] at off
          by_cases on : 0 ≤ column ∧ column < boardSize
          · rw [if_pos on] at off
            cases other : y.number? with
            | none => simp [Json.inRange, other] at off
            | some row =>
                rw [Json.inRange_of_number? other, Except.ok.injEq, decide_eq_false_iff_not] at off
                exact .above number other off
          · exact .outside number on ((Nat.le_max_right _ _).trans formats)
    · exact .integers xInteger yInteger writes

/-- The cell a placement asks for is taken. -/
def Occupied (game : ActiveGame) (x y : Json) : Prop :=
  ∃ column row, x.index = .ok column ∧ y.index = .ok row ∧
    game.board.cell column.toNat row.toNat ≠ 0

/-- The answer to a placement once the coordinates are known to be there. -/
theorem applyPlaceAction_of_present (game : ActiveGame) (player : PlayerId)
    (xEq : (fields.lookup "x").getD .null = x) (yEq : (fields.lookup "y").getD .null = y)
    (present : (x.isNone || y.isNone) = false) :
    Answers limits data (game.applyPlaceAction player (.obj fields)) ↔
      withinBoard x y = .ok false ∧ max x.depth y.depth ≤ limits.format ∨
        withinBoard x y = .ok true ∧ x.isInteger = true ∧ y.isInteger = true ∧
          (game.Occupied x y ∨ data.depth + 3 ≤ limits.write) := by
  simp only [applyPlaceAction, Json.get, xEq, yEq, present, bind, Except.bind, pure, Except.pure,
    Bool.false_eq_true, if_false]
  cases withinBoard x y with
  | error error => simp [Answers]
  | ok within =>
      cases within with
      | false => simp [Answers, ErrorText.depth]
      | true =>
          rw [← Json.index_isOk_iff, ← Json.index_isOk_iff]
          cases row : y.index with
          | error error => simp [Answers]
          | ok line =>
              cases column : x.index with
              | error error => simp [Answers]
              | ok place =>
                  have flat : max x.depth y.depth = 0 := by
                    rw [Json.depth_of_index column, Json.depth_of_index row, Nat.max_self]
                  by_cases taken : game.board.cell place.toNat line.toNat = 0 <;>
                    simp [Answers, Occupied, ErrorText.depth, row, column, taken, flat]

variable (game player)

theorem answers_of_placeData (placement : PlaceData limits data) :
    Answers limits data (game.applyPlaceAction player data) := by
  obtain ⟨fields, rfl, typed⟩ := placement
  generalize xEq : (fields.lookup "x").getD .null = x at typed
  generalize yEq : (fields.lookup "y").getD .null = y at typed
  cases absent : (x.isNone || y.isNone) with
  | true =>
      simp [applyPlaceAction, Json.get, xEq, yEq, absent, bind, Except.bind, pure, Except.pure,
        Answers, ErrorText.depth]
  | false =>
      rw [applyPlaceAction_of_present game player xEq yEq absent]
      rcases (coordinatesTyped_iff (Bool.or_eq_false_iff.mp absent)).mp typed with
        off | ⟨on, xInteger, yInteger, writes⟩
      · exact .inl off
      · exact .inr ⟨on, xInteger, yInteger, .inr writes⟩

theorem placeData_of_answers (free : ∀ column row, game.board.cell column row = 0)
    (answers : Answers limits data (game.applyPlaceAction player data)) :
    PlaceData limits data := by
  cases data with
  | obj fields =>
      refine ⟨fields, rfl, ?_⟩
      generalize xEq : (fields.lookup "x").getD .null = x
      generalize yEq : (fields.lookup "y").getD .null = y
      cases absent : (x.isNone || y.isNone) with
      | true => exact .missing (Bool.or_eq_true_iff.mp absent)
      | false =>
          rw [applyPlaceAction_of_present game player xEq yEq absent] at answers
          apply (coordinatesTyped_iff (Bool.or_eq_false_iff.mp absent)).mpr
          simpa [Occupied, free] using answers
  | _ => simp [applyPlaceAction, Json.get, bind, Except.bind, Answers] at answers

variable {game}

theorem processAction_answers (hasTurn : game.HasTurn)
    (answerable : AnswerableAction limits action data) (now : Time) :
    Answers limits data (game.processAction player action data now) := by
  obtain ⟨current, currentEq⟩ := hasTurn.exists_current
  simp only [processAction, currentEq, bind, Except.bind, pure, Except.pure]
  split
  · exact Nat.zero_le _
  split
  · exact Nat.zero_le _
  split
  · exact answerable.formats
  · rename_i isPlace
    have answers :=
      game.answers_of_placeData player (answerable.placement (by simpa using isPlace))
    cases applied : game.applyPlaceAction player data with
    | error error => simp [applied, Answers] at answers
    | ok checked =>
        rw [applied] at answers
        cases checked <;> exact answers

variable {player}

theorem answerable_of_processAction (inProgress : game.status = .inProgress)
    (current : game.currentPlayerId = some player)
    (free : ∀ column row, game.board.cell column row = 0) {now : Time}
    (answers : Answers limits data (game.processAction player action data now)) :
    AnswerableAction limits action data := by
  simp only [processAction, inProgress, current, bind, Except.bind, pure, Except.pure, ne_eq,
    not_true_eq_false, if_false] at answers
  split at answers
  · rename_i noPlace
    refine ⟨answers, ?_⟩
    intro isPlace
    simp [isPlace] at noPlace
  · rename_i isPlace
    have isPlace : action.isString "place" = true := by simpa using isPlace
    refine ⟨(Json.depth_of_isString isPlace).le.trans (Nat.zero_le _), ?_⟩
    intro _
    apply game.placeData_of_answers player free
    cases applied : game.applyPlaceAction player data with
    | error error => simp [applied, Answers] at answers
    | ok checked =>
        rw [applied] at answers
        cases checked <;> exact answers

end ActiveGame

/-- What nests in the record of a move is what the client sent for it. -/
def ActionRecord.depth (record : ActionRecord) : Nat := max record.action.depth record.data.depth

/-- A state can be stored if its moves can. -/
theorem RedisGameState.depth_serialize_le {limits : NestingLimits} (state : RedisGameState)
    (extra : state.extra = ∅)
    (writable : ∀ record ∈ state.actionHistory, record.depth + 3 ≤ limits.write) :
    state.serialize.depth ≤ limits.write := by
  obtain ⟨rest, write⟩ : ∃ rest, limits.write = rest + 3 + 2 :=
    ⟨limits.write - 5, by have flat := limits.flat; omega⟩
  have history : (ActionRecord.codec.list.encode state.actionHistory).depth ≤ rest + 3 + 1 := by
    refine Json.depth_arr_le.mpr (List.forall_mem_map.mpr ?_)
    intro record member
    have fits := writable record member
    unfold ActionRecord.depth at fits
    refine Json.depth_obj_le.mpr ?_
    simp only [List.forall_mem_cons, JsonCodec.text, JsonCodec.nat, JsonCodec.float, Json.depth]
    refine ⟨Nat.zero_le _, ?_, ?_, Nat.zero_le _, Nat.zero_le _, List.forall_mem_nil _⟩ <;> omega
  have board : (boardCodec.encode state.board).depth ≤ rest + 3 + 1 := by
    refine Json.depth_arr_le.mpr (List.forall_mem_map.mpr fun row _ => ?_)
    exact Json.depth_arr_le.mpr (List.forall_mem_map.mpr fun cell _ => Nat.zero_le _)
  have scores : (JsonCodec.int.dict.encode state.scores).depth ≤ rest + 3 + 1 :=
    Json.depth_obj_le.mpr (List.forall_mem_map.mpr fun entry _ => Nat.zero_le _)
  have winner : (winnerCodec.encode state.winnerId).depth = 0 := by
    cases state.winnerId <;> rfl
  rw [write]
  refine Json.depth_obj_le.mpr ?_
  simp only [List.forall_mem_cons, winner, extra]
  exact ⟨Nat.zero_le _, Nat.zero_le _, Nat.zero_le _, board, scores, history, Nat.zero_le _,
    Nat.zero_le _, Nat.zero_le _, Nat.le_add_left 1 _, List.forall_mem_nil _⟩

theorem ActiveGame.depth_toRedisState {limits : NestingLimits} {game : ActiveGame} {now : Time}
    {state : RedisGameState} (taken : game.toRedisState now = .ok state)
    (writable : ∀ record ∈ game.actionHistory, record.depth + 3 ≤ limits.write) :
    state.serialize.depth ≤ limits.write := by
  unfold toRedisState at taken
  split at taken <;> cases taken
  exact RedisGameState.depth_serialize_le _ rfl fun record member =>
    writable record (List.mem_of_mem_drop member)

end TerritoryBackend

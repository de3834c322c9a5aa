import TerritoryBackend.AnnouncedTurns
import TerritoryBackend.Placement
import TerritoryBackend.SessionRooms

/-!
# Announced and played sides

`_create_match` tosses a coin for the colours it announces, and passes the players
on in the order in which they were popped.  The board goes by that order alone: the
first player writes 1, whatever the toss.  So the announced sides are played exactly
if the toss gives the first player the first colour.
-/

namespace TerritoryBackend

open EventLoop

/-- What is observed of a step. -/
inductive SideEvent where
  /-- `_create_match` has drawn the colours -/
  | tossed (room : RoomId) (coin : Bool)
  /-- a `match_found` is sent to a player or published for him -/
  | told (room : RoomId) (player : PlayerId) (yourColor : String)
  /-- a placement has been accepted, with the game before it and after it -/
  | placed (room : RoomId) (player : PlayerId) (game next : ActiveGame)

def SideEvent.tosses (room : RoomId) : SideEvent → Bool
  | .tossed other _ => decide (other = room)
  | _ => false

def Message.colorFor (player : PlayerId) : Message → List SideEvent
  | .matchFound room _ _ yourColor => [.told room player yourColor]
  | _ => []

def observeSides (choice : ServerChoice) (config : ServerConfig) : List SideEvent :=
  match choice, config.executed choice with
  | .resume _ (.coin coin), some (.offerMatch room _) => [.tossed room coin]
  | _, some (.sendPersonal player message _) | _, some (.publish player message) =>
      message.colorFor player
  | _, some (.processAction room player action data) =>
      match config.state.engine.find room,
        config.state.engine.processAction room player action data config.state.clock with
      | some game, (engine, .accepted _) =>
          ((engine.games room).map fun next => SideEvent.placed room player game next).toList
      | _, _ => []
  | _, _ => []

/-- The cells a placement has changed carry the number. -/
def ActiveGame.Marks (game next : ActiveGame) (number : Nat) : Prop :=
  ∀ column line, next.board.cell column line ≠ game.board.cell column line →
    next.board.cell column line = number

/-- Who is told a colour plays it. -/
def KeepsSide (yourColor : String) (game next : ActiveGame) : Prop :=
  (yourColor = "player_1" → game.Marks next 1) ∧ (yourColor = "player_2" → game.Marks next 2)

/-- In every run, everybody plays the side he has been told in the room. -/
def SidesKept (settings : Settings) (start : ServerConfig)
    (guard : ServerChoice → ServerConfig → Prop) : Prop :=
  ∀ log config, (server settings).Logged start guard observeSides log config →
    ∀ room player yourColor game next, .told room player yourColor ∈ log →
      .placed room player game next ∈ log → KeepsSide yourColor game next

variable {settings : Settings} {choice : ServerChoice} {before after : ServerConfig}
  {room : RoomId} {player : PlayerId} {pair : MatchedPair} {game next : ActiveGame}
  {log : List SideEvent}

/-- The room is that of the pair, whatever is still to be done for it. -/
structure Assigned (config : ServerConfig) (room : RoomId) (pair : MatchedPair) : Prop where
  drawn : room ∈ config.state.roomIds
  offered : ∀ other, .offerMatch room other ∈ config.pending → other = pair
  created : ∀ other, .createGame room other ∈ config.pending → other = pair
  plays : ∀ game, config.state.engine.games room = some game → game.playerIds = pair.playerIds

theorem Assigned.step (assigned : Assigned before room pair)
    (step : (server settings).step choice before = some after) : Assigned after room pair where
  drawn := roomIds_step step assigned.drawn
  offered other pending := by
    rcases offering_before step pending with old | ⟨-, fresh⟩
    · exact assigned.offered other old
    · exact absurd assigned.drawn fresh
  created other pending :=
    assigned.created other (createGame_before step pending assigned.drawn)
  plays game stored := by
    rcases gameChange_of_step step room with ⟨games, -⟩ | ⟨instruction, executed, change⟩
    · exact assigned.plays game (games ▸ stored)
    rcases change.players stored with ⟨old, known, same⟩ | ⟨other, rfl, rfl⟩
    · rw [same, assigned.plays old known]
    · rw [← assigned.created other (Config.mem_pending_of_executed executed)]
      rfl

/-- The colour `_create_match` announces to a player of the pair. -/
def MatchedPair.colorOf (pair : MatchedPair) (coin : Bool) (player : PlayerId) : String :=
  if player = pair.playerA then (if coin then "player_1" else "player_2")
  else (if coin then "player_2" else "player_1")

/-- The colours of the room have been drawn for the pair. -/
structure Drawn (log : List SideEvent) (config : ServerConfig) (room : RoomId)
    (pair : MatchedPair) (coin : Bool) : Prop where
  assigned : Assigned config room pair
  tossed : .tossed room coin ∈ log

def ColorDrawn (log : List SideEvent) (config : ServerConfig) (room : RoomId)
    (player : PlayerId) (yourColor : String) : Prop :=
  ∃ pair coin, Drawn log config room pair coin ∧ player ∈ pair.playerIds ∧
    yourColor = pair.colorOf coin player

/-- A message offers what has been drawn. -/
def Message.Offers (log : List SideEvent) (config : ServerConfig) (player : PlayerId) :
    Message → Prop
  | .matchFound room _ _ yourColor => ColorDrawn log config room player yourColor
  | _ => True

def AfterSend.Offers (log : List SideEvent) (config : ServerConfig) : AfterSend → Prop
  | .offerSecond room pair coin | .offerPublish room pair coin _ => Drawn log config room pair coin
  | _ => True

def Instr.Offers (log : List SideEvent) (config : ServerConfig) : Instr → Prop
  | .sendPersonal player message after | .awaitSend player _ message after =>
      message.Offers log config player ∧ after.Offers log config
  | .publish player message => message.Offers log config player
  | .offerMatch room pair => Assigned config room pair
  | _ => True

theorem Drawn.matchFound {coin : Bool} {config : ServerConfig}
    (drawn : Drawn log config room pair coin) (member : player ∈ pair.playerIds) :
    (pair.matchFound room coin player).Offers log config player := by
  unfold MatchedPair.matchFound
  split
  · rename_i first
    exact ⟨pair, coin, drawn, member, by rw [MatchedPair.colorOf, if_pos first]⟩
  · rename_i second
    exact ⟨pair, coin, drawn, member, by rw [MatchedPair.colorOf, if_neg second]⟩

theorem Message.offers_of_plain {message : Message} (isPlain : message.plain = true)
    (log : List SideEvent) (config : ServerConfig) (player : PlayerId) :
    message.Offers log config player := by
  cases message with
  | matchFound => cases isPlain
  | _ => trivial

theorem AfterSend.offers_of_plain {later : AfterSend} (isPlain : later.plain = true)
    (log : List SideEvent) (config : ServerConfig) : later.Offers log config := by
  cases later with
  | offerSecond | offerPublish => cases isPlain
  | _ => trivial

theorem Instr.offers_of_plain {instruction : Instr} (isPlain : instruction.plain = true)
    (log : List SideEvent) (config : ServerConfig) : instruction.Offers log config := by
  cases instruction with
  | sendPersonal player message later =>
      simp only [Instr.plain, Bool.and_eq_true] at isPlain
      exact ⟨Message.offers_of_plain isPlain.1 log config player,
        AfterSend.offers_of_plain isPlain.2 log config⟩
  | awaitSend | publish | offerMatch => cases isPlain
  | _ => trivial

section Step

variable (step : (server settings).step choice before = some after)

include step

theorem Drawn.kept {coin : Bool} (drawn : Drawn log before room pair coin)
    (news : List SideEvent) : Drawn (log ++ news) after room pair coin :=
  ⟨drawn.assigned.step step, List.mem_append_left news drawn.tossed⟩

theorem Message.Offers.kept {message : Message} (offers : message.Offers log before player)
    (news : List SideEvent) : message.Offers (log ++ news) after player := by
  cases message with
  | matchFound room opponent opponentElo yourColor =>
      obtain ⟨pair, coin, drawn, member, color⟩ := offers
      exact ⟨pair, coin, drawn.kept step news, member, color⟩
  | _ => trivial

theorem AfterSend.Offers.kept {later : AfterSend} (offers : later.Offers log before)
    (news : List SideEvent) : later.Offers (log ++ news) after := by
  cases later with
  | offerSecond | offerPublish => exact Drawn.kept step offers news
  | _ => trivial

theorem Instr.Offers.kept {instruction : Instr} (offers : instruction.Offers log before)
    (news : List SideEvent) : instruction.Offers (log ++ news) after := by
  cases instruction with
  | sendPersonal | awaitSend => exact ⟨offers.1.kept step news, offers.2.kept step news⟩
  | publish => exact Message.Offers.kept step offers news
  | offerMatch => exact Assigned.step offers step
  | _ => trivial

end Step

/-- What is handed on offers what has been drawn. -/
theorem offers_of_goesOn {config : ServerConfig} {message : Message} {later : AfterSend}
    {sent : Bool} {instruction : Instr} (offers : message.Offers log config player)
    (onward : later.Offers log config) (goesOn : instruction ∈ later.next player message sent) :
    instruction.Offers log config := by
  cases later with
  | ignore => cases goesOn
  | publish =>
      simp [AfterSend.next] at goesOn
      exact goesOn.2 ▸ offers
  | offerSecond room pair coin =>
      simp [AfterSend.next] at goesOn
      subst goesOn
      exact ⟨onward.matchFound (by simp [MatchedPair.playerIds]), onward⟩
  | offerPublish room pair coin sentA =>
      simp [AfterSend.next] at goesOn
      rcases goesOn with ⟨-, rfl⟩ | ⟨-, rfl⟩ <;>
        exact Drawn.matchFound onward (by simp [MatchedPair.playerIds])

theorem tossed_of_observed {coin : Bool}
    (observed : .tossed room coin ∈ observeSides choice before) :
    ∃ task pair, choice = .resume task (.coin coin) ∧
      before.executed choice = some (.offerMatch room pair) := by
  unfold observeSides at observed
  split at observed
  · rename_i task shown offered pair executed
    cases List.mem_singleton.mp observed
    exact ⟨task, pair, rfl, executed⟩
  · rename_i recipient message later executed
    cases message <;> simp [Message.colorFor] at observed
  · rename_i recipient message executed
    cases message <;> simp [Message.colorFor] at observed
  · split at observed <;> simp at observed
  · cases observed

theorem told_of_observed {yourColor : String}
    (observed : .told room player yourColor ∈ observeSides choice before) :
    ∃ opponent opponentElo instruction, before.executed choice = some instruction ∧
      ((∃ later, instruction =
          .sendPersonal player (.matchFound room opponent opponentElo yourColor) later) ∨
        instruction = .publish player (.matchFound room opponent opponentElo yourColor)) := by
  unfold observeSides at observed
  split at observed
  · cases List.mem_singleton.mp observed
  · rename_i recipient message later executed
    cases message <;> simp [Message.colorFor] at observed
    obtain ⟨rfl, rfl, rfl⟩ := observed
    exact ⟨_, _, _, executed, .inl ⟨_, rfl⟩⟩
  · rename_i recipient message executed
    cases message <;> simp [Message.colorFor] at observed
    obtain ⟨rfl, rfl, rfl⟩ := observed
    exact ⟨_, _, _, executed, .inr rfl⟩
  · split at observed <;> simp at observed
  · cases observed

theorem placed_of_observed (step : (server settings).step choice before = some after)
    (observed : .placed room player game next ∈ observeSides choice before) :
    ∃ action data gameOver, before.state.engine.find room = some game ∧
      game.processAction player action data before.state.clock =
        .ok (.passed (next, gameOver)) ∧
      after.state.engine.games room = some next := by
  unfold observeSides at observed
  split at observed
  · cases List.mem_singleton.mp observed
  · rename_i recipient message later executed
    cases message <;> simp [Message.colorFor] at observed
  · rename_i recipient message executed
    cases message <;> simp [Message.colorFor] at observed
  · rename_i acting actor action data executed
    split at observed
    · rename_i known engine gameOver found accepted
      simp only [Option.mem_toList, Option.map_eq_some_iff] at observed
      obtain ⟨result, stored, same⟩ := observed
      cases same
      obtain ⟨present, applied, foundPresent, passed, written⟩ :=
        GameEngine.processAction_accepted (congrArg Prod.snd accepted)
      cases found.symm.trans foundPresent
      obtain ⟨answer, block, effect, state⟩ := Machine.block_of_executed step executed
      cases effect
      rw [accepted] at written
      have written : engine = before.state.engine.write room applied := written
      subst written
      simp only [GameEngine.write_games, if_true, Option.some.injEq] at stored
      subst stored
      refine ⟨action, data, gameOver, found, passed, ?_⟩
      rw [state]
      simp [World.processAction, accepted, World.withGame]
    · cases observed
  · cases observed

def Instr.offersRoom (room : RoomId) : Instr → Nat
  | .offerMatch offered _ => if offered = room then 1 else 0
  | _ => 0

/-- The draws of colours for a room: pending, made, or still to come because its
identifier has not been drawn. -/
def draws (room : RoomId) (log : List SideEvent) (config : ServerConfig) : Nat :=
  weigh (Instr.offersRoom room) config.tasks + (log.any (SideEvent.tosses room)).toNat +
    (decide (room ∉ config.state.roomIds)).toNat

theorem offersRoom_of_announces {instruction next : Instr} {answer : Answer} {world : World}
    (announces : instruction.Announces world answer next)
    (other : ∀ pair, instruction ≠ .createMatch pair) : next.offersRoom room = 0 := by
  cases next with
  | offerMatch offered pair =>
      cases announces with
      | plain _ isPlain => cases isPlain
      | drawing => exact absurd rfl (other _)
      | @handingOn _ _ _ _ later sender sent goesOn =>
          cases later <;> simp [AfterSend.next] at goesOn
  | _ => rfl

theorem draws_block {instruction : Instr} {answer : Answer} {world : World}
    {block : Block World Instr} (effect : instruction.block settings answer world = some block)
    (room : RoomId) :
    block.carried (Instr.offersRoom room) instruction +
        (decide (room ∉ block.state.roomIds)).toNat ≤
      (decide (room ∉ world.roomIds)).toNat := by
  by_cases creates : ∃ pair, instruction = .createMatch pair
  · obtain ⟨pair, rfl⟩ := creates
    simp only [Instr.block, World.createMatch] at effect
    split at effect
    · split at effect
      · cases effect
      · rename_i drawn fresh
        cases effect
        by_cases same : drawn = room
        · subst same
          simp [Block.carried, Instr.offersRoom, fresh]
        · simp [Block.carried, Instr.offersRoom, same, Ne.symm same]
    · cases effect
  have others : ∀ pair, instruction ≠ .createMatch pair := fun pair same => creates ⟨pair, same⟩
  have roomIds : block.state.roomIds = world.roomIds := by
    rcases (Instr.block_writes effect).roomIds with same | ⟨pair, drawn, isDraw, -⟩
    · exact same
    · exact absurd isDraw (others pair)
  have weightless : ∀ next, next ∈ block.next ∨ next ∈ block.spawned.flatten →
      next.offersRoom room = 0 := fun next member =>
    offersRoom_of_announces (Instr.block_announces effect member) others
  have carried : block.carried (Instr.offersRoom room) instruction = 0 := by
    cases instruction with
    | offerMatch offered pair =>
        apply Block.carried_eq_zero weightless
        simp only [Instr.block, World.offerMatch] at effect
        split at effect <;> cases effect
        rfl
    | _ => exact Nat.le_zero.mp (Block.carried_le weightless)
  rw [roomIds, carried, Nat.zero_add]

/-- A draw is observed only of the instruction that makes it. -/
theorem tosses_le_offersRoom {instruction : Instr}
    (executed : before.executed choice = some instruction) (room : RoomId) :
    ((observeSides choice before).any (SideEvent.tosses room)).toNat ≤
      instruction.offersRoom room := by
  cases tossed : (observeSides choice before).any (SideEvent.tosses room) with
  | false => exact Nat.zero_le _
  | true =>
      obtain ⟨event, observed, tosses⟩ := List.any_eq_true.mp tossed
      cases event with
      | tossed other coin =>
          obtain ⟨task, pair, -, offered⟩ := tossed_of_observed observed
          cases executed.symm.trans offered
          rw [Instr.offersRoom, if_pos (of_decide_eq_true tosses)]
          exact le_rfl
      | told | placed => cases tosses

theorem draws_step (step : (server settings).step choice before = some after) (room : RoomId) :
    draws room (log ++ observeSides choice before) after ≤ draws room log before := by
  have unwinds : (server settings).UnwindsWithin (Instr.offersRoom room) :=
    Instr.unwindsWithin (fun _ => rfl) fun _ _ => le_rfl
  unfold draws
  rw [List.any_append]
  cases Machine.weighed_step step with
  | @executed _ instruction answer block executed effect state weighed =>
      have weighed := weighed unwinds
      have consumed := draws_block effect room
      have news := tosses_le_offersRoom executed room
      have joined (first second : Bool) : (first || second).toNat ≤ first.toNat + second.toNat := by
        cases first <;> simp
      have joined := joined (log.any (SideEvent.tosses room))
        ((observeSides choice before).any (SideEvent.tosses room))
      rw [state]
      omega
  | failed task state weighed =>
      have weighed := weighed unwinds
      have silent : observeSides (.fail task) before = [] := rfl
      rw [state, silent]
      simpa using weighed
  | @happened event spawned effect weighed =>
      have weighed := weighed (Instr.offersRoom room)
      have nothing : weigh (Instr.offersRoom room) spawned = 0 :=
        ServerEvent.weigh_spawned effect (fun _ _ => rfl) (fun _ _ _ _ => rfl)
          (fun _ _ => rfl) fun _ _ => rfl
      have silent : observeSides (.event event) before = [] := rfl
      rw [(ServerEvent.frame effect).2.1, silent, weighed, nothing]
      simp

/-- What remains known of a placement. -/
structure PlacedIn (config : ServerConfig) (room : RoomId) (player : PlayerId)
    (game next : ActiveGame) : Prop where
  stored : ∃ last, config.state.engine.games room = some last ∧ last.playerIds = game.playerIds
  plays : player ∈ game.playerIds
  marks : game.Marks next (game.playerIds.idxOf player + 1)
  changed : ∃ column line, next.board.cell column line ≠ game.board.cell column line

structure Sided (log : List SideEvent) (config : ServerConfig) : Prop where
  offers : ∀ instruction ∈ config.pending, instruction.Offers log config
  told : ∀ room player yourColor, .told room player yourColor ∈ log →
    ColorDrawn log config room player yourColor
  once : ∀ room, draws room log config ≤ 1
  unique : ∀ room coin other, .tossed room coin ∈ log → .tossed room other ∈ log → coin = other
  wellFormed : ∀ room game, config.state.engine.games room = some game → game.board.WellFormed
  placed : ∀ room player game next, .placed room player game next ∈ log →
    PlacedIn config room player game next

/-- A room that has just been drawn is that of the pair it was drawn for. -/
theorem assigned_of_drawn (sided : Sided log before) (registered : Registered before)
    (step : (server settings).step choice before = some after)
    (executed : before.executed choice = some (.createMatch pair))
    (fresh : room ∉ before.state.roomIds) (drawn : room ∈ after.state.roomIds) :
    Assigned after room pair where
  drawn := drawn
  offered other pending := by
    rcases offering_before step pending with old | ⟨executedAlso, -⟩
    · exact absurd (sided.offers _ old).drawn fresh
    · cases executed.symm.trans executedAlso
      rfl
  created other pending := by
    rcases registering_before step pending with old | ⟨executedAlso, -⟩
    · exact absurd (registered.drawn (.inl ⟨other, old⟩)) fresh
    · cases executed.symm.trans executedAlso
      rfl
  plays game stored := by
    rcases game_before_step step stored with ⟨known, same, -⟩ | ⟨other, creates, -⟩
    · exact absurd (registered.drawn (.inr (by rw [same]; rfl))) fresh
    · cases executed.symm.trans creates

theorem marks_of_passed (wellFormed : game.board.WellFormed) {action data : Json} {now : Time}
    {gameOver : Bool}
    (passed : game.processAction player action data now = .ok (.passed (next, gameOver))) :
    game.Marks next (game.playerIds.idxOf player + 1) ∧
      ∃ column line, next.board.cell column line ≠ game.board.cell column line := by
  obtain ⟨x, y, position, effect, claimed⟩ := ActiveGame.localEffect_of_passed wellFormed passed
  obtain ⟨-, -, -, column, -, line, -, other, cellEmpty, -⟩ :=
    ActiveGame.processAction_passed_at passed
  rw [position] at other
  simp only [Except.ok.injEq, Prod.mk.injEq, Nat.cast_inj] at other
  rw [← other.1, ← other.2] at cellEmpty
  refine ⟨?_, x, y, by rwa [cellEmpty]⟩
  intro column line changed
  exact (effect.values column line ((effect.changed column line).mp changed)).2

theorem PlacedIn.step (placed : PlacedIn before room player game next)
    (registered : Registered before) (step : (server settings).step choice before = some after) :
    PlacedIn after room player game next where
  stored := by
    obtain ⟨last, stored, players⟩ := placed.stored
    obtain ⟨later, storedLater, rfl | steps⟩ := game_after_step registered step stored
    · exact ⟨later, storedLater, players⟩
    · exact ⟨later, storedLater, steps.playerIds.trans players⟩
  plays := placed.plays
  marks := placed.marks
  changed := placed.changed

theorem ColorDrawn.step {yourColor : String} (color : ColorDrawn log before room player yourColor)
    (step : (server settings).step choice before = some after) (news : List SideEvent) :
    ColorDrawn (log ++ news) after room player yourColor := by
  obtain ⟨pair, coin, drawn, member, same⟩ := color
  exact ⟨pair, coin, drawn.kept step news, member, same⟩

namespace Sided

section Step

variable (sided : Sided log before)
  (step : (server settings).step choice before = some after)

include sided step

theorem offers_step (registered : Registered before) {instruction : Instr}
    (pending : instruction ∈ after.pending) :
    instruction.Offers (log ++ observeSides choice before) after := by
  rcases announced_of_step step pending with
    old | isPlain | ⟨task, sender, answer, block, resumes, executed, effect, state, announces⟩
  · exact (sided.offers _ old).kept step _
  · exact Instr.offers_of_plain isPlain _ _
  have known := (sided.offers _ (Config.mem_pending_of_executed executed)).kept step
    (observeSides choice before)
  cases announces with
  | plain _ isPlain => exact Instr.offers_of_plain isPlain _ _
  | drawing drawn fresh =>
      subst drawn
      simp only [Instr.block, World.createMatch, if_neg fresh, Option.some.injEq] at effect
      subst effect
      exact assigned_of_drawn sided registered step executed fresh (by simp [state])
  | @offering room pair coin tossed =>
      subst tossed resumes
      have drawn : Drawn (log ++ observeSides (.resume task (.coin coin)) before) after room pair
          coin := ⟨known, List.mem_append_right _ (by simp [observeSides, executed])⟩
      exact ⟨drawn.matchFound (by simp [MatchedPair.playerIds]), drawn⟩
  | awaiting => exact known
  | @handingOn _ _ _ message later sender sent goesOn =>
      rcases sender with rfl | ⟨connection, rfl⟩
      · exact offers_of_goesOn known.1 known.2 goesOn
      · exact offers_of_goesOn known.1 known.2 goesOn
  | started | updated | resumed => exact ⟨trivial, trivial⟩
  | registering | starting | saved => trivial

theorem told_step {yourColor : String}
    (told : .told room player yourColor ∈ log ++ observeSides choice before) :
    ColorDrawn (log ++ observeSides choice before) after room player yourColor := by
  rcases List.mem_append.mp told with old | observed
  · exact (sided.told _ _ _ old).step step _
  · obtain ⟨opponent, opponentElo, instruction, executed, sends⟩ := told_of_observed observed
    have known := sided.offers _ (Config.mem_pending_of_executed executed)
    rcases sends with ⟨later, rfl⟩ | rfl
    · exact ColorDrawn.step known.1 step _
    · exact ColorDrawn.step known step _

omit step in
theorem unique_step {coin other : Bool}
    (first : .tossed room coin ∈ log ++ observeSides choice before)
    (second : .tossed room other ∈ log ++ observeSides choice before) : coin = other := by
  -- Who draws now has not drawn before.
  have undrawn {shown : Bool} (observed : .tossed room shown ∈ observeSides choice before)
      {earlier : Bool} (logged : .tossed room earlier ∈ log) : False := by
    obtain ⟨task, pair, -, executed⟩ := tossed_of_observed observed
    have once := sided.once room
    have weight := weight_le_weigh (Instr.offersRoom room) (Config.mem_pending_of_executed executed)
    have already : log.any (SideEvent.tosses room) = true :=
      List.any_eq_true.mpr ⟨_, logged, by simp [SideEvent.tosses]⟩
    simp only [Instr.offersRoom, if_true] at weight
    simp only [draws, already, Bool.toNat_true] at once
    omega
  rcases List.mem_append.mp first with first | first <;>
    rcases List.mem_append.mp second with second | second
  · exact sided.unique room coin other first second
  · exact (undrawn second first).elim
  · exact (undrawn first second).elim
  · obtain ⟨_, _, resumes, -⟩ := tossed_of_observed first
    obtain ⟨_, _, resumesAlso, -⟩ := tossed_of_observed second
    rw [resumes] at resumesAlso
    cases resumesAlso
    rfl

theorem wellFormed_step (stored : after.state.engine.games room = some game) :
    game.board.WellFormed := by
  rcases game_before_step step stored with ⟨known, same, rfl | steps⟩ | ⟨pair, -, rfl⟩
  · exact sided.wellFormed _ _ same
  · exact ActiveGame.wellFormed_of_step (sided.wellFormed _ _ same) steps
  · exact Board.empty_wellFormed

theorem placed_step (registered : Registered before)
    (placed : .placed room player game next ∈ log ++ observeSides choice before) :
    PlacedIn after room player game next := by
  rcases List.mem_append.mp placed with old | observed
  · exact (sided.placed _ _ _ _ old).step registered step
  · obtain ⟨action, data, gameOver, found, passed, stored⟩ := placed_of_observed step observed
    have wellFormed := sided.wellFormed _ _ (GameEngine.find_eq_some.mp found).2
    obtain ⟨marks, changed⟩ := marks_of_passed wellFormed passed
    exact ⟨⟨next, stored, (ActiveGame.processAction_frame passed).2.1⟩,
      List.mem_of_getElem? (ActiveGame.processAction_passed passed).2.1, marks, changed⟩

end Step

end Sided

theorem sided_of_logged {redis : Redis} {roomIds : List RoomId}
    {guard : ServerChoice → ServerConfig → Prop} {config : ServerConfig}
    (logged : (server settings).Logged (booted redis roomIds) guard observeSides log config) :
    Sided log config := by
  induction logged with
  | start =>
      constructor
      · simp [booted, Config.pending, Instr.Offers]
      · exact by simp
      · intro room
        simp [draws, booted, weigh, Instr.offersRoom, Bool.toNat_le]
      · exact by simp
      · exact by simp [booted]
      · exact by simp
  | step logged allowed step sided =>
      have registered := registered_of_reaches logged.reaches
      constructor
      · intro _ pending
        exact sided.offers_step step registered pending
      · intro _ _ _ told
        exact sided.told_step step told
      · intro room
        exact (draws_step step room).trans (sided.once room)
      · intro _ _ _ first second
        exact sided.unique_step first second
      · intro _ _ stored
        exact sided.wellFormed_step step stored
      · intro _ _ _ _ placed
        exact sided.placed_step step registered placed

/-- The second player of a pair is numbered 2, the first one 1. -/
theorem number_of_pair (distinct : pair.playerA ≠ pair.playerB) (member : player ∈ pair.playerIds) :
    pair.playerIds.idxOf player + 1 = if player = pair.playerA then 1 else 2 := by
  simp only [MatchedPair.playerIds, List.mem_cons, List.not_mem_nil, or_false] at member
  rcases member with rfl | rfl
  · simp [MatchedPair.playerIds]
  · simp [MatchedPair.playerIds, distinct, distinct.symm]

/-- Main result: in every run, a player told his side in a match plays it exactly if
the toss of the match was heads. -/
theorem keepsSide_iff_heads {redis : Redis} {roomIds : List RoomId}
    {guard : ServerChoice → ServerConfig → Prop} {config : ServerConfig}
    (logged : (server settings).Logged (booted redis roomIds) guard observeSides log config)
    {coin : Bool} {yourColor : String} (tossed : .tossed room coin ∈ log)
    (told : .told room player yourColor ∈ log) (placed : .placed room player game next ∈ log) :
    KeepsSide yourColor game next ↔ coin = true := by
  have sided := sided_of_logged logged
  obtain ⟨pair, drawnCoin, drawn, member, rfl⟩ := sided.told _ _ _ told
  obtain rfl := sided.unique _ _ _ tossed drawn.tossed
  obtain ⟨⟨last, stored, players⟩, -, marks, column, line, changed⟩ := sided.placed _ _ _ _ placed
  have ofPair := drawn.assigned.plays last stored
  have distinct : pair.playerA ≠ pair.playerB := by
    have nodup := (registered_of_reaches logged.reaches).playerIds_nodup stored
    simpa [ofPair, MatchedPair.playerIds] using nodup
  rw [← players, ofPair, number_of_pair distinct member] at marks
  have marked (number : Nat) :
      game.Marks next number ↔ (if player = pair.playerA then 1 else 2) = number :=
    ⟨fun also => (marks column line changed).symm.trans (also column line changed),
      fun same => same ▸ marks⟩
  rw [KeepsSide, marked, marked, MatchedPair.colorOf]
  by_cases first : player = pair.playerA <;> cases coin <;> simp [first]

/-- A match is formed, the toss falls, and the first player claims a corner. -/
def claimAfterToss (coin : Bool) : List ServerChoice :=
  proceed 0 1 ++ [.resume 0 (.drawn "room-1")] ++ proceed 0 1 ++ [.resume 0 (.coin coin)] ++
    proceed 0 19 ++
    [.event (.callProcessAction "room-1" "ada" (.str "place")
      (.obj [("x", .int 0), ("y", .int 0)])), .resume 2 .done]

def SideEvent.shows (coin : Bool) : SideEvent → Bool
  | .tossed room shown => decide (room = "room-1" ∧ shown = coin)
  | _ => false

def SideEvent.tells (yourColor : String) : SideEvent → Bool
  | .told room player color => decide (room = "room-1" ∧ player = "ada" ∧ color = yourColor)
  | _ => false

def SideEvent.claimsCorner : SideEvent → Bool
  | .placed room player game next =>
      decide (room = "room-1" ∧ player = "ada" ∧ game.board.cell 0 0 = 0 ∧
        next.board.cell 0 0 = 1)
  | _ => false

namespace SideEvent

theorem eq_of_shows {coin : Bool} {event : SideEvent} (shows : event.shows coin = true) :
    event = .tossed "room-1" coin := by
  cases event with
  | tossed room shown =>
      obtain ⟨rfl, rfl⟩ := of_decide_eq_true shows
      rfl
  | told | placed => cases shows

theorem eq_of_tells {yourColor : String} {event : SideEvent}
    (tells : event.tells yourColor = true) : event = .told "room-1" "ada" yourColor := by
  cases event with
  | told room player color =>
      obtain ⟨rfl, rfl, rfl⟩ := of_decide_eq_true tells
      rfl
  | tossed | placed => cases tells

theorem eq_of_claimsCorner {event : SideEvent} (claims : event.claimsCorner = true) :
    ∃ game next, event = .placed "room-1" "ada" game next ∧ game.board.cell 0 0 = 0 ∧
      next.board.cell 0 0 = 1 := by
  cases event with
  | placed room player game next =>
      obtain ⟨rfl, rfl, free, marked⟩ := of_decide_eq_true claims
      exact ⟨game, next, rfl, free, marked⟩
  | tossed | told => cases claims

end SideEvent

theorem claimAfterToss_log {coin : Bool} {yourColor : String}
    (recorded : ((server { instanceId := "inst-1" }).record observeSides (claimAfterToss coin)
      (booted waitingRookies []) []).any (fun result =>
        result.1.any (SideEvent.shows coin) && result.1.any (SideEvent.tells yourColor) &&
          result.1.any SideEvent.claimsCorner) = true) :
    ∃ log config game next, (server { instanceId := "inst-1" }).Logged (booted waitingRookies [])
        unguarded observeSides log config ∧
      .tossed "room-1" coin ∈ log ∧ .told "room-1" "ada" yourColor ∈ log ∧
      .placed "room-1" "ada" game next ∈ log ∧ game.board.cell 0 0 = 0 ∧
      next.board.cell 0 0 = 1 := by
  obtain ⟨⟨log, config⟩, executed, holds⟩ := Option.any_eq_true _ _ |>.mp recorded
  obtain ⟨both, claims⟩ := Bool.and_eq_true_iff.mp holds
  obtain ⟨shows, tells⟩ := Bool.and_eq_true_iff.mp both
  obtain ⟨toss, tossed, isToss⟩ := List.any_eq_true.mp shows
  obtain rfl := SideEvent.eq_of_shows isToss
  obtain ⟨notice, told, isTold⟩ := List.any_eq_true.mp tells
  obtain rfl := SideEvent.eq_of_tells isTold
  obtain ⟨claim, placed, isClaim⟩ := List.any_eq_true.mp claims
  obtain ⟨game, next, rfl, free, marked⟩ := SideEvent.eq_of_claimsCorner isClaim
  exact ⟨log, config, game, next,
    Machine.logged_of_record .start (fun _ _ _ => trivial) executed, tossed, told, placed, free,
    marked⟩

/-- After heads, the first player plays the first side, as announced. -/
theorem keepsSide_of_heads :
    ∃ log config game next, (server { instanceId := "inst-1" }).Logged (booted waitingRookies [])
        unguarded observeSides log config ∧
      .told "room-1" "ada" "player_1" ∈ log ∧ .placed "room-1" "ada" game next ∈ log ∧
      KeepsSide "player_1" game next := by
  have recorded : ((server { instanceId := "inst-1" }).record observeSides (claimAfterToss true)
      (booted waitingRookies []) []).any (fun result =>
        result.1.any (SideEvent.shows true) && result.1.any (SideEvent.tells "player_1") &&
          result.1.any SideEvent.claimsCorner) = true := by
    decide +kernel
  obtain ⟨log, config, game, next, logged, tossed, told, placed, -, -⟩ :=
    claimAfterToss_log recorded
  exact ⟨log, config, game, next, logged, told, placed,
    (keepsSide_iff_heads logged tossed told placed).mpr rfl⟩

/-- After tails, the first player is told the second side and plays the first one. -/
theorem tails_not_kept :
    ¬ SidesKept { instanceId := "inst-1" } (booted waitingRookies []) unguarded := by
  intro kept
  have recorded : ((server { instanceId := "inst-1" }).record observeSides (claimAfterToss false)
      (booted waitingRookies []) []).any (fun result =>
        result.1.any (SideEvent.shows false) && result.1.any (SideEvent.tells "player_2") &&
          result.1.any SideEvent.claimsCorner) = true := by
    decide +kernel
  obtain ⟨log, config, game, next, logged, -, told, placed, free, marked⟩ :=
    claimAfterToss_log recorded
  have second := (kept log config logged "room-1" "ada" "player_2" game next told placed).2 rfl 0 0
    (by rw [free, marked]; decide)
  rw [marked] at second
  cases second

end TerritoryBackend

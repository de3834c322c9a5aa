import TerritoryBackend.Lobby

/-!
# Several instances

Instances share the keys in Redis, while every instance has a table of games
of its own.  The instance whose matching loop formed a room holds its game,
and an event of a player is handled by the instance the player is connected
to.  Nothing routes the event to the owner of the room.
-/

namespace TerritoryBackend

/-- The shared Redis and the games of every instance. -/
structure Cluster where
  sessions : PlayerId → SessionKey := fun _ => none
  queue : MatchmakingQueue := {}
  playerRoom : PlayerId → Option RoomId := fun _ => none
  engines : InstanceId → GameEngine := fun _ => {}

inductive PlayerEvent where
  | gameAction (call : ActionCall)
  | disconnect (player : PlayerId) (now : Time)
  | reconnect (player : PlayerId) (connection : ConnectionId) (now : Time)

def PlayerEvent.player : PlayerEvent → PlayerId
  | .gameAction call => call.player
  | .disconnect player _ => player
  | .reconnect player _ _ => player

namespace Cluster

/-- What the handlers of an instance work on. -/
def lobby (cluster : Cluster) (inst : InstanceId) : Lobby where
  sessions := cluster.sessions
  queue := cluster.queue
  engine := cluster.engines inst

/-- The effect of a handler of an instance. -/
def setLobby (cluster : Cluster) (inst : InstanceId) (lobby : Lobby) : Cluster :=
  { cluster with
    sessions := lobby.sessions
    queue := lobby.queue
    engines := Function.update cluster.engines inst lobby.engine }

/-- `_create_match` and `create_game` on the owner of the room. -/
def formMatch (cluster : Cluster) (owner : InstanceId) (pair : MatchedPair) (room : RoomId)
    (now : Time) : Cluster :=
  { cluster.setLobby owner ((cluster.lobby owner).formMatch cluster.queue pair room now) with
    playerRoom := fun player =>
      if player ∈ pair.playerIds then some room else cluster.playerRoom player }

/-- The branch `GAME_ACTION` of `_route_message`; a game that is over is
cleaned up. -/
def gameAction (cluster : Cluster) (inst : InstanceId) (call : ActionCall) :
    Cluster × ActionReply :=
  match (cluster.playerRoom call.player).bind RedisSession.orNone with
  | none => (cluster, .refused ⟨"NOT_IN_GAME", .text "You are not in a game"⟩)
  | some room =>
      match (cluster.engines inst).processAction room call.player call.action call.data
          call.now with
      | (engine, .accepted true) =>
          let players := ((engine.games room).map ActiveGame.playerIds).getD []
          ({ cluster with
              playerRoom := fun player =>
                if player ∈ players then none else cluster.playerRoom player
              engines := Function.update cluster.engines inst (engine.pop room) },
            .accepted true)
      | (engine, reply) =>
          ({ cluster with engines := Function.update cluster.engines inst engine }, reply)

/-- An event handled by an instance, with the reply to an action. -/
def handle (settings : Settings) (cluster : Cluster) (inst : InstanceId) :
    PlayerEvent → Cluster × Option ActionReply
  | .gameAction call => (cluster.gameAction inst call).map id some
  | .disconnect player now =>
      (cluster.setLobby inst
        ((cluster.lobby inst).disconnect { settings with instanceId := inst } player now), none)
  | .reconnect player connection now =>
      (cluster.setLobby inst
        ((cluster.lobby inst).connect { settings with instanceId := inst } player connection now),
        none)

def run (settings : Settings) (placement : PlayerId → InstanceId) (cluster : Cluster) :
    List PlayerEvent → Cluster × List (Option ActionReply)
  | [] => (cluster, [])
  | event :: events =>
      let handled := cluster.handle settings (placement event.player) event
      let later := handled.1.run settings placement events
      (later.1, handled.2 :: later.2)

/-- The events had the same effect on the game of a room: the same replies, and
the same game at its owner. -/
def SameEffect (owner : InstanceId) (room : RoomId)
    (first second : Cluster × List (Option ActionReply)) : Prop :=
  first.2 = second.2 ∧ (first.1.engines owner).games room = (second.1.engines owner).games room

/-- Wherever the players are placed, their events have the effect they have
with both players on the owner of the room. -/
def Transparent (settings : Settings) (cluster : Cluster) (owner : InstanceId) (room : RoomId)
    (players : List PlayerId) (placement : PlayerId → InstanceId) : Prop :=
  ∀ events : List PlayerEvent, (∀ event ∈ events, event.player ∈ players) →
    SameEffect owner room (cluster.run settings placement events)
      (cluster.run settings (fun _ => owner) events)

variable {settings : Settings} {cluster : Cluster}

theorem run_congr {placement other : PlayerId → InstanceId} {events : List PlayerEvent}
    (same : ∀ event ∈ events, placement event.player = other event.player) :
    cluster.run settings placement events = cluster.run settings other events := by
  induction events generalizing cluster with
  | nil => rfl
  | cons event events ih =>
      have here := same event List.mem_cons_self
      have later := fun candidate member => same candidate (List.mem_cons_of_mem event member)
      simp only [run, here, ih later]

/-- The players of a formed match have sessions that name its room. -/
theorem getSession_formMatch {owner : InstanceId} {pair : MatchedPair} {room : RoomId}
    {now : Time} {player : PlayerId} {hash : RedisHash SessionField RedisText}
    (named : room ≠ "") (member : player ∈ pair.playerIds)
    (stored : cluster.sessions player = some hash)
    (complete : SessionManager.Complete hash) :
    ∃ session, SessionManager.getSession
        ((cluster.formMatch owner pair room now).sessions player) = .ok (some session) ∧
      session.roomId = some room := by
  obtain ⟨after, written, whole⟩ := SessionManager.updateSessionState_complete complete
    PlayerConnectionState.inGame.value (some room) now
  have sessionsEq : (cluster.formMatch owner pair room now).sessions player = some after := by
    rw [← written, ← stored]
    exact if_pos member
  obtain ⟨session, decoded⟩ := whole.decodable.fromDict_isOk
  refine ⟨session, by simp [sessionsEq, SessionManager.getSession, decoded, Except.map], ?_⟩
  have roomEq := (RedisSession.fromDict_eq_ok decoded).2.2.2.2.1
  have field : after.fields .roomId = some (.str room) := by
    cases written
    rfl
  rw [roomEq, field]
  simp [RedisText.toText, RedisSession.orNone, named]

/-- A disconnect handled by an instance acts on the games of that instance
only. -/
theorem engines_disconnect {inst : InstanceId} {player : PlayerId} {now : Time}
    {session : RedisSession} {room : RoomId}
    (read : SessionManager.getSession (cluster.sessions player) = .ok (some session))
    (inRoom : session.roomId = some room) :
    (cluster.handle settings inst (.disconnect player now)).1.engines =
      Function.update cluster.engines inst
        (((cluster.engines inst).handlePlayerDisconnect room player).getD
          (cluster.engines inst)) := by
  simp only [handle, setLobby, Lobby.disconnect, lobby, read, inRoom]

theorem not_sameEffect_disconnect {owner inst : InstanceId} {room : RoomId} {game : ActiveGame}
    {player : PlayerId} {session : RedisSession}
    (read : SessionManager.getSession (cluster.sessions player) = .ok (some session))
    (inRoom : session.roomId = some room)
    (hosted : (cluster.engines owner).find room = some game)
    (inProgress : game.status = .inProgress) (elsewhere : inst ≠ owner)
    {placement : PlayerId → InstanceId} (placed : placement player = inst) :
    ¬ SameEffect owner room (cluster.run settings placement [.disconnect player 0])
      (cluster.run settings (fun _ => owner) [.disconnect player 0]) := by
  rintro ⟨-, sameGame⟩
  have stored := (GameEngine.find_eq_some.mp hosted).2
  simp only [run, PlayerEvent.player, placed, engines_disconnect read inRoom,
    Function.update_of_ne (Ne.symm elsewhere), Function.update_self, stored,
    GameEngine.handlePlayerDisconnect, hosted, Option.bind_some,
    ActiveGame.handlePlayerDisconnect, inProgress, ne_eq, not_true_eq_false, if_false,
    Option.map_some, Option.getD_some, GameEngine.write_games, if_true] at sameGame
  have sameStatus := congrArg ActiveGame.status (Option.some.inj sameGame)
  simp [inProgress] at sameStatus

/-- The instances are transparent exactly for the players who are connected to
the owner of the room. -/
theorem transparent_iff (settings : Settings) (cluster : Cluster) (owner : InstanceId)
    (pair : MatchedPair) (room : RoomId) (now : Time) (placement : PlayerId → InstanceId)
    (named : room ≠ "")
    (connected : ∀ player ∈ pair.playerIds, ∃ hash, cluster.sessions player = some hash ∧
      SessionManager.Complete hash) :
    Transparent settings (cluster.formMatch owner pair room now) owner room pair.playerIds
        placement ↔
      ∀ player ∈ pair.playerIds, placement player = owner := by
  constructor
  · intro transparent player member
    by_contra elsewhere
    obtain ⟨hash, stored, complete⟩ := connected player member
    obtain ⟨session, read, inRoom⟩ := getSession_formMatch named member stored complete
    have hosted : ((cluster.formMatch owner pair room now).engines owner).find room =
        some (ActiveGame.create room pair.playerIds pair.playerElos now) := by
      simp [formMatch, setLobby, Lobby.formMatch, GameEngine.createMatchedGame,
        GameEngine.find_eq_some]
    exact not_sameEffect_disconnect read inRoom hosted rfl elsewhere rfl
      (transparent [.disconnect player 0] (by simpa [PlayerEvent.player] using member))
  · intro atOwner events ofPlayers
    have same : (cluster.formMatch owner pair room now).run settings placement events =
        (cluster.formMatch owner pair room now).run settings (fun _ => owner) events :=
      run_congr fun event member => atOwner event.player (ofPlayers event member)
    rw [same]
    exact ⟨rfl, rfl⟩

def twoInstances : Cluster where
  sessions player :=
    if player = "ada" then
      SessionManager.createSession { instanceId := "inst-1" } "ada" "conn-1" 1000 "" 0 none
    else if player = "bob" then
      SessionManager.createSession { instanceId := "inst-2" } "bob" "conn-2" 1000 "" 0 none
    else none

theorem twoInstances_connected : ∀ player ∈ rookies.playerIds, ∃ hash,
    twoInstances.sessions player = some hash ∧ SessionManager.Complete hash := by
  intro player member
  rcases List.mem_pair.mp member with rfl | rfl
  · exact SessionManager.createSession_complete ..
  · exact SessionManager.createSession_complete ..

theorem transparent_iff_twoInstances :
    Transparent { instanceId := "inst-1" } (twoInstances.formMatch "inst-1" rookies "room-1" 1)
        "inst-1" "room-1" rookies.playerIds (fun _ => "inst-1") ↔
      ∀ player ∈ rookies.playerIds, (fun _ : PlayerId => "inst-1") player = "inst-1" :=
  transparent_iff { instanceId := "inst-1" } twoInstances "inst-1" rookies "room-1" 1
    (fun _ => "inst-1") (by decide) twoInstances_connected

def firstMoves : List PlayerEvent :=
  [.gameAction ⟨"ada", .str "place", .obj [("x", .int 4), ("y", .int 4)], 2⟩,
    .gameAction ⟨"bob", .str "place", .obj [("x", .int 7), ("y", .int 7)], 3⟩]

/-- The move of a player on the second instance is lost. -/
theorem moveElsewhere_not_transparent :
    ¬ Transparent { instanceId := "inst-1" } (twoInstances.formMatch "inst-1" rookies "room-1" 1)
        "inst-1" "room-1" rookies.playerIds
        (fun player => if player = "bob" then "inst-2" else "inst-1") := by
  intro transparent
  have sameGame := (transparent firstMoves (by decide)).2
  have sameTurn := congrArg (Option.map ActiveGame.turnNumber) sameGame
  exact absurd sameTurn (by decide +kernel)

end Cluster
end TerritoryBackend

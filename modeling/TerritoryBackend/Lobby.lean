import TerritoryBackend.Matchmaking
import TerritoryBackend.Playability
import TerritoryBackend.SessionManager

/-!
# Handlers run one after the other

The sessions, the queue and one instance's games under handlers that run to
their end before the next one starts: connecting, looking for a match, playing
and leaving, and the forming of matches.
-/

namespace TerritoryBackend

/-- The sessions and the queue in Redis with the games of one instance. -/
structure Lobby where
  sessions : PlayerId → SessionKey := fun _ => none
  queue : MatchmakingQueue := {}
  engine : GameEngine := {}

inductive LobbyEvent where
  | connect (player : PlayerId) (connection : ConnectionId) (now : Time)
  | findMatch (player : PlayerId) (now : Time)
  | cancelMatch (player : PlayerId) (now : Time)
  | disconnect (player : PlayerId) (now : Time)
  | sessionExpires (player : PlayerId)
  | gameAction (room : RoomId) (call : ActionCall)
  | forfeit (room : RoomId) (player : PlayerId)

namespace Lobby

def setSession (lobby : Lobby) (player : PlayerId) (key : SessionKey) : Lobby :=
  { lobby with sessions := Function.update lobby.sessions player key }

/-- The connect phase of `websocket_endpoint`. -/
def connect (settings : Settings) (lobby : Lobby) (player : PlayerId)
    (connection : ConnectionId) (now : Time) : Lobby :=
  match SessionManager.getSession (lobby.sessions player) with
  | .error _ => lobby
  | .ok (some session) =>
      if session.state = PlayerConnectionState.disconnected.value then
        let claimed := lobby.setSession player
          (SessionManager.attemptReconnect settings connection now (lobby.sessions player))
        match session.roomId with
        | some room =>
            { claimed with
              engine := ((lobby.engine.handlePlayerReconnect room player).map Prod.fst).getD
                lobby.engine }
        | none => claimed
      else
        lobby.setSession player
          (SessionManager.createSession settings player connection 1000 "" now
            (lobby.sessions player))
  | .ok none =>
      lobby.setSession player
        (SessionManager.createSession settings player connection 1000 "" now
          (lobby.sessions player))

def findMatch (lobby : Lobby) (player : PlayerId) (now : Time) : Lobby :=
  match SessionManager.getSession (lobby.sessions player) with
  | .error _ => lobby
  | .ok session =>
      let elo := (session.map RedisSession.eloRating).getD 1000
      let updated := lobby.setSession player
        (SessionManager.updateSessionState PlayerConnectionState.inMatchmaking.value none now
          (lobby.sessions player))
      { updated with queue := lobby.queue.enqueuePlayer player elo now }

def disconnect (settings : Settings) (lobby : Lobby) (player : PlayerId) (now : Time) : Lobby :=
  let dequeued := { lobby with queue := (lobby.queue.dequeuePlayer player).1 }
  match SessionManager.getSession (lobby.sessions player) with
  | .ok (some session) =>
      let marked := dequeued.setSession player
        (SessionManager.markDisconnected settings now (lobby.sessions player))
      match session.roomId with
      | some room =>
          { marked with
            engine := (lobby.engine.handlePlayerDisconnect room player).getD lobby.engine }
      | none => marked
  | _ => dequeued

/-- A handler run to its end, a finished game leaving the table. -/
def step (settings : Settings) (lobby : Lobby) : LobbyEvent → Lobby
  | .connect player connection now => lobby.connect settings player connection now
  | .findMatch player now => lobby.findMatch player now
  | .cancelMatch player now =>
      { lobby.setSession player
          (SessionManager.updateSessionState PlayerConnectionState.connected.value none now
            (lobby.sessions player)) with
        queue := (lobby.queue.dequeuePlayer player).1 }
  | .disconnect player now => lobby.disconnect settings player now
  | .sessionExpires player =>
      lobby.setSession player (RedisHash.lapse (lobby.sessions player))
  | .gameAction room call =>
      match lobby.engine.processAction room call.player call.action call.data call.now with
      | (engine, .accepted true) => { lobby with engine := engine.pop room }
      | (engine, _) => { lobby with engine := engine }
  | .forfeit room player =>
      match lobby.engine.disconnectTimer room player with
      | some engine => { lobby with engine := engine.pop room }
      | none => lobby

/-- The state after `_create_match` for a popped pair. -/
def formMatch (lobby : Lobby) (queue : MatchmakingQueue) (pair : MatchedPair) (room : RoomId)
    (now : Time) : Lobby where
  sessions player :=
    if player ∈ pair.playerIds then
      SessionManager.updateSessionState PlayerConnectionState.inGame.value (some room) now
        (lobby.sessions player)
    else lobby.sessions player
  queue := queue
  engine := lobby.engine.createMatchedGame room pair now

def stepAll (settings : Settings) (lobby : Lobby) (events : List LobbyEvent) : Lobby :=
  events.foldl (step settings) lobby

end Lobby

theorem contests_getD_reconnect (engine : GameEngine) (room : RoomId) (player : PlayerId) :
    (((engine.handlePlayerReconnect room player).map Prod.fst).getD engine).contests =
      engine.contests := by
  cases reconnected : engine.handlePlayerReconnect room player with
  | none => rfl
  | some result => exact GameEngine.contests_handlePlayerReconnect reconnected

theorem contests_getD_disconnect (engine : GameEngine) (room : RoomId) (player : PlayerId) :
    ((engine.handlePlayerDisconnect room player).getD engine).contests = engine.contests := by
  cases paused : engine.handlePlayerDisconnect room player with
  | none => rfl
  | some after => exact GameEngine.contests_handlePlayerDisconnect paused

namespace Lobby

variable {settings : Settings} {lobby : Lobby}

theorem contests_connect (player : PlayerId) (connection : ConnectionId) (now : Time) :
    (lobby.connect settings player connection now).engine.contests = lobby.engine.contests := by
  unfold connect
  split
  · rfl
  · split
    · split
      · exact contests_getD_reconnect _ _ _
      · rfl
    · rfl
  · rfl

theorem contests_findMatch (player : PlayerId) (now : Time) :
    (lobby.findMatch player now).engine.contests = lobby.engine.contests := by
  unfold findMatch
  split <;> rfl

theorem contests_disconnect (player : PlayerId) (now : Time) :
    (lobby.disconnect settings player now).engine.contests = lobby.engine.contests := by
  unfold disconnect
  simp only
  split
  · split
    · exact contests_getD_disconnect _ _ _
    · rfl
  · rfl

theorem contests_step (settings : Settings) (lobby : Lobby) (event : LobbyEvent) :
    (lobby.step settings event).engine.contests = lobby.engine.contests := by
  cases event with
  | connect player connection now => exact contests_connect player connection now
  | findMatch player now => exact contests_findMatch player now
  | cancelMatch player now => rfl
  | disconnect player now => exact contests_disconnect player now
  | sessionExpires player => rfl
  | gameAction room call =>
      have same := GameEngine.contests_processAction lobby.engine room call.player call.action
        call.data call.now
      simp only [step]
      split <;> simp_all
  | forfeit room player =>
      simp only [step]
      split
      · rename_i engine forfeited
        have same := GameEngine.contests_disconnectTimer forfeited
        exact same
      · rfl

theorem contests_stepAll (settings : Settings) (lobby : Lobby) (events : List LobbyEvent) :
    (lobby.stepAll settings events).engine.contests = lobby.engine.contests := by
  induction events generalizing lobby with
  | nil => rfl
  | cons event events ih => exact (ih _).trans (contests_step settings lobby event)

end Lobby

end TerritoryBackend

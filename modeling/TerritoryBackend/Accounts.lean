import TerritoryBackend.EventLoop
import TerritoryBackend.Repositories
import TerritoryBackend.UniqueTables
import Mathlib.Data.Rat.Floor

/-!
# Accounts, passwords and tokens

Registration and login in `app/api/rest_routes.py`, the statements of
`PlayerRepository` they execute, the tokens of `app/utils/auth.py`, and the first
step of the WebSocket endpoint.  Any number of requests are processed at the same
time, each statement being one step, any statement may fail, and so may a commit
whose effect is there all the same.  Password hashing and the signing of tokens
are third-party code, known by what they document.
-/

namespace TerritoryBackend

open EventLoop

deriving instance DecidableEq for PlayerRow

/-- A request that has passed the checks of its fields. -/
structure PlayerRegisterRequest where
  username : String
  email : String
  password : String
  usernameLength : 3 ≤ username.length ∧ username.length ≤ 50
  usernamePattern : username.toList.all fun char => char.isAlphanum || char == '_'
  emailLength : 5 ≤ email.length ∧ email.length ≤ 255
  passwordLength : 8 ≤ password.length ∧ password.length ≤ 128

structure PlayerLoginRequest where
  username : String
  password : String

structure PlayerLoginResponse where
  accessToken : String
  tokenType : String := "bearer"
  playerId : PlayerId
  username : String
  eloRating : Int

/-- A row of `players`; the rating and the counters are updated with results. -/
structure AccountRow where
  id : PlayerId
  username : String
  email : String
  passwordHash : String
  stats : PlayerRow := {}
  isBanned : Bool := false
  lastLoginAt : Option Time := none
  deriving DecidableEq

/-- The columns declared `unique`, and the primary key. -/
def AccountRow.uniqueColumns : List (AccountRow → String) := [id, username, email]

/-- bcrypt ignores what follows the first 72 bytes of a password. -/
def bcryptKey (password : String) : List UInt8 := password.toUTF8.toList.take 72

/-- `pwd_context`; a function returns `none` where it raises. -/
structure PasswordContext where
  hash : (salt password : String) → Option String
  verify : (password passwordHash : String) → Option Bool
  verify_hash : ∀ salt password passwordHash, hash salt password = some passwordHash →
    ∀ attempt accepted, verify attempt passwordHash = some accepted →
      (accepted = true ↔ bcryptKey attempt = bcryptKey password)

/-- The payload `create_access_token` encodes; no caller adds claims. -/
structure TokenPayload where
  sub : PlayerId
  iat : Time
  exp : Time

/-- A token has expired once the second of its `exp` is over. -/
def TokenPayload.expired (payload : TokenPayload) (now : Time) : Prop := ⌊payload.exp⌋ < ⌊now⌋

/-- `jwt` with the secret key and the algorithm of the deployment.  A decoded
payload is given by its claim `sub`. -/
structure TokenScheme where
  encode : TokenPayload → String
  decode : (now : Time) → (token : String) → Except String (Option PlayerId)
  decode_encode : ∀ payload now, ¬ payload.expired now →
    decode now (encode payload) = .ok (some payload.sub)
  decode_eq_ok : ∀ payload now sub, decode now (encode payload) = .ok sub →
    sub = some payload.sub ∧ ¬ payload.expired now

/-- What the deployment configures. -/
structure Security where
  passwords : PasswordContext
  tokens : TokenScheme
  jwtExpiryMinutes : Nat := 1440

namespace Security

def tokenPayload (security : Security) (player : PlayerId) (now : Time) : TokenPayload where
  sub := player
  iat := now
  exp := now + 60 * security.jwtExpiryMinutes

def createAccessToken (security : Security) (player : PlayerId) (now : Time) : String :=
  security.tokens.encode (security.tokenPayload player now)

/-- `decode_token`; an error is the `detail` of the `AuthError`. -/
def decodeToken (security : Security) (token : String) (now : Time) : Except String PlayerId :=
  match security.tokens.decode now token with
  | .error error => .error ("Invalid token: " ++ error)
  | .ok none => .error "Token missing 'sub' claim"
  | .ok (some player) => .ok player

def extractPlayerId (security : Security) (token : String) (now : Time) :
    Except String PlayerId :=
  security.decodeToken token now

end Security

inductive RestRequest where
  | register (request : PlayerRegisterRequest)
  | login (request : PlayerLoginRequest)

/-- What has happened: accounts created, requests answered and connections
accepted or refused. -/
inductive AccountRecord where
  | created (request : PlayerRegisterRequest) (player : PlayerId)
  | registered (request : PlayerRegisterRequest) (response : PlayerLoginResponse) (now : Time)
  | loggedIn (request : PlayerLoginRequest) (response : PlayerLoginResponse) (now : Time)
  | failed (request : RestRequest) (statusCode : Nat) (detail : String)
  | connected (token : String) (player : PlayerId) (now : Time)
  | authFailed (token : String) (response : ErrorResponse) (now : Time)

structure AccountWorld where
  players : UniqueTable AccountRow := {}
  clock : Time := 0
  log : List AccountRecord := []

inductive AccountInstr where
  -- `register_player`
  | registerPlayer (request : PlayerRegisterRequest)
  | createPlayer (request : PlayerRegisterRequest)
  | commitPlayer (request : PlayerRegisterRequest) (player : AccountRow)
  | playerRegistered (request : PlayerRegisterRequest) (player : AccountRow)
  -- `login_player`
  | loginPlayer (request : PlayerLoginRequest)
  | updateLoginTimestamp (request : PlayerLoginRequest) (player : AccountRow)
  | commitLogin (request : PlayerLoginRequest) (player : AccountRow) (loginAt : Time)
  | playerLoggedIn (request : PlayerLoginRequest) (player : AccountRow)
  -- the end of `get_db_session` after an exception
  | rollback (request : RestRequest) (inserted : Option AccountRow)
  -- `websocket_endpoint`
  | authenticate (token : String)

inductive AccountAnswer where
  | done
  /-- the identifier drawn by `uuid4` and the salt of the hash -/
  | drawn (player : PlayerId) (salt : String)
  /-- the commit has taken effect, but its acknowledgement is lost -/
  | unacknowledged

inductive AccountEvent where
  | register (request : PlayerRegisterRequest)
  | login (request : PlayerLoginRequest)
  | openSocket (token : String)
  /-- an administrator changes `is_banned` -/
  | setBanned (player : PlayerId) (banned : Bool)
  /-- a result is persisted -/
  | recordStats (player : PlayerId) (stats : PlayerRow)
  | advance (seconds : Time)

namespace AccountWorld

def goOn (world : AccountWorld) (next : List AccountInstr := []) :
    Block AccountWorld AccountInstr :=
  { state := world, next := next }

def raise (world : AccountWorld) : Block AccountWorld AccountInstr :=
  { state := world, raises := true }

def record (world : AccountWorld) (entry : AccountRecord) : AccountWorld :=
  { world with log := world.log ++ [entry] }

/-- `raise HTTPException(...)`; the transaction has changed nothing. -/
def httpException (world : AccountWorld) (request : RestRequest) (statusCode : Nat)
    (detail : String) : Block AccountWorld AccountInstr :=
  (world.record (.failed request statusCode detail)).goOn

/-- The response both endpoints return. -/
def loginResponse (security : Security) (world : AccountWorld) (player : AccountRow) :
    PlayerLoginResponse where
  accessToken := security.createAccessToken player.id world.clock
  playerId := player.id
  username := player.username
  eloRating := player.stats.eloRating

/-- The check for an existing username. -/
def registerPlayer (world : AccountWorld) (request : PlayerRegisterRequest) :
    Block AccountWorld AccountInstr :=
  match world.players.select AccountRow.username request.username with
  | some _ => world.httpException (.register request) 409 "Username already taken"
  | none => world.goOn [.createPlayer request]

/-- The hashing and `PlayerRepository.create`, whose `flush` inserts the row. -/
def createPlayer (security : Security) (world : AccountWorld) (request : PlayerRegisterRequest)
    (answer : AccountAnswer) : Option (Block AccountWorld AccountInstr) :=
  match answer with
  | .drawn player salt =>
      match security.passwords.hash salt request.password with
      | none => some world.raise
      | some passwordHash =>
          let row : AccountRow :=
            { id := player, username := request.username, email := request.email,
              passwordHash := passwordHash }
          match world.players.insert AccountRow.uniqueColumns row with
          | .waits => none
          | .violates => some world.raise
          | .inserted players =>
              some ({ world with players := players }.goOn [.commitPlayer request row])
  | _ => none

def commitPlayer (world : AccountWorld) (request : PlayerRegisterRequest) (player : AccountRow)
    (answer : AccountAnswer) : Option (Block AccountWorld AccountInstr) :=
  (world.players.commit player).bind fun players =>
    let created := { world with players := players }.record (.created request player.id)
    match answer with
    | .done => some (created.goOn [.playerRegistered request player])
    | .unacknowledged => some created.raise
    | _ => none

def playerRegistered (security : Security) (world : AccountWorld)
    (request : PlayerRegisterRequest) (player : AccountRow) : Block AccountWorld AccountInstr :=
  (world.record
    (.registered request (world.loginResponse security player) world.clock)).goOn

def loginPlayer (security : Security) (world : AccountWorld) (request : PlayerLoginRequest) :
    Block AccountWorld AccountInstr :=
  match world.players.select AccountRow.username request.username with
  | none => world.httpException (.login request) 401 "Invalid username or password"
  | some player =>
      match security.passwords.verify request.password player.passwordHash with
      | none => world.raise
      | some false => world.httpException (.login request) 401 "Invalid username or password"
      | some true =>
          if player.isBanned then world.httpException (.login request) 403 "Account is banned"
          else world.goOn [.updateLoginTimestamp request player]

/-- The statement of `update_login_timestamp`, seen by others from the commit on. -/
def updateLoginTimestamp (world : AccountWorld) (request : PlayerLoginRequest)
    (player : AccountRow) : Block AccountWorld AccountInstr :=
  world.goOn [.commitLogin request player world.clock]

def updatePlayer (world : AccountWorld) (player : PlayerId) (change : AccountRow → AccountRow) :
    AccountWorld :=
  { world with
    players := world.players.update fun row => if row.id = player then change row else row }

def commitLogin (world : AccountWorld) (request : PlayerLoginRequest) (player : AccountRow)
    (loginAt : Time) (answer : AccountAnswer) : Option (Block AccountWorld AccountInstr) :=
  let updated := world.updatePlayer player.id fun row => { row with lastLoginAt := some loginAt }
  match answer with
  | .done => some (updated.goOn [.playerLoggedIn request player])
  | .unacknowledged => some updated.raise
  | _ => none

def playerLoggedIn (security : Security) (world : AccountWorld) (request : PlayerLoginRequest)
    (player : AccountRow) : Block AccountWorld AccountInstr :=
  (world.record (.loggedIn request (world.loginResponse security player) world.clock)).goOn

/-- The rollback of `get_db_session`, and the response to an unhandled exception. -/
def rollback (world : AccountWorld) (request : RestRequest) (inserted : Option AccountRow) :
    Block AccountWorld AccountInstr :=
  ({ world with players := inserted.elim world.players world.players.rollback }.record
    (.failed request 500 "Internal Server Error")).goOn

/-- The first step of `websocket_endpoint`. -/
def authenticate (security : Security) (world : AccountWorld) (token : String) :
    Block AccountWorld AccountInstr :=
  match security.extractPlayerId token world.clock with
  | .ok player => (world.record (.connected token player world.clock)).goOn
  | .error detail =>
      (world.record (.authFailed token ⟨"AUTH_FAILED", .text detail⟩ world.clock)).goOn

end AccountWorld

namespace AccountInstr

def block (security : Security) (instruction : AccountInstr) (answer : AccountAnswer)
    (world : AccountWorld) : Option (Block AccountWorld AccountInstr) :=
  match instruction with
  | .registerPlayer request => some (world.registerPlayer request)
  | .createPlayer request => world.createPlayer security request answer
  | .commitPlayer request player => world.commitPlayer request player answer
  | .playerRegistered request player => some (world.playerRegistered security request player)
  | .loginPlayer request => some (world.loginPlayer security request)
  | .updateLoginTimestamp request player => some (world.updateLoginTimestamp request player)
  | .commitLogin request player loginAt => world.commitLogin request player loginAt answer
  | .playerLoggedIn request player => some (world.playerLoggedIn security request player)
  | .rollback request inserted => some (world.rollback request inserted)
  | .authenticate token => some (world.authenticate security token)

/-- Statements on the database may raise. -/
def fallible : AccountInstr → Bool
  | .playerRegistered .. | .playerLoggedIn .. | .rollback .. | .authenticate .. => false
  | _ => true

/-- The transaction an exception rolls back: whose it is, and the row it has
inserted. -/
def transaction : AccountInstr → Option (RestRequest × Option AccountRow)
  | .registerPlayer request | .createPlayer request => some (.register request, none)
  | .commitPlayer request player => some (.register request, some player)
  | .loginPlayer request | .updateLoginTimestamp request _ | .commitLogin request _ _ =>
      some (.login request, none)
  | _ => none

def unwind (instructions : List AccountInstr) : List AccountInstr :=
  match instructions.head?.bind transaction with
  | some (request, inserted) => [.rollback request inserted]
  | none => []

end AccountInstr

def AccountEvent.effect (event : AccountEvent) (world : AccountWorld) :
    Option (AccountWorld × List (List AccountInstr)) :=
  match event with
  | .register request => some (world, [[.registerPlayer request]])
  | .login request => some (world, [[.loginPlayer request]])
  | .openSocket token => some (world, [[.authenticate token]])
  | .setBanned player banned =>
      some (world.updatePlayer player fun row => { row with isBanned := banned }, [])
  | .recordStats player stats =>
      some (world.updatePlayer player fun row => { row with stats := stats }, [])
  | .advance seconds =>
      if 0 ≤ seconds then some ({ world with clock := world.clock + seconds }, []) else none

/-- The requests of any number of instances on one database. -/
def accountServer (security : Security) :
    Machine AccountWorld AccountInstr AccountAnswer AccountEvent where
  block := AccountInstr.block security
  kind _ := .remote
  fallible instruction _ := instruction.fallible
  unwind := AccountInstr.unwind
  event := AccountEvent.effect

abbrev AccountConfig := Config AccountWorld AccountInstr

abbrev AccountChoice := Choice AccountAnswer AccountEvent

/-- The deployment before its first request. -/
def noAccounts : AccountConfig where
  state := {}
  tasks := []

end TerritoryBackend

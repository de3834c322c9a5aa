import TerritoryBackend.Accounts

/-!
# Who an account belongs to

However many requests are processed at the same time and wherever they fail, an
account belongs to the one registration that created it: its name is never given
away again, a login succeeds with the password it was registered with and with no
other, and a connection is accepted for a player if and only if it presents a token
issued to this player that has not expired.
-/

namespace TerritoryBackend

open EventLoop

/-- Every entry of the log is justified by the entries before it. -/
def Justified {ε : Type*} (justifies : List ε → ε → Prop) (log : List ε) : Prop :=
  ∀ earlier entry later, log = earlier ++ entry :: later → justifies earlier entry

namespace Justified

variable {ε : Type*} {justifies : List ε → ε → Prop} {log : List ε} {entry : ε}

theorem nil : Justified justifies [] := by
  intro earlier entry later split
  simp at split

theorem concat (justified : Justified justifies log) (last : justifies log entry) :
    Justified justifies (log ++ [entry]) := by
  intro earlier other later split
  rcases List.eq_nil_or_concat later with rfl | ⟨before, final, rfl⟩
  · obtain ⟨rfl, same⟩ := List.append_inj' split rfl
    cases same
    exact last
  · rw [List.concat_eq_append, ← List.cons_append, ← List.append_assoc] at split
    obtain ⟨rfl, -⟩ := List.append_inj' split rfl
    exact justified earlier other before rfl

end Justified

/-- The row of the account a request has created. -/
structure AccountRow.CreatedBy (security : Security) (row : AccountRow)
    (request : PlayerRegisterRequest) : Prop where
  username : row.username = request.username
  email : row.email = request.email
  hashed : ∃ salt, security.passwords.hash salt request.password = some row.passwordHash

/-- The response with a token, and when it was made. -/
def AccountRecord.issues : AccountRecord → Option (PlayerLoginResponse × Time)
  | .registered _ response now | .loggedIn _ response now => some (response, now)
  | _ => none

/-- A response has given the token to the player at this time. -/
def IssuedTo (log : List AccountRecord) (token : String) (player : PlayerId) (issuedAt : Time) :
    Prop :=
  ∃ record ∈ log, ∃ response, record.issues = some (response, issuedAt) ∧
    response.accessToken = token ∧ response.playerId = player

/-- The request names an account and has its password. -/
def Entitled (log : List AccountRecord) (request : PlayerLoginRequest) (player : PlayerId) : Prop :=
  ∃ owner, .created owner player ∈ log ∧ owner.username = request.username ∧
    bcryptKey request.password = bcryptKey owner.password

def AccountRecord.Justifies (security : Security) (earlier : List AccountRecord) :
    AccountRecord → Prop
  | .created request player => ∀ owner other, .created owner other ∈ earlier →
      other ≠ player ∧ owner.username ≠ request.username ∧ owner.email ≠ request.email
  | .registered request response now => .created request response.playerId ∈ earlier ∧
      response.username = request.username ∧
      response.accessToken = security.createAccessToken response.playerId now
  | .loggedIn request response now => Entitled earlier request response.playerId ∧
      response.username = request.username ∧
      response.accessToken = security.createAccessToken response.playerId now
  | .failed (.register request) statusCode _ => statusCode = 409 →
      ∃ owner player, .created owner player ∈ earlier ∧ owner.username = request.username
  | .failed (.login request) statusCode _ =>
      (statusCode = 401 → ∀ player, ¬ Entitled earlier request player) ∧
        (statusCode = 403 → ∃ player, Entitled earlier request player)
  | .connected token player now => ∃ issuedAt, IssuedTo earlier token player issuedAt ∧
      ¬ (security.tokenPayload player issuedAt).expired now
  | .authFailed token _ now => ∀ player issuedAt, IssuedTo earlier token player issuedAt →
      (security.tokenPayload player issuedAt).expired now

/-- The table holds the accounts created, each under the name and with the password
it was registered with, and everything that happened was justified by what had
happened before. -/
structure AccountsSound (security : Security) (world : AccountWorld) : Prop where
  justified : Justified (AccountRecord.Justifies security) world.log
  accounts : ∀ row ∈ world.players.committed, ∃ request,
    .created request row.id ∈ world.log ∧ row.CreatedBy security request
  kept : ∀ request player, .created request player ∈ world.log →
    ∃ row ∈ world.players.committed, row.id = player ∧ row.CreatedBy security request
  /-- no two rows share an id, a name or an address -/
  consistent : world.players.Consistent AccountRow.uniqueColumns

/-- No token is forged: one that is accepted has been issued. -/
def PresentsIssued (security : Security) (choice : AccountChoice) (config : AccountConfig) : Prop :=
  ∀ token player, config.executed choice = some (.authenticate token) →
    security.extractPlayerId token config.state.clock = .ok player →
    ∃ owner issuedAt, IssuedTo config.state.log token owner issuedAt

variable {security : Security} {world : AccountWorld} {row player : AccountRow}
  {request : PlayerRegisterRequest} {login : PlayerLoginRequest} {entry : AccountRecord}
  {log later : List AccountRecord} {token : String} {id : PlayerId} {issuedAt : Time}

theorem IssuedTo.mono (issued : IssuedTo log token id issuedAt) (grows : log ⊆ later) :
    IssuedTo later token id issuedAt := by
  obtain ⟨record, member, response, issues, holds⟩ := issued
  exact ⟨record, grows member, response, issues, holds⟩

theorem Entitled.mono (entitled : Entitled log login id) (grows : log ⊆ later) :
    Entitled later login id := by
  obtain ⟨owner, created, holds⟩ := entitled
  exact ⟨owner, grows created, holds⟩

/-- A password is verified if and only if bcrypt cannot tell it from that of the
registration. -/
theorem AccountRow.CreatedBy.verifies_iff (createdBy : row.CreatedBy security request)
    {attempt : String} {accepted : Bool}
    (verifies : security.passwords.verify attempt row.passwordHash = some accepted) :
    accepted = true ↔ bcryptKey attempt = bcryptKey request.password := by
  obtain ⟨salt, hashed⟩ := createdBy.hashed
  exact security.passwords.verify_hash salt _ _ hashed attempt accepted verifies

namespace AccountsSound

/-- A token that has been issued is the one made for its player at the time. -/
theorem token_eq (sound : AccountsSound security world)
    (issued : IssuedTo world.log token id issuedAt) :
    token = security.createAccessToken id issuedAt := by
  obtain ⟨record, member, response, issues, rfl, rfl⟩ := issued
  obtain ⟨earlier, after, split⟩ := List.append_of_mem member
  have justified := sound.justified earlier record after split
  cases record with
  | registered request other now =>
      cases issues
      exact justified.2.2
  | loggedIn request other now =>
      cases issues
      exact justified.2.2
  | _ => cases issues

theorem eq_of_username (sound : AccountsSound security world)
    (first : row ∈ world.players.committed) (second : player ∈ world.players.committed)
    (same : row.username = player.username) : row = player :=
  sound.consistent.eq_of_column AccountRow.username
    (by simp [AccountRow.uniqueColumns]) first second same

/-- Records other than those of new accounts leave the table as it is. -/
theorem record (sound : AccountsSound security world)
    (justified : entry.Justifies security world.log)
    (answers : ∀ request player, entry ≠ .created request player) :
    AccountsSound security (world.record entry) where
  justified := sound.justified.concat justified
  accounts row member := by
    obtain ⟨request, created, createdBy⟩ := sound.accounts row member
    exact ⟨request, List.mem_append_left _ created, createdBy⟩
  kept request player created := by
    rcases List.mem_append.mp created with old | new
    · exact sound.kept request player old
    · exact absurd (List.mem_singleton.mp new).symm (answers request player)
  consistent := sound.consistent

/-- The columns an update leaves alone are those an account is known by. -/
theorem updatePlayer (sound : AccountsSound security world) {change : AccountRow → AccountRow}
    (keeps : ∀ row, (change row).id = row.id ∧ (change row).username = row.username ∧
      (change row).email = row.email ∧ (change row).passwordHash = row.passwordHash)
    (id : PlayerId) : AccountsSound security (world.updatePlayer id change) := by
  have same (row : AccountRow) : (if row.id = id then change row else row).id = row.id ∧
      (if row.id = id then change row else row).username = row.username ∧
      (if row.id = id then change row else row).email = row.email ∧
      (if row.id = id then change row else row).passwordHash = row.passwordHash := by
    split
    · exact keeps row
    · exact ⟨rfl, rfl, rfl, rfl⟩
  have createdBy {row : AccountRow} {request : PlayerRegisterRequest}
      (holds : row.CreatedBy security request) :
      (if row.id = id then change row else row).CreatedBy security request := by
    obtain ⟨-, username, email, passwordHash⟩ := same row
    exact ⟨username.trans holds.username, email.trans holds.email, passwordHash ▸ holds.hashed⟩
  refine ⟨sound.justified, ?_, ?_, sound.consistent.update ?_⟩
  · intro row member
    obtain ⟨origin, known, rfl⟩ := List.mem_map.mp member
    obtain ⟨request, created, holds⟩ := sound.accounts origin known
    refine ⟨request, ?_, createdBy holds⟩
    rwa [(same origin).1]
  · intro request player created
    obtain ⟨row, known, rfl, holds⟩ := sound.kept request player created
    exact ⟨_, List.mem_map_of_mem known, (same row).1, createdBy holds⟩
  · intro row column member
    simp only [AccountRow.uniqueColumns, List.mem_cons, List.not_mem_nil, or_false] at member
    rcases member with rfl | rfl | rfl
    · exact (same row).1
    · exact (same row).2.1
    · exact (same row).2.2.1

end AccountsSound

/-- What is known of a request by the time it executes the instruction. -/
def AccountInstr.Supported (security : Security) (log : List AccountRecord) : AccountInstr → Prop
  | .commitPlayer request player => player.CreatedBy security request
  | .playerRegistered request player =>
      .created request player.id ∈ log ∧ player.username = request.username
  | .updateLoginTimestamp request player | .commitLogin request player _
  | .playerLoggedIn request player =>
      Entitled log request player.id ∧ player.username = request.username
  | _ => True

theorem AccountInstr.Supported.mono {instruction : AccountInstr}
    (supported : instruction.Supported security log) (grows : log ⊆ later) :
    instruction.Supported security later := by
  cases instruction with
  | commitPlayer => exact supported
  | playerRegistered => exact ⟨grows supported.1, supported.2⟩
  | updateLoginTimestamp => exact ⟨supported.1.mono grows, supported.2⟩
  | commitLogin => exact ⟨supported.1.mono grows, supported.2⟩
  | playerLoggedIn => exact ⟨supported.1.mono grows, supported.2⟩
  | _ => trivial

/-- A block leaves the accounts sound, and what follows it supported. -/
structure Preserves (security : Security) (world : AccountWorld)
    (block : Block AccountWorld AccountInstr) : Prop where
  sound : AccountsSound security block.state
  grows : world.log ⊆ block.state.log
  supported : ∀ next ∈ block.next, next.Supported security block.state.log
  spawned : block.spawned = []

namespace Preserves

theorem raise (sound : AccountsSound security world) : Preserves security world world.raise :=
  ⟨sound, List.Subset.refl _, by simp [AccountWorld.raise], rfl⟩

theorem goOn (sound : AccountsSound security world) {next : List AccountInstr}
    (supported : ∀ instruction ∈ next, instruction.Supported security world.log) :
    Preserves security world (world.goOn next) :=
  ⟨sound, List.Subset.refl _, supported, rfl⟩

/-- A record that ends the coroutine. -/
theorem record (sound : AccountsSound security world)
    (justified : entry.Justifies security world.log)
    (answers : ∀ request player, entry ≠ .created request player) :
    Preserves security world (world.record entry).goOn :=
  ⟨sound.record justified answers, List.subset_append_left _ _, by simp [AccountWorld.goOn], rfl⟩

end Preserves

section Blocks

variable (sound : AccountsSound security world)
include sound

theorem registerPlayer_preserves : Preserves security world (world.registerPlayer request) := by
  unfold AccountWorld.registerPlayer
  split
  · rename_i row selected
    obtain ⟨member, sameName⟩ := UniqueTable.select_eq_some selected
    obtain ⟨owner, created, createdBy⟩ := sound.accounts row member
    refine .record sound (fun _ => ⟨owner, row.id, created, ?_⟩) (by simp)
    exact createdBy.username.symm.trans sameName
  · exact .goOn sound (by simp [AccountInstr.Supported])

theorem createPlayer_preserves {answer : AccountAnswer}
    {block : Block AccountWorld AccountInstr}
    (effect : world.createPlayer security request answer = some block) :
    Preserves security world block := by
  unfold AccountWorld.createPlayer at effect
  split at effect
  · rename_i id salt
    split at effect
    · cases effect
      exact .raise sound
    · rename_i passwordHash hashed
      dsimp only at effect
      split at effect
      · cases effect
      · cases effect
        exact .raise sound
      · rename_i players inserted
        cases effect
        have same := (UniqueTable.insert_eq_inserted inserted).2
        have consistent := sound.consistent.insert inserted
        subst same
        refine ⟨⟨sound.justified, sound.accounts, sound.kept, consistent⟩, List.Subset.refl _, ?_,
          rfl⟩
        intro next member
        cases List.mem_singleton.mp member
        exact ⟨rfl, rfl, salt, hashed⟩
  · cases effect

/-- A commit adds an account that shares nothing with those there are. -/
theorem created_justified (inserted : player ∈ world.players.uncommitted)
    (createdBy : player.CreatedBy security request) :
    (AccountRecord.created request player.id).Justifies security world.log := by
  intro owner other created
  obtain ⟨row, member, rfl, known⟩ := sound.kept owner other created
  have apart := sound.consistent.apart member inserted
  refine ⟨fun same => apart ⟨AccountRow.id, by simp [AccountRow.uniqueColumns], same⟩,
    fun same => apart ⟨AccountRow.username, by simp [AccountRow.uniqueColumns], ?_⟩,
    fun same => apart ⟨AccountRow.email, by simp [AccountRow.uniqueColumns], ?_⟩⟩
  · rw [known.username, createdBy.username, same]
  · rw [known.email, createdBy.email, same]

theorem commit_sound {players : UniqueTable AccountRow}
    (commits : world.players.commit player = some players)
    (createdBy : player.CreatedBy security request) :
    AccountsSound security
      ({ world with players := players }.record (.created request player.id)) := by
  obtain ⟨inserted, rfl⟩ := UniqueTable.commit_eq_some commits
  refine ⟨sound.justified.concat (created_justified sound inserted createdBy), ?_, ?_,
    sound.consistent.commit commits⟩
  · intro row member
    rcases List.mem_append.mp member with old | new
    · obtain ⟨owner, created, known⟩ := sound.accounts row old
      exact ⟨owner, List.mem_append_left _ created, known⟩
    · cases List.mem_singleton.mp new
      exact ⟨request, List.mem_append_right _ List.mem_cons_self, createdBy⟩
  · intro owner id created
    rcases List.mem_append.mp created with old | new
    · obtain ⟨row, member, same, known⟩ := sound.kept owner id old
      exact ⟨row, List.mem_append_left _ member, same, known⟩
    · cases List.mem_singleton.mp new
      exact ⟨player, List.mem_append_right _ List.mem_cons_self, rfl, createdBy⟩

theorem commitPlayer_preserves {answer : AccountAnswer}
    {block : Block AccountWorld AccountInstr} (createdBy : player.CreatedBy security request)
    (effect : world.commitPlayer request player answer = some block) :
    Preserves security world block := by
  obtain ⟨players, commits, effect⟩ := Option.bind_eq_some_iff.mp effect
  have soundAfter := commit_sound sound commits createdBy
  have grows : world.log ⊆ world.log ++ [.created request player.id] :=
    List.subset_append_left _ _
  split at effect
  · cases effect
    refine ⟨soundAfter, grows, ?_, rfl⟩
    intro next member
    cases List.mem_singleton.mp member
    exact ⟨List.mem_append_right _ List.mem_cons_self, createdBy.username⟩
  · cases effect
    exact ⟨soundAfter, grows, by simp [AccountWorld.raise], rfl⟩
  · cases effect

/-- No account the request names has its password, when the check of it fails. -/
theorem not_entitled_of_refused (member : row ∈ world.players.committed)
    (sameName : row.username = login.username)
    (refused : security.passwords.verify login.password row.passwordHash = some false)
    (id : PlayerId) : ¬ Entitled world.log login id := by
  rintro ⟨owner, created, ownerName, sameKey⟩
  obtain ⟨known, knownMember, -, createdBy⟩ := sound.kept owner id created
  have same := sound.eq_of_username member knownMember
    (sameName.trans (ownerName.symm.trans createdBy.username.symm))
  subst same
  cases (createdBy.verifies_iff refused).mpr sameKey

theorem entitled_of_verified (member : row ∈ world.players.committed)
    (sameName : row.username = login.username)
    (verified : security.passwords.verify login.password row.passwordHash = some true) :
    Entitled world.log login row.id := by
  obtain ⟨owner, created, createdBy⟩ := sound.accounts row member
  exact ⟨owner, created, createdBy.username.symm.trans sameName,
    (createdBy.verifies_iff verified).mp rfl⟩

theorem loginPlayer_preserves : Preserves security world (world.loginPlayer security login) := by
  unfold AccountWorld.loginPlayer
  split
  · rename_i missing
    refine .record sound ⟨?_, by simp⟩ (by simp)
    intro _ id
    rintro ⟨owner, created, ownerName, -⟩
    obtain ⟨row, member, -, createdBy⟩ := sound.kept owner id created
    exact UniqueTable.select_eq_none missing member (createdBy.username.trans ownerName)
  · rename_i row selected
    obtain ⟨member, sameName⟩ := UniqueTable.select_eq_some selected
    split
    · exact .raise sound
    · rename_i refused
      exact .record sound
        ⟨fun _ => not_entitled_of_refused sound member sameName refused, by simp⟩ (by simp)
    · rename_i verified
      have entitled := entitled_of_verified sound member sameName verified
      split
      · exact .record sound ⟨by simp, fun _ => ⟨row.id, entitled⟩⟩ (by simp)
      · refine .goOn sound ?_
        intro next listed
        cases List.mem_singleton.mp listed
        exact ⟨entitled, sameName⟩

theorem authenticate_preserves
    (unforged : ∀ player, security.extractPlayerId token world.clock = .ok player →
      ∃ owner issuedAt, IssuedTo world.log token owner issuedAt) :
    Preserves security world (world.authenticate security token) := by
  unfold AccountWorld.authenticate
  split
  · rename_i id accepted
    obtain ⟨owner, issuedAt, issued⟩ := unforged id accepted
    refine .record sound ?_ (by simp)
    unfold Security.extractPlayerId Security.decodeToken at accepted
    split at accepted
    · cases accepted
    · cases accepted
    · rename_i sub decoded
      cases accepted
      rw [sound.token_eq issued] at decoded
      obtain ⟨same, current⟩ := security.tokens.decode_eq_ok _ _ _ decoded
      cases same
      exact ⟨issuedAt, issued, current⟩
  · rename_i detail refused
    refine .record sound ?_ (by simp)
    intro owner issuedAt issued
    by_contra current
    have decoded := security.tokens.decode_encode _ _ current
    rw [show security.tokens.encode (security.tokenPayload owner issuedAt) = token from
      (sound.token_eq issued).symm] at decoded
    simp [Security.extractPlayerId, Security.decodeToken, decoded] at refused

end Blocks

theorem AccountInstr.block_preserves {instruction : AccountInstr} {answer : AccountAnswer}
    {block : Block AccountWorld AccountInstr} (sound : AccountsSound security world)
    (supported : instruction.Supported security world.log)
    (unforged : ∀ token player, instruction = .authenticate token →
      security.extractPlayerId token world.clock = .ok player →
      ∃ owner issuedAt, IssuedTo world.log token owner issuedAt)
    (effect : instruction.block security answer world = some block) :
    Preserves security world block := by
  cases instruction with
  | registerPlayer request =>
      cases effect
      exact registerPlayer_preserves sound
  | createPlayer request => exact createPlayer_preserves sound effect
  | commitPlayer request player => exact commitPlayer_preserves sound supported effect
  | playerRegistered request player =>
      cases effect
      exact .record sound ⟨supported.1, supported.2, rfl⟩ (by simp)
  | loginPlayer request =>
      cases effect
      exact loginPlayer_preserves sound
  | updateLoginTimestamp request player =>
      cases effect
      refine .goOn sound ?_
      intro next member
      cases List.mem_singleton.mp member
      exact supported
  | commitLogin request player loginAt =>
      have updated : AccountsSound security (world.updatePlayer player.id
          fun row => { row with lastLoginAt := some loginAt }) := by
        refine sound.updatePlayer ?_ player.id
        intro row
        exact ⟨rfl, rfl, rfl, rfl⟩
      simp only [AccountInstr.block, AccountWorld.commitLogin] at effect
      split at effect
      · cases effect
        refine ⟨updated, List.Subset.refl _, ?_, rfl⟩
        intro next member
        cases List.mem_singleton.mp member
        exact supported
      · cases effect
        exact ⟨updated, List.Subset.refl _, by simp [AccountWorld.raise], rfl⟩
      · cases effect
  | playerLoggedIn request player =>
      cases effect
      exact .record sound ⟨supported.1, supported.2, rfl⟩ (by simp)
  | rollback request inserted =>
      cases effect
      have rolledBack : AccountsSound security
          { world with players := inserted.elim world.players world.players.rollback } := by
        cases inserted with
        | none => exact sound
        | some row =>
            exact ⟨sound.justified, sound.accounts, sound.kept, sound.consistent.rollback row⟩
      have unexpected : (AccountRecord.failed request 500 "Internal Server Error").Justifies
          security world.log := by
        cases request with
        | register => exact fun conflict => absurd conflict (by decide)
        | login => exact ⟨by simp, by simp⟩
      have recorded := Preserves.record rolledBack unexpected (by simp)
      exact ⟨recorded.sound, recorded.grows, recorded.supported, recorded.spawned⟩
  | authenticate token =>
      cases effect
      exact authenticate_preserves sound fun player => unforged token player rfl

/-- The accounts are sound, and every request under way is supported. -/
structure AccountsKept (security : Security) (config : AccountConfig) : Prop where
  sound : AccountsSound security config.state
  supported : ∀ instruction ∈ config.pending,
    instruction.Supported security config.state.log

theorem AccountEvent.effect_preserves {event : AccountEvent} {after : AccountWorld}
    {spawned : List (List AccountInstr)} (sound : AccountsSound security world)
    (effect : event.effect world = some (after, spawned)) :
    AccountsSound security after ∧ after.log = world.log ∧
      ∀ instruction ∈ spawned.flatten, instruction.Supported security after.log := by
  cases event with
  | register | login | openSocket =>
      cases effect
      exact ⟨sound, rfl, by simp [AccountInstr.Supported]⟩
  | setBanned | recordStats =>
      cases effect
      refine ⟨sound.updatePlayer ?_ _, rfl, by simp⟩
      intro row
      exact ⟨rfl, rfl, rfl, rfl⟩
  | advance seconds =>
      simp only [AccountEvent.effect] at effect
      split at effect
      · cases effect
        exact ⟨⟨sound.justified, sound.accounts, sound.kept, sound.consistent⟩, rfl, by simp⟩
      · cases effect

theorem AccountInstr.supported_unwind {instructions : List AccountInstr} :
    ∀ instruction ∈ AccountInstr.unwind instructions, instruction.Supported security log := by
  intro instruction member
  unfold AccountInstr.unwind at member
  split at member
  · cases List.mem_singleton.mp member
    trivial
  · cases member

theorem AccountsKept.step {choice : AccountChoice} {before after : AccountConfig}
    (keeps : AccountsKept security before) (permitted : PresentsIssued security choice before)
    (step : (accountServer security).step choice before = some after) :
    AccountsKept security after := by
  cases Machine.step_cases step with
  | @resumed task answer instruction rest block running current effect =>
      have executed : before.executed (.resume task answer : AccountChoice) = some instruction :=
        Config.executed_of_current current
      have supported := keeps.supported instruction
        (mem_flatten_of_getElem? current List.mem_cons_self)
      have preserves := AccountInstr.block_preserves keeps.sound supported
        (fun token player same => permitted token player (same ▸ executed)) effect
      refine ⟨preserves.sound, ?_⟩
      intro next member
      rw [Config.pending, List.flatten_append, preserves.spawned, List.flatten_nil,
        List.append_nil] at member
      rcases mem_flatten_set member with continued | old
      · unfold Machine.continuation at continued
        split at continued
        · exact AccountInstr.supported_unwind next continued
        · rcases List.mem_append.mp continued with yielded | later
          · exact preserves.supported next yielded
          · have pending := mem_flatten_of_getElem? current (List.mem_cons_of_mem _ later)
            exact (keeps.supported next pending).mono preserves.grows
      · exact (keeps.supported next old).mono preserves.grows
  | @failed task instruction rest running current fallible =>
      refine ⟨keeps.sound, ?_⟩
      intro next member
      rcases mem_flatten_set member with unwound | old
      · exact AccountInstr.supported_unwind next unwound
      · exact keeps.supported next old
  | @happened event state spawned effect =>
      obtain ⟨sound, same, started⟩ := AccountEvent.effect_preserves keeps.sound effect
      refine ⟨sound, ?_⟩
      intro next member
      rw [Config.pending, List.flatten_append] at member
      rcases List.mem_append.mp member with old | new
      · exact same ▸ keeps.supported next old
      · exact started next new

/-- Main result: in every run in which no token is forged, names are given out once,
passwords open the accounts they were registered for and no others, and tokens
connect the players they were issued to until they expire. -/
theorem accountsSound_of_presentsIssued {config : AccountConfig}
    (reached : (accountServer security).Reaches noAccounts (PresentsIssued security) config) :
    AccountsSound security config.state := by
  have keeps : AccountsKept security config := by
    refine reached.invariant ?_ fun choice before after permitted holds step =>
      holds.step permitted step
    refine ⟨⟨.nil, ?_, ?_, ?_⟩, ?_⟩
    all_goals simp [noAccounts, Config.pending, UniqueTable.Consistent, UniqueTable.rows]
  exact keeps.sound

/-- A token with the second in which it expires, in unary. -/
def writeToken : Int → List Char → List Char
  | .ofNat seconds, sub => List.replicate seconds '.' ++ '+' :: sub
  | .negSucc seconds, sub => List.replicate seconds '.' ++ '-' :: sub

def readToken : Nat → List Char → Option (Int × List Char)
  | seconds, '.' :: rest => readToken (seconds + 1) rest
  | seconds, '+' :: sub => some (.ofNat seconds, sub)
  | seconds, '-' :: sub => some (.negSucc seconds, sub)
  | _, _ => none

theorem readToken_replicate (read seconds : Nat) (rest : List Char) :
    readToken read (List.replicate seconds '.' ++ rest) = readToken (read + seconds) rest := by
  induction seconds generalizing read with
  | zero => rfl
  | succ seconds ih =>
      rw [List.replicate_succ, List.cons_append, readToken, ih]
      congr 1
      omega

theorem readToken_writeToken (expiry : Int) (sub : List Char) :
    readToken 0 (writeToken expiry sub) = some (expiry, sub) := by
  cases expiry with
  | ofNat seconds => rw [writeToken, readToken_replicate, Nat.zero_add, readToken]
  | negSucc seconds => rw [writeToken, readToken_replicate, Nat.zero_add, readToken]

/-- Tokens that anybody can read and write. -/
def plainTokens : TokenScheme where
  encode payload := String.ofList (writeToken ⌊payload.exp⌋ payload.sub.toList)
  decode now token :=
    match readToken 0 token.toList with
    | none => .error "Not enough segments"
    | some (expiry, sub) =>
        if expiry < ⌊now⌋ then .error "Signature has expired."
        else .ok (some (String.ofList sub))
  decode_encode payload now current := by
    simp only [String.toList_ofList, readToken_writeToken, String.ofList_toList]
    exact if_neg current
  decode_eq_ok payload now sub decoded := by
    simp only [String.toList_ofList, readToken_writeToken, String.ofList_toList] at decoded
    split at decoded
    · cases decoded
    · cases decoded
      exact ⟨rfl, ‹_›⟩

/-- Passwords are stored as they are. -/
def plainPasswords : PasswordContext where
  hash _ password := some password
  verify attempt password := some (decide (bcryptKey attempt = bcryptKey password))
  verify_hash := by
    rintro salt password _ ⟨⟩ attempt _ ⟨⟩
    exact decide_eq_true_iff

def plainSecurity : Security where
  passwords := plainPasswords
  tokens := plainTokens
  jwtExpiryMinutes := 1

def registerAda : PlayerRegisterRequest where
  username := "ada"
  email := "ada@example"
  password := "analytical"
  usernameLength := by decide
  usernamePattern := by decide
  emailLength := by decide
  passwordLength := by decide

/-- The token has been issued, if the choice presents one. -/
def presentsIssued (choice : AccountChoice) (config : AccountConfig) : Bool :=
  match config.executed choice with
  | some (.authenticate token) =>
      config.state.log.any fun record => record.issues.any fun entry => entry.1.accessToken == token
  | _ => true

theorem presentsIssued_sound (security : Security) (choice : AccountChoice)
    (config : AccountConfig) (checked : presentsIssued choice config = true) :
    PresentsIssued security choice config := by
  intro token player executed accepted
  simp only [presentsIssued, executed, List.any_eq_true] at checked
  obtain ⟨record, member, issues⟩ := checked
  obtain ⟨⟨response, issuedAt⟩, issuesEq, same⟩ := Option.any_eq_true _ _ |>.mp issues
  exact ⟨response.playerId, issuedAt, record, member, response, issuesEq, by simpa using same, rfl⟩

/-- Ada registers, a second registration of her name fails, she logs in and connects. -/
def adaRegisters : List AccountChoice :=
  [.event (.register registerAda), .resume 0 .done, .resume 0 (.drawn "player-1" "salt"),
    .resume 0 .done, .resume 0 .done, .event (.register registerAda), .resume 1 .done,
    .event (.login ⟨"ada", "analytical"⟩), .resume 2 .done, .resume 2 .done, .resume 2 .done,
    .resume 2 .done, .event (.openSocket (plainSecurity.createAccessToken "player-1" 0)),
    .resume 3 .done]

theorem accountsSound_of_presentsIssued_ada : ∃ config,
    (accountServer plainSecurity).Reaches noAccounts (PresentsIssued plainSecurity) config ∧
      config.state.log.length = 5 ∧ AccountsSound plainSecurity config.state := by
  have runs : ((accountServer plainSecurity).runChecked presentsIssued adaRegisters
      noAccounts).any (fun config => decide (config.state.log.length = 5)) = true := by
    decide +kernel
  obtain ⟨config, executed, length⟩ := Option.any_eq_true _ _ |>.mp runs
  have reached := Machine.reaches_of_runChecked (presentsIssued_sound plainSecurity) .start executed
  exact ⟨config, reached, of_decide_eq_true length, accountsSound_of_presentsIssued reached⟩

end TerritoryBackend

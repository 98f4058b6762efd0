import Supercodex.Accounts.Manager

/-!
# Token refreshes, account changes and logins (`login/src/auth/manager.rs`)

One process with its `AuthManager`. Refreshes, switches and rotations hold `refresh_lock` from their
first to their last statement; a removal, a login and `AuthManager::reload` do not take it. A step is
one call that reads or writes a store or the cache, so steps of tasks without the lock fall anywhere
between the statements of the task that holds it.

Stores do not fail here, and no external host supplies credentials: the ephemeral store is used only
where it is the configured one. A recorded permanent failure is a refresh that fails.
-/

namespace Supercodex.Accounts

/-- `TokenData::default`. -/
def TokenData.default : TokenData := ⟨⟨none, none, none⟩, "", "", none⟩

/-- `RefreshResponse`, with the claims of the id token. -/
structure RefreshResponse where
  idToken : Option IdTokenInfo
  accessToken : Option String
  refreshToken : Option String
deriving DecidableEq

/-- What `persist_tokens` makes of the credentials that it loads. -/
def persistTokens (auth : AuthDotJson) (response : RefreshResponse) : AuthDotJson :=
  let tokens := auth.tokens.getD .default
  { auth with
    tokens := some { tokens with
      idToken := response.idToken.getD tokens.idToken
      accessToken := response.accessToken.getD tokens.accessToken
      refreshToken := response.refreshToken.getD tokens.refreshToken } }

/-- The credentials that `persist_tokens_async` saves after a login. -/
def loginAuth (apiKey : Option String) (tokens : TokenData) : AuthDotJson :=
  ⟨some .chatgpt, apiKey, some tokens, none⟩

/-- `ReloadOutcome`. -/
inductive ReloadOutcome where
  | reloadedChanged
  | reloadedNoChange
  | skipped
deriving DecidableEq

namespace AuthManager

/-- `AuthManager::auths_equal_for_refresh`. -/
def authsEqualForRefresh : Option CodexAuth → Option CodexAuth → Bool
  | none, none => true
  | some (.apiKey a), some (.apiKey b) => a = b
  | some (.chatgpt a), some (.chatgpt b) => a = b
  | some (.chatgptAuthTokens a), some (.chatgptAuthTokens b) => a = b
  | some (.agentIdentity a), some (.agentIdentity b) => a = b
  | _, _ => false

/-- `AuthManager::reload_if_account_id_matches`. -/
def reloadIfAccountIdMatches (m : AuthManager) (expectedAccountId : Option String) :
    AuthManager × ReloadOutcome :=
  match expectedAccountId with
  | none => (m, .skipped)
  | some expected =>
    let newAuth := m.loadAuthFromStorage
    if newAuth.bind CodexAuth.getAccountId ≠ some expected then (m, .skipped)
    else
      let outcome := if authsEqualForRefresh m.cached newAuth then .reloadedNoChange
        else .reloadedChanged
      ({ m with cached := newAuth }, outcome)

/-- The credentials for which `refresh_token_from_authority_impl` sends a request. -/
def refreshRequest (m : AuthManager) : Option AuthDotJson :=
  match m.cached with
  | some (.chatgpt auth) => if auth.tokens.isSome then some auth else none
  | _ => none

/-- `AuthManager::refresh_token` up to its request. -/
def beginRefreshToken (m : AuthManager) : AuthManager × Option AuthDotJson :=
  match m.cached with
  | some (.apiKey _) => (m, none)
  | cached =>
    match m.reloadIfAccountIdMatches (cached.bind CodexAuth.getAccountId) with
    | (m, .reloadedNoChange) => (m, m.refreshRequest)
    | (m, _) => (m, none)

end AuthManager

/-- The account that a change selects: a saved one, or the next one that is not exhausted. -/
inductive Selection where
  | account (id : String)
  | next (exhaustedAccountIds : List String)
deriving DecidableEq

/-- Where the task stands that holds `refresh_lock`. -/
inductive LockHolder where
  | free
  /-- A refresh waits for the answer to its request. -/
  | refreshing (attempted : AuthDotJson)
  /-- A refresh has saved the tokens and reloads next. -/
  | persisted
  /-- A refresh has reloaded and mirrors next. -/
  | reloaded
  /-- A switch or a rotation mirrors next. -/
  | selecting (selection : Selection)
  /-- It has mirrored and replaces the stored credentials next. -/
  | mirrored (selection : Selection)
  /-- It has replaced them and reloads next. -/
  | selected
deriving DecidableEq

/-- The steps. -/
inductive Action where
  | refreshToken
  | refreshTokenFromAuthority
  | refreshReply (response : RefreshResponse)
  | refreshFailed
  | switchToSavedChatgptAccount (id : String)
  | rotateToNextSavedChatgptAccount (exhaustedAccountIds : List String)
  /-- The next statement of the task that holds the lock. -/
  | proceed
  | removeSavedChatgptAccount (id : String)
  | login (apiKey : Option String) (tokens : TokenData)
  | upsertActiveChatgptAccount (now : Nat)
  | reload
  /-- The first step of `UnauthorizedRecovery`. -/
  | reloadIfAccountIdMatches (expectedAccountId : Option String)
deriving DecidableEq

/-- The manager, the task that holds its lock, and every credentials that were obtained, the newest
first. -/
structure Process where
  manager : AuthManager
  holder : LockHolder
  obtained : List AuthDotJson

namespace Process

/-- A process without saved accounts and credentials. -/
def start (mode : AuthCredentialsStoreMode) (envApiKey : Option String) : Process where
  manager := ({ store := ⟨[], none, none⟩, cached := none, envApiKey, mode } : AuthManager).reload {}
  holder := .free
  obtained := []

/-- The stored credentials. -/
def stored (s : Process) : Option AuthDotJson := s.manager.store.loadAuth s.manager.mode

/-- The process with another store. -/
def withStore (s : Process) (store : AuthStore) : Process :=
  { s with manager := { s.manager with store := store } }

variable (lowercase : String → String)

/-- `mirror_active_auth_into_registry`. -/
def mirror (s : Process) : Process :=
  { s with manager := s.manager.mirrorActiveAuthIntoRegistry lowercase {} }

/-- `AuthManager::reload`. -/
def reloaded (s : Process) : Process := { s with manager := s.manager.reload {} }

/-- The registry's part of a switch or a rotation; the lock is released where it selects nothing. -/
def select (s : Process) : Selection → Process
  | .account id =>
    match s.manager.store.switchActiveChatgptAccount s.manager.mode id {} with
    | .ok (store, _) => { s.withStore store with holder := .selected }
    | .error _ => { s with holder := .free }
  | .next exhaustedAccountIds =>
    match s.manager.store.rotateToNextSavedChatgptAccount lowercase s.manager.mode
        exhaustedAccountIds {} with
    | .ok (store, some _) => { s.withStore store with holder := .selected }
    | .ok (store, none) => { s.withStore store with holder := .free }
    | .error _ => { s with holder := .free }

/-- The next statement of the task that holds the lock; the request of a refresh has to be answered
first. -/
def proceed (s : Process) : Option Process :=
  match s.holder with
  | .free | .refreshing _ => none
  | .persisted => some { s.reloaded with holder := .reloaded }
  | .reloaded => some { s.mirror lowercase with holder := .free }
  | .selecting selection => some { s.mirror lowercase with holder := .mirrored selection }
  | .mirrored selection => some (s.select lowercase selection)
  | .selected => some { s.reloaded with holder := .free }

/-- The lock is taken by a refresh, which goes on if it has something to request. -/
def beginRefresh (s : Process) : AuthManager × Option AuthDotJson → Process
  | (manager, some attempted) => { s with manager, holder := .refreshing attempted }
  | (manager, none) => { s with manager }

/-- One step; `none` where it cannot be taken. -/
def step (s : Process) : Action → Option Process
  | .refreshToken =>
    if s.holder = .free then some (s.beginRefresh s.manager.beginRefreshToken) else none
  | .refreshTokenFromAuthority =>
    if s.holder = .free then some (s.beginRefresh (s.manager, s.manager.refreshRequest)) else none
  | .refreshReply response =>
    match s.holder with
    | .refreshing attempted =>
      let obtained := persistTokens attempted response :: s.obtained
      match s.stored with
      | none => some { s with holder := .free, obtained }
      | some auth =>
        let store := s.manager.store.saveAuth (persistTokens auth response) s.manager.mode
        some { s.withStore store with holder := .persisted, obtained }
    | _ => none
  | .refreshFailed =>
    match s.holder with
    | .refreshing _ => some { s with holder := .free }
    | _ => none
  | .switchToSavedChatgptAccount id =>
    if s.holder = .free then some { s with holder := .selecting (.account id) } else none
  | .rotateToNextSavedChatgptAccount exhaustedAccountIds =>
    if s.holder = .free then some { s with holder := .selecting (.next exhaustedAccountIds) }
    else none
  | .proceed => s.proceed lowercase
  | .removeSavedChatgptAccount id =>
    match s.manager.store.removeSavedChatgptAccount id {} with
    | .ok (store, _) => some (s.withStore store)
    | .error _ => some s
  | .login apiKey tokens =>
    let auth := loginAuth apiKey tokens
    some { s.withStore (s.manager.store.saveAuth auth s.manager.mode) with
      obtained := auth :: s.obtained }
  | .upsertActiveChatgptAccount now =>
    match s.manager.store.upsertActiveChatgptAccount lowercase s.manager.mode now {} with
    | .ok (store, _) => some (s.withStore store)
    | .error _ => some s
  | .reload => some s.reloaded
  | .reloadIfAccountIdMatches expectedAccountId =>
    some { s with manager := (s.manager.reloadIfAccountIdMatches expectedAccountId).1 }

end Process

end Supercodex.Accounts

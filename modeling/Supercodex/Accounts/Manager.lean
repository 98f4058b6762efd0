import Supercodex.Accounts.Registry

/-!
# The credential cache (`login/src/auth/manager.rs`)

`AuthManager` caches the credentials that the session uses. A rotation mirrors the cached
credentials into the registry, overwrites the stored ones with those of the next account and
reloads the cache from the store.
-/

namespace Supercodex.Accounts

/-- `CodexAuth`: the credentials in use. -/
inductive CodexAuth where
  | apiKey (key : String)
  | chatgpt (auth : AuthDotJson)
  | chatgptAuthTokens (auth : AuthDotJson)
  | agentIdentity (record : AgentIdentityAuthRecord)
deriving DecidableEq

namespace CodexAuth

/-- `CodexAuth::from_auth_dot_json`; `none` is its error. -/
def fromAuthDotJson (auth : AuthDotJson) : Option CodexAuth :=
  match auth.resolvedMode with
  | .apiKey => auth.openaiApiKey.map .apiKey
  | .agentIdentity => auth.agentIdentity.map .agentIdentity
  | .chatgpt => some (.chatgpt auth)
  | .chatgptAuthTokens => some (.chatgptAuthTokens auth)

/-- `CodexAuth::is_chatgpt_auth`. -/
def isChatgptAuth : CodexAuth → Bool
  | .chatgpt _ | .chatgptAuthTokens _ => true
  | .apiKey _ | .agentIdentity _ => false

/-- `CodexAuth::get_current_auth_json`. -/
def getCurrentAuthJson : CodexAuth → Option AuthDotJson
  | .chatgpt auth | .chatgptAuthTokens auth => some auth
  | .apiKey _ | .agentIdentity _ => none

/-- `CodexAuth::get_account_id`: the bare workspace id, without a registry prefix. -/
def getAccountId : CodexAuth → Option String
  | .agentIdentity record => some record.accountId
  | auth => auth.getCurrentAuthJson.bind fun json => json.tokens.bind (·.accountId)

end CodexAuth

/-- The parts of `AuthManager` that a rotation reads and writes. -/
structure AuthManager where
  store : AuthStore
  cached : Option CodexAuth
  /-- The API key of the environment, when the manager was told to honour it. -/
  envApiKey : Option String
  mode : AuthCredentialsStoreMode

namespace AuthManager

/-- `load_auth_from_storage`: the environment first, then the ephemeral store, then the
configured one; an error counts as no credentials. -/
def loadAuthFromStorage (m : AuthManager) : Option CodexAuth :=
  match m.envApiKey with
  | some key => some (.apiKey key)
  | none =>
    match m.store.ephemeral with
    | some auth => CodexAuth.fromAuthDotJson auth
    | none =>
      if m.mode = .ephemeral then none
      else m.store.persistent.bind CodexAuth.fromAuthDotJson

/-- `AuthManager::reload`. -/
def reload (faults : IoFaults) (m : AuthManager) : AuthManager :=
  { m with cached := if faults.reload then none else m.loadAuthFromStorage }

variable (lowercase : String → String)

/-- `mirror_active_auth_into_registry`. -/
def mirrorActiveAuthIntoRegistry (faults : IoFaults) (m : AuthManager) : AuthManager :=
  match m.cached.bind CodexAuth.getCurrentAuthJson with
  | none => m
  | some auth =>
    if auth.resolvedMode = .apiKey then m
    else { m with store := updateSavedChatgptAccountIfExists lowercase auth faults m.store }

/-- `AuthManager::rotate_to_next_saved_chatgpt_account`. The mirrored registry stays even when
the rotation itself fails. -/
def rotateToNextSavedChatgptAccount (exhaustedAccountIds : List String) (faults : IoFaults)
    (m : AuthManager) : AuthManager × Except IoError (Option SavedChatgptAccount) :=
  if faults.lock then (m, .error .lockClosed)
  else
    let m := m.mirrorActiveAuthIntoRegistry lowercase faults
    match m.store.rotateToNextSavedChatgptAccount lowercase m.mode exhaustedAccountIds faults with
    | .error err => (m, .error err)
    | .ok (store, none) => ({ m with store := store }, .ok none)
    | .ok (store, some entry) => (({ m with store := store }).reload faults, .ok (some entry))

end AuthManager

end Supercodex.Accounts

import Mathlib.Data.List.Basic

/-!
# The saved-account registry (`login/src/auth/account_registry.rs`)

`accounts.json` keeps one row per saved ChatGPT account, `auth.json` (or the keyring) the
credentials of the active one, and a process-wide ephemeral store the credentials that an
external host supplies. All three are fields of `AuthStore`.

A read or write of a store can fail. `IoFaults` says which of the accesses of one operation
fail, so the operations below are functions of the store and of the faults they meet.
The lower-casing of e-mail addresses is the parameter `lowercase`.
-/

namespace Supercodex.Accounts

/-- `codex_app_server_protocol::AuthMode`. -/
inductive ApiAuthMode where
  | apiKey
  | chatgpt
  | chatgptAuthTokens
  | agentIdentity
deriving DecidableEq

/-- The claims of `IdTokenInfo` that identify an account. -/
structure IdTokenInfo where
  email : Option String
  chatgptUserId : Option String
  chatgptAccountId : Option String
deriving DecidableEq

/-- `token_data::TokenData`. -/
structure TokenData where
  idToken : IdTokenInfo
  accessToken : String
  refreshToken : String
  accountId : Option String
deriving DecidableEq

/-- `AgentIdentityAuthRecord`, as far as `get_account_id` reads it. -/
structure AgentIdentityAuthRecord where
  accountId : String
deriving DecidableEq

/-- The credentials payload kept in `auth.json`. -/
structure AuthDotJson where
  authMode : Option ApiAuthMode
  openaiApiKey : Option String
  tokens : Option TokenData
  agentIdentity : Option AgentIdentityAuthRecord
deriving DecidableEq

/-- `AuthDotJson::resolved_mode`. -/
def AuthDotJson.resolvedMode (auth : AuthDotJson) : ApiAuthMode :=
  match auth.authMode with
  | some mode => mode
  | none => if auth.openaiApiKey.isSome then .apiKey else .chatgpt

/-- One row of `accounts.json`. -/
structure SavedChatgptAccount where
  id : String
  label : String
  accountId : Option String
  email : Option String
  addedAt : Nat
  auth : AuthDotJson
deriving DecidableEq

/-- Where credentials are kept. -/
inductive AuthCredentialsStoreMode where
  | file
  | keyring
  | auto
  | ephemeral
deriving DecidableEq

/-- `accounts.json`, the persistent credentials and the ephemeral credentials. -/
structure AuthStore where
  accounts : List SavedChatgptAccount
  persistent : Option AuthDotJson
  ephemeral : Option AuthDotJson

/-- `load_auth_dot_json` when the backend answers. -/
def AuthStore.loadAuth (store : AuthStore) : AuthCredentialsStoreMode → Option AuthDotJson
  | .ephemeral => store.ephemeral
  | _ => store.persistent

/-- `save_auth` when the backend answers. -/
def AuthStore.saveAuth (store : AuthStore) (auth : AuthDotJson) :
    AuthCredentialsStoreMode → AuthStore
  | .ephemeral => { store with ephemeral := some auth }
  | _ => { store with persistent := some auth }

/-- Which store accesses of one rotation fail. -/
structure IoFaults where
  lock : Bool := false
  mirror : Bool := false
  loadAccounts : Bool := false
  loadAuth : Bool := false
  saveAuth : Bool := false
  reload : Bool := false
deriving DecidableEq

/-- The access that made an operation fail. -/
inductive IoError where
  | lockClosed
  | loadAccounts
  | loadAuth
  | saveAuth
deriving DecidableEq

/-- Why an operation on the registry fails. -/
inductive RegistryError where
  | apiKeyAuth
  | noStableId
  | notFound (id : String)
  | io (error : IoError)
deriving DecidableEq

/-- The text of the error, as far as the registry writes it. -/
def RegistryError.message : RegistryError → Option String
  | apiKeyAuth => some "cannot store API key auth in ChatGPT accounts registry"
  | noStableId => some "could not infer a stable account id from current auth tokens"
  | notFound id => some ("saved account not found: " ++ id)
  | io _ => none

/-- `account_metadata`: the account id and the e-mail address of the credentials. -/
def accountMetadata (auth : AuthDotJson) : Option String × Option String :=
  let accountId := (auth.tokens.bind (·.accountId)).or
    (auth.tokens.bind (·.idToken.chatgptAccountId))
  (accountId, auth.tokens.bind (·.idToken.email))

/-- `account_label`. -/
def accountLabel (auth : AuthDotJson) : String :=
  match accountMetadata auth with
  | (some accountId, some email) => email ++ " (" ++ accountId ++ ")"
  | (none, some email) => email
  | (some accountId, none) => "workspace " ++ accountId
  | (none, none) => "ChatGPT account"

section
variable (lowercase : String → String)

/-- `account_registry_id_for_auth`: the key of an account in `accounts.json`. -/
def accountRegistryIdForAuth (auth : AuthDotJson) : Option String :=
  auth.tokens.bind fun tokens =>
    match tokens.accountId.or tokens.idToken.chatgptAccountId with
    | some accountId => some ("account:" ++ accountId)
    | none =>
      match tokens.idToken.chatgptUserId with
      | some userId => some ("user:" ++ userId)
      | none => tokens.idToken.email.map fun email => "email:" ++ lowercase email

/-- The row that `update_saved_chatgpt_account_if_exists` writes over `existing`. -/
def refreshedRow (auth : AuthDotJson) (existing : SavedChatgptAccount) : SavedChatgptAccount :=
  { existing with
    label := accountLabel auth
    accountId := (accountMetadata auth).1
    email := (accountMetadata auth).2
    auth := auth }

/-- Rewrite the first row with the given id (`iter_mut().find(..)` followed by an assignment). -/
def updateFirst (id : String) (f : SavedChatgptAccount → SavedChatgptAccount) :
    List SavedChatgptAccount → List SavedChatgptAccount
  | [] => []
  | row :: rows => if row.id = id then f row :: rows else row :: updateFirst id f rows

/-- `update_saved_chatgpt_account_if_exists`; a missing row, an API key or a failing store
leaves the registry as it is. -/
def updateSavedChatgptAccountIfExists (auth : AuthDotJson) (faults : IoFaults)
    (store : AuthStore) : AuthStore :=
  if auth.resolvedMode = .apiKey then store
  else match accountRegistryIdForAuth lowercase auth with
    | none => store
    | some id =>
      if faults.mirror then store
      else { store with accounts := updateFirst id (refreshedRow auth) store.accounts }

/-- The row of new credentials. -/
def newRow (id : String) (auth : AuthDotJson) (addedAt : Nat) : SavedChatgptAccount where
  id := id
  label := accountLabel auth
  accountId := (accountMetadata auth).1
  email := (accountMetadata auth).2
  addedAt := addedAt
  auth := auth

/-- `upsert_saved_chatgpt_account` at the time `now`. An existing row keeps its place and the time
at which it was added. -/
def AuthStore.upsertSavedChatgptAccount (auth : AuthDotJson) (now : Nat) (faults : IoFaults)
    (store : AuthStore) : Except RegistryError (AuthStore × SavedChatgptAccount) :=
  if auth.resolvedMode = .apiKey then .error .apiKeyAuth
  else match accountRegistryIdForAuth lowercase auth with
    | none => .error .noStableId
    | some id =>
      if faults.loadAccounts then .error (.io .loadAccounts)
      else match store.accounts.find? (·.id = id) with
        | some existing =>
          let entry := newRow id auth existing.addedAt
          .ok ({ store with accounts := updateFirst id (fun _ => entry) store.accounts }, entry)
        | none =>
          let entry := newRow id auth now
          .ok ({ store with accounts := store.accounts ++ [entry] }, entry)

/-- `upsert_active_chatgpt_account`: the stored credentials become a row. -/
def AuthStore.upsertActiveChatgptAccount (mode : AuthCredentialsStoreMode) (now : Nat)
    (faults : IoFaults) (store : AuthStore) :
    Except RegistryError (AuthStore × Option SavedChatgptAccount) :=
  if faults.loadAuth then .error (.io .loadAuth)
  else match store.loadAuth mode with
    | none => .ok (store, none)
    | some auth =>
      if auth.resolvedMode = .apiKey then .ok (store, none)
      else (store.upsertSavedChatgptAccount lowercase auth now faults).map
        fun (store, entry) => (store, some entry)

/-- `remove_saved_chatgpt_account`. -/
def AuthStore.removeSavedChatgptAccount (id : String) (faults : IoFaults) (store : AuthStore) :
    Except IoError (AuthStore × Bool) :=
  if faults.loadAccounts then .error .loadAccounts
  else
    let accounts := store.accounts.filter (·.id ≠ id)
    if accounts.length = store.accounts.length then .ok (store, false)
    else .ok ({ store with accounts := accounts }, true)

/-- `switch_active_chatgpt_account`. -/
def AuthStore.switchActiveChatgptAccount (mode : AuthCredentialsStoreMode) (id : String)
    (faults : IoFaults) (store : AuthStore) :
    Except RegistryError (AuthStore × SavedChatgptAccount) :=
  if faults.loadAccounts then .error (.io .loadAccounts)
  else match store.accounts.find? (·.id = id) with
    | none => .error (.notFound id)
    | some entry =>
      if faults.saveAuth then .error (.io .saveAuth)
      else .ok (store.saveAuth entry.auth mode, entry)

/-- `rotate_to_next_saved_chatgpt_account` of the registry. -/
def AuthStore.rotateToNextSavedChatgptAccount (mode : AuthCredentialsStoreMode)
    (exhaustedAccountIds : List String) (faults : IoFaults) (store : AuthStore) :
    Except IoError (AuthStore × Option SavedChatgptAccount) :=
  if faults.loadAccounts then .error .loadAccounts
  else if store.accounts.isEmpty then .ok (store, none)
  else if faults.loadAuth then .error .loadAuth
  else
    let currentId := (store.loadAuth mode).bind (accountRegistryIdForAuth lowercase)
    let next := store.accounts.find? fun entry =>
      if exhaustedAccountIds.contains entry.id then false
      else match currentId with
        | some currentId => entry.id != currentId
        | none => true
    match next with
    | some entry =>
      if faults.saveAuth then .error .saveAuth
      else .ok (store.saveAuth entry.auth mode, some entry)
    | none => .ok (store, none)

end

/-! ## What an update of a row leaves alone -/

@[simp] lemma map_id_updateFirst_refreshedRow (id : String) (auth : AuthDotJson)
    (rows : List SavedChatgptAccount) :
    (updateFirst id (refreshedRow auth) rows).map (·.id) = rows.map (·.id) := by
  induction rows with
  | nil => rfl
  | cons row rows ih =>
    by_cases h : row.id = id
    · simp [updateFirst, h, refreshedRow]
    · simp [updateFirst, h, ih]

lemma mem_updateFirst {id : String} {f : SavedChatgptAccount → SavedChatgptAccount}
    {rows : List SavedChatgptAccount} {row : SavedChatgptAccount}
    (h : row ∈ updateFirst id f rows) :
    row ∈ rows ∨ ∃ old ∈ rows, old.id = id ∧ row = f old := by
  induction rows with
  | nil => simp [updateFirst] at h
  | cons old rows ih =>
    by_cases hid : old.id = id
    · rw [updateFirst, if_pos hid, List.mem_cons] at h
      rcases h with rfl | h
      · exact Or.inr ⟨old, List.mem_cons_self, hid, rfl⟩
      · exact Or.inl (List.mem_cons_of_mem _ h)
    · rw [updateFirst, if_neg hid, List.mem_cons] at h
      rcases h with rfl | h
      · exact Or.inl List.mem_cons_self
      · rcases ih h with h | ⟨o, ho, hoid, rfl⟩
        · exact Or.inl (List.mem_cons_of_mem _ h)
        · exact Or.inr ⟨o, List.mem_cons_of_mem _ ho, hoid, rfl⟩

end Supercodex.Accounts

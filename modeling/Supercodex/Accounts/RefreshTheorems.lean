import Supercodex.Accounts.Refresh
import Supercodex.Library.Runs
import Supercodex.Library.WriteBack

/-!
# Saved tokens are the newest ones

The stored credentials, the cached ones and the rows of the registry are three places that keep the
newest credentials of accounts. Every step is one of the changes that keep them, as long as it finds
no other credentials of an account where it is about to overwrite some.
-/

namespace Supercodex.Accounts

open Supercodex.Runs AuthStore Run

/-! ## Rows -/

/-- The credentials that the registry has for an id. -/
def AuthStore.savedAuth (store : AuthStore) (id : String) : Option AuthDotJson :=
  (store.accounts.find? (·.id = id)).map (·.auth)

variable {f : SavedChatgptAccount → SavedChatgptAccount}

lemma find?_updateFirst {id : String}
    (hf : ∀ row, row.id = id → (f row).id = id) (rows : List SavedChatgptAccount) (k : String) :
    (updateFirst id f rows).find? (·.id = k) =
      if k = id then (rows.find? (·.id = id)).map f else rows.find? (·.id = k) := by
  induction rows with
  | nil => simp [updateFirst]
  | cons row rows ih =>
    by_cases hrow : row.id = id
    · have hnew := hf row hrow
      by_cases hk : k = id
      · simp [updateFirst, hrow, hnew, hk]
      · simp [updateFirst, hrow, hnew, hk, Ne.symm hk]
    · rw [updateFirst, if_neg hrow, List.find?_cons, List.find?_cons, ih]
      by_cases hk : k = id
      · simp [hk, hrow]
      · simp only [if_neg hk, List.find?_cons]

variable {store : AuthStore}

lemma savedAuth_update {id : String} {auth : AuthDotJson}
    (hf : ∀ row, row.id = id → (f row).id = id) (hauth : ∀ row, (f row).auth = auth)
    (hexists : (store.savedAuth id).isSome) :
    ({ store with accounts := updateFirst id f store.accounts } : AuthStore).savedAuth =
      Function.update store.savedAuth id (some auth) := by
  funext k
  unfold savedAuth at hexists ⊢
  rw [find?_updateFirst hf]
  by_cases hk : k = id
  · subst hk
    rw [if_pos rfl, Function.update_self]
    cases hfind : store.accounts.find? (·.id = k) with
    | none => simp [hfind] at hexists
    | some row => simp [hauth]
  · rw [if_neg hk, Function.update_of_ne hk]

lemma savedAuth_update_missing {id : String} (hf : ∀ row, row.id = id → (f row).id = id)
    (hmissing : store.savedAuth id = none) :
    ({ store with accounts := updateFirst id f store.accounts } : AuthStore).savedAuth =
      store.savedAuth := by
  funext k
  unfold savedAuth at hmissing ⊢
  rw [find?_updateFirst hf]
  by_cases hk : k = id
  · subst hk
    rw [Option.map_eq_none_iff] at hmissing
    rw [if_pos rfl, hmissing]
    rfl
  · rw [if_neg hk]

lemma savedAuth_append {row : SavedChatgptAccount} (hmissing : store.savedAuth row.id = none) :
    ({ store with accounts := store.accounts ++ [row] } : AuthStore).savedAuth =
      Function.update store.savedAuth row.id (some row.auth) := by
  funext k
  unfold savedAuth at hmissing ⊢
  rw [Option.map_eq_none_iff] at hmissing
  rw [List.find?_append]
  by_cases hk : k = row.id
  · subst hk
    simp [hmissing]
  · rw [Function.update_of_ne hk]
    simp [Ne.symm hk]

lemma find?_id_of_find? {p : SavedChatgptAccount → Bool}
    (hp : ∀ row row' : SavedChatgptAccount, row.id = row'.id → p row = p row')
    {rows : List SavedChatgptAccount} {row : SavedChatgptAccount} (h : rows.find? p = some row) :
    rows.find? (·.id = row.id) = some row := by
  induction rows with
  | nil => cases h
  | cons first rows ih =>
    rw [List.find?_cons] at h ⊢
    by_cases hfirst : p first = true
    · rw [hfirst] at h
      cases h
      simp
    · rw [Bool.not_eq_true] at hfirst
      rw [hfirst] at h
      have hrow : p row = true := List.find?_some h
      have hne : first.id ≠ row.id := by
        intro heq
        rw [hp first row heq, hrow] at hfirst
        cases hfirst
      rw [decide_eq_false hne]
      exact ih h

/-- A rotation saves the credentials of one stored account, or changes nothing. -/
lemma rotateToNext_cases (lowercase : String → String) (mode : AuthCredentialsStoreMode)
    (exhaustedAccountIds : List String) (store : AuthStore) :
    store.rotateToNextSavedChatgptAccount lowercase mode exhaustedAccountIds {} = .ok (store, none) ∨
      ∃ row, store.accounts.find? (·.id = row.id) = some row ∧
        store.rotateToNextSavedChatgptAccount lowercase mode exhaustedAccountIds {} =
          .ok (store.saveAuth row.auth mode, some row) := by
  unfold rotateToNextSavedChatgptAccount
  rw [if_neg (by simp)]
  by_cases hempty : store.accounts.isEmpty = true
  · rw [if_pos hempty]
    exact .inl rfl
  rw [if_neg hempty, if_neg (by simp)]
  dsimp only
  split
  · rename_i row hfind
    -- the test of the rotation reads the id only
    exact .inr ⟨row, find?_id_of_find? (fun _ _ hid => by rw [hid]) hfind, rfl⟩
  · exact .inl rfl

lemma savedAuth_remove (store : AuthStore) (id : String) :
    ({ store with accounts := store.accounts.filter (·.id ≠ id) } : AuthStore).savedAuth =
      Function.update store.savedAuth id none := by
  funext k
  unfold savedAuth
  rw [List.find?_filter]
  by_cases hk : k = id
  · subst hk
    simp
  have hsame : (fun row : SavedChatgptAccount =>
      decide (decide (row.id ≠ id) = true ∧ decide (row.id = k) = true)) =
        fun row => decide (row.id = k) := by
    funext row
    by_cases hrow : row.id = k
    · simp [hrow, hk]
    · simp [hrow]
  rw [hsame, Function.update_of_ne hk]

namespace Process

/-! ## Three places -/

variable (lowercase : String → String)

/-- The newest credentials that were obtained for an id. -/
def newest (s : Process) (id : String) : Option AuthDotJson :=
  s.obtained.find? fun auth => accountRegistryIdForAuth lowercase auth = some id

/-- The credentials that the registry has for an id. -/
def savedAuth (s : Process) (id : String) : Option AuthDotJson := s.manager.store.savedAuth id

/-- The credentials that are kept, and where. -/
def places (s : Process) : Places String AuthDotJson where
  newest := s.newest lowercase
  active := s.stored
  cached := s.manager.cached.bind CodexAuth.getCurrentAuthJson
  saved := s.savedAuth

/-- What a step needs to find. The answer to a refresh finds the credentials it was requested for;
credentials are mirrored only if the store has no others of their account; and the stored credentials
are replaced by those of another account only if the cache and the registry have no others of
theirs. -/
def InStep (s : Process) : Action → Prop
  | .refreshReply response => ∀ attempted, s.holder = .refreshing attempted →
      s.stored = some attempted ∧
        (s.places lowercase).MayReplace (accountRegistryIdForAuth lowercase)
          (persistTokens attempted response)
  | .login apiKey tokens =>
      (s.places lowercase).MayReplace (accountRegistryIdForAuth lowercase) (loginAuth apiKey tokens)
  | .proceed =>
      match s.holder with
      | .reloaded | .selecting _ =>
        (s.places lowercase).CacheCurrent (accountRegistryIdForAuth lowercase)
      | .mirrored _ => (s.places lowercase).Settled (accountRegistryIdForAuth lowercase)
      | _ => True
  | _ => True

/-- The ephemeral store is used only where it is the configured one. -/
def Managed (s : Process) : Prop :=
  s.manager.mode = .ephemeral ∨ s.manager.store.ephemeral = none

variable {lowercase} {s s' : Process}

lemma loadAuth_saveAuth (store : AuthStore) (auth : AuthDotJson) (mode : AuthCredentialsStoreMode) :
    (store.saveAuth auth mode).loadAuth mode = some auth := by
  cases mode <;> rfl

lemma savedAuth_saveAuth (store : AuthStore) (auth : AuthDotJson)
    (mode : AuthCredentialsStoreMode) : (store.saveAuth auth mode).savedAuth = store.savedAuth := by
  cases mode <;> rfl

lemma loadAuth_withAccounts (store : AuthStore) (accounts : List SavedChatgptAccount)
    (mode : AuthCredentialsStoreMode) :
    ({ store with accounts := accounts } : AuthStore).loadAuth mode = store.loadAuth mode := by
  cases mode <;> rfl

/-- Loading gives the stored credentials, or none that belong to a saved account. -/
lemma loadAuthFromStorage_json (h : s.Managed) :
    s.manager.loadAuthFromStorage.bind CodexAuth.getCurrentAuthJson = none ∨
      s.manager.loadAuthFromStorage.bind CodexAuth.getCurrentAuthJson = s.stored := by
  have hjson (auth : Option AuthDotJson) :
      (auth.bind CodexAuth.fromAuthDotJson).bind CodexAuth.getCurrentAuthJson = none ∨
        (auth.bind CodexAuth.fromAuthDotJson).bind CodexAuth.getCurrentAuthJson = auth := by
    cases auth with
    | none => exact .inl rfl
    | some auth =>
      rw [Option.bind_some]
      unfold CodexAuth.fromAuthDotJson
      cases auth.resolvedMode with
      | apiKey =>
        left
        cases auth.openaiApiKey <;> rfl
      | agentIdentity =>
        left
        cases auth.agentIdentity <;> rfl
      | chatgpt | chatgptAuthTokens => exact .inr rfl
  unfold AuthManager.loadAuthFromStorage
  cases s.manager.envApiKey with
  | some key => exact .inl rfl
  | none =>
    cases hephemeral : s.manager.store.ephemeral with
    | some auth =>
      have hmode : s.manager.mode = .ephemeral := by
        rcases h with h | h
        · exact h
        · rw [hephemeral] at h
          cases h
      have hstored : s.stored = some auth := by
        unfold stored
        rw [hmode]
        exact hephemeral
      rw [hstored]
      exact hjson (some auth)
    | none =>
      by_cases hmode : s.manager.mode = .ephemeral
      · rw [if_pos hmode]
        exact .inl rfl
      have hstored : s.stored = s.manager.store.persistent := by
        unfold stored
        cases hm : s.manager.mode <;> first | exact absurd hm hmode | rfl
      rw [if_neg hmode, hstored]
      exact hjson _

/-! ## What one step can do -/

/-- The process changed its places in one of the ways that keep the newest credentials. -/
structure Keeps (lowercase : String → String) (s s' : Process) : Prop where
  change : (s.places lowercase).Change (accountRegistryIdForAuth lowercase) (s'.places lowercase)
  managed : s.Managed → s'.Managed

lemma keeps_of_eq (h : s'.places lowercase = s.places lowercase) (hmanaged : s.Managed → s'.Managed) :
    Keeps lowercase s s' := by
  refine ⟨?_, hmanaged⟩
  rw [h]
  exact .same

variable {auth : AuthDotJson}

lemma managed_saveAuth (h : s.Managed) :
    (s.withStore (s.manager.store.saveAuth auth s.manager.mode)).Managed := by
  unfold Managed withStore at *
  cases hmode : s.manager.mode with
  | ephemeral => exact .inl rfl
  | _ =>
    rcases h with h | h
    · rw [hmode] at h
      cases h
    · exact .inr h

lemma Keeps.withHolder {holder : LockHolder} (h : Keeps lowercase s s') :
    Keeps lowercase s { s' with holder := holder } :=
  ⟨h.change, h.managed⟩

lemma keeps_loaded {cached : Option CodexAuth}
    (h : cached.bind CodexAuth.getCurrentAuthJson = none ∨
      cached.bind CodexAuth.getCurrentAuthJson = s.stored) :
    Keeps lowercase s { s with manager := { s.manager with cached := cached } } :=
  ⟨.loaded h, fun h => h⟩

lemma keeps_reloaded (h : s.Managed) : Keeps lowercase s s.reloaded :=
  keeps_loaded (loadAuthFromStorage_json h)

lemma keeps_reloadIfAccountIdMatches (h : s.Managed) (expected : Option String) :
    Keeps lowercase s { s with manager := (s.manager.reloadIfAccountIdMatches expected).1 } := by
  cases expected with
  | none => exact keeps_of_eq rfl fun h => h
  | some expected =>
    unfold AuthManager.reloadIfAccountIdMatches
    dsimp only
    split
    · exact keeps_of_eq rfl fun h => h
    · exact keeps_loaded (loadAuthFromStorage_json h)

lemma keeps_beginRefreshToken (h : s.Managed) :
    Keeps lowercase s { s with manager := s.manager.beginRefreshToken.1 } := by
  unfold AuthManager.beginRefreshToken
  split
  · exact keeps_of_eq rfl fun h => h
  · have hreload : Keeps lowercase s _ :=
      keeps_reloadIfAccountIdMatches h (s.manager.cached.bind CodexAuth.getAccountId)
    split <;> rename_i hmatch <;> rw [hmatch] at hreload <;> exact hreload

lemma keeps_mirror (h : (s.places lowercase).CacheCurrent (accountRegistryIdForAuth lowercase)) :
    Keeps lowercase s (s.mirror lowercase) := by
  unfold mirror AuthManager.mirrorActiveAuthIntoRegistry
  split
  · exact keeps_of_eq rfl fun h => h
  rename_i auth hcached
  split
  · exact keeps_of_eq rfl fun h => h
  rename_i hmode
  unfold updateSavedChatgptAccountIfExists
  rw [if_neg hmode]
  split
  · exact keeps_of_eq rfl fun h => h
  rename_i id hid
  rw [if_neg (by simp)]
  have hrow (row : SavedChatgptAccount) (hrow : row.id = id) : (refreshedRow auth row).id = id :=
    hrow
  cases hsaved : s.manager.store.savedAuth id with
  | none =>
    refine keeps_of_eq ?_ fun h => h
    unfold places stored savedAuth newest
    rw [savedAuth_update_missing hrow hsaved, loadAuth_withAccounts]
  | some old =>
    have hexists : (s.manager.store.savedAuth id).isSome := by
      rw [hsaved]
      rfl
    have hauth (row : SavedChatgptAccount) : (refreshedRow auth row).auth = auth := rfl
    have hupdate := savedAuth_update hrow hauth hexists
    have hchange := Places.Change.mirrored (p := s.places lowercase) hcached hid h
    refine ⟨?_, fun h => h⟩
    convert hchange using 1
    unfold places stored savedAuth newest
    rw [hupdate, loadAuth_withAccounts]

/-- The stored credentials become saved ones. -/
lemma keeps_upsertActive (now : Nat) {entry : Option SavedChatgptAccount}
    (h : s.manager.store.upsertActiveChatgptAccount lowercase s.manager.mode now {} =
      .ok (store, entry)) : Keeps lowercase s (s.withStore store) := by
  unfold upsertActiveChatgptAccount at h
  rw [if_neg (by simp)] at h
  split at h
  · cases h
    exact keeps_of_eq rfl fun h => h
  rename_i auth hauth
  split at h
  · cases h
    exact keeps_of_eq rfl fun h => h
  rename_i hmode
  unfold upsertSavedChatgptAccount at h
  rw [if_neg hmode] at h
  split at h
  · cases h
  rename_i id hid
  rw [if_neg (by simp)] at h
  have hsaved {accounts : List SavedChatgptAccount}
      (haccounts : ({ s.manager.store with accounts := accounts } : AuthStore).savedAuth =
        Function.update s.manager.store.savedAuth id (some auth)) :
      Keeps lowercase s (s.withStore { s.manager.store with accounts := accounts }) := by
    have hchange := Places.Change.stored (p := s.places lowercase) hauth hid
    refine ⟨?_, fun h => h⟩
    convert hchange using 1
    unfold places stored savedAuth newest withStore
    rw [haccounts, loadAuth_withAccounts]
  split at h
  · rename_i existing hfind
    cases h
    have hrow (row : SavedChatgptAccount) (_ : row.id = id) :
        (newRow id auth existing.addedAt).id = id := rfl
    have hnew (_ : SavedChatgptAccount) : (newRow id auth existing.addedAt).auth = auth := rfl
    have hexists : (s.manager.store.savedAuth id).isSome := by
      unfold AuthStore.savedAuth
      rw [hfind]
      rfl
    exact hsaved (savedAuth_update hrow hnew hexists)
  · rename_i hfind
    cases h
    apply hsaved
    apply savedAuth_append
    unfold AuthStore.savedAuth
    rw [show (newRow id auth now).id = id from rfl, hfind]
    rfl

lemma keeps_remove (id : String) {removed : Bool}
    (h : s.manager.store.removeSavedChatgptAccount id {} = .ok (store, removed)) :
    Keeps lowercase s (s.withStore store) := by
  unfold removeSavedChatgptAccount at h
  rw [if_neg (by simp)] at h
  dsimp only at h
  split at h
  · cases h
    exact keeps_of_eq rfl fun h => h
  cases h
  have hchange : (s.places lowercase).Change (accountRegistryIdForAuth lowercase) _ := .dropped id
  refine ⟨?_, fun h => h⟩
  convert hchange using 1
  unfold places stored savedAuth newest withStore
  rw [savedAuth_remove, loadAuth_withAccounts]

lemma keeps_obtained (h : (s.places lowercase).MayReplace (accountRegistryIdForAuth lowercase) auth)
    :
    Keeps lowercase s { s.withStore (s.manager.store.saveAuth auth s.manager.mode) with
      obtained := auth :: s.obtained } := by
  have hchange := Places.Change.obtained auth h
  refine ⟨?_, managed_saveAuth⟩
  convert hchange using 1
  unfold places stored savedAuth withStore
  rw [loadAuth_saveAuth, savedAuth_saveAuth]
  congr 1
  funext id
  unfold newest Places.newestWith
  rw [List.find?_cons]
  by_cases hid : accountRegistryIdForAuth lowercase auth = some id
  · simp [hid]
  · simp [hid]

lemma keeps_saveAuth {id : String} (hsaved : s.savedAuth id = some auth)
    (h : (s.places lowercase).Settled (accountRegistryIdForAuth lowercase)) :
    Keeps lowercase s (s.withStore (s.manager.store.saveAuth auth s.manager.mode)) := by
  have hchange := Places.Change.restored hsaved h
  refine ⟨?_, managed_saveAuth⟩
  convert hchange using 1
  unfold places stored savedAuth newest withStore
  rw [loadAuth_saveAuth, savedAuth_saveAuth]

/-- A switch or a rotation selects nothing, or makes the credentials of a saved account the stored
ones. -/
lemma select_cases (lowercase : String → String) (s : Process) (selection : Selection) :
    ((s.select lowercase selection).holder = .free ∧
        (s.select lowercase selection).manager = s.manager ∧
          (s.select lowercase selection).obtained = s.obtained) ∨
      ∃ id auth, (∀ id', selection = .account id' → id = id') ∧ s.savedAuth id = some auth ∧
        s.select lowercase selection =
          { s.withStore (s.manager.store.saveAuth auth s.manager.mode) with holder := .selected } := by
  cases selection with
  | account id =>
    unfold select switchActiveChatgptAccount
    dsimp only
    rw [if_neg (by simp)]
    cases hfind : s.manager.store.accounts.find? (·.id = id) with
    | none => exact .inl ⟨rfl, rfl, rfl⟩
    | some row =>
      refine .inr ⟨id, row.auth, ?_, ?_, rfl⟩
      · rintro id' ⟨⟩
        rfl
      · unfold savedAuth AuthStore.savedAuth
        rw [hfind]
        rfl
  | next exhaustedAccountIds =>
    unfold select
    dsimp only
    rcases rotateToNext_cases lowercase s.manager.mode exhaustedAccountIds s.manager.store with
      hnone | ⟨row, hfind, hrow⟩
    · rw [hnone]
      exact .inl ⟨rfl, rfl, rfl⟩
    refine .inr ⟨row.id, row.auth, fun id' h => (by cases h), ?_, ?_⟩
    · unfold savedAuth AuthStore.savedAuth
      rw [hfind]
      rfl
    · rw [hrow]

lemma keeps_select (selection : Selection)
    (h : (s.places lowercase).Settled (accountRegistryIdForAuth lowercase)) :
    Keeps lowercase s (s.select lowercase selection) := by
  rcases select_cases lowercase s selection with ⟨-, hmanager, hobtained⟩ | ⟨id, auth, -, hsaved, heq⟩
  · apply keeps_of_eq
    · unfold places stored savedAuth newest
      rw [hmanager, hobtained]
    · unfold Managed
      rw [hmanager]
      exact id
  · rw [heq]
    exact (keeps_saveAuth hsaved h).withHolder

lemma keeps_beginRefresh (hmanaged : s.Managed) :
    Keeps lowercase s (s.beginRefresh s.manager.beginRefreshToken) := by
  have hbegin : Keeps lowercase s _ := keeps_beginRefreshToken hmanaged
  revert hbegin
  cases s.manager.beginRefreshToken with
  | mk manager request =>
    intro hbegin
    cases request with
    | none => exact hbegin
    | some attempted => exact hbegin.withHolder

lemma keeps_proceed (hmanaged : s.Managed) (hok : s.InStep lowercase .proceed)
    (h : s.proceed lowercase = some s') : Keeps lowercase s s' := by
  simp only [proceed] at h
  simp only [InStep] at hok
  cases hholder : s.holder with
  | free | refreshing attempted =>
    rw [hholder] at h
    cases h
  | persisted | selected =>
    rw [hholder] at h
    cases h
    exact (keeps_reloaded hmanaged).withHolder
  | reloaded | selecting selection =>
    rw [hholder] at h hok
    cases h
    exact (keeps_mirror hok).withHolder
  | mirrored selection =>
    rw [hholder] at h hok
    cases h
    exact keeps_select selection hok

/-- Every step keeps the newest credentials where it finds what it needs. -/
lemma keeps_of_step {action : Action} (hmanaged : s.Managed) (hok : s.InStep lowercase action)
    (h : s.step lowercase action = some s') : Keeps lowercase s s' := by
  have hsame : Keeps lowercase s s := keeps_of_eq rfl fun h => h
  cases action with
  | refreshToken =>
    simp only [step, Option.ite_none_right_eq_some, Option.some.injEq] at h
    obtain ⟨-, rfl⟩ := h
    exact keeps_beginRefresh hmanaged
  | refreshTokenFromAuthority =>
    simp only [step, Option.ite_none_right_eq_some, Option.some.injEq] at h
    obtain ⟨-, rfl⟩ := h
    cases s.manager.refreshRequest with
    | none => exact hsame
    | some attempted => exact hsame.withHolder
  | refreshReply response =>
    simp only [step] at h
    cases hholder : s.holder with
    | refreshing attempted =>
      obtain ⟨hstored, hreplace⟩ := hok attempted hholder
      rw [hholder, hstored] at h
      cases h
      exact (keeps_obtained hreplace).withHolder
    | _ =>
      rw [hholder] at h
      cases h
  | refreshFailed =>
    simp only [step] at h
    split at h
    · cases h
      exact hsame.withHolder
    · cases h
  | switchToSavedChatgptAccount id | rotateToNextSavedChatgptAccount exhaustedAccountIds =>
    simp only [step, Option.ite_none_right_eq_some, Option.some.injEq] at h
    obtain ⟨-, rfl⟩ := h
    exact hsame.withHolder
  | proceed => exact keeps_proceed hmanaged hok h
  | removeSavedChatgptAccount id =>
    simp only [step] at h
    split at h
    · cases h
      exact keeps_remove id ‹_›
    · cases h
      exact hsame
  | login apiKey tokens =>
    cases h
    exact keeps_obtained hok
  | upsertActiveChatgptAccount now =>
    simp only [step] at h
    split at h
    · cases h
      exact keeps_upsertActive now ‹_›
    · cases h
      exact hsame
  | reload =>
    cases h
    exact keeps_reloaded hmanaged
  | reloadIfAccountIdMatches expectedAccountId =>
    cases h
    exact keeps_reloadIfAccountIdMatches hmanaged expectedAccountId

/-! ## Runs -/

/-- The steps as a relation. -/
def Step (lowercase : String → String) (s : Process) (action : Action) (s' : Process) : Prop :=
  s.step lowercase action = some s'

/-- The places are fresh, and no other store is in use. -/
structure Fresh (lowercase : String → String) (s : Process) : Prop where
  places : (s.places lowercase).Fresh (accountRegistryIdForAuth lowercase)
  managed : s.Managed

lemma fresh_start (mode : AuthCredentialsStoreMode) (envApiKey : Option String) :
    (start mode envApiKey).Fresh lowercase := by
  have hcached : (start mode envApiKey).manager.cached.bind CodexAuth.getCurrentAuthJson = none := by
    cases envApiKey <;> cases mode <;> rfl
  have hstored : (start mode envApiKey).stored = none := by
    cases mode <;> rfl
  refine ⟨⟨?_, ?_, ?_, ?_⟩, .inr rfl⟩
  · intro k v hv
    cases hv
  · intro v k hv
    exact absurd (hstored.symm.trans hv) (by simp)
  · intro v k hv
    exact absurd (hcached.symm.trans hv) (by simp)
  · intro k v hv
    cases hv

lemma Fresh.step {action : Action} (h : s.Fresh lowercase) (hok : s.InStep lowercase action)
    (hstep : Step lowercase s action s') : s'.Fresh lowercase := by
  have hkeeps := keeps_of_step h.managed hok hstep
  exact ⟨h.places.change hkeeps.change, hkeeps.managed h.managed⟩

/-- What is saved for an account was saved before the step, or is the newest obtained for it. -/
def SavesNewest (lowercase : String → String) (t : Transition Process Action) : Prop :=
  ∀ id auth, t.after.savedAuth id = some auth →
    t.before.savedAuth id = some auth ∨ t.after.newest lowercase id = some auth

/-- A switch or a rotation that selects an account stores the newest credentials obtained for it. -/
def RestoresNewest (lowercase : String → String) (t : Transition Process Action) : Prop :=
  ∀ selection, t.before.holder = .mirrored selection → t.label = .proceed →
    t.after.holder = .selected →
      ∃ id auth, (∀ id', selection = .account id' → id = id') ∧ t.before.savedAuth id = some auth ∧
        t.after.stored = some auth ∧ t.after.newest lowercase id = some auth

lemma Fresh.savesNewest {t : Transition Process Action} (h : t.before.Fresh lowercase)
    (hok : t.before.InStep lowercase t.label) (hstep : Step lowercase t.before t.label t.after) :
    SavesNewest lowercase t := by
  intro id auth hsaved
  exact h.places.saved_of_change (keeps_of_step h.managed hok hstep).change hsaved

lemma Fresh.restoresNewest {t : Transition Process Action} (h : t.before.Fresh lowercase)
    (hok : t.before.InStep lowercase t.label) (hstep : Step lowercase t.before t.label t.after) :
    RestoresNewest lowercase t := by
  obtain ⟨s, action, s'⟩ := t
  intro selection hholder haction hselected
  dsimp only at *
  subst haction
  simp only [Step, Process.step, proceed, hholder, Option.some.injEq] at hstep
  have hsettled : (s.places lowercase).Settled (accountRegistryIdForAuth lowercase) := by
    simpa only [InStep, hholder] using hok
  subst hstep
  rcases select_cases lowercase s selection with
    ⟨hfree, -, -⟩ | ⟨id, auth, hid, hsaved, heq⟩
  · rw [hfree] at hselected
    cases hselected
  refine ⟨id, auth, hid, hsaved, ?_, ?_⟩
  · rw [heq]
    exact loadAuth_saveAuth _ _ _
  · rw [heq]
    exact h.places.saved_newest hsettled.2 hsaved

/-- In every run whose steps find what they need, saved credentials are only ever overwritten with the
newest ones of their account, and switching to an account restores its newest ones. -/
theorem saved_tokens_never_regress {mode : AuthCredentialsStoreMode} {envApiKey : Option String}
    {ts : List (Transition Process Action)}
    (run : Run (Step lowercase) (start mode envApiKey) ts s)
    (hok : ∀ t ∈ ts, t.before.InStep lowercase t.label) :
    ∀ t ∈ ts, SavesNewest lowercase t ∧ RestoresNewest lowercase t := by
  have hinvariant := run.invariant (InStep lowercase) hok (fresh_start mode envApiKey)
    fun _ _ _ hfresh hlabel hstep => hfresh.step hlabel hstep
  intro t ht
  obtain ⟨hfresh, hstep⟩ := hinvariant.2 t ht
  exact ⟨hfresh.savesNewest (hok t ht) hstep, hfresh.restoresNewest (hok t ht) hstep⟩

/-! ### Two runs -/

/-- Tokens of a workspace. -/
def tokens (workspace refreshToken : String) : TokenData :=
  ⟨⟨none, none, some workspace⟩, "access", refreshToken, some workspace⟩

/-- Logins to two accounts, a refresh of the second one, and a switch back to the first one. -/
theorem saved_tokens_never_regress_switch :
    ∃ ts s, Run (Step id) (start .file none) ts s ∧ s.stored = some (loginAuth none (tokens "a" "1")) ∧
      s.savedAuth "account:b" = some (loginAuth none (tokens "b" "2")) ∧
      ∀ t ∈ ts, SavesNewest id t ∧ RestoresNewest id t := by
  have hnew : RunWhere (Step id) (InStep id) (start .file none) [] (start .file none) := .nil
  have hlogin := hnew.next (.login none (tokens "a" "1"))
    (.inr ⟨fun _ _ h => (nomatch h), fun _ _ h => (nomatch h)⟩) rfl
  have hfirst := (hlogin.next (.upsertActiveChatgptAccount 0) trivial rfl).next .reload trivial rfl
  have hother := hfirst.next (.login none (tokens "b" "1"))
    (.inr (Places.settled_of_eq rfl (.inr rfl) (.inr rfl))) rfl
  have hboth := (hother.next (.upsertActiveChatgptAccount 1) trivial rfl).next .reload trivial rfl
  have hreply := (hboth.next .refreshToken trivial rfl).next (.refreshReply ⟨none, none, some "2"⟩)
    (by rintro attempted ⟨⟩; exact ⟨rfl, .inl rfl⟩) rfl
  have hrefreshed := (hreply.next .proceed trivial rfl).next .proceed (fun _ _ hcached _ _ => hcached) rfl
  have hswitch := hrefreshed.next (.switchToSavedChatgptAccount "account:a") trivial rfl
  have hrun := (hswitch.next .proceed (fun _ _ hcached _ _ => hcached) rfl).next .proceed
    (Places.settled_of_eq rfl (.inr rfl) (.inr rfl)) rfl
  exact ⟨_, _, hrun.1, rfl, rfl, saved_tokens_never_regress hrun.1 hrun.2⟩

/-- A second login to the account in use, then a switch before the manager has reloaded: the row with
the new tokens is overwritten with the cached ones. -/
theorem switch_restores_old_tokens :
    ∃ ts s, Run (Step id) (start .file none) ts s ∧ ∃ t ∈ ts, ¬SavesNewest id t := by
  have hlogin := next (nil : Run (Step id) (start .file none) _ _) (.login none
    (tokens "a" "1")) rfl
  have hreloaded := next (next hlogin (.upsertActiveChatgptAccount 0) rfl) .reload rfl
  have hagain := next (next hreloaded (.login none (tokens "a" "2")) rfl)
    (.upsertActiveChatgptAccount 1) rfl
  have hrun := next (next hagain (.switchToSavedChatgptAccount "account:a") rfl) .proceed rfl
  refine ⟨_, _, hrun, _, List.mem_append_right _ (List.mem_singleton_self _), ?_⟩
  intro h
  have hcases := h "account:a" (loginAuth none (tokens "a" "1")) rfl
  revert hcases
  decide +kernel

end Process

end Supercodex.Accounts

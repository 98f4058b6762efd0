import Supercodex.Session.Sampling

/-!
# When account rotation meets its contract

The loop remembers bare workspace ids of exhausted accounts, the registry filters on its own
prefixed ids. Unless a workspace id happens to be spelled like a registry id the filter never
fires, and all that keeps the loop from an exhausted account is that it never rotates to the
account of the stored credentials. The account in use need not be that one: another process may
have stored others since the credentials were cached. `nextId` is what remains of the search,
`bounce` what remains of the loop; `onUsageLimit_cases` and `moves_eq_bounce` connect them with the
code.
-/

namespace Supercodex.Session

open Accounts CodexAuth SamplingRun SamplingResponse AuthManager UsageLimitEvent

/-! ## The contract -/

/-- No event switches to an account in `seen`, or to one whose limit was reported before. -/
def NoRevisit (seen : List String) : List UsageLimitEvent → Prop
  | [] => True
  | e :: es =>
    (∀ next ∈ e.switchedTo, next.id ∉ e.account.toList ++ seen) ∧
      NoRevisit (e.account.toList ++ seen) es

/-- Every saved account has reported a usage limit, and there was at least one report. -/
def AllExhausted (m : AuthManager) (events : List UsageLimitEvent) : Prop :=
  events ≠ [] ∧ ∀ row ∈ m.store.accounts, ∃ e ∈ events, e.account = some row.id

/-- What one call of the loop owes its caller. -/
structure RotationContract (m : AuthManager) (run : SamplingRun) : Prop where
  noRevisit : NoRevisit [] run.events
  bounded : run.events.countP (·.switchedTo.isSome) ≤ m.store.accounts.length
  surfaced : AllExhausted m run.events → run.result = some (.error .usageLimitReached)

/-! ## Two accounts in turn -/

/-- The first id other than the stored one. -/
def nextId (ids : List String) (stored : Option String) : Option String :=
  ids.find? fun id => some id != stored

/-- The moves `(account hit, account switched to)` of `k` usage limits. After a switch the account in
use is the stored one. -/
def bounce (ids : List String) (hit stored : Option String) :
    ℕ → List (Option String × Option String)
  | 0 => []
  | k + 1 =>
    match nextId ids stored with
    | some next => (hit, some next) :: bounce ids (some next) (some next) k
    | none => [(hit, none)]

variable {ids : List String} {stored : Option String} {next : String}

lemma bounce_succ (h : nextId ids stored = some next) (hit : Option String) (k : ℕ) :
    bounce ids hit stored (k + 1) = (hit, some next) :: bounce ids (some next) (some next) k := by
  rw [bounce, h]

lemma bounce_of_nextId_eq_none (h : nextId ids stored = none) (hit : Option String) (k : ℕ) :
    bounce ids hit stored (k + 1) = [(hit, none)] := by
  rw [bounce, h]

lemma mem_of_nextId (h : nextId ids stored = some next) : next ∈ ids :=
  List.mem_of_find?_eq_some h

/-- With at most one saved account, an account that was switched to has no successor. -/
lemma nextId_of_length_le_one (h : ids.length ≤ 1)
    (hnext : next ∈ ids) : nextId ids (some next) = none := by
  match ids, h with
  | [a], _ =>
    rw [List.mem_singleton.mp hnext]
    simp [nextId]

lemma nextId_cons_cons {a b : String} (hab : a ≠ b) (ids : List String) (stored : Option String) :
    nextId (a :: b :: ids) stored = if stored = some a then some b else some a := by
  by_cases h : stored = some a
  · simp [nextId, h, hab.symm]
  · have h' : ¬ some a = stored := fun e => h e.symm
    simp [nextId, h, h']

lemma mem_of_mem_bounce {hit stored : Option String} {k : ℕ}
    {mv : Option String × Option String} (h : mv ∈ bounce ids hit stored k)
    (hnext : mv.2 = some next) : next ∈ ids := by
  induction k generalizing hit stored with
  | zero => simp [bounce] at h
  | succ k ih =>
    cases hn : nextId ids stored with
    | none =>
      rw [bounce_of_nextId_eq_none hn, List.mem_singleton] at h
      simp [h] at hnext
    | some t =>
      rw [bounce_succ hn, List.mem_cons] at h
      rcases h with rfl | h
      · rw [← Option.some.inj hnext]
        exact mem_of_nextId hn
      · exact ih h

/-- There are at most as many switches as usage limits. -/
lemma countP_bounce_le (ids : List String) (hit stored : Option String) (k : ℕ) :
    (bounce ids hit stored k).countP (·.2.isSome) ≤ k := by
  induction k generalizing hit stored with
  | zero => simp [bounce]
  | succ k ih =>
    cases hn : nextId ids stored with
    | none => simp [bounce_of_nextId_eq_none hn]
    | some t => simpa [bounce_succ hn] using ih (some t) (some t)

/-- With at most one saved account there are at most as many switches as accounts. -/
lemma countP_bounce_le_length (h : ids.length ≤ 1) (hit stored : Option String) (k : ℕ) :
    (bounce ids hit stored k).countP (·.2.isSome) ≤ ids.length := by
  cases k with
  | zero => simp [bounce]
  | succ k =>
    cases hn : nextId ids stored with
    | none => simp [bounce_of_nextId_eq_none hn]
    | some next =>
      have hmem := mem_of_nextId hn
      have hlen : 1 ≤ ids.length := List.length_pos_of_mem hmem
      rw [bounce_succ hn]
      cases k with
      | zero => simpa [bounce] using hlen
      | succ k =>
        simpa [bounce_of_nextId_eq_none (nextId_of_length_le_one h hmem)] using hlen

/-- `NoRevisit` reads an event through its two ids only. -/
def movesNoRevisit (seen : List String) : List (Option String × Option String) → Prop
  | [] => True
  | mv :: mvs =>
    (∀ next ∈ mv.2, next ∉ mv.1.toList ++ seen) ∧ movesNoRevisit (mv.1.toList ++ seen) mvs

/-- The two ids of an event. -/
def UsageLimitEvent.move (e : UsageLimitEvent) : Option String × Option String :=
  (e.account, e.switchedTo.map (·.id))

lemma noRevisit_iff_moves (seen : List String) (es : List UsageLimitEvent) :
    NoRevisit seen es ↔ movesNoRevisit seen (es.map move) := by
  induction es generalizing seen with
  | nil => rfl
  | cons e es ih =>
    simp only [NoRevisit, List.map_cons, movesNoRevisit, move, ih]
    cases e.switchedTo <;> simp

lemma movesNoRevisit_append_none (seen : List String) (mvs : List (Option String × Option String))
    (a : Option String) :
    movesNoRevisit seen (mvs ++ [(a, none)]) ↔ movesNoRevisit seen mvs := by
  induction mvs generalizing seen with
  | nil => simp [movesNoRevisit]
  | cons mv mvs ih => simp only [List.cons_append, movesNoRevisit, ih]

/-- Where no move revisits and each is a switch, the last switch is to an account that was never
hit. -/
lemma exists_unhit {seen : List String} {mvs : List (Option String × Option String)}
    (h : movesNoRevisit seen mvs) (hne : mvs ≠ []) (hsw : ∀ mv ∈ mvs, mv.2.isSome) :
    ∃ t, (∃ mv ∈ mvs, mv.2 = some t) ∧ t ∉ seen ∧ ∀ mv ∈ mvs, mv.1 ≠ some t := by
  induction mvs generalizing seen with
  | nil => exact absurd rfl hne
  | cons mv mvs ih =>
    obtain ⟨t, ht⟩ := Option.isSome_iff_exists.mp (hsw mv List.mem_cons_self)
    have hfresh : t ∉ mv.1.toList ++ seen := h.1 t ht
    simp only [List.mem_append, not_or, Option.mem_toList] at hfresh
    by_cases hmvs : mvs = []
    · subst hmvs
      exact ⟨t, ⟨mv, List.mem_cons_self, ht⟩, hfresh.2, by simpa using hfresh.1⟩
    obtain ⟨u, ⟨mv', hmv', hu⟩, hseen, hhit⟩ :=
      ih h.2 hmvs fun m hm => hsw m (List.mem_cons_of_mem _ hm)
    simp only [List.mem_append, not_or, Option.mem_toList] at hseen
    refine ⟨u, ⟨mv', List.mem_cons_of_mem _ hmv', hu⟩, hseen.2, fun m hm => ?_⟩
    rcases List.mem_cons.mp hm with rfl | hm
    · exact hseen.1
    · exact hhit m hm

/-- With at most one saved account, only the first switch can revisit. -/
lemma movesNoRevisit_bounce_of_length_le_one (h : ids.length ≤ 1)
    (hit stored : Option String) (k : ℕ) :
    movesNoRevisit [] (bounce ids hit stored (k + 1)) ↔
      ∀ next ∈ nextId ids stored, hit ≠ some next := by
  cases hn : nextId ids stored with
  | none => simp [bounce_of_nextId_eq_none hn, movesNoRevisit]
  | some next =>
    have hnone := nextId_of_length_le_one h (mem_of_nextId hn)
    rw [bounce_succ hn]
    cases k with
    | zero => simp [bounce, movesNoRevisit]
    | succ k => simp [bounce_of_nextId_eq_none hnone, movesNoRevisit]

/-- With two saved accounts or more the loop goes to and fro between the first two of them. -/
lemma movesNoRevisit_bounce_iff {a b : String} (hab : a ≠ b) (ids : List String)
    (hit stored : Option String) (k : ℕ) :
    movesNoRevisit [] (bounce (a :: b :: ids) hit stored (k + 1)) ↔
      (∀ next ∈ nextId (a :: b :: ids) stored, hit ≠ some next) ∧
        (k = 0 ∨ (k = 1 ∧ hit ≠ some a ∧ hit ≠ some b)) := by
  have hthere : nextId (a :: b :: ids) (some a) = some b := by simp [nextId_cons_cons hab]
  have hback : nextId (a :: b :: ids) (some b) = some a := by
    simp [nextId_cons_cons hab, hab.symm]
  -- the account switched to first, and the one switched to from there
  obtain ⟨t, u, hfirst, hsecond, hthird, htu, hboth⟩ : ∃ t u,
      nextId (a :: b :: ids) stored = some t ∧ nextId (a :: b :: ids) (some t) = some u ∧
      nextId (a :: b :: ids) (some u) = some t ∧ u ≠ t ∧
      ((hit ≠ some a ∧ hit ≠ some b) ↔ hit ≠ some t ∧ hit ≠ some u) := by
    by_cases h : stored = some a
    · exact ⟨b, a, by simp [nextId_cons_cons hab, h], hback, hthere, hab, and_comm⟩
    · exact ⟨a, b, by simp [nextId_cons_cons hab, h], hthere, hback, hab.symm, Iff.rfl⟩
  have hleaves : (∀ next ∈ nextId (a :: b :: ids) stored, hit ≠ some next) ↔ hit ≠ some t := by
    simp [hfirst]
  rw [hleaves, hboth, bounce_succ hfirst]
  match k with
  | 0 => simp [bounce, movesNoRevisit]
  | 1 =>
    rw [bounce_succ hsecond]
    simp [bounce, movesNoRevisit, htu]
  | k + 2 =>
    rw [bounce_succ hsecond, bounce_succ hthird]
    simp [movesNoRevisit]

/-! ## The loop's invariant -/

section
variable {lowercase : String → String} {maxRetries : ℕ}

/-- The credentials come from the configured store: no API key of the environment and no externally
supplied token is in force. The cache holds what `from_auth_dot_json` made of some credentials, not
necessarily of those that are stored now. -/
structure Managed (m : AuthManager) : Prop where
  env : m.envApiKey = none
  ephemeral : m.store.ephemeral = none
  mode : m.mode ≠ .ephemeral
  built : ∀ auth, m.cached = some auth → ∃ json, CodexAuth.fromAuthDotJson json = some auth

/-- The registry id of the account whose credentials are stored. -/
def storedAccount (lowercase : String → String) (m : AuthManager) : Option String :=
  (m.store.loadAuth m.mode).bind (accountRegistryIdForAuth lowercase)

/-- The registry as `upsert_saved_chatgpt_account` keeps it: rows have distinct ids, each the
registry id of the ChatGPT credentials in the row. -/
structure WellKept (lowercase : String → String) (rows : List SavedChatgptAccount) : Prop where
  distinct : (rows.map (·.id)).Nodup
  keyed : ∀ row ∈ rows, accountRegistryIdForAuth lowercase row.auth = some row.id
  chatgpt : ∀ row ∈ rows, (CodexAuth.fromAuthDotJson row.auth).any CodexAuth.isChatgptAuth

/-- Credentials that are in use or in a row of the registry. -/
def Held (m : AuthManager) (auth : AuthDotJson) : Prop :=
  m.cached.bind CodexAuth.getCurrentAuthJson = some auth ∨ ∃ row ∈ m.store.accounts, row.auth = auth

/-- No bare workspace id of held credentials is spelled like the registry id of a saved
account. -/
def NoClash (m : AuthManager) : Prop :=
  ∀ auth, Held m auth → ∀ raw, auth.tokens.bind (·.accountId) = some raw →
    raw ∉ m.store.accounts.map (·.id)

/-- What holds of the credential manager between two requests. -/
structure ManagerInv (lowercase : String → String) (ids : List String) (m : AuthManager) :
    Prop where
  managed : Managed m
  wellKept : WellKept lowercase m.store.accounts
  noClash : NoClash m
  ids : m.store.accounts.map (·.id) = ids

/-- ChatGPT credentials keep what they were made of. -/
lemma getCurrentAuthJson_of_isChatgptAuth {auth : AuthDotJson}
    (h : (fromAuthDotJson auth).any isChatgptAuth) :
    (fromAuthDotJson auth).bind getCurrentAuthJson = some auth ∧
      auth.resolvedMode ≠ .apiKey := by
  unfold fromAuthDotJson at *
  cases hm : auth.resolvedMode with
  | apiKey =>
    cases hk : auth.openaiApiKey <;> simp [hm, hk, isChatgptAuth] at h
  | agentIdentity =>
    cases hk : auth.agentIdentity <;> simp [hm, hk, isChatgptAuth] at h
  | chatgpt | chatgptAuthTokens => simp [getCurrentAuthJson]

lemma getAccountId_of_isChatgptAuth {auth : AuthDotJson}
    (h : (fromAuthDotJson auth).any isChatgptAuth) :
    (fromAuthDotJson auth).bind getAccountId = auth.tokens.bind (·.accountId) := by
  obtain ⟨made, hmade, hjson⟩ := Option.bind_eq_some_iff.mp (getCurrentAuthJson_of_isChatgptAuth h).1
  rw [hmade, Option.bind_some]
  cases made with
  | agentIdentity record => cases hjson
  | _ => simp only [getAccountId, hjson, Option.bind_some]

variable {m : AuthManager}

/-- ChatGPT credentials in use were made of credentials of that kind. -/
lemma Managed.exists_cached (h : Managed m) (hchat : m.cached.any isChatgptAuth) :
    ∃ json, m.cached = fromAuthDotJson json ∧
      (fromAuthDotJson json).any isChatgptAuth ∧
      m.cached.bind getCurrentAuthJson = some json := by
  obtain ⟨auth, hcached⟩ : ∃ auth, m.cached = some auth := by
    cases hc : m.cached with
    | none => simp [hc] at hchat
    | some auth => exact ⟨auth, rfl⟩
  obtain ⟨json, hjson⟩ := h.built auth hcached
  have hany : (fromAuthDotJson json).any isChatgptAuth := by
    rwa [hjson, ← hcached]
  refine ⟨json, by rw [hcached, hjson], hany, ?_⟩
  rw [hcached, ← hjson]
  exact (getCurrentAuthJson_of_isChatgptAuth hany).1

variable {ids : List String}

/-- The store after the credentials in force have been mirrored into the registry. -/
lemma mirror_store (h : ManagerInv lowercase ids m)
    (hchat : m.cached.any isChatgptAuth) (faults : IoFaults) :
    ∃ rows, m.mirrorActiveAuthIntoRegistry lowercase faults =
        { m with store := { m.store with accounts := rows } } ∧
      rows.map (·.id) = ids ∧ WellKept lowercase rows ∧
      ∀ row ∈ rows, Held m row.auth := by
  have hrows : ∀ row ∈ m.store.accounts, Held m row.auth := fun row hr => Or.inr ⟨row, hr, rfl⟩
  have hsame : ∃ rows, m = { m with store := { m.store with accounts := rows } } ∧
      rows.map (·.id) = ids ∧ WellKept lowercase rows ∧ ∀ row ∈ rows, Held m row.auth :=
    ⟨m.store.accounts, rfl, h.ids, h.wellKept, hrows⟩
  obtain ⟨auth, -, hfrom, hcur⟩ := h.managed.exists_cached hchat
  have hmode := (getCurrentAuthJson_of_isChatgptAuth hfrom).2
  simp only [mirrorActiveAuthIntoRegistry, hcur, hmode, if_false,
    updateSavedChatgptAccountIfExists]
  cases hid : accountRegistryIdForAuth lowercase auth with
  | none => exact hsame
  | some id =>
    by_cases hf : faults.mirror = true
    · simp only [if_pos hf]
      exact hsame
    refine ⟨updateFirst id (refreshedRow auth) m.store.accounts, by simp [hf], ?_, ?_, ?_⟩
    · rw [map_id_updateFirst_refreshedRow, h.ids]
    · refine ⟨?_, ?_, ?_⟩
      · rw [map_id_updateFirst_refreshedRow]
        exact h.wellKept.distinct
      · intro row hr
        rcases mem_updateFirst hr with hr | ⟨old, _, hold, rfl⟩
        · exact h.wellKept.keyed row hr
        · simpa [refreshedRow, hold] using hid
      · intro row hr
        rcases mem_updateFirst hr with hr | ⟨old, _, _, rfl⟩
        · exact h.wellKept.chatgpt row hr
        · simpa [refreshedRow] using hfrom
    · intro row hr
      rcases mem_updateFirst hr with hr | ⟨old, _, _, rfl⟩
      · exact hrows row hr
      · exact Or.inl hcur

/-- What holds of the loop between two requests: nothing it remembers is a registry id. -/
structure LoopInv (lowercase : String → String) (ids : List String) (s : SamplingState) :
    Prop where
  manager : ManagerInv lowercase ids s.auth
  exhausted : ∀ x ∈ s.exhausted, x ∉ ids

variable {rows : List SavedChatgptAccount}

lemma find?_eq_nextId {exhausted : List String}
    (hex : ∀ x ∈ exhausted, x ∉ rows.map (·.id)) (current : Option String) :
    (rows.find? fun entry =>
        if exhausted.contains entry.id then false
        else match current with
          | some currentId => entry.id != currentId
          | none => true).map (·.id) = nextId (rows.map (·.id)) current := by
  rw [nextId, List.find?_map]
  congr 1
  have hpred : ∀ row ∈ rows, (if exhausted.contains row.id then false
      else match current with
        | some currentId => row.id != currentId
        | none => true) = (some row.id != current) := by
    intro row hr
    have hmem : row.id ∉ exhausted := fun h => hex _ h (List.mem_map_of_mem hr)
    cases current with
    | none => simp [hmem]
    | some c => simp [hmem, bne]
  induction rows with
  | nil => rfl
  | cons row rows ih =>
    rw [List.find?_cons, List.find?_cons, hpred row List.mem_cons_self]
    simp only [Function.comp]
    cases some row.id != current with
    | true => rfl
    | false =>
      exact ih (fun x hx h => hex x hx (List.mem_cons_of_mem _ h))
        (fun r hr => hpred r (List.mem_cons_of_mem _ hr))

/-- The registry's rotation: an access failed, the search was fruitless, or the credentials of
the account at `nextId` are stored. -/
lemma AuthStore.rotate_cases (store : AuthStore) (mode : AuthCredentialsStoreMode)
    {exhausted : List String} {current : Option String}
    (hex : ∀ x ∈ exhausted, x ∉ store.accounts.map (·.id))
    (hcur : (store.loadAuth mode).bind (accountRegistryIdForAuth lowercase) = current)
    (faults : IoFaults) :
    (faults ≠ {} ∧ ∃ err,
      store.rotateToNextSavedChatgptAccount lowercase mode exhausted faults = .error err) ∨
    (nextId (store.accounts.map (·.id)) current = none ∧
      store.rotateToNextSavedChatgptAccount lowercase mode exhausted faults = .ok (store, none)) ∨
    ∃ next ∈ store.accounts, nextId (store.accounts.map (·.id)) current = some next.id ∧
      store.rotateToNextSavedChatgptAccount lowercase mode exhausted faults
        = .ok (store.saveAuth next.auth mode, some next) := by
  rw [← find?_eq_nextId hex current]
  unfold AuthStore.rotateToNextSavedChatgptAccount
  rw [hcur]
  by_cases hacc : faults.loadAccounts = true
  · refine Or.inl ⟨?_, .loadAccounts, by rw [if_pos hacc]⟩
    rintro rfl
    simp at hacc
  by_cases hempty : store.accounts.isEmpty = true
  · refine Or.inr (Or.inl ⟨?_, by rw [if_neg hacc, if_pos hempty]⟩)
    rw [List.isEmpty_iff.mp hempty]
    rfl
  by_cases hla : faults.loadAuth = true
  · refine Or.inl ⟨?_, .loadAuth, by rw [if_neg hacc, if_neg hempty, if_pos hla]⟩
    rintro rfl
    simp at hla
  simp only [hacc, hempty, hla, if_false, Bool.false_eq_true]
  generalize hfind : store.accounts.find? _ = found
  cases found with
  | none => exact Or.inr (Or.inl ⟨rfl, rfl⟩)
  | some next =>
    by_cases hsave : faults.saveAuth = true
    · refine Or.inl ⟨?_, .saveAuth, by simp [hsave]⟩
      rintro rfl
      simp at hsave
    · exact Or.inr (Or.inr ⟨next, List.mem_of_find?_eq_some hfind, rfl, by simp [hsave]⟩)

/-- Storing the credentials of a row keeps the invariant and makes that account the active and the
stored one. -/
lemma managerInv_of_switch (h : ManagerInv lowercase ids m) (hids : rows.map (·.id) = ids)
    (hkept : WellKept lowercase rows) (hheld : ∀ row ∈ rows, Held m row.auth)
    {next : SavedChatgptAccount} (hnext : next ∈ rows) {faults : IoFaults}
    (hreload : faults.reload = false) {store : AuthStore}
    (hstore : store = AuthStore.saveAuth { m.store with accounts := rows } next.auth m.mode)
    {m' : AuthManager} (hm' : m' = reload faults { m with store := store }) :
    ManagerInv lowercase ids m' ∧ activeAccount lowercase m' = some next.id ∧
      storedAccount lowercase m' = some next.id ∧ m'.cached.any isChatgptAuth := by
  have hsave : store = { m.store with accounts := rows, persistent := some next.auth } := by
    have hmode := h.managed.mode
    cases hm : m.mode <;> simp_all [AuthStore.saveAuth]
  have hcached : m'.cached = fromAuthDotJson next.auth := by
    simp [hm', hsave, hreload, reload, loadAuthFromStorage,
      h.managed.env, h.managed.ephemeral, h.managed.mode]
  have hchat := hkept.chatgpt next hnext
  have hheld' : ∀ auth, Held m' auth → Held m auth := by
    rintro auth (ha | ⟨row, hr, rfl⟩)
    · rw [hcached, (getCurrentAuthJson_of_isChatgptAuth hchat).1] at ha
      cases ha
      exact hheld next hnext
    · rw [hm', hsave] at hr
      exact hheld row hr
  have hids' : m'.store.accounts.map (·.id) = ids := by simpa [hm', hsave, reload]
  have hmode' : m'.mode ≠ .ephemeral := by simpa [hm', reload] using h.managed.mode
  refine ⟨⟨⟨?_, ?_, hmode', ?_⟩, ?_, ?_, hids'⟩, ?_, ?_, ?_⟩
  · simpa [hm', reload] using h.managed.env
  · simpa [hm', hsave, reload] using h.managed.ephemeral
  · intro auth hauth
    exact ⟨next.auth, hcached ▸ hauth⟩
  · simpa [hm', hsave, reload] using hkept
  · intro auth ha raw hraw
    rw [hids', ← h.ids]
    exact h.noClash auth (hheld' auth ha) raw hraw
  · rw [activeAccount, hcached, (getCurrentAuthJson_of_isChatgptAuth hchat).1, Option.bind_some,
      hkept.keyed next hnext]
  · have hstored : m'.store.loadAuth m'.mode = some next.auth := by
      have hpersistent : m'.store.persistent = some next.auth := by
        simp [hm', hsave, reload]
      cases hm : m'.mode <;> simp_all [AuthStore.loadAuth]
    rw [storedAccount, hstored, Option.bind_some, hkept.keyed next hnext]
  · rw [hcached]
    exact hchat

variable {s : SamplingState}

/-- One usage limit: the call ends with the error, or the loop moves on to `nextId`. -/
lemma onUsageLimit_cases (h : LoopInv lowercase ids s) (faults : IoFaults) :
    (onUsageLimit lowercase faults s =
        (⟨activeAccount lowercase s.auth, none⟩, .return (.error .usageLimitReached)) ∧
      (faults = {} → s.auth.cached.any isChatgptAuth →
        nextId ids (storedAccount lowercase s.auth) = none)) ∨
    ∃ next s', onUsageLimit lowercase faults s =
        (⟨activeAccount lowercase s.auth, some next⟩, .continue s') ∧
      nextId ids (storedAccount lowercase s.auth) = some next.id ∧
      (s'.auth.cached = none ∧ faults ≠ {} ∨
        LoopInv lowercase ids s' ∧ activeAccount lowercase s'.auth = some next.id ∧
          storedAccount lowercase s'.auth = some next.id ∧
          s'.auth.cached.any isChatgptAuth) := by
  by_cases hchat : s.auth.cached.any isChatgptAuth
  swap
  · exact Or.inl ⟨by simp [onUsageLimit, hchat], fun _ hc => absurd hc hchat⟩
  by_cases hlock : faults.lock = true
  · refine Or.inl ⟨by simp [onUsageLimit, hchat, rotateToNextSavedChatgptAccount,
      hlock], ?_⟩
    rintro rfl
    simp at hlock
  obtain ⟨rows, hmirror, hids, hkept, hheld⟩ := mirror_store h.manager hchat faults
  obtain ⟨auth, hcached, hfrom, hjson⟩ := h.manager.managed.exists_cached hchat
  -- the bare ids remembered after this limit are still no registry ids
  have hex : ∀ x ∈ noteExhausted s.auth s.exhausted, x ∉ ids := by
    rw [noteExhausted, hcached, getAccountId_of_isChatgptAuth hfrom]
    cases hraw : auth.tokens.bind (·.accountId) with
    | none => exact h.exhausted
    | some raw =>
      have hraw' := h.manager.noClash auth (Or.inl hjson) raw hraw
      rw [h.manager.ids] at hraw'
      intro x hx
      rcases List.mem_cons.mp hx with rfl | hx
      · exact hraw'
      · exact h.exhausted x hx
  have hcur : (AuthStore.loadAuth { s.auth.store with accounts := rows } s.auth.mode).bind
      (accountRegistryIdForAuth lowercase) = storedAccount lowercase s.auth := by
    rw [storedAccount]
    cases s.auth.mode <;> rfl
  have hrot := AuthStore.rotate_cases { s.auth.store with accounts := rows } s.auth.mode
    (by simpa [hids] using hex) hcur faults
  simp only [onUsageLimit, hchat, if_true, rotateToNextSavedChatgptAccount, hlock,
    Bool.false_eq_true, if_false, hmirror]
  rcases hrot with ⟨hfault, err, hrot⟩ | ⟨hnone, hrot⟩ | ⟨next, hnext, hsome, hrot⟩
  · exact Or.inl ⟨by rw [hrot], fun hf => absurd hf hfault⟩
  · exact Or.inl ⟨by rw [hrot], fun _ _ => by rw [← hids]; exact hnone⟩
  rw [hrot]
  refine Or.inr ⟨next, _, rfl, by rw [← hids]; exact hsome, ?_⟩
  cases hreload : faults.reload with
  | true =>
    refine Or.inl ⟨by simp [reload, hreload], ?_⟩
    rintro rfl
    simp at hreload
  | false =>
    obtain ⟨hinv, hact, hsto, hchat'⟩ :=
      managerInv_of_switch h.manager hids hkept hheld hnext hreload rfl rfl
    exact Or.inr ⟨⟨hinv, hex⟩, hact, hsto, hchat'⟩

/-- Any other response ends the call or leaves the accounts alone. -/
lemma onResponse_quiet {r : SamplingResponse} (hr : ¬r.isUsageLimit) (s : SamplingState) :
    (∃ result, onResponse lowercase maxRetries s r = ([], .return result)) ∨
      ∃ s', onResponse lowercase maxRetries s r = ([], .continue s') ∧ s'.auth = s.auth ∧
        s'.exhausted = s.exhausted := by
  match r with
  | .ok => exact .inl ⟨_, rfl⟩
  | .err .contextWindowExceeded _ => exact .inl ⟨_, rfl⟩
  | .err .usageLimitReached _ => exact absurd rfl hr
  | .err (.other retryable) _ =>
    simp only [onResponse, onError]
    split_ifs
    · exact .inl ⟨_, rfl⟩
    · exact .inr ⟨_, rfl, rfl, rfl⟩
    · exact .inr ⟨_, rfl, rfl, rfl⟩
    · exact .inl ⟨_, rfl⟩

/-- A call that asked for all the responses: the last one ended it, others are retried, and a usage limit ends
the call or is answered by a switch. -/
inductive Call (lowercase : String → String) : SamplingState → List SamplingResponse → SamplingRun → Prop where
  | nil (s : SamplingState) : Call lowercase s [] ⟨[], none⟩
  | stop {s : SamplingState} {r : SamplingResponse} (result : Except CodexErr Unit) (hr : ¬r.isUsageLimit) :
    Call lowercase s [r] ⟨[], some result⟩
  | retry {s s' : SamplingState} {r : SamplingResponse} {rs : List SamplingResponse} {run : SamplingRun}
    (hr : ¬r.isUsageLimit) (auth : s'.auth = s.auth) (exhausted : s'.exhausted = s.exhausted)
    (rest : Call lowercase s' rs run) : Call lowercase s (r :: rs) run
  | limit {s : SamplingState} {faults : IoFaults} {event : UsageLimitEvent} {result : Except CodexErr Unit}
    (limit : onUsageLimit lowercase faults s = (event, .return result)) :
    Call lowercase s [.err .usageLimitReached faults] ⟨[event], some result⟩
  | switch {s s' : SamplingState} {faults : IoFaults} {event : UsageLimitEvent} {rs : List SamplingResponse}
    {run : SamplingRun} (limit : onUsageLimit lowercase faults s = (event, .continue s'))
    (rest : Call lowercase s' rs run) :
    Call lowercase s (.err .usageLimitReached faults :: rs) ⟨event :: run.events, run.result⟩

lemma call_of_received (s : SamplingState) (rs : List SamplingResponse)
    (hrec : Received lowercase maxRetries s rs) :
    Call lowercase s rs (runSamplingRequest lowercase maxRetries s rs) := by
  induction rs generalizing s with
  | nil => exact .nil s
  | cons r rs ih =>
    rw [Received] at hrec
    rw [runSamplingRequest]
    by_cases hr : r.isUsageLimit
    · match r with
      | .err .usageLimitReached faults =>
        simp only [onResponse] at hrec ⊢
        cases hlim : onUsageLimit lowercase faults s with
        | mk event control =>
          rw [hlim] at hrec
          cases control with
          | «return» result =>
            subst hrec
            exact .limit hlim
          | «continue» s' => exact .switch hlim (ih s' hrec)
    · rcases onResponse_quiet hr s with ⟨result, hresponse⟩ | ⟨s', hresponse, hauth, hexhausted⟩
      · rw [hresponse] at hrec ⊢
        subst hrec
        exact .stop result hr
      · rw [hresponse] at hrec ⊢
        exact .retry hr hauth hexhausted (ih s' hrec)

/-- The moves of a run. -/
def SamplingRun.moves (run : SamplingRun) : List (Option String × Option String) :=
  run.events.map UsageLimitEvent.move

/-- What a stretch of responses adds to the moves: some bouncing, then at most one usage limit
after which nothing was switched. Unless the call returned the usage-limit error every usage
limit was answered by a switch. -/
structure RunShape (ids : List String) (hit stored : Option String) (k : ℕ) (run : SamplingRun) :
    Prop where
  moves : ∃ j tail, run.moves = bounce ids hit stored j ++ tail ∧ j + tail.length ≤ k ∧
    tail.length ≤ 1 ∧ ∀ mv ∈ tail, mv.2 = none
  switched : run.result ≠ some (.error .usageLimitReached) → ∀ mv ∈ run.moves, mv.2.isSome

lemma runShape_nil (ids : List String) (hit stored : Option String) (k : ℕ)
    (result : Option (Except CodexErr Unit)) : RunShape ids hit stored k ⟨[], result⟩ where
  moves := ⟨0, [], by simp [moves, bounce]⟩
  switched := by simp [moves]

/-- No store access of the rotation after this response fails. -/
def SamplingResponse.FaultFree : SamplingResponse → Prop
  | .ok => True
  | .err _ faults => faults = {}

section

variable {rs : List SamplingResponse} {run : SamplingRun} (hcall : Call lowercase s rs run)
include hcall

lemma runShape_of_uncached (h : s.auth.cached = none) :
    run.moves.length ≤ rs.countP (·.isUsageLimit) ∧ run.moves.length ≤ 1 ∧
      (∀ mv ∈ run.moves, mv.2 = none) ∧ (run.result ≠ some (.error .usageLimitReached) → run.moves = []) := by
  induction hcall with
  | nil | stop => simp [moves]
  | retry hr auth _ _ ih => simpa [List.countP_cons, hr] using ih (auth ▸ h)
  | limit hlim =>
    simp only [onUsageLimit, h, Option.any_none, Bool.false_eq_true, if_false, Prod.mk.injEq,
      Control.return.injEq] at hlim
    obtain ⟨rfl, rfl⟩ := hlim
    simp [moves, move, isUsageLimit]
  | switch hlim => simp [onUsageLimit, h] at hlim

/-- Every run of the loop bounces. -/
lemma runShape_run (h : LoopInv lowercase ids s) : RunShape ids (activeAccount lowercase s.auth)
    (storedAccount lowercase s.auth) (rs.countP (·.isUsageLimit)) run := by
  induction hcall with
  | nil | stop => exact runShape_nil _ _ _ _ _
  | retry hr auth exhausted _ ih =>
    rw [List.countP_cons_of_neg hr, ← auth]
    exact ih ⟨auth ▸ h.manager, exhausted ▸ h.exhausted⟩
  | @limit s _ _ _ hlim =>
    rcases onUsageLimit_cases h _ with ⟨hcase, -⟩ | ⟨next, s', hcase, -⟩ <;> rw [hlim] at hcase <;> cases hcase
    exact ⟨⟨0, [(activeAccount lowercase s.auth, none)], by simp [moves, bounce, move, isUsageLimit]⟩, by simp⟩
  | @switch s s' faults event rs run hlim hrest ih =>
    rw [List.countP_cons_of_pos rfl]
    rcases onUsageLimit_cases h _ with ⟨hcase, -⟩ | ⟨next, s', hcase, hnext, hs'⟩ <;> rw [hlim] at hcase <;>
      cases hcase
    have hbounce := bounce_succ hnext (activeAccount lowercase s.auth)
    rcases hs' with ⟨hnone, -⟩ | ⟨hinv, hact, hsto, -⟩
    · obtain ⟨hlen, hone, hno, hres⟩ := runShape_of_uncached hrest hnone
      refine ⟨⟨1, run.moves, ?_, by omega, hone, hno⟩, ?_⟩
      · rw [hbounce]
        rfl
      · intro hr
        simp [moves, move, List.map_eq_nil_iff.mp (hres hr)]
    · obtain ⟨⟨j, tail, hj, hlen, hone, hno⟩, hsw⟩ := ih hinv
      rw [hact, hsto] at hj
      refine ⟨⟨j + 1, tail, ?_, by omega, hone, hno⟩, ?_⟩
      · rw [hbounce, List.cons_append, ← hj]
        rfl
      · intro hr mv hmv
        rcases List.mem_cons.mp hmv with rfl | hmv
        · rfl
        · exact hsw hr mv hmv

/-- As long as the stores answer, the loop bounces once per usage limit. -/
lemma moves_eq_bounce (h : LoopInv lowercase ids s) (hchat : s.auth.cached.any isChatgptAuth)
    (hf : ∀ r ∈ rs, r.FaultFree) : run.moves = bounce ids (activeAccount lowercase s.auth)
      (storedAccount lowercase s.auth) (rs.countP (·.isUsageLimit)) := by
  induction hcall with
  | nil => rfl
  | stop result hr => rw [List.countP_cons_of_neg hr]; rfl
  | retry hr auth exhausted _ ih =>
    rw [List.countP_cons_of_neg hr, ← auth]
    exact ih ⟨auth ▸ h.manager, exhausted ▸ h.exhausted⟩ (auth ▸ hchat) fun r hr => hf r (List.mem_cons_of_mem _ hr)
  | limit hlim =>
    rcases onUsageLimit_cases h _ with ⟨hcase, hstuck⟩ | ⟨next, s', hcase, -⟩ <;> rw [hlim] at hcase <;> cases hcase
    simp [moves, move, isUsageLimit, bounce, hstuck (hf _ List.mem_cons_self) hchat]
  | switch hlim _ ih =>
    rw [List.countP_cons_of_pos rfl]
    rcases onUsageLimit_cases h _ with ⟨hcase, -⟩ | ⟨next, s', hcase, hnext, hs'⟩ <;> rw [hlim] at hcase <;>
      cases hcase
    obtain ⟨hinv, hact, hsto, hchat'⟩ := hs'.resolve_left fun hbad => hbad.2 (hf _ List.mem_cons_self)
    have hrest := ih hinv hchat' fun r hr => hf r (List.mem_cons_of_mem _ hr)
    rw [hact, hsto] at hrest
    rw [bounce_succ hnext, ← hrest]
    rfl

lemma countP_le_one_of_not_chatgpt (h : ¬ s.auth.cached.any isChatgptAuth) :
    rs.countP (·.isUsageLimit) ≤ 1 := by
  induction hcall with
  | nil => simp
  | stop result hr => simp [hr]
  | retry hr auth _ _ ih =>
    rw [List.countP_cons_of_neg hr]
    exact ih (auth ▸ h)
  | limit => simp [isUsageLimit]
  | switch hlim => simp [onUsageLimit, h] at hlim

end

/-! ## The contract, exactly -/

/-- The first saved account other than the stored one is not the account in use. -/
def LeavesActive (lowercase : String → String) (m : AuthManager) : Prop :=
  ∀ row, m.store.accounts.find? (fun row => some row.id != storedAccount lowercase m) = some row →
    activeAccount lowercase m ≠ some row.id

/-- No usage limit; or the first switch would leave the account in use, and there is at most one saved
account, at most one usage limit, or there are two of them and the account in use at the start is
neither of the first two saved accounts. -/
def RotationCondition (lowercase : String → String) (m : AuthManager)
    (rs : List SamplingResponse) : Prop :=
  rs.countP (·.isUsageLimit) = 0 ∨
    (LeavesActive lowercase m ∧
      (m.store.accounts.length ≤ 1 ∨ rs.countP (·.isUsageLimit) = 1 ∨
        (rs.countP (·.isUsageLimit) = 2 ∧
          ∀ row ∈ m.store.accounts.take 2, activeAccount lowercase m ≠ some row.id)))

lemma leavesActive_iff (m : AuthManager) :
    LeavesActive lowercase m ↔
      ∀ next ∈ nextId (m.store.accounts.map (·.id)) (storedAccount lowercase m),
        activeAccount lowercase m ≠ some next := by
  have hfind : nextId (m.store.accounts.map (·.id)) (storedAccount lowercase m) =
      (m.store.accounts.find? fun row => some row.id != storedAccount lowercase m).map (·.id) := by
    rw [nextId, List.find?_map]
    rfl
  rw [hfind]
  constructor
  · intro h next hnext
    obtain ⟨row, hrow, rfl⟩ := Option.map_eq_some_iff.mp hnext
    exact h row hrow
  · intro h row hrow
    exact h row.id (Option.map_eq_some_iff.mpr ⟨row, hrow, rfl⟩)

lemma rotationContract_of_noRevisit {run : SamplingRun} {k : ℕ} {hit stored : Option String}
    (hshape : RunShape (m.store.accounts.map (·.id)) hit stored k run)
    (hbound : run.moves.countP (·.2.isSome) ≤ m.store.accounts.length)
    (hno : movesNoRevisit [] run.moves) : RotationContract m run := by
  refine ⟨(noRevisit_iff_moves _ _).mpr hno, ?_, ?_⟩
  · refine Nat.le_trans (Nat.le_of_eq ?_) hbound
    rw [moves, List.countP_map]
    congr 1
    funext e
    simp [move]
  · rintro ⟨hne, hall⟩
    by_contra hres
    have hsw := hshape.switched hres
    obtain ⟨t, ⟨mv, hmv, ht⟩, -, hhit⟩ :=
      exists_unhit hno (by simpa [moves] using hne) hsw
    obtain ⟨j, tail, hj, -, -, htail⟩ := hshape.moves
    have hsaved : t ∈ m.store.accounts.map (·.id) := by
      rw [hj, List.mem_append] at hmv
      rcases hmv with hmv | hmv
      · exact mem_of_mem_bounce hmv ht
      · simp [htail mv hmv] at ht
    obtain ⟨row, hrow, rfl⟩ := List.mem_map.mp hsaved
    obtain ⟨e, he, hacc⟩ := hall row hrow
    exact hhit e.move (List.mem_map_of_mem he) hacc

lemma WellKept.exists_two_rows (h : WellKept lowercase rows) (hn : ¬ rows.length ≤ 1) :
    ∃ a b rest, rows = a :: b :: rest ∧ a.id ≠ b.id := by
  match rows, h, hn with
  | [], _, hn => simp at hn
  | [a], _, hn => simp at hn
  | a :: b :: rest, h, _ =>
    have hd := h.distinct
    simp only [List.map_cons, List.nodup_cons, List.mem_cons, not_or] at hd
    exact ⟨a, b, rest, rfl, hd.1.1⟩

/-- The condition says exactly that the bouncing of all usage limits revisits nothing. -/
lemma movesNoRevisit_bounce_iff_condition {rs : List SamplingResponse}
    (hkept : WellKept lowercase m.store.accounts) :
    movesNoRevisit [] (bounce (m.store.accounts.map (·.id)) (activeAccount lowercase m)
        (storedAccount lowercase m) (rs.countP (·.isUsageLimit))) ↔
      RotationCondition lowercase m rs := by
  rw [RotationCondition, leavesActive_iff]
  generalize rs.countP (·.isUsageLimit) = k
  cases k with
  | zero => simp [bounce, movesNoRevisit]
  | succ k =>
    have hpos : k + 1 ≠ 0 := Nat.succ_ne_zero k
    by_cases hn : m.store.accounts.length ≤ 1
    · rw [movesNoRevisit_bounce_of_length_le_one (by simpa using hn)]
      simp only [hpos, hn, false_or, true_or, and_true]
    obtain ⟨a, b, rest, hrows, hab⟩ := hkept.exists_two_rows hn
    simp only [hpos, hn, false_or]
    rw [hrows, List.map_cons, List.map_cons, movesNoRevisit_bounce_iff hab]
    have htake : (∀ row ∈ (a :: b :: rest).take 2, activeAccount lowercase m ≠ some row.id) ↔
        activeAccount lowercase m ≠ some a.id ∧ activeAccount lowercase m ≠ some b.id := by
      simp
    have hone : k = 0 ↔ k + 1 = 1 := by omega
    have htwo : k = 1 ↔ k + 1 = 2 := by omega
    rw [htake, hone, htwo]

/-- Fewer usage limits revisit no more. -/
lemma movesNoRevisit_bounce_of_le {ids seen : List String} {hit stored : Option String} {j k : ℕ}
    (hjk : j ≤ k) (h : movesNoRevisit seen (bounce ids hit stored k)) :
    movesNoRevisit seen (bounce ids hit stored j) := by
  induction j generalizing seen hit stored k with
  | zero => trivial
  | succ j ih =>
    obtain ⟨k, rfl⟩ : ∃ k', k = k' + 1 := ⟨k - 1, by omega⟩
    cases hn : nextId ids stored with
    | none => simp [bounce_of_nextId_eq_none hn, movesNoRevisit]
    | some next =>
      rw [bounce_succ hn] at h ⊢
      exact ⟨h.1, ih (by omega) h.2⟩

lemma countP_bounce_le_of_condition {rs : List SamplingResponse}
    (hcond : RotationCondition lowercase m rs) {j : ℕ} (hj : j ≤ rs.countP (·.isUsageLimit)) :
    (bounce (m.store.accounts.map (·.id)) (activeAccount lowercase m) (storedAccount lowercase m)
      j).countP (·.2.isSome) ≤ m.store.accounts.length := by
  by_cases hn : m.store.accounts.length ≤ 1
  · have hids : (m.store.accounts.map (·.id)).length ≤ 1 := by simpa using hn
    simpa using countP_bounce_le_length hids (activeAccount lowercase m) (storedAccount lowercase m) j
  have hle := countP_bounce_le (m.store.accounts.map (·.id)) (activeAccount lowercase m)
    (storedAccount lowercase m) j
  rcases hcond with h | ⟨-, h | h | h⟩
  · omega
  · exact absurd h hn
  · omega
  · omega

lemma activeAccount_of_not_chatgpt (h : ¬ m.cached.any isChatgptAuth)
    : activeAccount lowercase m = none := by
  unfold activeAccount
  cases hc : m.cached with
  | none => rfl
  | some auth =>
    rw [hc] at h
    cases auth <;> simp_all [isChatgptAuth, getCurrentAuthJson]

end

/-! ## Saved accounts -/

/-- ChatGPT credentials of a workspace. -/
def workspaceAuth (workspace : String) : AuthDotJson :=
  { authMode := some .chatgpt, openaiApiKey := none, agentIdentity := none
    tokens := some
      { idToken := ⟨some "me@example.com", some "user", some workspace⟩
        accessToken := "access", refreshToken := "refresh", accountId := some workspace } }

/-- The row that saves those credentials. -/
def workspaceRow (workspace : String) : SavedChatgptAccount :=
  { id := "account:" ++ workspace, label := accountLabel (workspaceAuth workspace)
    accountId := some workspace, email := some "me@example.com", addedAt := 0
    auth := workspaceAuth workspace }

/-- Saved accounts of some workspaces, with the credentials of one of them stored and those of another
in use. -/
def savedAccounts (workspaces : List String) (stored active : String) : AuthManager :=
  { store := ⟨workspaces.map workspaceRow, some (workspaceAuth stored), none⟩
    cached := some (.chatgpt (workspaceAuth active)), envApiKey := none, mode := .file }

lemma managed_savedAccounts (workspaces : List String) (stored active : String) :
    Managed (savedAccounts workspaces stored active) where
  env := rfl
  ephemeral := rfl
  mode := AuthCredentialsStoreMode.noConfusion
  built := by
    intro auth hauth
    exact ⟨workspaceAuth active, hauth⟩

/-- Two saved accounts, the first of them stored and in use. -/
def twoAccounts : AuthManager := savedAccounts ["one", "two"] "one" "one"

lemma wellKept_twoAccounts : WellKept id twoAccounts.store.accounts :=
  ⟨by decide, by decide, by decide⟩

/-- A usage limit after which every store answers. -/
def plainLimit : SamplingResponse := .err .usageLimitReached {}

/-- Three saved accounts; the third is in use, and another process has stored the first since. -/
def staleAccounts : AuthManager := savedAccounts ["one", "two", "three"] "one" "three"

end Supercodex.Session

import Supercodex.Accounts.Registry
import Mathlib.Data.List.Induction
import Mathlib.Data.List.Nodup

/-!
# The saved-account registry: what every sequence of operations keeps

Rows are keyed by the id that their credentials give, keep their order and the time at which they
were added, and a removed row comes back by an upsert only.
-/

namespace Supercodex.Accounts

open AuthStore

/-- The operations on the registry and on the stored credentials. -/
inductive RegistryOp where
  | upsert (auth : AuthDotJson) (now : Nat) (faults : IoFaults)
  | upsertActive (mode : AuthCredentialsStoreMode) (now : Nat) (faults : IoFaults)
  | updateIfExists (auth : AuthDotJson) (faults : IoFaults)
  | remove (id : String) (faults : IoFaults)
  | switch (mode : AuthCredentialsStoreMode) (id : String) (faults : IoFaults)
  | rotate (mode : AuthCredentialsStoreMode) (exhaustedAccountIds : List String) (faults : IoFaults)
  -- a login, or a token refresh, writes the active credentials and nothing else
  | saveAuth (auth : AuthDotJson) (mode : AuthCredentialsStoreMode)

/-- The registry without rows. -/
def AuthStore.empty (persistent ephemeral : Option AuthDotJson) : AuthStore :=
  ⟨[], persistent, ephemeral⟩

/-- The ids of the rows. -/
def AuthStore.ids (store : AuthStore) : List String := store.accounts.map (·.id)

/-- The ids of the rows with the times at which they were added. -/
def AuthStore.stamps (store : AuthStore) : List (String × Nat) :=
  store.accounts.map fun row => (row.id, row.addedAt)

variable (lowercase : String → String)

/-- The store after an operation. A failing operation leaves it as it was. -/
def RegistryOp.apply (op : RegistryOp) (store : AuthStore) : AuthStore :=
  match op with
  | upsert auth now faults =>
    (store.upsertSavedChatgptAccount lowercase auth now faults).toOption.elim store (·.1)
  | upsertActive mode now faults =>
    (store.upsertActiveChatgptAccount lowercase mode now faults).toOption.elim store (·.1)
  | updateIfExists auth faults => updateSavedChatgptAccountIfExists lowercase auth faults store
  | remove id faults => (store.removeSavedChatgptAccount id faults).toOption.elim store (·.1)
  | switch mode id faults =>
    (store.switchActiveChatgptAccount mode id faults).toOption.elim store (·.1)
  | rotate mode exhausted faults =>
    (store.rotateToNextSavedChatgptAccount lowercase mode exhausted faults).toOption.elim store (·.1)
  | saveAuth auth mode => store.saveAuth auth mode

/-- The store after a sequence of operations. -/
def runOps (ops : List RegistryOp) (store : AuthStore) : AuthStore :=
  ops.foldl (fun store op => op.apply lowercase store) store

/-- Does the operation upsert the account with this id? -/
def RegistryOp.Upserts (op : RegistryOp) (store : AuthStore) (id : String) : Prop :=
  match op with
  | upsert auth _ _ => accountRegistryIdForAuth lowercase auth = some id
  | upsertActive mode _ _ =>
    ∃ auth, store.loadAuth mode = some auth ∧ accountRegistryIdForAuth lowercase auth = some id
  | _ => False

/-- Does the operation remove the account with this id? -/
def RegistryOp.removes (op : RegistryOp) (id : String) : Bool :=
  match op with
  | remove id' _ => id' = id
  | _ => false

/-- Is the account with this id removed by one of the operations? -/
def removedBy (ops : List RegistryOp) (id : String) : Bool := ops.any (·.removes id)

/-- Every row is keyed by its credentials, and no two rows have the same key. -/
structure WellKeyed (store : AuthStore) : Prop where
  nodup : store.ids.Nodup
  keyed : ∀ row ∈ store.accounts, accountRegistryIdForAuth lowercase row.auth = some row.id

/-! ## What one operation can do -/

/-- The rows after an operation: the same, one row rewritten in place, one row appended, or the
rows with an id removed. -/
inductive RowsChange (op : RegistryOp) (store : AuthStore) :
    List SavedChatgptAccount → Prop where
  | same : RowsChange op store store.accounts
  | rewrite {id : String} {f : SavedChatgptAccount → SavedChatgptAccount}
      (hid : ∀ row, row.id = id → (f row).id = id)
      (hadded : ∀ row ∈ store.accounts, row.id = id → (f row).addedAt = row.addedAt)
      (hkeyed : ∀ row, row.id = id →
        accountRegistryIdForAuth lowercase (f row).auth = some id) :
      RowsChange op store (updateFirst id f store.accounts)
  | append {row : SavedChatgptAccount} (hfresh : row.id ∉ store.ids)
      (hkeyed : accountRegistryIdForAuth lowercase row.auth = some row.id)
      (hop : op.Upserts lowercase store row.id) :
      RowsChange op store (store.accounts ++ [row])
  | drop {id : String} (hop : op.removes id = true) :
      RowsChange op store (store.accounts.filter (·.id ≠ id))

variable {lowercase} {op : RegistryOp} {store : AuthStore} {rows : List SavedChatgptAccount}

lemma rowsChange_of_eq (h : rows = store.accounts) :
    RowsChange lowercase op store rows :=
  h ▸ .same

lemma saveAuth_accounts (auth : AuthDotJson) (mode : AuthCredentialsStoreMode) :
    (store.saveAuth auth mode).accounts = store.accounts := by
  cases mode <;> rfl

variable {id : String}

lemma not_mem_ids_of_find? (h : store.accounts.find? (·.id = id) = none) :
    id ∉ store.ids := by
  intro hmem
  obtain ⟨row, hrow, rfl⟩ := List.mem_map.mp hmem
  exact absurd (List.find?_eq_none.mp h row hrow) (by simp)

/-- In a registry without duplicate ids the row that `find` returns is the only one with its id. -/
lemma eq_of_find? {existing row : SavedChatgptAccount} (hnodup : store.ids.Nodup)
    (h : store.accounts.find? (·.id = id) = some existing) (hrow : row ∈ store.accounts)
    (hid : row.id = id) : row = existing := by
  have hexisting : existing.id = id := by simpa using List.find?_some h
  exact List.inj_on_of_nodup_map hnodup hrow (List.mem_of_find?_eq_some h)
    (hid.trans hexisting.symm)

/-- `upsert_saved_chatgpt_account` rewrites the row of the account, or appends it. -/
lemma rowsChange_upsert {auth : AuthDotJson} {now : Nat} {faults : IoFaults} {store' : AuthStore}
    {entry : SavedChatgptAccount} (hnodup : store.ids.Nodup)
    (hop : ∀ id, accountRegistryIdForAuth lowercase auth = some id →
      op.Upserts lowercase store id)
    (h : store.upsertSavedChatgptAccount lowercase auth now faults = .ok (store', entry)) :
    RowsChange lowercase op store store'.accounts := by
  unfold upsertSavedChatgptAccount at h
  split at h
  · cases h
  split at h
  · cases h
  rename_i id hid
  split at h
  · cases h
  split at h
  · rename_i existing hfind
    cases h
    refine .rewrite (fun _ _ => rfl) (fun row hrow hrowId => ?_) (fun _ _ => hid)
    show existing.addedAt = row.addedAt
    rw [eq_of_find? hnodup hfind hrow hrowId]
  · rename_i hfind
    cases h
    have hfresh : (newRow id auth now).id ∉ store.ids := not_mem_ids_of_find? hfind
    exact .append hfresh hid (hop id hid)

/-- Every operation on a registry without duplicate ids makes one of the changes. -/
lemma rowsChange_apply (hnodup : store.ids.Nodup) :
    RowsChange lowercase op store (op.apply lowercase store).accounts := by
  cases op with
  | upsert auth now faults =>
    show RowsChange _ _ _ (accounts (Option.elim _ _ _))
    cases h : store.upsertSavedChatgptAccount lowercase auth now faults with
    | error e => exact .same
    | ok result => exact rowsChange_upsert hnodup (fun _ hid => hid) h
  | upsertActive mode now faults =>
    show RowsChange _ _ _ (accounts (Option.elim _ _ _))
    unfold upsertActiveChatgptAccount
    split
    · exact .same
    split
    · exact .same
    rename_i auth hauth
    split
    · exact .same
    cases h : store.upsertSavedChatgptAccount lowercase auth now faults with
    | error e => exact .same
    | ok result => exact rowsChange_upsert hnodup (fun _ hid => ⟨auth, hauth, hid⟩) h
  | updateIfExists auth faults =>
    show RowsChange _ _ _ (updateSavedChatgptAccountIfExists lowercase auth faults store).accounts
    unfold updateSavedChatgptAccountIfExists
    split
    · exact .same
    split
    · exact .same
    rename_i id hid
    split
    · exact .same
    · exact .rewrite (fun _ h => h) (fun _ _ _ => rfl) (fun _ _ => hid)
  | remove id faults =>
    show RowsChange _ _ _ (accounts (Option.elim _ _ _))
    unfold removeSavedChatgptAccount
    split
    · exact .same
    dsimp only
    split
    · exact .same
    · exact .drop (by simp [RegistryOp.removes])
  | switch mode id faults =>
    show RowsChange _ _ _ (accounts (Option.elim _ _ _))
    unfold switchActiveChatgptAccount
    split
    · exact .same
    split
    · exact .same
    split
    · exact .same
    · exact rowsChange_of_eq (saveAuth_accounts _ mode)
  | rotate mode exhausted faults =>
    show RowsChange _ _ _ (accounts (Option.elim _ _ _))
    unfold rotateToNextSavedChatgptAccount
    split
    · exact .same
    split
    · exact .same
    split
    · exact .same
    dsimp only
    split
    · split
      · exact .same
      · exact rowsChange_of_eq (saveAuth_accounts _ mode)
    · exact .same
  | saveAuth auth mode => exact rowsChange_of_eq (saveAuth_accounts auth mode)

/-- `update_saved_chatgpt_account_if_exists` never adds a row, nor removes one. -/
lemma ids_updateIfExists (auth : AuthDotJson) (faults : IoFaults) :
    ((RegistryOp.updateIfExists auth faults).apply lowercase store).ids = store.ids := by
  show (updateSavedChatgptAccountIfExists lowercase auth faults store).ids = store.ids
  unfold updateSavedChatgptAccountIfExists
  split
  · rfl
  split
  · rfl
  split
  · rfl
  · exact map_id_updateFirst_refreshedRow _ _ _

lemma not_mem_ids_remove (id : String) (faults : IoFaults) (h : faults.loadAccounts = false) :
    id ∉ ((RegistryOp.remove id faults).apply lowercase store).ids := by
  have hfiltered : id ∉ (store.accounts.filter (·.id ≠ id)).map (·.id) := by
    intro hmem
    obtain ⟨row, hrow, hid⟩ := List.mem_map.mp hmem
    simp [hid] at hrow
  show id ∉ ids (Option.elim _ _ _)
  unfold removeSavedChatgptAccount
  rw [if_neg (by simp [h])]
  dsimp only
  split
  · rename_i hlength
    -- nothing was filtered out
    have hall : store.accounts.filter (·.id ≠ id) = store.accounts :=
      List.filter_sublist.eq_of_length hlength
    rw [hall] at hfiltered
    exact hfiltered
  · exact hfiltered

/-! ## One operation -/

lemma map_updateFirst {α : Type} {f : SavedChatgptAccount → SavedChatgptAccount}
    (g : SavedChatgptAccount → α)
    (h : ∀ row ∈ rows, row.id = id → g (f row) = g row) :
    (updateFirst id f rows).map g = rows.map g := by
  induction rows with
  | nil => rfl
  | cons row rows ih =>
    by_cases hid : row.id = id
    · simp [updateFirst, hid, h row List.mem_cons_self hid]
    · have hrows := ih fun old hold => h old (List.mem_cons_of_mem _ hold)
      simp [updateFirst, hid, hrows]

lemma ids_eq_map_stamps : store.ids = store.stamps.map (·.1) := by
  simp [ids, stamps, Function.comp_def]

variable (lowercase) in
/-- What an operation does to the ids and the times. -/
inductive StampsChange (op : RegistryOp) (store : AuthStore) : List (String × Nat) → Prop where
  | same : StampsChange op store store.stamps
  | append {id : String} (addedAt : Nat) (hfresh : id ∉ store.ids)
      (hop : op.Upserts lowercase store id) :
      StampsChange op store (store.stamps ++ [(id, addedAt)])
  | drop {id : String} (hop : op.removes id = true) :
      StampsChange op store (store.stamps.filter (·.1 ≠ id))

lemma RowsChange.stamps {store' : AuthStore} (h : RowsChange lowercase op store store'.accounts) :
    StampsChange lowercase op store store'.stamps := by
  unfold AuthStore.stamps
  generalize store'.accounts = rows at h
  cases h with
  | same => exact .same
  | rewrite hid hadded _ =>
    rw [map_updateFirst _ fun row hrow hrowId => by
      rw [hid row hrowId, hadded row hrow hrowId, hrowId]]
    exact .same
  | append hfresh _ hop =>
    rw [List.map_append]
    exact .append _ hfresh hop
  | @drop id hop =>
    have hfilter : (store.accounts.filter (·.id ≠ id)).map (fun row => (row.id, row.addedAt)) =
        store.stamps.filter (·.1 ≠ id) := by
      unfold AuthStore.stamps
      rw [List.filter_map]
      rfl
    rw [hfilter]
    exact .drop hop

lemma StampsChange.nodup {stamps : List (String × Nat)} (hnodup : store.ids.Nodup)
    (h : StampsChange lowercase op store stamps) : (stamps.map (·.1)).Nodup := by
  rw [ids_eq_map_stamps] at hnodup
  cases h with
  | same => exact hnodup
  | append addedAt hfresh _ =>
    rw [ids_eq_map_stamps] at hfresh
    rw [List.map_append]
    exact List.nodup_append.mpr ⟨hnodup, List.nodup_singleton _, by
      intro a ha b hb
      rw [List.map_singleton, List.mem_singleton] at hb
      rintro rfl
      rw [hb] at ha
      exact hfresh ha⟩
  | drop _ => exact hnodup.sublist (List.filter_sublist.map _)

lemma RowsChange.keyed
    (hkeyed : ∀ row ∈ store.accounts, accountRegistryIdForAuth lowercase row.auth = some row.id)
    (h : RowsChange lowercase op store rows) :
    ∀ row ∈ rows, accountRegistryIdForAuth lowercase row.auth = some row.id := by
  intro row hrow
  cases h with
  | same => exact hkeyed row hrow
  | rewrite hid _ hauth =>
    rcases mem_updateFirst hrow with hold | ⟨old, _, hold, rfl⟩
    · exact hkeyed row hold
    · rw [hauth old hold, hid old hold]
  | append _ hauth _ =>
    rcases List.mem_append.mp hrow with hold | hnew
    · exact hkeyed row hold
    · rw [List.mem_singleton.mp hnew]
      exact hauth
  | drop _ => exact hkeyed row (List.mem_of_mem_filter hrow)

lemma WellKeyed.stampsChange (h : WellKeyed lowercase store) (op : RegistryOp) :
    StampsChange lowercase op store (op.apply lowercase store).stamps :=
  (rowsChange_apply h.nodup).stamps

lemma WellKeyed.apply (h : WellKeyed lowercase store) :
    WellKeyed lowercase (op.apply lowercase store) where
  nodup := by
    rw [ids_eq_map_stamps]
    exact (h.stampsChange op).nodup h.nodup
  keyed := (rowsChange_apply h.nodup).keyed h.keyed

/-! ## Sequences of operations -/

lemma runOps_append (ops ops' : List RegistryOp) (store : AuthStore) :
    runOps lowercase (ops ++ ops') store =
      runOps lowercase ops' (runOps lowercase ops store) :=
  List.foldl_append

lemma runOps_concat (ops : List RegistryOp) (op : RegistryOp) (store : AuthStore) :
    runOps lowercase (ops ++ [op]) store = op.apply lowercase (runOps lowercase ops store) := by
  rw [runOps_append]
  rfl

lemma wellKeyed_empty (persistent ephemeral : Option AuthDotJson) :
    WellKeyed lowercase (.empty persistent ephemeral) where
  nodup := List.nodup_nil
  keyed := by simp [empty]

lemma WellKeyed.runOps (h : WellKeyed lowercase store) (ops : List RegistryOp) :
    WellKeyed lowercase (runOps lowercase ops store) := by
  induction ops generalizing store with
  | nil => exact h
  | cons op ops ih => exact ih h.apply

lemma exists_upserts (h : WellKeyed lowercase store) (ops : List RegistryOp)
    (hbefore : id ∉ store.ids) (hafter : id ∈ (Accounts.runOps lowercase ops store).ids) :
    ∃ earlier op later, ops = earlier ++ op :: later ∧
      op.Upserts lowercase (Accounts.runOps lowercase earlier store) id := by
  induction ops generalizing store with
  | nil => exact absurd hafter hbefore
  | cons op ops ih =>
    by_cases hid : id ∈ (op.apply lowercase store).ids
    · -- this operation brought the id
      refine ⟨[], op, ops, rfl, ?_⟩
      rw [ids_eq_map_stamps] at hid hbefore
      have hchange := h.stampsChange op
      generalize (op.apply lowercase store).stamps = stamps at hchange hid
      cases hchange with
      | same => exact absurd hid hbefore
      | append addedAt _ hop =>
        rw [List.map_append, List.mem_append] at hid
        have heq := List.mem_singleton.mp (hid.resolve_left hbefore)
        exact heq ▸ hop
      | drop _ =>
        exact absurd ((List.filter_sublist.map _).subset hid) hbefore
    · obtain ⟨earlier, op', later, rfl, hop⟩ := ih h.apply hid hafter
      exact ⟨op :: earlier, op', later, rfl, hop⟩

/-- The rows that were there and are not removed stay, in their order and with their times. -/
lemma survivors_runOps (h : WellKeyed lowercase store) (ops : List RegistryOp) :
    store.stamps.filter (fun stamp => !removedBy ops stamp.1) =
      (Accounts.runOps lowercase ops store).stamps.filter
        (fun stamp => !removedBy ops stamp.1 && decide (stamp.1 ∈ store.ids)) := by
  induction ops using List.reverseRecOn with
  | nil =>
    refine List.filter_congr fun stamp hstamp => ?_
    have hmem : stamp.1 ∈ store.ids := ids_eq_map_stamps ▸ List.mem_map_of_mem hstamp
    simp [hmem]
  | append_singleton ops op ih =>
    have hremoved (id : String) :
        (!removedBy (ops ++ [op]) id) = (!op.removes id && !removedBy ops id) := by
      simp [removedBy, Bool.and_comm]
    have hchange := (h.runOps ops).stampsChange op
    rw [runOps_concat]
    generalize (op.apply lowercase (Accounts.runOps lowercase ops store)).stamps = stamps at hchange
    simp only [hremoved, Bool.and_assoc]
    rw [← List.filter_filter, ← List.filter_filter, ih]
    cases hchange with
    | same => rfl
    | @append id addedAt hfresh _ =>
      -- a survivor is still there, so the row that was appended is not one
      have hnot : (!removedBy ops id && decide (id ∈ store.ids)) = false := by
        by_contra hkept
        simp only [Bool.not_eq_false, Bool.and_eq_true, decide_eq_true_eq] at hkept
        obtain ⟨hkeep, hmem⟩ := hkept
        rw [ids_eq_map_stamps] at hmem hfresh
        obtain ⟨stamp, hstamp, rfl⟩ := List.mem_map.mp hmem
        have hsurvives : stamp ∈ store.stamps.filter (fun stamp => !removedBy ops stamp.1) :=
          List.mem_filter.mpr ⟨hstamp, hkeep⟩
        rw [ih] at hsurvives
        exact hfresh (List.mem_map_of_mem (List.mem_of_mem_filter hsurvives))
      rw [List.filter_append, List.filter_cons_of_neg (by simp [hnot]), List.filter_nil,
        List.append_nil]
    | @drop id hop =>
      rw [List.filter_filter, List.filter_filter, List.filter_filter]
      refine List.filter_congr fun stamp _ => ?_
      by_cases hid : stamp.1 = id
      · simp [hid, hop]
      · simp [hid]

/-- Over every sequence of operations on an empty registry: the ids are distinct and given by the
credentials, the rows that are not removed keep their order and the time at which they were added,
an update of an existing row adds none, and an id that is not there comes back by an upsert of its
account only. -/
theorem registry_invariant (persistent ephemeral : Option AuthDotJson)
    (ops later : List RegistryOp) :
    let store := runOps lowercase ops (.empty persistent ephemeral)
    let store' := runOps lowercase later store
    WellKeyed lowercase store ∧
    store.stamps.filter (fun stamp => !removedBy later stamp.1) =
      store'.stamps.filter
        (fun stamp => !removedBy later stamp.1 && decide (stamp.1 ∈ store.ids)) ∧
    (∀ auth faults,
      ((RegistryOp.updateIfExists auth faults).apply lowercase store).ids = store.ids) ∧
    (∀ id faults, faults.loadAccounts = false →
      id ∉ ((RegistryOp.remove id faults).apply lowercase store).ids) ∧
    ∀ id ∉ store.ids, id ∈ store'.ids → ∃ before op after,
      later = before ++ op :: after ∧ op.Upserts lowercase (runOps lowercase before store) id := by
  intro store store'
  have hkeyed : WellKeyed lowercase store := (wellKeyed_empty persistent ephemeral).runOps ops
  refine ⟨hkeyed, survivors_runOps hkeyed later, fun auth faults => ids_updateIfExists auth faults,
    fun id faults h => not_mem_ids_remove id faults h, fun id hbefore hafter => ?_⟩
  exact exists_upserts hkeyed later hbefore hafter

end Supercodex.Accounts

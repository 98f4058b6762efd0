import Supercodex.Agents.Registry
import Supercodex.Library.EntryCount
import Supercodex.Library.Runs

/-!
# The slots and the paths of the agents

The counter and the map are changed one after the other, so a slot that is being given back still
counts as held by the call that gives it back. The accounts are right along the runs in which a
reservation reserves at most one path and a commit takes a path that nobody else holds.
-/

namespace Supercodex.Agents

open EntryCount Runs AgentMetadata AgentRegistry AgentPath

/-- The path that the reservation of a task will free. -/
def Task.path : Task → Option AgentPath
  | reserved reservation _ => reservation.reservedAgentPath
  | _ => none

/-- The paths that were reserved through the reservation of a task. -/
def Task.granted : Task → List AgentPath
  | reserved _ granted => granted
  | _ => []

/-! ## Reserved paths -/

/-- Every reserved path has an entry without a thread, and no two tasks reserve the same path. -/
structure Reserving (paths : ℕ → Option AgentPath) (tree : AList fun _ : Text => AgentMetadata) :
    Prop where
  entry : ∀ task path, paths task = some path →
    ∃ metadata, tree.lookup path.text = some metadata ∧ metadata.agentId = none
  apart : ∀ task task' path, paths task = some path → paths task' = some path → task = task'

namespace Reserving

variable {paths paths' : ℕ → Option AgentPath} {tree : AList fun _ : Text => AgentMetadata}
  {key : Text}

section

variable (h : Reserving paths tree)
include h

lemma mono (hsub : ∀ task path, paths' task = some path → paths task = some path) :
    Reserving paths' tree := by
  refine ⟨?_, ?_⟩
  · intro task path hpath
    exact h.entry task path (hsub task path hpath)
  · intro task task' path hpath hpath'
    exact h.apart task task' path (hsub task path hpath) (hsub task' path hpath')

lemma tree_congr {tree' : AList fun _ : Text => AgentMetadata}
    (hsame : ∀ task path, paths task = some path →
      tree'.lookup path.text = tree.lookup path.text) : Reserving paths tree' := by
  refine ⟨?_, h.apart⟩
  intro task path hpath
  rw [hsame task path hpath]
  exact h.entry task path hpath

lemma ne_of_agent {metadata : AgentMetadata}
    (hlookup : tree.lookup key = some metadata) (hagent : metadata.agentId.isSome) {task : ℕ}
    {path : AgentPath} (hpath : paths task = some path) : path.text ≠ key := by
  intro hkey
  obtain ⟨reserved, hreserved, hnone⟩ := h.entry task path hpath
  rw [hkey, hlookup, Option.some.injEq] at hreserved
  rw [hreserved, hnone] at hagent
  cases hagent

lemma grant {task : ℕ} {path : AgentPath}
    (hvacant : tree.lookup path.text = none) :
    Reserving (Function.update paths task (some path))
      (tree.insert path.text { agentPath := some path }) := by
  have hne : ∀ task' path', paths task' = some path' → path'.text ≠ path.text := by
    intro task' path' hpath' htext
    obtain ⟨metadata, hlookup, -⟩ := h.entry task' path' hpath'
    rw [htext, hvacant] at hlookup
    cases hlookup
  refine ⟨?_, ?_⟩
  · intro task' path' hpath'
    by_cases htask : task' = task
    · rw [htask, Function.update_self, Option.some.injEq] at hpath'
      exact ⟨_, by rw [← hpath', AList.lookup_insert], rfl⟩
    · rw [Function.update_of_ne htask] at hpath'
      rw [AList.lookup_insert_ne (hne task' path' hpath')]
      exact h.entry task' path' hpath'
  · intro task₁ task₂ path' h₁ h₂
    by_cases htask₁ : task₁ = task <;> by_cases htask₂ : task₂ = task
    · rw [htask₁, htask₂]
    · rw [htask₁, Function.update_self, Option.some.injEq] at h₁
      rw [Function.update_of_ne htask₂] at h₂
      exact absurd (congrArg text h₁.symm) (hne task₂ path' h₂)
    · rw [htask₂, Function.update_self, Option.some.injEq] at h₂
      rw [Function.update_of_ne htask₁] at h₁
      exact absurd (congrArg text h₂.symm) (hne task₁ path' h₁)
    · rw [Function.update_of_ne htask₁] at h₁
      rw [Function.update_of_ne htask₂] at h₂
      exact h.apart task₁ task₂ path' h₁ h₂

end

end Reserving

/-! ## The map -/

/-- Is the entry filed under the key of its agent? -/
def Filed (key : Text) (metadata : AgentMetadata) : Prop :=
  (∃ path, metadata.agentPath = some path ∧ key = path.text) ∨
    metadata.agentPath = none ∧ ∃ threadId, metadata.agentId = some threadId ∧
      key = "thread:".toList ++ threadId.uuid

variable {metadata : AgentMetadata}

lemma filed_treeKey {threadId : ThreadId}
    (h : metadata.agentId = some threadId) : Filed (metadata.treeKey threadId) metadata := by
  cases hpath : metadata.agentPath with
  | some path =>
    refine .inl ⟨path, hpath, ?_⟩
    unfold treeKey
    rw [hpath]
    rfl
  | none =>
    refine .inr ⟨hpath, threadId, h, ?_⟩
    unfold treeKey
    rw [hpath]
    rfl

lemma AgentPath.text_ne_threadKey (path : AgentPath) (threadId : ThreadId) :
    path.text ≠ "thread:".toList ++ threadId.uuid := by
  intro hkey
  have hhead := path.head_eq_slash
  rw [hkey] at hhead
  have hslash : some 't' = some '/' := hhead
  exact absurd hslash (by decide)

lemma Filed.agentId_of_threadKey {threadId : ThreadId}
    (h : Filed ("thread:".toList ++ threadId.uuid) metadata) : metadata.agentId = some threadId := by
  rcases h with ⟨path, -, hkey⟩ | ⟨-, threadId', hid, hkey⟩
  · exact absurd hkey.symm (path.text_ne_threadKey threadId)
  have huuid : threadId.uuid = threadId'.uuid := List.append_cancel_left hkey
  rw [hid]
  cases threadId
  cases threadId'
  cases huuid
  rfl

/-- All entries are filed under their keys. -/
def AllFiled (tree : AList fun _ : Text => AgentMetadata) : Prop :=
  ∀ key metadata, tree.lookup key = some metadata → Filed key metadata

lemma AllFiled.insert {tree : AList fun _ : Text => AgentMetadata} (h : AllFiled tree) {key : Text}
    (hfiled : Filed key metadata) :
    AllFiled (tree.insert key metadata) := by
  intro key' metadata' hlookup
  rw [lookup_insert_eq] at hlookup
  split at hlookup
  · cases hlookup
    rwa [‹key' = key›]
  · exact h key' metadata' hlookup

lemma AllFiled.erase {tree : AList fun _ : Text => AgentMetadata} (h : AllFiled tree) (key : Text) :
    AllFiled (tree.erase key) := by
  intro key' metadata' hlookup
  rw [lookup_erase_eq] at hlookup
  split at hlookup
  · cases hlookup
  · exact h key' metadata' hlookup

lemma AgentRegistry.length_liveAgents (registry : AgentRegistry) :
    registry.liveAgents.length = count isLiveAgent registry.agentTree := by
  unfold liveAgents count
  rw [← List.countP_eq_length_filter, List.countP_map]
  rfl

namespace System

variable {s s' : System} {task max : ℕ}

/-! ## Who holds a path -/

/-- A live agent, by its key, or the reservation of a task. -/
inductive Holder where
  | agent (key : Text)
  | reservation (task : ℕ)

/-- Does the agent or the reservation hold the path? -/
def Holds (s : System) (path : AgentPath) : Holder → Prop
  | .agent key => ∃ metadata, s.registry.agentTree.lookup key = some metadata ∧
      metadata.agentId.isSome ∧ metadata.agentPath = some path
  | .reservation task => ∃ place, s.tasks.lookup task = some place ∧ path ∈ place.granted

/-- The slots and the paths are accounted for. -/
structure Accounted (max : ℕ) (s : System) : Prop where
  count : s.registry.totalCount = count Task.holdsSlot s.tasks + s.registry.liveAgents.length
  bound : s.registry.totalCount ≤ max
  distinct : ∀ path holder holder', s.Holds path holder → s.Holds path holder' → holder = holder'

/-- The commits that register a thread that is not registered yet. -/
def CommitsFresh (s : System) (label : ℕ × Action) : Prop :=
  ∀ metadata, label.2 = .commit metadata → ∃ threadId, metadata.agentId = some threadId ∧
    ∀ key metadata', s.registry.agentTree.lookup key = some metadata' →
      metadata'.agentId ≠ some threadId

/-- A commit takes no path of another agent or reservation, and not the root. A second path is only
asked for when it is not to be had. -/
def Proper (s : System) (label : ℕ × Action) : Prop :=
  match label.2 with
  | .commit metadata => ∀ path, metadata.agentPath = some path →
      path.isRoot = false ∧ ∀ holder, s.Holds path holder → holder = .reservation label.1
  | .reserveAgentPath path => ∀ place, s.tasks.lookup label.1 = some place →
      place.granted = [] ∨ (s.registry.agentTree.lookup path.text).isSome
  | _ => True

/-- The path of each task. -/
def pathOf (s : System) (task : ℕ) : Option AgentPath := (s.tasks.lookup task).bind Task.path

lemma pathOf_goto (s : System) (task : ℕ) (place : Task) :
    (s.goto task place).pathOf = Function.update s.pathOf task place.path := by
  funext task'
  show ((s.tasks.insert task place).lookup task').bind Task.path = _
  rw [lookup_insert_eq, Function.update_apply]
  split <;> rfl

lemma pathOf_leave (s : System) (task : ℕ) :
    (s.leave task).pathOf = Function.update s.pathOf task none := by
  funext task'
  show ((s.tasks.erase task).lookup task').bind Task.path = _
  rw [lookup_erase_eq, Function.update_apply]
  split <;> rfl

/-! ## The invariant -/

/-- The counter, the map and the tasks agree. -/
structure Inv (max : ℕ) (s : System) : Prop where
  count : s.registry.totalCount =
    EntryCount.count Task.holdsSlot s.tasks +
      EntryCount.count AgentMetadata.isLiveAgent s.registry.agentTree
  bound : s.registry.totalCount ≤ max
  filed : AllFiled s.registry.agentTree
  reserving : Reserving s.pathOf s.registry.agentTree
  granted : ∀ task place, s.tasks.lookup task = some place → place.granted = place.path.toList

lemma inv_new (max : ℕ) : new.Inv max := by
  refine ⟨rfl, Nat.zero_le _, ?_, ⟨?_, ?_⟩, ?_⟩
  · intro key metadata hlookup
    cases hlookup
  · intro task path hpath
    cases hpath
  · intro task task' path hpath _
    cases hpath
  · intro task place hlookup
    cases hlookup

lemma Inv.accounted (h : s.Inv max) : s.Accounted max := by
  have hholds : ∀ task path, s.Holds path (.reservation task) → s.pathOf task = some path := by
    rintro task path ⟨place, hlookup, hmem⟩
    rw [h.granted task place hlookup, Option.mem_toList] at hmem
    unfold pathOf
    rw [hlookup]
    exact hmem
  have hfiled : ∀ key path, s.Holds path (.agent key) → key = path.text := by
    rintro key path ⟨metadata, hlookup, -, hpath⟩
    rcases h.filed key metadata hlookup with ⟨path', hpath', hkey⟩ | ⟨hnone, -⟩
    · rw [hpath', Option.some.injEq] at hpath
      rw [hkey, hpath]
    · rw [hnone] at hpath
      cases hpath
  have hmixed : ∀ key task path, s.Holds path (.agent key) → ¬s.Holds path (.reservation task) := by
    intro key task path hagent hreservation
    have hkey := hfiled key path hagent
    obtain ⟨metadata, hlookup, hsome, -⟩ := hagent
    exact h.reserving.ne_of_agent hlookup hsome (hholds task path hreservation) hkey.symm
  refine ⟨?_, h.bound, ?_⟩
  · rw [length_liveAgents]
    exact h.count
  · intro path holder holder' hholder hholder'
    cases holder with
    | agent key =>
      cases holder' with
      | agent key' => rw [hfiled key path hholder, hfiled key' path hholder']
      | reservation task => exact absurd hholder' (hmixed key task path hholder)
    | reservation task =>
      cases holder' with
      | agent key => exact absurd hholder (hmixed key task path hholder')
      | reservation task' =>
        rw [h.reserving.apart task task' path (hholds task path hholder)
          (hholds task' path hholder')]

/-! ## What each step keeps -/

variable {place : Task}

/-- A task comes further, and the count of slots with it. -/
lemma Inv.goto (h : s.Inv max) (registry : AgentRegistry)
    (hcount : registry.totalCount + weight Task.holdsSlot (s.tasks.lookup task) =
      EntryCount.count Task.holdsSlot s.tasks + place.holdsSlot.toNat +
        EntryCount.count isLiveAgent registry.agentTree)
    (hbound : registry.totalCount ≤ max) (hfiled : AllFiled registry.agentTree)
    (hreserving : Reserving (Function.update s.pathOf task place.path) registry.agentTree)
    (hgranted : place.granted = place.path.toList) :
    ((s.withRegistry registry).goto task place).Inv max := by
  refine ⟨?_, hbound, hfiled, ?_, ?_⟩
  · have hinsert := count_insert Task.holdsSlot task place s.tasks
    show registry.totalCount =
      EntryCount.count Task.holdsSlot (s.tasks.insert task place) +
        EntryCount.count isLiveAgent registry.agentTree
    omega
  · rw [pathOf_goto]
    exact hreserving
  · intro task' place' hlookup
    replace hlookup : (s.tasks.insert task place).lookup task' = some place' := hlookup
    rw [lookup_insert_eq] at hlookup
    split at hlookup
    · cases hlookup
      exact hgranted
    · exact h.granted task' place' hlookup

/-- A task ends, and its slot is counted no more. -/
lemma Inv.leave (h : s.Inv max) (registry : AgentRegistry)
    (hcount : registry.totalCount + weight Task.holdsSlot (s.tasks.lookup task) =
      EntryCount.count Task.holdsSlot s.tasks +
        EntryCount.count isLiveAgent registry.agentTree)
    (hbound : registry.totalCount ≤ max) (hfiled : AllFiled registry.agentTree)
    (hreserving : Reserving (Function.update s.pathOf task none) registry.agentTree) :
    ((s.withRegistry registry).leave task).Inv max := by
  refine ⟨?_, hbound, hfiled, ?_, ?_⟩
  · have herase := count_erase Task.holdsSlot task s.tasks
    show registry.totalCount =
      EntryCount.count Task.holdsSlot (s.tasks.erase task) +
        EntryCount.count isLiveAgent registry.agentTree
    omega
  · rw [pathOf_leave]
    exact hreserving
  · intro task' place' hlookup
    replace hlookup : (s.tasks.erase task).lookup task' = some place' := hlookup
    rw [lookup_erase_eq] at hlookup
    split at hlookup
    · cases hlookup
    · exact h.granted task' place' hlookup

lemma Inv.update_none (h : s.Inv max) :
    Reserving (Function.update s.pathOf task none) s.registry.agentTree := by
  refine h.reserving.mono ?_
  intro task' path hpath
  by_cases htask : task' = task
  · rw [htask, Function.update_self] at hpath
    cases hpath
  · rwa [Function.update_of_ne htask] at hpath

lemma pathOf_eq (h : s.tasks.lookup task = some place) :
    s.pathOf task = place.path := by
  unfold pathOf
  rw [h]
  rfl

section

variable (h : s.Inv max)
include h

lemma Inv.update_same {place place' : Task}
    (hlookup : s.tasks.lookup task = some place) (hpath : place'.path = place.path) :
    Reserving (Function.update s.pathOf task place'.path) s.registry.agentTree := by
  rw [hpath, ← pathOf_eq hlookup, Function.update_eq_self]
  exact h.reserving

lemma Inv.compareExchange {current : ℕ} (spurious : Bool)
    (hlookup : s.tasks.lookup task = some (.incrementing current)) :
    (s.compareExchange max task current spurious).Inv max := by
  have hcount := h.count
  have hbound := h.bound
  unfold System.compareExchange
  split
  · refine h.leave s.registry ?_ hbound h.filed h.update_none
    rw [hlookup, weight_some]
    exact hcount
  · split
    · refine h.goto { s.registry with totalCount := current + 1 } ?_ ?_ h.filed h.update_none rfl
      · rw [hlookup, weight_some]
        show current + 1 + 0 = EntryCount.count Task.holdsSlot s.tasks + 1 +
          EntryCount.count isLiveAgent s.registry.agentTree
        omega
      · show current + 1 ≤ max
        omega
    · refine h.goto s.registry ?_ hbound h.filed h.update_none rfl
      rw [hlookup, weight_some]
      exact hcount

lemma Inv.totalCount_pos (hlookup : s.tasks.lookup task = some place)
    (hslot : place.holdsSlot = true) :
    0 < s.registry.totalCount := by
  have hcount := h.count
  have herase := count_erase Task.holdsSlot task s.tasks
  rw [hlookup, weight_some, hslot, Bool.toNat_true] at herase
  omega

lemma Inv.giveBack (hlookup : s.tasks.lookup task = some place)
    (hslot : place.holdsSlot = true) :
    ((s.withCount (fetchSub s.registry.totalCount)).leave task).Inv max := by
  have hcount := h.count
  have hbound := h.bound
  have hpos := h.totalCount_pos hlookup hslot
  have hfetch : fetchSub s.registry.totalCount = s.registry.totalCount - 1 := if_neg (by omega)
  refine h.leave { s.registry with totalCount := fetchSub s.registry.totalCount } ?_ ?_ h.filed
    h.update_none
  · rw [hlookup, weight_some, hslot, Bool.toNat_true]
    show fetchSub s.registry.totalCount + 1 = EntryCount.count Task.holdsSlot s.tasks +
      EntryCount.count isLiveAgent s.registry.agentTree
    omega
  · show fetchSub s.registry.totalCount ≤ max
    omega

lemma Inv.withRegistry (registry : AgentRegistry)
    (hcount : registry.totalCount = EntryCount.count Task.holdsSlot s.tasks +
      EntryCount.count isLiveAgent registry.agentTree)
    (hbound : registry.totalCount ≤ max) (hfiled : AllFiled registry.agentTree)
    (hreserving : Reserving s.pathOf registry.agentTree) : (s.withRegistry registry).Inv max :=
  ⟨hcount, hbound, hfiled, hreserving, h.granted⟩

lemma Inv.registerRootThread (threadId : ThreadId) :
    (s.withRegistry (s.registry.registerRootThread threadId)).Inv max := by
  have hcount := h.count
  unfold AgentRegistry.registerRootThread
  cases hroot : s.registry.agentTree.lookup rootText with
  | some metadata => exact h
  | none =>
    refine h.withRegistry _ ?_ h.bound (h.filed.insert (.inl ⟨.root, rfl, rfl⟩)) ?_
    · have hinsert := count_insert isLiveAgent rootText
        { agentId := some threadId, agentPath := some .root } s.registry.agentTree
      -- The root agent takes no slot.
      have hweight : (isLiveAgent
          { agentId := some threadId, agentPath := some .root }).toNat = 0 := rfl
      rw [hroot, weight_none, hweight] at hinsert
      show s.registry.totalCount = _ + EntryCount.count isLiveAgent
        (s.registry.agentTree.insert rootText _)
      omega
    · refine h.reserving.tree_congr ?_
      intro task path hpath
      refine AList.lookup_insert_ne ?_
      intro htext
      obtain ⟨metadata, hlookup, -⟩ := h.reserving.entry task path hpath
      rw [htext, hroot] at hlookup
      cases hlookup

/-- A released agent leaves its slot to the call that released it. -/
lemma Inv.release (htask : s.tasks.lookup task = none) {key : Text}
    (hlookup : s.registry.agentTree.lookup key = some metadata)
    (hagent : metadata.agentId.isSome) :
    (if metadata.atRoot then
        s.withRegistry (s.registry.setTree (s.registry.agentTree.erase key))
      else
        (s.withRegistry (s.registry.setTree (s.registry.agentTree.erase key))).goto task
          .releasing).Inv max := by
  have hcount := h.count
  have herase := count_erase isLiveAgent key s.registry.agentTree
  rw [hlookup, weight_some] at herase
  have hreserving : Reserving s.pathOf (s.registry.agentTree.erase key) :=
    h.reserving.tree_congr fun task path hpath =>
      AList.lookup_erase_ne (h.reserving.ne_of_agent hlookup hagent hpath)
  cases hroot : metadata.atRoot with
  | true =>
    have hlive : metadata.isLiveAgent = false := by
      rw [isLiveAgent, hroot, Bool.not_true, Bool.and_false]
    rw [hlive, Bool.toNat_false] at herase
    refine h.withRegistry _ ?_ h.bound (h.filed.erase key) hreserving
    show s.registry.totalCount = _ +
      EntryCount.count isLiveAgent (s.registry.agentTree.erase key)
    omega
  | false =>
    have hlive : metadata.isLiveAgent = true := by
      rw [isLiveAgent, hroot, hagent]
      rfl
    rw [hlive, Bool.toNat_true] at herase
    refine h.goto _ ?_ h.bound (h.filed.erase key) ?_ rfl
    · rw [htask, weight_none]
      show s.registry.totalCount + 0 = EntryCount.count Task.holdsSlot s.tasks + 1 +
        EntryCount.count isLiveAgent (s.registry.agentTree.erase key)
      omega
    · have hpath : s.pathOf task = none := by
        unfold pathOf
        rw [htask]
        rfl
      rw [show Task.releasing.path = s.pathOf task from hpath.symm, Function.update_eq_self]
      exact hreserving

variable {path : AgentPath}

lemma Inv.reserveAgentPath {reservation : SpawnReservation}
    (hlookup : s.tasks.lookup task = some (.reserved reservation []))
    (hvacant : s.registry.agentTree.lookup path.text = none) :
    ((s.withRegistry (s.registry.setTree
      (s.registry.agentTree.insert path.text { agentPath := some path }))).goto task
        (.reserved { reservation with reservedAgentPath := some path } ([] ++ [path]))).Inv max := by
  have hcount := h.count
  refine h.goto _ ?_ h.bound (h.filed.insert (.inl ⟨path, rfl, rfl⟩)) (h.reserving.grant hvacant)
    rfl
  have hinsert := count_insert isLiveAgent path.text { agentPath := some path }
    s.registry.agentTree
  have hweight : (isLiveAgent { agentPath := some path }).toNat = 0 := rfl
  rw [hvacant, weight_none, hweight] at hinsert
  rw [hlookup, weight_some]
  show s.registry.totalCount + 1 = EntryCount.count Task.holdsSlot s.tasks + 1 +
    EntryCount.count isLiveAgent (s.registry.agentTree.insert path.text _)
  omega

lemma Inv.ne_of_update (hown : s.pathOf task = some path)
    {task' : ℕ} {path' : AgentPath}
    (hpath' : Function.update s.pathOf task none task' = some path') : path'.text ≠ path.text := by
  intro htext
  by_cases htask : task' = task
  · rw [htask, Function.update_self] at hpath'
    cases hpath'
  · rw [Function.update_of_ne htask, ext_text htext] at hpath'
    exact htask (h.reserving.apart task' task path hpath' hown)

lemma Inv.releaseReservedAgentPath_eq (hpath : s.pathOf task = some path) :
    s.registry.releaseReservedAgentPath path =
      s.registry.setTree (s.registry.agentTree.erase path.text) := by
  obtain ⟨metadata, hlookup, hnone⟩ := h.reserving.entry task path hpath
  unfold releaseReservedAgentPath
  rw [hlookup, if_pos]
  show metadata.agentId.isNone = true
  rw [hnone]
  rfl

lemma Inv.drop (hlookup : s.tasks.lookup task = some place)
    (hslot : place.holdsSlot = true) (hpath : s.pathOf task = some path) :
    ((s.withRegistry (s.registry.releaseReservedAgentPath path)).goto task .dropping).Inv max := by
  have hcount := h.count
  rw [h.releaseReservedAgentPath_eq hpath]
  refine h.goto _ ?_ h.bound (h.filed.erase path.text) ?_ rfl
  · obtain ⟨metadata, hentry, hnone⟩ := h.reserving.entry task path hpath
    have herase := count_erase isLiveAgent path.text s.registry.agentTree
    have hlive : metadata.isLiveAgent = false := by
      rw [isLiveAgent, hnone]
      rfl
    rw [hentry, weight_some, hlive, Bool.toNat_false] at herase
    rw [hlookup, weight_some, hslot, Bool.toNat_true]
    show s.registry.totalCount + 1 = EntryCount.count Task.holdsSlot s.tasks + 1 +
      EntryCount.count isLiveAgent (s.registry.agentTree.erase path.text)
    omega
  · refine h.update_none.tree_congr ?_
    intro task' path' hpath'
    exact AList.lookup_erase_ne (h.ne_of_update hpath hpath')

/-- What a commit replaces has no agent. -/
lemma Inv.agentId_of_commitKey {metadata metadata' : AgentMetadata}
    {threadId : ThreadId}
    (hfresh : ∀ key metadata', s.registry.agentTree.lookup key = some metadata' →
      metadata'.agentId ≠ some threadId)
    (hproper : ∀ path, metadata.agentPath = some path →
      path.isRoot = false ∧ ∀ holder, s.Holds path holder → holder = .reservation task)
    (hlookup : s.registry.agentTree.lookup (metadata.treeKey threadId) = some metadata') :
    metadata'.agentId = none := by
  have hfiled := h.filed _ _ hlookup
  unfold treeKey at hlookup hfiled
  cases hpath : metadata.agentPath with
  | none =>
    rw [hpath] at hfiled hlookup
    exact absurd hfiled.agentId_of_threadKey (hfresh _ _ hlookup)
  | some path =>
    rw [hpath] at hfiled hlookup
    by_contra hsome
    have hpath' : metadata'.agentPath = some path := by
      rcases hfiled with ⟨path', hpath', htext⟩ | ⟨-, threadId', -, htext⟩
      · rw [hpath', ext_text htext]
      · exact absurd htext (path.text_ne_threadKey threadId')
    have hholder := (hproper path hpath).2 (.agent path.text)
      ⟨metadata', hlookup, Option.isSome_iff_ne_none.mpr hsome, hpath'⟩
    cases hholder

/-- A committed agent takes over the slot of its reservation. -/
lemma Inv.commit (hlookup : s.tasks.lookup task = some place)
    (hslot : place.holdsSlot = true)
    (hfresh : s.CommitsFresh (task, .commit metadata)) (hproper : s.Proper (task, .commit metadata)) :
    ((s.withRegistry (s.registry.registerSpawnedThread metadata)).leave task).Inv max := by
  obtain ⟨threadId, hid, hunused⟩ := hfresh metadata rfl
  have hproper : ∀ path, metadata.agentPath = some path →
      path.isRoot = false ∧ ∀ holder, s.Holds path holder → holder = .reservation task := hproper
  have hcount := h.count
  have htree : (s.registry.registerSpawnedThread metadata).agentTree =
      s.registry.agentTree.insert (metadata.treeKey threadId) metadata := by
    unfold registerSpawnedThread
    rw [hid]
    rfl
  have htotal : (s.registry.registerSpawnedThread metadata).totalCount = s.registry.totalCount := by
    unfold registerSpawnedThread
    rw [hid]
  refine h.leave _ ?_ ?_ ?_ ?_
  · have hlive : metadata.isLiveAgent = true := by
      have hroot : metadata.atRoot = false := by
        unfold atRoot
        cases hpath : metadata.agentPath with
        | none => rfl
        | some path => exact (hproper path hpath).1
      rw [isLiveAgent, hid, hroot]
      rfl
    have hweight : weight isLiveAgent
        (s.registry.agentTree.lookup (metadata.treeKey threadId)) = 0 := by
      cases hentry : s.registry.agentTree.lookup (metadata.treeKey threadId) with
      | none => rfl
      | some metadata' =>
        have hnone := h.agentId_of_commitKey hunused hproper hentry
        rw [weight_some, isLiveAgent, hnone]
        rfl
    have hinsert := count_insert isLiveAgent (metadata.treeKey threadId) metadata
      s.registry.agentTree
    rw [hweight, hlive, Bool.toNat_true] at hinsert
    rw [htree, htotal, hlookup, weight_some, hslot, Bool.toNat_true]
    omega
  · rw [htotal]
    exact h.bound
  · rw [htree]
    exact h.filed.insert (filed_treeKey hid)
  · rw [htree]
    refine h.update_none.tree_congr ?_
    intro task' path' hpath'
    refine AList.lookup_insert_ne ?_
    intro hkey
    have htask : task' ≠ task := by
      rintro rfl
      rw [Function.update_self] at hpath'
      cases hpath'
    rw [Function.update_of_ne htask] at hpath'
    unfold treeKey at hkey
    cases hpath : metadata.agentPath with
    | none =>
      rw [hpath] at hkey
      exact path'.text_ne_threadKey threadId hkey
    | some path =>
      rw [hpath] at hkey
      have hsame : path' = path := ext_text hkey
      subst hsame
      -- The path belongs to another reservation, which the commit may not take.
      obtain ⟨place', hplace', hpathOf⟩ := Option.bind_eq_some_iff.mp hpath'
      have hholds : s.Holds path' (.reservation task') := by
        refine ⟨place', hplace', ?_⟩
        rw [h.granted task' place' hplace', hpathOf]
        exact List.mem_singleton_self _
      have hholder := (hproper path' hpath).2 (.reservation task') hholds
      cases hholder
      exact htask rfl

end

lemma agentTree_reserveAgentNickname (registry : AgentRegistry) (names : List Text)
    (preferred : Option Text) (choice : ℕ) :
    (registry.reserveAgentNickname names preferred choice).1.agentTree = registry.agentTree ∧
      (registry.reserveAgentNickname names preferred choice).1.totalCount =
        registry.totalCount := by
  unfold reserveAgentNickname
  cases preferred with
  | some nickname => exact ⟨rfl, rfl⟩
  | none =>
    dsimp only
    split <;> exact ⟨rfl, rfl⟩

variable {action : Action}

lemma Inv.begin (h : s.Inv max) (htask : s.tasks.lookup task = none)
    (hstep : s.begin (some max) task action = some s') : s'.Inv max := by
  cases action with
  | reserveSpawnSlot =>
    cases hstep
    refine h.goto s.registry ?_ h.bound h.filed h.update_none rfl
    rw [htask, weight_none]
    exact h.count
  | releaseSpawnedThread threadId found =>
    simp only [System.begin] at hstep
    split at hstep
    · rename_i hfind
      cases found with
      | none =>
        cases hstep
        exact h
      | some key =>
        cases hentry : s.registry.agentTree.lookup key with
        | none =>
          rw [canFind, hentry] at hfind
          cases hfind
        | some metadata =>
          have hagent : metadata.agentId = some threadId := by
            rw [canFind, hentry] at hfind
            simpa using hfind
          simp only [Option.bind_some, hentry] at hstep
          cases hstep
          exact h.release htask hentry (by rw [hagent]; rfl)
    · cases hstep
  | registerRootThread threadId =>
    cases hstep
    exact h.registerRootThread threadId
  | _ => cases hstep

lemma Inv.use (h : s.Inv max) {reservation : SpawnReservation} {granted : List AgentPath}
    (hlookup : s.tasks.lookup task = some (.reserved reservation granted))
    (hfresh : s.CommitsFresh (task, action)) (hproper : s.Proper (task, action))
    (hstep : s.use task reservation granted action = some s') : s'.Inv max := by
  cases action with
  | reserveAgentNickname names preferred choice =>
    obtain ⟨htree, htotal⟩ :=
      agentTree_reserveAgentNickname s.registry names preferred choice
    simp only [System.use] at hstep
    split at hstep
    · rename_i registry nickname heq
      rw [heq] at htree htotal
      cases hstep
      have hgranted := h.granted task _ hlookup
      refine h.goto registry ?_ ?_ ?_ ?_ hgranted
      · rw [htree, htotal, hlookup, weight_some, h.count]
        show _ + _ + 1 = _ + 1 + _
        omega
      · rw [htotal]
        exact h.bound
      · rw [htree]
        exact h.filed
      · rw [htree]
        exact h.update_same hlookup rfl
    · rename_i registry heq
      rw [heq] at htree htotal
      cases hstep
      refine h.withRegistry registry ?_ ?_ ?_ ?_
      · rw [htree, htotal]
        exact h.count
      · rw [htotal]
        exact h.bound
      · rw [htree]
        exact h.filed
      · rw [htree]
        exact h.reserving
  | reserveAgentPath path =>
    simp only [System.use, AgentRegistry.reserveAgentPath] at hstep
    cases hentry : s.registry.agentTree.lookup path.text with
    | some metadata =>
      rw [hentry] at hstep
      cases hstep
      exact h
    | none =>
      rw [hentry] at hstep
      cases hstep
      have hfirst : granted = [] := by
        rcases hproper _ hlookup with hnil | hsome
        · exact hnil
        · rw [hentry] at hsome
          cases hsome
      subst hfirst
      exact h.reserveAgentPath hlookup hentry
  | commit metadata =>
    cases hstep
    exact h.commit hlookup rfl hfresh hproper
  | drop =>
    have hpathOf := pathOf_eq hlookup
    simp only [System.use] at hstep
    cases hpath : reservation.reservedAgentPath with
    | some path =>
      rw [hpath] at hstep
      cases hstep
      exact h.drop hlookup rfl (hpathOf.trans hpath)
    | none =>
      rw [hpath] at hstep
      cases hstep
      refine h.goto s.registry ?_ h.bound h.filed h.update_none rfl
      rw [hlookup, weight_some, h.count]
      show _ + _ + 1 = _ + 1 + _
      omega
  | _ => cases hstep

/-- The steps of the threads, as a relation. -/
def Step (maxThreads : Option ℕ) (s : System) (label : ℕ × Action) (s' : System) : Prop :=
  s.step maxThreads label.1 label.2 = some s'

lemma Inv.step {label : ℕ × Action} (h : s.Inv max) (hfresh : s.CommitsFresh label)
    (hproper : s.Proper label) (hstep : Step (some max) s label s') : s'.Inv max := by
  obtain ⟨task, action⟩ := label
  simp only [Step, System.step] at hstep
  split at hstep
  · rename_i htask
    exact h.begin htask hstep
  · rename_i current htask
    cases action with
    | compareExchange spurious =>
      cases hstep
      exact h.compareExchange spurious htask
    | _ => cases hstep
  · rename_i reservation granted htask
    exact h.use htask hfresh hproper hstep
  all_goals
    rename_i htask
    cases action with
    | giveBack =>
      cases hstep
      exact h.giveBack htask rfl
    | _ => cases hstep

/-! ## What a drop frees, and what stays -/

/-- A drop empties the entries of the paths of its reservation and nothing else; then exactly one slot
is given back. -/
structure ReturnsOwn (t : Transition System (ℕ × Action)) : Prop where
  drop : ∀ task place, t.label = (task, .drop) → t.before.tasks.lookup task = some place →
    t.after.tasks = t.before.tasks.insert task .dropping ∧
      t.after.registry.totalCount = t.before.registry.totalCount ∧
      ∀ key, t.after.registry.agentTree.lookup key =
        if key ∈ place.granted.map AgentPath.text then none
        else t.before.registry.agentTree.lookup key
  giveBack : ∀ task, t.label = (task, .giveBack) →
    t.after.tasks = t.before.tasks.erase task ∧
      t.after.registry.totalCount + 1 = t.before.registry.totalCount ∧
      t.after.registry.agentTree = t.before.registry.agentTree

/-- An agent stays until it is released. -/
def KeepsAgents (t : Transition System (ℕ × Action)) : Prop :=
  ∀ key metadata threadId, t.before.registry.agentTree.lookup key = some metadata →
    metadata.agentId = some threadId →
      t.after.registry.agentTree.lookup key = some metadata ∨
        ∃ task found, t.label = (task, .releaseSpawnedThread threadId found)

lemma Inv.drop_frees (h : s.Inv max) (hlookup : s.tasks.lookup task = some place)
    (hstep : Step (some max) s (task, .drop) s') :
    s'.tasks = s.tasks.insert task .dropping ∧ s'.registry.totalCount = s.registry.totalCount ∧
      ∀ key, s'.registry.agentTree.lookup key =
        if key ∈ place.granted.map text then none
        else s.registry.agentTree.lookup key := by
  have hgranted := h.granted task place hlookup
  have hpathOf := pathOf_eq hlookup
  cases place with
  | reserved reservation granted =>
    have hgranted : granted = reservation.reservedAgentPath.toList := hgranted
    simp only [Step, System.step, hlookup, System.use] at hstep
    cases hpath : reservation.reservedAgentPath with
    | none =>
      rw [hpath] at hstep hgranted
      cases hstep
      subst hgranted
      exact ⟨rfl, rfl, fun key => rfl⟩
    | some path =>
      rw [hpath] at hstep hgranted
      cases hstep
      subst hgranted
      rw [h.releaseReservedAgentPath_eq (hpathOf.trans hpath)]
      refine ⟨rfl, rfl, fun key => ?_⟩
      show (s.registry.agentTree.erase path.text).lookup key =
        if key ∈ [path.text] then none else s.registry.agentTree.lookup key
      by_cases hkey : key = path.text
      · rw [if_pos (List.mem_singleton.mpr hkey), hkey, AList.lookup_erase]
      · rw [if_neg (fun hmem => hkey (List.mem_singleton.mp hmem)), AList.lookup_erase_ne hkey]
  | incrementing current | dropping | releasing =>
    simp only [Step, System.step, hlookup] at hstep
    cases hstep

lemma Inv.giveBack_frees (h : s.Inv max) (hstep : Step (some max) s (task, .giveBack) s') :
    s'.tasks = s.tasks.erase task ∧ s'.registry.totalCount + 1 = s.registry.totalCount ∧
      s'.registry.agentTree = s.registry.agentTree := by
  have hplace : ∃ place, s.tasks.lookup task = some place ∧ place.holdsSlot = true ∧
      s' = (s.withCount (fetchSub s.registry.totalCount)).leave task := by
    simp only [Step, System.step] at hstep
    split at hstep
    · cases hstep
    · cases hstep
    · cases hstep
    all_goals
      rename_i htask
      cases hstep
      exact ⟨_, htask, rfl, rfl⟩
  obtain ⟨place, hlookup, hslot, rfl⟩ := hplace
  have hpos := h.totalCount_pos hlookup hslot
  have hfetch : fetchSub s.registry.totalCount = s.registry.totalCount - 1 := if_neg (by omega)
  refine ⟨rfl, ?_, rfl⟩
  show fetchSub s.registry.totalCount + 1 = s.registry.totalCount
  omega

lemma Inv.returnsOwn {t : Transition System (ℕ × Action)} (h : t.before.Inv max)
    (hstep : Step (some max) t.before t.label t.after) : ReturnsOwn t := by
  obtain ⟨s, label, s'⟩ := t
  refine ⟨?_, ?_⟩
  · rintro task place rfl hlookup
    exact h.drop_frees hlookup hstep
  · rintro task rfl
    exact h.giveBack_frees hstep

/-- What a step can do to the map. -/
lemma tree_of_step (hstep : Step (some max) s (task, action) s') :
    s'.registry.agentTree = s.registry.agentTree ∨
    (∃ key metadata, s.registry.agentTree.lookup key = none ∧
      s'.registry.agentTree = s.registry.agentTree.insert key metadata) ∨
    (∃ threadId key found, action = .releaseSpawnedThread threadId found ∧
      (s.registry.agentTree.lookup key).any (·.agentId = some threadId) ∧
      s'.registry.agentTree = s.registry.agentTree.erase key) ∨
    (∃ metadata, action = .commit metadata ∧
      s'.registry.agentTree = (s.registry.registerSpawnedThread metadata).agentTree) ∨
    action = .drop := by
  simp only [Step, System.step] at hstep
  split at hstep
  · cases action with
    | reserveSpawnSlot =>
      cases hstep
      exact .inl rfl
    | registerRootThread threadId =>
      cases hstep
      show (s.registry.registerRootThread threadId).agentTree = _ ∨ _
      unfold registerRootThread
      cases hroot : s.registry.agentTree.lookup rootText with
      | some metadata => exact .inl rfl
      | none => exact .inr (.inl ⟨rootText, _, hroot, rfl⟩)
    | releaseSpawnedThread threadId found =>
      simp only [System.begin] at hstep
      split at hstep
      · rename_i hfind
        split at hstep
        · rename_i metadata key _
          refine .inr (.inr (.inl ⟨threadId, key, some key, rfl, hfind, ?_⟩))
          rw [← Option.some.inj hstep]
          split <;> rfl
        · cases hstep
          exact .inl rfl
      · cases hstep
    | _ => cases hstep
  · cases action with
    | compareExchange spurious =>
      left
      rw [← Option.some.inj hstep]
      unfold System.compareExchange
      split
      · rfl
      · split <;> rfl
    | _ => cases hstep
  · cases action with
    | reserveAgentNickname names preferred choice =>
      left
      have htree := (agentTree_reserveAgentNickname s.registry names preferred choice).1
      simp only [System.use] at hstep
      split at hstep
      all_goals
        rename_i heq
        rw [heq] at htree
        cases hstep
        exact htree
    | reserveAgentPath path =>
      simp only [System.use, reserveAgentPath] at hstep
      cases hentry : s.registry.agentTree.lookup path.text with
      | some metadata =>
        rw [hentry] at hstep
        cases hstep
        exact .inl rfl
      | none =>
        rw [hentry] at hstep
        cases hstep
        exact .inr (.inl ⟨path.text, _, hentry, rfl⟩)
    | commit metadata =>
      cases hstep
      exact .inr (.inr (.inr (.inl ⟨metadata, rfl, rfl⟩)))
    | drop => exact .inr (.inr (.inr (.inr rfl)))
    | _ => cases hstep
  all_goals
    cases action with
    | giveBack =>
      cases hstep
      exact .inl rfl
    | _ => cases hstep

lemma Inv.keepsAgents {t : Transition System (ℕ × Action)} (h : t.before.Inv max)
    (hfresh : t.before.CommitsFresh t.label) (hproper : t.before.Proper t.label)
    (hstep : Step (some max) t.before t.label t.after) : KeepsAgents t := by
  obtain ⟨s, ⟨task, action⟩, s'⟩ := t
  intro key metadata threadId hlookup hagent
  rcases tree_of_step hstep with htree | ⟨key', metadata', hvacant, htree⟩ |
    ⟨threadId', key', found, rfl, hfound, htree⟩ | ⟨metadata', rfl, htree⟩ | rfl
  · rw [htree]
    exact .inl hlookup
  · have hkey : key ≠ key' := by
      rintro rfl
      rw [hvacant] at hlookup
      cases hlookup
    rw [htree, AList.lookup_insert_ne hkey]
    exact .inl hlookup
  · by_cases hkey : key = key'
    · subst hkey
      rw [hlookup, Option.any_some, hagent, decide_eq_true_eq] at hfound
      cases hfound
      exact .inr ⟨task, found, rfl⟩
    · rw [htree, AList.lookup_erase_ne hkey]
      exact .inl hlookup
  · obtain ⟨threadId', hid, hunused⟩ := hfresh metadata' rfl
    have hkey : key ≠ metadata'.treeKey threadId' := by
      rintro rfl
      have hnone := h.agentId_of_commitKey hunused hproper hlookup
      rw [hagent] at hnone
      cases hnone
    have hinsert : (s.registry.registerSpawnedThread metadata').agentTree =
        s.registry.agentTree.insert (metadata'.treeKey threadId') metadata' := by
      unfold registerSpawnedThread
      rw [hid]
      rfl
    rw [htree, hinsert, AList.lookup_insert_ne hkey]
    exact .inl hlookup
  · left
    cases hplace : s.tasks.lookup task with
    | none =>
      simp only [Step, System.step, hplace, System.begin] at hstep
      cases hstep
    | some place =>
      rw [(h.drop_frees hplace hstep).2.2 key, if_neg]
      · exact hlookup
      · intro hmem
        obtain ⟨path, hpath, hkey⟩ := List.mem_map.mp hmem
        rw [h.granted task place hplace, Option.mem_toList] at hpath
        exact h.reserving.ne_of_agent hlookup (by rw [hagent]; rfl)
          ((pathOf_eq hplace).trans hpath) hkey

/-! ## Runs -/

/-- In every run of proper steps whose commits register fresh threads, the slots and the paths are
accounted for, agents stay until they are released, and a drop frees exactly what its reservation
holds. -/
theorem slots_accounted {ts : List (Transition System (ℕ × Action))}
    (run : Run (Step (some max)) new ts s)
    (hfresh : ∀ t ∈ ts, t.before.CommitsFresh t.label) (hproper : ∀ t ∈ ts, t.before.Proper t.label) :
    s.Accounted max ∧ ∀ t ∈ ts, ReturnsOwn t ∧ KeepsAgents t := by
  have hinvariant := run.invariant (fun s label => s.CommitsFresh label ∧ s.Proper label)
    (fun t ht => ⟨hfresh t ht, hproper t ht⟩) (inv_new max)
    fun _ _ _ hinv hlabel hstep => hinv.step hlabel.1 hlabel.2 hstep
  refine ⟨hinvariant.1.accounted, fun t ht => ?_⟩
  obtain ⟨hinv, hstep⟩ := hinvariant.2 t ht
  exact ⟨hinv.returnsOwn hstep, hinv.keepsAgents (hfresh t ht) (hproper t ht) hstep⟩

/-! ### Some runs -/

/-- The path `/root/a`. -/
def pathA : AgentPath := ⟨"/root/a".toList, by decide⟩

/-- The path `/root/b`. -/
def pathB : AgentPath := ⟨"/root/b".toList, by decide⟩

/-- The metadata of an agent. -/
def agentAt (uuid : String) (path : AgentPath) : AgentMetadata :=
  { agentId := some ⟨uuid.toList⟩, agentPath := some path }

/-- An agent at a reserved path, and a reservation that is dropped. -/
theorem slots_accounted_spawn_and_drop :
    ∃ ts s, Run (Step (some 2)) new ts s ∧ s.registry.totalCount = 1 ∧
      s.Accounted 2 ∧ ∀ t ∈ ts, ReturnsOwn t ∧ KeepsAgents t := by
  have hnew : RunWhere (Step (some 2)) (fun s label => s.CommitsFresh label ∧ s.Proper label) new [] new := .nil
  have hfirst := (hnew.next (0, .reserveSpawnSlot) ⟨nofun, trivial⟩ rfl).next (0, .compareExchange false)
    ⟨nofun, trivial⟩ rfl
  have hpath := hfirst.next (0, .reserveAgentPath pathA) ⟨nofun, by rintro place ⟨⟩; exact .inl rfl⟩ rfl
  have hcommit := hpath.next (0, .commit (agentAt "a" pathA)) (by
    constructor
    · rintro metadata ⟨⟩
      refine ⟨_, rfl, ?_⟩
      intro key metadata' hlookup
      cases List.mem_singleton.mp (AList.mem_lookup_iff.mp hlookup)
      exact nofun
    · rintro path ⟨⟩
      refine ⟨rfl, ?_⟩
      rintro (key | task) ⟨place, hlookup, hholds⟩
      · cases List.mem_singleton.mp (AList.mem_lookup_iff.mp hlookup)
        cases hholds.1
      · cases List.mem_singleton.mp (AList.mem_lookup_iff.mp hlookup)
        rfl) rfl
  have hsecond := (hcommit.next (1, .reserveSpawnSlot) ⟨nofun, trivial⟩ rfl).next (1, .compareExchange false)
    ⟨nofun, trivial⟩ rfl
  have hrun := (hsecond.next (1, .drop) ⟨nofun, trivial⟩ rfl).next (1, .giveBack) ⟨nofun, trivial⟩ rfl
  exact ⟨_, _, hrun.1, rfl,
    slots_accounted hrun.1 (fun t ht => (hrun.2 t ht).1) fun t ht => (hrun.2 t ht).2⟩

/-- A commit at the path of another agent hides that agent from the count, a commit at the root path
keeps its slot for an agent that is not counted, and a second path of a reservation keeps the first
one occupied after the drop. -/
theorem slots_lost :
    (∃ ts s, Run (Step (some 2)) new ts s ∧ (∀ t ∈ ts, t.before.CommitsFresh t.label) ∧
      s.registry.totalCount = 2 ∧ s.registry.liveAgents.length = 1 ∧ s.tasks = ∅ ∧
      ¬s.Accounted 2) ∧
    (∃ ts s, Run (Step (some 2)) new ts s ∧ (∀ t ∈ ts, t.before.CommitsFresh t.label) ∧
      s.registry.totalCount = 1 ∧ s.registry.liveAgents = [] ∧ s.tasks = ∅ ∧ ¬s.Accounted 2) ∧
    ∃ ts s, Run (Step (some 2)) new ts s ∧ (∀ t ∈ ts, t.before.CommitsFresh t.label) ∧
      ∃ t ∈ ts, ¬ReturnsOwn t := by
  have hnew : RunWhere (Step (some 2)) CommitsFresh new [] new := .nil
  have hfirst := (hnew.next (0, .reserveSpawnSlot) nofun rfl).next (0, .compareExchange false) nofun rfl
  refine ⟨?_, ?_, ?_⟩
  · have hcommit := hfirst.next (0, .commit (agentAt "a" pathA)) (by
      rintro metadata ⟨⟩
      exact ⟨_, rfl, nofun⟩) rfl
    have hsecond := (hcommit.next (1, .reserveSpawnSlot) nofun rfl).next (1, .compareExchange false) nofun rfl
    have hrun := hsecond.next (1, .commit (agentAt "b" pathA)) (by
      rintro metadata ⟨⟩
      refine ⟨_, rfl, ?_⟩
      intro key metadata' hlookup
      cases List.mem_singleton.mp (AList.mem_lookup_iff.mp hlookup)
      decide) rfl
    refine ⟨_, _, hrun.1, hrun.2, rfl, rfl, rfl, ?_⟩
    intro haccounted
    have hcount : 2 = 0 + 1 := haccounted.count
    cases hcount
  · have hpath := hfirst.next (0, .reserveAgentPath .root) nofun rfl
    have hrun := hpath.next (0, .commit (agentAt "a" .root)) (by
      rintro metadata ⟨⟩
      refine ⟨_, rfl, ?_⟩
      intro key metadata' hlookup
      cases List.mem_singleton.mp (AList.mem_lookup_iff.mp hlookup)
      exact nofun) rfl
    refine ⟨_, _, hrun.1, hrun.2, rfl, rfl, rfl, ?_⟩
    intro haccounted
    have hcount : 1 = 0 + 0 := haccounted.count
    cases hcount
  · have hpaths := (hfirst.next (0, .reserveAgentPath pathA) nofun rfl).next (0, .reserveAgentPath pathB) nofun rfl
    have hrun := hpaths.next (0, .drop) nofun rfl
    refine ⟨_, _, hrun.1, hrun.2, _, List.mem_append_right _ (List.mem_singleton_self _), ?_⟩
    intro hreturns
    have hfreed := (hreturns.drop 0 _ rfl rfl).2.2 pathA.text
    revert hfreed
    decide +kernel

end System

end Supercodex.Agents

import Supercodex.Library.Text
import Mathlib.Data.List.AList
import Mathlib.Data.Finset.Insert

/-!
# Agent paths and thread ids (`protocol/src/agent_path.rs`, `protocol/src/thread_id.rs`)
-/

namespace Supercodex.Agents

/-- `AgentPath::ROOT`. -/
def rootText : Text := "/root".toList

/-- `AgentPath::MORPHEUS`. -/
def morpheusText : Text := "/morpheus".toList

/-- `AgentPath::ROOT_SEGMENT`. -/
def rootSegment : Text := "root".toList

/-- `validate_agent_name`. -/
def validateAgentName (agentName : Text) : Except String Unit :=
  if agentName = [] then .error "agent_name must not be empty"
  else if agentName = rootSegment then .error "agent_name `root` is reserved"
  else if agentName = ['.'] ∨ agentName = ['.', '.'] then
    .error ("agent_name `" ++ String.ofList agentName ++ "` is reserved")
  else if '/' ∈ agentName then .error "agent_name must not contain `/`"
  else if !agentName.all fun c => c.isLower || c.isDigit || c == '_' then
    .error "agent_name must use only lowercase letters, digits, and underscores"
  else .ok ()

/-- `validate_absolute_path`. -/
def validateAbsolutePath (path : Text) : Except String Unit :=
  if path = morpheusText then .ok ()
  else
    match Text.stripPrefix ['/'] path with
    | none => .error "absolute agent paths must start with `/root` or be `/morpheus`"
    | some stripped =>
      match stripped.splitOn '/' with
      | [] => .error "absolute agent path must not be empty"
      | root :: segments =>
        if root ≠ rootSegment then
          .error "absolute agent paths must start with `/root` or be `/morpheus`"
        else if stripped.getLast? = some '/' then
          .error "absolute agent path must not end with `/`"
        else segments.forM validateAgentName

/-- `AgentPath`: a text that `validate_absolute_path` accepts. -/
structure AgentPath where
  text : Text
  valid : validateAbsolutePath text = .ok ()
deriving DecidableEq

namespace AgentPath

/-- `AgentPath::root`. -/
def root : AgentPath := ⟨rootText, by decide⟩

/-- `AgentPath::is_root`. -/
def isRoot (path : AgentPath) : Bool := path.text = rootText

@[ext] lemma ext_text {path path' : AgentPath} (h : path.text = path'.text) : path = path' := by
  cases path
  cases path'
  cases h
  rfl

lemma head_eq_slash (path : AgentPath) : path.text.head? = some '/' := by
  obtain ⟨text, hvalid⟩ := path
  by_cases hmorpheus : text = morpheusText
  · subst hmorpheus
    rfl
  cases text with
  | nil => cases hvalid
  | cons c rest =>
    by_cases hc : '/' = c
    · subst hc
      rfl
    have hstrip : Text.stripPrefix ['/'] (c :: rest) = none := by
      unfold Text.stripPrefix
      rw [if_neg]
      simpa [List.isPrefixOf] using hc
    rw [validateAbsolutePath, if_neg hmorpheus, hstrip] at hvalid
    cases hvalid

end AgentPath

/-- `ThreadId`, by its displayed text (a UUID has exactly one). -/
structure ThreadId where
  uuid : Text
deriving DecidableEq

end Supercodex.Agents

/-!
# The agent registry (`core/src/agent/registry.rs`)

The registry limits how many sub-agents a session may have. The number of slots in use is an atomic
counter; the agents and the reserved paths are in a map behind a lock. A step is one access to the
counter or one section under the lock, and the calls of all threads take their steps in any order.
-/

namespace Supercodex.Agents

/-- `AgentMetadata`. -/
structure AgentMetadata where
  agentId : Option ThreadId := none
  agentPath : Option AgentPath := none
  agentNickname : Option Text := none
  agentRole : Option Text := none
  lastTaskMessage : Option Text := none
deriving DecidableEq

/-- `ActiveAgents`. -/
structure ActiveAgents where
  agentTree : AList fun _ : Text => AgentMetadata
  usedAgentNicknames : Finset Text
  nicknameResetCount : ℕ

/-- `AgentRegistry`. -/
structure AgentRegistry where
  activeAgents : ActiveAgents
  totalCount : ℕ

/-- The errors of the registry. -/
inductive CodexErr where
  | agentLimitReached (maxThreads : ℕ)
  | unsupportedOperation (message : Text)
deriving DecidableEq

/-- `format_agent_nickname`. -/
def formatAgentNickname (name : Text) : ℕ → Text
  | 0 => name
  | resetCount =>
    let value := resetCount + 1
    let suffix :=
      if value % 100 ∈ [11, 12, 13] then "th"
      else
        match value % 10 with
        | 1 => "st"
        | 2 => "nd"
        | 3 => "rd"
        | _ => "th"
    name ++ " the ".toList ++ (toString value).toList ++ suffix.toList

/-- The subtraction of `fetch_sub(1)` on a `usize`. -/
def fetchSub (n : ℕ) : ℕ := if n = 0 then 2 ^ 64 - 1 else n - 1

namespace AgentMetadata

/-- Is this an agent at the root path? -/
def atRoot (metadata : AgentMetadata) : Bool := metadata.agentPath.any AgentPath.isRoot

/-- The filter of `live_agents`. -/
def isLiveAgent (metadata : AgentMetadata) : Bool := metadata.agentId.isSome && !metadata.atRoot

/-- The key under which `register_spawned_thread` files an agent. -/
def treeKey (metadata : AgentMetadata) (threadId : ThreadId) : Text :=
  (metadata.agentPath.map AgentPath.text).getD ("thread:".toList ++ threadId.uuid)

end AgentMetadata

namespace AgentRegistry

/-- `AgentRegistry::default`. -/
def new : AgentRegistry := ⟨⟨∅, ∅, 0⟩, 0⟩

/-- The map of the agents and the reserved paths. -/
def agentTree (registry : AgentRegistry) : AList fun _ : Text => AgentMetadata :=
  registry.activeAgents.agentTree

/-- The registry with another map. -/
def setTree (registry : AgentRegistry) (agentTree : AList fun _ : Text => AgentMetadata) :
    AgentRegistry :=
  { registry with activeAgents := { registry.activeAgents with agentTree } }

/-- `live_agents`. -/
def liveAgents (registry : AgentRegistry) : List AgentMetadata :=
  (registry.agentTree.entries.map (·.2)).filter AgentMetadata.isLiveAgent

/-- `register_root_thread`. -/
def registerRootThread (registry : AgentRegistry) (threadId : ThreadId) : AgentRegistry :=
  match registry.agentTree.lookup rootText with
  | some _ => registry
  | none =>
    registry.setTree (registry.agentTree.insert rootText
      { agentId := some threadId, agentPath := some AgentPath.root })

/-- `register_spawned_thread`. -/
def registerSpawnedThread (registry : AgentRegistry) (metadata : AgentMetadata) : AgentRegistry :=
  match metadata.agentId with
  | none => registry
  | some threadId =>
    { registry with
      activeAgents :=
        { registry.activeAgents with
          usedAgentNicknames :=
            match metadata.agentNickname with
            | some nickname => insert nickname registry.activeAgents.usedAgentNicknames
            | none => registry.activeAgents.usedAgentNicknames
          agentTree := registry.agentTree.insert (metadata.treeKey threadId) metadata } }

/-- A random choice; the number stands for the random source. -/
def choose (choice : ℕ) (names : List Text) : Option Text := names[choice % names.length]?

/-- `reserve_agent_nickname`. -/
def reserveAgentNickname (registry : AgentRegistry) (names : List Text) (preferred : Option Text)
    (choice : ℕ) : AgentRegistry × Option Text :=
  let agents := registry.activeAgents
  let take (agents : ActiveAgents) (nickname : Text) : AgentRegistry × Option Text :=
    ({ registry with
        activeAgents :=
          { agents with usedAgentNicknames := insert nickname agents.usedAgentNicknames } },
      some nickname)
  match preferred with
  | some nickname => take agents nickname
  | none =>
    let available := (names.map (formatAgentNickname · agents.nicknameResetCount)).filter
      (· ∉ agents.usedAgentNicknames)
    match choose choice available, choose choice names with
    | some nickname, _ => take agents nickname
    | none, none => (registry, none)
    | none, some name =>
      -- The pool is used up: it is cleared, and the names come back with the next ordinal.
      take { agents with
          usedAgentNicknames := ∅
          nicknameResetCount := agents.nicknameResetCount + 1 }
        (formatAgentNickname name (agents.nicknameResetCount + 1))

/-- `reserve_agent_path`. -/
def reserveAgentPath (registry : AgentRegistry) (path : AgentPath) : Except CodexErr AgentRegistry :=
  match registry.agentTree.lookup path.text with
  | some _ =>
    .error (.unsupportedOperation
      ("agent path `".toList ++ path.text ++ "` already exists".toList))
  | none =>
    .ok (registry.setTree (registry.agentTree.insert path.text { agentPath := some path }))

/-- `release_reserved_agent_path`. -/
def releaseReservedAgentPath (registry : AgentRegistry) (path : AgentPath) : AgentRegistry :=
  if (registry.agentTree.lookup path.text).any (·.agentId.isNone) then
    registry.setTree (registry.agentTree.erase path.text)
  else registry

end AgentRegistry

/-- `SpawnReservation`; it is active for as long as its task holds it. -/
structure SpawnReservation where
  reservedAgentNickname : Option Text := none
  reservedAgentPath : Option AgentPath := none
deriving DecidableEq

/-- Where a thread of the process is. -/
inductive Task where
  /-- In the loop of `try_increment_spawned`, with the count it has read. -/
  | incrementing (current : ℕ)
  /-- Holding a reservation; `granted` are the paths that were reserved through it. -/
  | reserved (reservation : SpawnReservation) (granted : List AgentPath)
  /-- In the `drop` of its reservation, with the slot still to be given back. -/
  | dropping
  /-- In `release_spawned_thread`, with the slot of the removed agent still to be given back. -/
  | releasing
deriving DecidableEq

/-- Does the task hold a slot? -/
def Task.holdsSlot : Task → Bool
  | incrementing _ => false
  | reserved _ _ | dropping | releasing => true

/-- The registry and the threads that are in one of its calls or hold a reservation. -/
structure System where
  registry : AgentRegistry
  tasks : AList fun _ : ℕ => Task

/-- One step of a thread. -/
inductive Action where
  | reserveSpawnSlot
  /-- One round of the loop; a weak exchange may fail for no reason. -/
  | compareExchange (spurious : Bool)
  | reserveAgentNickname (names : List Text) (preferred : Option Text) (choice : ℕ)
  | reserveAgentPath (path : AgentPath)
  | commit (metadata : AgentMetadata)
  | drop
  /-- `release_spawned_thread` for a thread; `found` is the key that the search over the map gives. -/
  | releaseSpawnedThread (threadId : ThreadId) (found : Option Text)
  /-- The `fetch_sub` at the end of a drop or of a release. -/
  | giveBack
  | registerRootThread (threadId : ThreadId)
deriving DecidableEq

namespace System

/-- No agents and no calls. -/
def new : System := ⟨AgentRegistry.new, ∅⟩

/-- The system with a task in another place. -/
def goto (s : System) (task : ℕ) (place : Task) : System :=
  { s with tasks := s.tasks.insert task place }

/-- The system after a call has returned. -/
def leave (s : System) (task : ℕ) : System := { s with tasks := s.tasks.erase task }

/-- The system with another registry. -/
def withRegistry (s : System) (registry : AgentRegistry) : System := { s with registry }

/-- The system with another count. -/
def withCount (s : System) (totalCount : ℕ) : System :=
  { s with registry := { s.registry with totalCount } }

/-- Can the search of `release_spawned_thread` end with this key? The map gives its entries in any
order. -/
def canFind (s : System) (threadId : ThreadId) : Option Text → Bool
  | some key => (s.registry.agentTree.lookup key).any (·.agentId = some threadId)
  | none => s.registry.agentTree.entries.all (·.2.agentId ≠ some threadId)

/-- A step of a thread that is in none of the calls. -/
def begin (maxThreads : Option ℕ) (s : System) (task : ℕ) : Action → Option System
  | .reserveSpawnSlot =>
    match maxThreads with
    | some _ => some (s.goto task (.incrementing s.registry.totalCount))
    | none => some ((s.withCount (s.registry.totalCount + 1)).goto task (.reserved {} []))
  | .releaseSpawnedThread threadId found =>
    if s.canFind threadId found then
      match found.bind s.registry.agentTree.lookup, found with
      | some metadata, some key =>
        let s' := s.withRegistry (s.registry.setTree (s.registry.agentTree.erase key))
        some (if metadata.atRoot then s' else s'.goto task .releasing)
      | _, _ => some s
    else none
  | .registerRootThread threadId => some (s.withRegistry (s.registry.registerRootThread threadId))
  | _ => none

/-- One round of the loop of `try_increment_spawned`. -/
def compareExchange (maxThreads : ℕ) (s : System) (task current : ℕ) (spurious : Bool) : System :=
  if maxThreads ≤ current then s.leave task
  else if s.registry.totalCount = current ∧ spurious = false then
    (s.withCount (current + 1)).goto task (.reserved {} [])
  else s.goto task (.incrementing s.registry.totalCount)

/-- A step of a thread that holds a reservation. -/
def use (s : System) (task : ℕ) (reservation : SpawnReservation) (granted : List AgentPath) :
    Action → Option System
  | .reserveAgentNickname names preferred choice =>
    match s.registry.reserveAgentNickname names preferred choice with
    | (registry, some nickname) =>
      some ((s.withRegistry registry).goto task
        (.reserved { reservation with reservedAgentNickname := some nickname } granted))
    | (registry, none) => some (s.withRegistry registry)
  | .reserveAgentPath path =>
    match s.registry.reserveAgentPath path with
    | .ok registry =>
      some ((s.withRegistry registry).goto task
        (.reserved { reservation with reservedAgentPath := some path } (granted ++ [path])))
    | .error _ => some s
  | .commit metadata => some ((s.withRegistry (s.registry.registerSpawnedThread metadata)).leave task)
  | .drop =>
    match reservation.reservedAgentPath with
    | some path =>
      some ((s.withRegistry (s.registry.releaseReservedAgentPath path)).goto task .dropping)
    | none => some (s.goto task .dropping)
  | _ => none

/-- One step of a thread. -/
def step (maxThreads : Option ℕ) (s : System) (task : ℕ) (action : Action) : Option System :=
  match s.tasks.lookup task with
  | none => s.begin maxThreads task action
  | some (.incrementing current) =>
    match action, maxThreads with
    | .compareExchange spurious, some maxThreads =>
      some (s.compareExchange maxThreads task current spurious)
    | _, _ => none
  | some (.reserved reservation granted) => s.use task reservation granted action
  | some .dropping | some .releasing =>
    match action with
    | .giveBack => some ((s.withCount (fetchSub s.registry.totalCount)).leave task)
    | _ => none

end System

end Supercodex.Agents

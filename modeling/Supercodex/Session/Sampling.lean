import Supercodex.Accounts.Manager

/-!
# The sampling loop (`run_sampling_request` of `core/src/session/turn.rs`)

One call sends the prompt again and again until a response ends it. `onResponse` is one turn
of that loop; `runSamplingRequest` feeds it the responses of a call in the order in which the
backend gives them. A call leaves one event per usage limit behind: the account it was reported
for and the account the loop switched to.
-/

namespace Supercodex.Session

open Accounts

/-- The errors of `try_run_sampling_request`, as the loop tells them apart. -/
inductive CodexErr where
  | contextWindowExceeded
  | usageLimitReached
  | other (retryable : Bool)
deriving DecidableEq

/-- `CodexErr::is_retryable`. -/
def CodexErr.isRetryable : CodexErr → Bool
  | .other retryable => retryable
  | .contextWindowExceeded | .usageLimitReached => false

/-- What one request gives back. The faults are those that the rotation after a usage limit
meets. -/
inductive SamplingResponse where
  | ok
  | err (e : CodexErr) (faults : IoFaults)
deriving DecidableEq

/-- Is the response a usage limit? -/
def SamplingResponse.isUsageLimit : SamplingResponse → Bool
  | .err .usageLimitReached _ => true
  | _ => false

/-- What the loop did about one usage limit. -/
structure UsageLimitEvent where
  /-- The registry id of the account that was active when the limit was reported. -/
  account : Option String
  /-- The saved account the loop switched to, if it did. -/
  switchedTo : Option SavedChatgptAccount
deriving DecidableEq

/-- The state the loop carries from one request to the next. -/
structure SamplingState where
  auth : AuthManager
  exhausted : List String
  retries : Nat
  /-- Can `try_switch_fallback_transport` still leave the WebSocket transport? -/
  fallback : Bool

/-- How one turn of the loop ends. -/
inductive Control where
  | continue (s : SamplingState)
  | return (result : Except CodexErr Unit)

section
variable (lowercase : String → String) (maxRetries : Nat)

/-- The registry id of the account whose credentials the session uses. -/
def activeAccount (m : AuthManager) : Option String :=
  (m.cached.bind CodexAuth.getCurrentAuthJson).bind (accountRegistryIdForAuth lowercase)

/-- The ids in `exhausted_usage_limit_account_ids` once the active account has hit its limit. -/
def noteExhausted (m : AuthManager) (exhausted : List String) : List String :=
  match m.cached.bind CodexAuth.getAccountId with
  | some hitId => hitId :: exhausted
  | none => exhausted

/-- The `UsageLimitReached` arm of the loop. -/
def onUsageLimit (faults : IoFaults) (s : SamplingState) : UsageLimitEvent × Control :=
  let hit := activeAccount lowercase s.auth
  if s.auth.cached.any CodexAuth.isChatgptAuth then
    let exhausted := noteExhausted s.auth s.exhausted
    match s.auth.rotateToNextSavedChatgptAccount lowercase exhausted faults with
    | (auth, .ok (some next)) =>
      (⟨hit, some next⟩, .continue { s with auth := auth, exhausted := exhausted, retries := 0 })
    | (_, .ok none) => (⟨hit, none⟩, .return (.error .usageLimitReached))
    | (_, .error _) => (⟨hit, none⟩, .return (.error .usageLimitReached))
  else (⟨hit, none⟩, .return (.error .usageLimitReached))

/-- The retry budget for every other error. -/
def onError (e : CodexErr) (s : SamplingState) : Control :=
  if !e.isRetryable then .return (.error e)
  else if maxRetries ≤ s.retries ∧ s.fallback then
    .continue { s with retries := 0, fallback := false }
  else if s.retries < maxRetries then .continue { s with retries := s.retries + 1 }
  else .return (.error e)

/-- One turn of the loop. -/
def onResponse (s : SamplingState) : SamplingResponse → List UsageLimitEvent × Control
  | .ok => ([], .return (.ok ()))
  | .err .contextWindowExceeded _ => ([], .return (.error .contextWindowExceeded))
  | .err .usageLimitReached faults =>
    let (event, control) := onUsageLimit lowercase faults s
    ([event], control)
  | .err e _ => ([], onError maxRetries e s)

/-- What a call has done after some responses: its events, and its result once it returned. -/
structure SamplingRun where
  events : List UsageLimitEvent
  result : Option (Except CodexErr Unit)

/-- `run_sampling_request` on the responses of the backend. Responses after the one that ends
the call are never asked for. -/
def runSamplingRequest (s : SamplingState) : List SamplingResponse → SamplingRun
  | [] => ⟨[], none⟩
  | r :: rs =>
    match onResponse lowercase maxRetries s r with
    | (events, .return result) => ⟨events, some result⟩
    | (events, .continue s) =>
      let rest := runSamplingRequest s rs
      ⟨events ++ rest.events, rest.result⟩

/-- All the responses were asked for: the call is still running before each of them. -/
def Received (s : SamplingState) : List SamplingResponse → Prop
  | [] => True
  | r :: rs =>
    match onResponse lowercase maxRetries s r with
    | (_, .return _) => rs = []
    | (_, .continue s) => Received s rs

/-- The state in which a call starts: no account is known to be exhausted. -/
def SamplingState.initial (auth : AuthManager) (fallback : Bool) : SamplingState :=
  ⟨auth, [], 0, fallback⟩

end

end Supercodex.Session

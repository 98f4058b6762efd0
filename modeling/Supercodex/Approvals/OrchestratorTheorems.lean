import Supercodex.Library.Effects
import Supercodex.Approvals.RequirementTheorems
import Supercodex.Library.Runs
import Supercodex.Approvals.Orchestrator

/-!
# What stands behind an attempt

No attempt of a call is made that was not approved where an approval is needed, and no second one without a
denial of the first. The calls of a session see each other only through the approvals for the session, and
those are what users gave.
-/

namespace Supercodex.Approvals

open ExecPolicy Permissions Runs Call
open NetworkApproval (ReviewDecision)

section

/-! ## Approvals in a run -/

/-- What an approval that is waited for is requested for. -/
def Phase.stage : Phase → Option Stage
  | hooks stage | guardian stage | cache stage | user stage _ => some stage
  | attempting .. | finished _ => none

/-- Does the decision approve? -/
def approves : ReviewDecision → Bool
  | .approved | .approvedExecpolicyAmendment | .approvedForSession | .networkPolicyAmendment .allow => true
  | .networkPolicyAmendment .deny | .denied | .timedOut | .abort => false

variable {Id Key : Type} {serialize : Key → Option Text} {os : TargetOs}
  {ts ts' : List (Transition (Session Id Key) (Action Id Key))} {id : Id} {context : CallContext Key}
  {call : Call Key} {stage : Stage} {event : Event}

/-- The call was told this while it waited for the approval. -/
def ToldAt (ts : List (Transition (Session Id Key) (Action Id Key))) (id : Id) (stage : Stage)
    (event : Event) : Prop :=
  ∃ t ∈ ts, t.label = .tell id event ∧
    ∃ call, t.before.calls id = some call ∧ call.phase.stage = some stage

/-- A user approved this key for the session, with a call of that key. -/
def SessionKey (serialize : Key → Option Text) (ts : List (Transition (Session Id Key) (Action Id Key)))
    (text : Text) : Prop :=
  ∃ t ∈ ts, ∃ id call, t.label = .tell id (.userDecided .approvedForSession) ∧
    t.before.calls id = some call ∧ ∃ key ∈ call.request.approvalKeys, serialize key = some text

/-- The sandbox denied the first attempt of the call. -/
def DeniedFirst (ts : List (Transition (Session Id Key) (Action Id Key))) (id : Id)
    (networkPolicyDecision : Option NetworkPolicyDecisionPayload) : Prop :=
  ∃ t ∈ ts, t.label = .tell id (.attempted (.sandboxDenied networkPolicyDecision)) ∧
    ∃ call sandbox, t.before.calls id = some call ∧ call.phase = .attempting .initial sandbox

/-- The ways in which an attempt is approved. The guardian's approvals are never taken from anyone else, and
under a strict review there is no other way. -/
inductive Approved (serialize : Key → Option Text)
    (ts : List (Transition (Session Id Key) (Action Id Key))) (id : Id) (context : CallContext Key)
    (stage : Stage) : Prop where
  | byHooks (hstrict : context.strictAutoReview = false)
      (htold : ToldAt ts id stage (.hooksDecided (some .allow)))
  | byGuardian (decision : ReviewDecision) (rejectionMessage : Text) (huse : context.useGuardian = true)
      (happroves : approves decision = true)
      (htold : ToldAt ts id stage (.guardianDecided decision rejectionMessage))
  | byUser (decision : ReviewDecision) (huse : context.useGuardian = false)
      (happroves : approves decision = true) (htold : ToldAt ts id stage (.userDecided decision))
  | forSession (huse : context.useGuardian = false) (hkeys : context.request.approvalKeys ≠ [])
      (hsession : ∀ key ∈ context.request.approvalKeys,
        ∃ text, serialize key = some text ∧ SessionKey serialize ts text)
  | preapproved (huse : context.useGuardian = false) (hpatch : context.request.runtime = .applyPatch)
      (hpermissions : context.request.permissionsPreapproved = true) (hstage : stage.retryReason = none)

/-- The first attempt needs an approval. -/
def CallContext.NeedsApproval (context : CallContext Key) : Prop :=
  (∃ reason amendment, context.request.execApprovalRequirement = .needsApproval reason amendment) ∨
    context.strictAutoReview = true

/-- The call may not be made at all. -/
def CallContext.Forbidden (context : CallContext Key) : Prop :=
  ∃ reason, context.request.execApprovalRequirement = .forbidden reason

variable {decision : ReviewDecision}

lemma rejectIfNotApproved_eq_none_iff {guardian : Bool} {rejectionMessage : Text}
    :
    rejectIfNotApproved guardian rejectionMessage decision = none ↔ approves decision = true := by
  cases decision with
  | networkPolicyAmendment action =>
    cases action with
    | allow => exact ⟨fun _ => rfl, fun _ => rfl⟩
    | deny => constructor <;> intro h <;> cases h
  | denied | timedOut | abort => constructor <;> intro h <;> cases h
  | approved | approvedExecpolicyAmendment | approvedForSession => exact ⟨fun _ => rfl, fun _ => rfl⟩

/-! ## What a call has to show -/

/-- What stands behind a request for an approval. -/
def StageSound (ts : List (Transition (Session Id Key) (Action Id Key))) (id : Id) (call : Call Key) :
    Stage → Prop
  | .first _ => ¬ call.Forbidden
  | .retry retryReason networkApprovalContext => ¬ call.Forbidden ∧
    (call.NeedsApproval → call.alreadyApproved = true) ∧
    ∃ networkPolicyDecision, DeniedFirst ts id networkPolicyDecision ∧
      Call.escalation call.toCallContext networkPolicyDecision = some (retryReason, networkApprovalContext)

/-- What stands behind what a call waits for. -/
def PhaseSound (serialize : Key → Option Text) (os : TargetOs)
    (ts : List (Transition (Session Id Key) (Action Id Key))) (id : Id) (call : Call Key) : Phase → Prop
  | .hooks stage => StageSound ts id call stage ∧ call.strictAutoReview = false
  | .guardian stage => StageSound ts id call stage ∧ call.useGuardian = true
  | .cache stage => StageSound ts id call stage ∧ call.useGuardian = false ∧ call.request.approvalKeys ≠ []
  | .user stage _ => StageSound ts id call stage ∧ call.useGuardian = false
  | .attempting .initial sandbox => ¬ call.Forbidden ∧ sandbox = call.initialSandbox os ∧
    (call.NeedsApproval → call.alreadyApproved = true)
  | .attempting .escalated sandbox => sandbox = .none ∧ ∃ retryReason networkApprovalContext,
    StageSound ts id call (.retry retryReason networkApprovalContext) ∧
    (Approved serialize ts id call.toCallContext (.retry retryReason networkApprovalContext) ∨
      (call.strictAutoReview = false ∧ networkApprovalContext = none ∧ call.alreadyApproved = true))
  | .finished _ => True

/-- A call that is approved already was approved for its first attempt. -/
def FirstApproved (serialize : Key → Option Text)
    (ts : List (Transition (Session Id Key) (Action Id Key))) (id : Id) (call : Call Key) : Prop :=
  call.alreadyApproved = true → ∃ reason, Approved serialize ts id call.toCallContext (.first reason)

/-- What stands behind a call. -/
structure CallSound (serialize : Key → Option Text) (os : TargetOs)
    (ts : List (Transition (Session Id Key) (Action Id Key))) (id : Id) (call : Call Key) : Prop where
  approved : FirstApproved serialize ts id call
  phase : PhaseSound serialize os ts id call call.phase

/-- What stands behind the calls of a session and the approvals they share. -/
structure SessionSound (serialize : Key → Option Text) (os : TargetOs)
    (ts : List (Transition (Session Id Key) (Action Id Key))) (session : Session Id Key) : Prop where
  keys : ∀ text decision, session.toolApprovals text = some decision → SessionKey serialize ts text
  calls : ∀ id call, session.calls id = some call → CallSound serialize os ts id call

/-! ## The steps of a call -/

lemma StageSound.goTo (h : StageSound ts id call stage) (phase : Phase) :
    StageSound ts id (call.goTo phase) stage := by
  cases stage with
  | first reason | retry reason networkApprovalContext => exact h

section

variable (h : FirstApproved serialize ts id call)
include h

lemma FirstApproved.goTo {phase : Phase}
    (hphase : PhaseSound serialize os ts id (call.goTo phase) phase) :
    CallSound serialize os ts id (call.goTo phase) :=
  ⟨h, hphase⟩

lemma FirstApproved.finished (result : CallResult) :
    CallSound serialize os ts id (call.goTo (.finished result)) :=
  h.goTo trivial

section

variable (hstage : StageSound ts id call stage)
include hstage

lemma FirstApproved.proceed (happroved : Approved serialize ts id call.toCallContext stage) :
    CallSound serialize os ts id (call.proceed os stage) := by
  cases stage with
  | first reason => exact ⟨fun _ => ⟨reason, happroved⟩, hstage, rfl, fun _ => rfl⟩
  | retry reason networkApprovalContext =>
    exact h.goTo ⟨rfl, reason, networkApprovalContext, hstage.goTo _, .inl happroved⟩

lemma FirstApproved.decided (rejectionMessage : Text)
    (happroved : approves decision = true → Approved serialize ts id call.toCallContext stage) :
    CallSound serialize os ts id (call.decided os stage decision rejectionMessage) := by
  unfold Call.decided
  split
  · exact h.finished _
  · rename_i hnone
    exact h.proceed hstage (happroved (rejectIfNotApproved_eq_none_iff.mp hnone))

lemma FirstApproved.withCachedApproval (huse : call.useGuardian = false) :
    CallSound serialize os ts id (call.withCachedApproval stage) := by
  unfold Call.withCachedApproval
  split
  · exact h.goTo ⟨hstage.goTo _, huse⟩
  · rename_i hkeys
    exact h.goTo ⟨hstage.goTo _, huse, hkeys⟩

lemma FirstApproved.startApproval
    :
    CallSound serialize os ts id (call.startApproval os stage) := by
  unfold Call.startApproval
  split
  · rename_i huse
    exact h.goTo ⟨hstage.goTo _, huse⟩
  rename_i huse
  have huse : call.useGuardian = false := by simpa using huse
  split
  · exact h.withCachedApproval hstage huse
  · exact h.withCachedApproval hstage huse
  rename_i hpatch
  split
  · rename_i hpreapproved
    rw [Bool.and_eq_true, Option.isNone_iff_eq_none] at hpreapproved
    exact h.decided hstage _ fun _ => .preapproved huse hpatch hpreapproved.1 hpreapproved.2
  split
  · exact h.goTo ⟨hstage.goTo _, huse⟩
  · exact h.withCachedApproval hstage huse

lemma FirstApproved.requestApproval {evaluateHooks : Bool}
    (hhooks : evaluateHooks = true → call.strictAutoReview = false) :
    CallSound serialize os ts id (call.requestApproval os stage evaluateHooks) := by
  unfold Call.requestApproval
  split
  · rename_i hevaluate
    exact h.goTo ⟨hstage.goTo _, hhooks hevaluate⟩
  · exact h.startApproval hstage

end

end

lemma callSound_run : CallSound serialize os ts id (run os context) := by
  have hfirst : ∀ phase, FirstApproved serialize ts id ⟨context, false, phase⟩ :=
    fun _ halready => absurd halready Bool.false_ne_true
  unfold run
  split
  · rename_i hskip
    have hallowed : ¬ context.Forbidden := by
      intro hforbidden
      obtain ⟨reason, hforbidden⟩ := hforbidden
      rw [hskip] at hforbidden
      cases hforbidden
    split
    · -- a strict review asks where nobody else would be asked
      refine (hfirst _).requestApproval ?_ fun hnever => absurd hnever Bool.false_ne_true
      exact hallowed
    · rename_i hstrict
      refine ⟨hfirst _, hallowed, rfl, fun hneeds => ?_⟩
      rcases hneeds with ⟨reason, amendment, hneeds⟩ | hneeds
      · rw [show context.request.execApprovalRequirement = _ from hskip] at hneeds
        cases hneeds
      · exact absurd hneeds hstrict
  · exact (hfirst _).finished _
  · rename_i hneeds
    refine (hfirst _).requestApproval ?_ fun hstrict => by simpa using hstrict
    intro hforbidden
    obtain ⟨reason, hforbidden⟩ := hforbidden
    rw [show context.request.execApprovalRequirement = _ from hneeds] at hforbidden
    cases hforbidden

/-- Without a user who may be asked there is no second attempt. -/
lemma escalation_never {networkPolicyDecision : Option NetworkPolicyDecisionPayload}
    (hnever : context.turn.approvalPolicy = .never) :
    escalation context networkPolicyDecision = none := by
  unfold escalation
  rw [hnever]
  simp [ToolRuntime.wantsNoSandboxApproval]

lemma CallSound.afterInitial (h : CallSound serialize os ts id call) {sandbox : SandboxType}
    (hphase : call.phase = .attempting .initial sandbox) {result : AttemptResult}
    (hdenied : ∀ networkPolicyDecision, result = .sandboxDenied networkPolicyDecision →
      DeniedFirst ts id networkPolicyDecision) :
    CallSound serialize os ts id (call.afterInitial os result) := by
  obtain ⟨hallowed, -, hneeds⟩ : PhaseSound serialize os ts id call (.attempting .initial sandbox) := by
    rw [← hphase]
    exact h.phase
  have hfirst := h.approved
  unfold Call.afterInitial
  split
  swap
  · exact hfirst.finished _
  rename_i networkPolicyDecision
  split
  · exact hfirst.finished _
  rename_i retryReason networkApprovalContext hescalation
  have hstage : StageSound ts id call (.retry retryReason networkApprovalContext) :=
    ⟨hallowed, hneeds, networkPolicyDecision, hdenied _ rfl, hescalation⟩
  split
  · rename_i hbypass
    simp only [Bool.and_eq_true, Bool.not_eq_true', Option.isNone_iff_eq_none] at hbypass
    obtain ⟨⟨hstrict, hbypass⟩, hnone⟩ := hbypass
    have halready : call.alreadyApproved = true := by
      unfold shouldBypassApproval at hbypass
      split at hbypass
      · assumption
      · rw [escalation_never (by simpa using hbypass)] at hescalation
        cases hescalation
    exact hfirst.goTo ⟨rfl, retryReason, networkApprovalContext, hstage.goTo _,
      .inr ⟨hstrict, hnone, halready⟩⟩
  · exact hfirst.requestApproval hstage fun hstrict => by simpa using hstrict

variable {store store' : ApprovalStore}

lemma record_eq_some {keys : List Key} {decision value : ReviewDecision} {text : Text}
    (h : store.record serialize keys decision text = some value) :
    store text = some value ∨
      (decision = .approvedForSession ∧ ∃ key ∈ keys, serialize key = some text) := by
  unfold ApprovalStore.record at h
  split at h
  swap
  · exact .inl h
  rename_i hdecision
  rw [and_iff_right hdecision]
  induction keys generalizing store with
  | nil => exact .inl h
  | cons key keys ih =>
    rw [List.foldl_cons] at h
    rcases ih h with hput | ⟨key', hkey', htext⟩
    · unfold ApprovalStore.put at hput
      cases hserialize : serialize key with
      | none =>
        rw [hserialize] at hput
        exact .inl hput
      | some s =>
        rw [hserialize] at hput
        by_cases hs : text = s
        · exact .inr ⟨key, List.mem_cons_self, by rw [hserialize, hs]⟩
        · dsimp only at hput
          rw [Function.update_of_ne hs] at hput
          exact .inl hput
    · exact .inr ⟨key', List.mem_cons_of_mem _ hkey', htext⟩

variable {before after : Session Id Key} {call' : Call Key}

/-- One step of a call, after which what it was told is on record. -/
lemma CallSound.step (h : CallSound serialize os ts id call)
    (hkeys : ∀ text decision, store text = some decision → SessionKey serialize ts text)
    (hmem : ⟨before, .tell id event, after⟩ ∈ ts)
    (hbefore : before.calls id = some call)
    (hstep : call.step serialize os store event = some (store', call')) :
    CallSound serialize os ts id call' ∧
      ∀ text decision, store' text = some decision → SessionKey serialize ts text := by
  have htold : ∀ stage, call.phase.stage = some stage → ToldAt ts id stage event :=
    fun stage hstage => ⟨_, hmem, rfl, call, hbefore, hstage⟩
  have hphase := h.phase
  unfold Call.step at hstep
  split at hstep
  · -- the hooks allow, deny or leave it to others
    rename_i stage decision hcase
    rw [hcase] at hphase
    obtain ⟨hstage, hstrict⟩ := hphase
    cases hstep
    refine ⟨?_, hkeys⟩
    split
    · exact h.approved.decided hstage _ fun _ => .byHooks hstrict (htold stage (by rw [hcase]; rfl))
    · exact h.approved.finished _
    · exact h.approved.startApproval hstage
  · -- the guardian decides
    rename_i stage decision rejectionMessage hcase
    rw [hcase] at hphase
    cases hstep
    exact ⟨h.approved.decided hphase.1 _ fun happroves =>
      .byGuardian decision rejectionMessage hphase.2 happroves (htold stage (by rw [hcase]; rfl)), hkeys⟩
  · -- the approvals for the session are looked at
    rename_i stage hcase
    rw [hcase] at hphase
    obtain ⟨hstage, huse, hnonempty⟩ := hphase
    cases hstep
    refine ⟨?_, hkeys⟩
    split
    · -- every key was approved by a user before
      rename_i happroves
      refine h.approved.decided hstage _ fun _ => .forSession huse hnonempty fun key hkey => ?_
      have hkey := List.all_eq_true.mp happroves key hkey
      rw [decide_eq_true_eq, ApprovalStore.get, Option.bind_eq_some_iff] at hkey
      obtain ⟨text, htext, hstore⟩ := hkey
      exact ⟨text, htext, hkeys text _ hstore⟩
    · exact h.approved.goTo ⟨hstage.goTo _, huse⟩
  · -- the user decides, and an approval for the session is kept
    rename_i stage recorded decision hcase
    rw [hcase] at hphase
    cases hstep
    refine ⟨h.approved.decided hphase.1 _ fun happroves =>
      .byUser decision hphase.2 happroves (htold stage (by rw [hcase]; rfl)), ?_⟩
    intro text value hvalue
    split at hvalue
    swap
    · exact hkeys text value hvalue
    rcases record_eq_some hvalue with hold | ⟨rfl, key, hkey, htext⟩
    · exact hkeys text value hold
    · exact ⟨_, hmem, id, call, rfl, hbefore, key, hkey, htext⟩
  · -- the first attempt ends
    rename_i sandbox result hcase
    cases hstep
    refine ⟨h.afterInitial hcase ?_, hkeys⟩
    intro networkPolicyDecision hresult
    subst hresult
    exact ⟨_, hmem, rfl, call, sandbox, hbefore, hcase⟩
  · cases hstep
    exact ⟨h.approved.finished _, hkeys⟩
  · cases hstep

/-! ## Sessions -/

variable [DecidableEq Id] {session session' : Session Id Key}

/-- The runs of a session that has no calls at first. -/
abbrev SessionRun (serialize : Key → Option Text) (os : TargetOs)
    (ts : List (Transition (Session Id Key) (Action Id Key))) (session : Session Id Key) : Prop :=
  Run (fun s action s' => s.step serialize os action = some s') Session.new ts session

lemma calls_of_update {calls : Id → Option (Call Key)} {id' : Id}
    (h : Function.update calls id (some call) id' = some call') :
    (id' = id ∧ call' = call) ∨ (id' ≠ id ∧ calls id' = some call') := by
  by_cases hid : id' = id
  · rw [hid, Function.update_self] at h
    exact .inl ⟨hid, (Option.some.inj h).symm⟩
  · rw [Function.update_of_ne hid] at h
    exact .inr ⟨hid, h⟩

lemma SessionSound.step {action : Action Id Key} (h : SessionSound serialize os ts session)
    (hmem : ⟨session, action, session'⟩ ∈ ts)
    (hstep : session.step serialize os action = some session') : SessionSound serialize os ts session' := by
  cases action with
  | run id context =>
    unfold Session.step at hstep
    dsimp only at hstep
    split at hstep
    swap
    · cases hstep
    cases hstep
    refine ⟨h.keys, ?_⟩
    intro id' call hcall
    rcases calls_of_update hcall with ⟨rfl, rfl⟩ | ⟨-, hcall⟩
    · exact callSound_run
    · exact h.calls id' call hcall
  | tell id event =>
    simp only [Session.step, Effects.bind_eq_some] at hstep
    obtain ⟨call, hcall, ⟨store, call'⟩, htaken, hstep⟩ := hstep
    cases hstep
    obtain ⟨hsound, hkeys⟩ := (h.calls id call hcall).step h.keys hmem hcall htaken
    refine ⟨hkeys, ?_⟩
    intro id' call'' hcall''
    rcases calls_of_update hcall'' with ⟨rfl, rfl⟩ | ⟨-, hcall''⟩
    · exact hsound
    · exact h.calls id' call'' hcall''

/-- What stands behind the calls after a part of a run is on record in the whole of it. -/
lemma SessionRun.sound (run : SessionRun serialize os ts' session) (hsub : ts' ⊆ ts) :
    SessionSound serialize os ts session := by
  induction run with
  | nil =>
    refine ⟨?_, ?_⟩
    · intro text decision hstore
      cases hstore
    · intro id call hcall
      cases hcall
  | snoc run taken ih =>
    have hbefore := ih (List.Subset.trans (List.subset_append_left _ _) hsub)
    exact hbefore.step (hsub (List.mem_append_right _ (List.mem_singleton_self _))) taken

/-- What stands behind an attempt, in every run. It is not forbidden, and one that needs an approval was approved
for this call, or before for the session. A second attempt follows a denial of the first by the sandbox that
the approval policy lets escalate, and was approved itself unless the first was, the review is not strict and
no network access is asked for. -/
theorem attempts_approved (run : SessionRun serialize os ts session) (hcall : session.calls id = some call)
    {attempt : Attempt} {sandbox : SandboxType} (hphase : call.phase = .attempting attempt sandbox) :
    ¬ call.Forbidden ∧
    (call.NeedsApproval → ∃ reason, Approved serialize ts id call.toCallContext (.first reason)) ∧
    (attempt = .initial → sandbox = call.initialSandbox os) ∧
    (attempt = .escalated → sandbox = .none ∧
      ∃ networkPolicyDecision retryReason networkApprovalContext, DeniedFirst ts id networkPolicyDecision ∧
        escalation call.toCallContext networkPolicyDecision =
          some (retryReason, networkApprovalContext) ∧
        (Approved serialize ts id call.toCallContext (.retry retryReason networkApprovalContext) ∨
          (call.strictAutoReview = false ∧ networkApprovalContext = none ∧
            ∃ reason, Approved serialize ts id call.toCallContext (.first reason)))) := by
  have hsound := (run.sound (List.Subset.refl ts)).calls id call hcall
  have hbehind := hsound.phase
  rw [hphase] at hbehind
  cases attempt with
  | initial =>
    obtain ⟨hallowed, hsandbox, hneeds⟩ := hbehind
    exact ⟨hallowed, fun h => hsound.approved (hneeds h), fun _ => hsandbox, fun h => absurd h (by decide)⟩
  | escalated =>
    obtain ⟨hsandbox, retryReason, networkApprovalContext, hstage, happroved⟩ := hbehind
    obtain ⟨hallowed, hneeds, networkPolicyDecision, hdenied, hescalation⟩ := hstage
    refine ⟨hallowed, fun h => hsound.approved (hneeds h), fun h => absurd h (by decide),
      fun _ => ⟨hsandbox, ?_⟩⟩
    refine ⟨networkPolicyDecision, retryReason, networkApprovalContext, hdenied, hescalation, ?_⟩
    rcases happroved with happroved | ⟨hstrict, hnone, halready⟩
    · exact .inl happroved
    · exact .inr ⟨hstrict, hnone, hsound.approved halready⟩

/-- `cargo build && cargo test`. -/
def cargoScript : List Text := ["bash".toList, "-lc".toList, "cargo build && cargo test".toList]

/-- A platform that parses this script. -/
def cargoPlatform : Platform where
  parseShellLcPlainCommands command :=
    if command = cargoScript then
      some [["cargo".toList, "build".toList], ["cargo".toList, "test".toList]]
    else none
  parseShellLcSingleCommandPrefix _ := none
  isKnownSafeCommand _ := false
  commandMightBeDangerous _ := false
  shlexTryJoin _ := none
  windows := false
  home := none
  currentDir := none

/-- A script of `cargo` commands. -/
def cargoCall : CommandCall Text := ⟨cargoScript, .dangerFullAccess, .useDefault, none, none, ["cargo".toList]⟩

/-- A call of that script without rules, where only trusted commands run unasked. -/
def cargoContext : CallContext Text where
  request := ⟨.shell, ["cargo".toList], .needsApproval none (some ["cargo".toList, "build".toList]),
    .useDefault, false⟩
  turn := ⟨.unlessTrusted, false, ⟨.restricted, none, []⟩, .restricted, false, false⟩
  strictAutoReview := false

/-- A call is approved by what was approved for the session before. -/
theorem attempts_approved_for_session :
    ∃ ts, ∃ session : Session ℕ Text, ∃ call, SessionRun some .linux ts session ∧ session.calls 1 = some call ∧
      call.phase = .attempting .initial .linuxSeccomp ∧
      ∃ reason, Approved some ts 1 call.toCallContext (.first reason) := by
  have hnew : SessionRun some .linux [] (Session.new : Session ℕ Text) := .nil
  have hasked := (hnew.next (.run 0 cargoContext) rfl).next (.tell 0 (.hooksDecided none)) rfl
  have happroved := (hasked.next (.tell 0 .cacheChecked) rfl).next (.tell 0 (.userDecided .approvedForSession)) rfl
  have hsecond := (happroved.next (.run 1 cargoContext) rfl).next (.tell 1 (.hooksDecided none)) rfl
  have run := hsecond.next (.tell 1 .cacheChecked) rfl
  exact ⟨_, _, _, run, rfl, rfl, (attempts_approved run rfl rfl).2.1 (.inl ⟨_, _, rfl⟩)⟩

/-! ## Attempts without a sandbox -/

section

variable {platform : Platform} {execPolicy : Policy} {req : ExecApprovalRequest} {cmd : List Text}

/-- What the heuristics let run outside of the sandbox on request is known to be safe, or the file system is not
restricted at all. -/
lemma known_safe_of_fallback (honRequest : req.approvalPolicy = .onRequest)
    (hescalated : req.sandboxPermissions = .requireEscalated)
    (hallow : fallbackFor platform req cmd = .allow) :
    (platform.isKnownSafeCommand cmd = true ∧ (commandsForExecPolicy platform req.command).2 = false) ∨
      req.fileSystemSandboxPolicy.kind ≠ .restricted := by
  unfold fallbackFor execPolicyFallback renderDecisionForUnmatchedCommand at hallow
  split at hallow
  · rename_i hsafe
    exact .inl (by simpa using hsafe)
  right
  intro hrestricted
  simp only [honRequest, hescalated, hrestricted] at hallow
  generalize (platform.commandMightBeDangerous cmd || _) = dangerous at hallow
  cases dangerous <;> exact absurd hallow (by decide)

/-- Every command of the call may leave the sandbox unasked. The rules of the policy allow it, or it asks to leave
and is known to be safe, or the file system is not restricted at all. -/
def LeavesUnasked (platform : Platform) (execPolicy : Policy) (turn : TurnContext)
    (call : CommandCall Key) : Prop :=
  ∀ cmd ∈ segments platform (call.execApprovalRequest turn),
    (rulesFor platform execPolicy cmd ≠ [] ∧ ∀ m ∈ rulesFor platform execPolicy cmd, m.decision = .allow) ∨
    (call.sandboxPermissions = .requireEscalated ∧
      ((platform.isKnownSafeCommand cmd = true ∧ (commandsForExecPolicy platform call.command).2 = false) ∨
        turn.fileSystemSandboxPolicy.kind ≠ .restricted))

lemma applyGranted_of_escalated {sandboxPermissions : SandboxPermissions} {granted : Option Bool}
    (h : (applyGrantedTurnPermissions sandboxPermissions granted).1 = .requireEscalated) :
    sandboxPermissions = .requireEscalated := by
  unfold applyGrantedTurnPermissions at h
  split at h
  · assumption
  split at h
  · cases h
  · exact h

lemma escalated_of_bypass {request : ToolRequest Key} {amendment : Option ExecPolicyAmendment}
    (hbypass : request.sandboxModeForFirstAttempt = .bypassSandboxFirstAttempt)
    (hskip : request.execApprovalRequirement = .skip false amendment) :
    request.sandboxPermissions = .requireEscalated := by
  unfold ToolRequest.sandboxModeForFirstAttempt sandboxOverrideForFirstAttempt at hbypass
  rw [hskip] at hbypass
  by_contra hnot
  rw [SandboxPermissions.requiresEscalatedPermissions, decide_eq_false hnot] at hbypass
  cases hruntime : request.runtime <;> rw [hruntime] at hbypass <;> cases hbypass

/-- A call that leaves the sandbox at the first attempt without an approval may do so for each of its commands. -/
lemma leavesUnasked_of_skip {runtime : ToolRuntime} {commandCall : CommandCall Key} {turn : TurnContext}
    {request : ToolRequest Key}
    (hrequest : commandCall.toolRequest platform execPolicy turn runtime = some request)
    (hbypass : request.sandboxModeForFirstAttempt = .bypassSandboxFirstAttempt)
    {bypass : Bool} {amendment : Option ExecPolicyAmendment}
    (hskip : request.execApprovalRequirement = .skip bypass amendment) :
    LeavesUnasked platform execPolicy turn commandCall := by
  unfold CommandCall.toolRequest at hrequest
  dsimp only at hrequest
  split at hrequest
  · cases hrequest
  rename_i hguard
  cases hrequest
  obtain ⟨hallow, hrules⟩ := allowed_of_requirement hskip
  intro cmd hcmd
  cases bypass with
  | true => exact .inl (hrules.mp rfl cmd hcmd)
  | false =>
    -- only a request to leave the sandbox is left
    have hcall := applyGranted_of_escalated (escalated_of_bypass hbypass hskip)
    simp only [hcall, applyGrantedTurnPermissions, if_true] at hguard
    have honRequest : turn.approvalPolicy = .onRequest := by
      simpa [SandboxPermissions.requestsSandboxOverride] using hguard
    by_cases hnone : rulesFor platform execPolicy cmd = []
    · have hfallback := hallow cmd hcmd
      rw [decisionFor_of_no_rules hnone] at hfallback
      refine .inr ⟨hcall, known_safe_of_fallback honRequest ?_ hfallback⟩
      simp [CommandCall.execApprovalRequest, applyGrantedTurnPermissions, hcall]
    · refine .inl ⟨hnone, fun m hm => ?_⟩
      have hle := rulesFor_le_decisionFor (fallbackFor platform (commandCall.execApprovalRequest turn)) hm
      rw [hallow cmd hcmd] at hle
      exact Policy.decision_le_antisymm hle (Policy.decision_allow_le _)

end

/-- No command that needs the sandbox is attempted outside of it, in any run, unless the attempt was approved for
this call or for the session, or each of its commands may leave the sandbox unasked. -/
theorem unsandboxed_attempts_approved (run : SessionRun serialize os ts session)
    (hcall : session.calls id = some call) {attempt : Attempt}
    (hphase : call.phase = .attempting attempt .none) (hneeded : selectInitial os call.turn ≠ .none)
    (platform : Platform) (execPolicy : Policy)
    (hrequest : call.request.runtime = .applyPatch ∨ ∃ commandCall : CommandCall Key,
      commandCall.toolRequest platform execPolicy call.turn call.request.runtime = some call.request) :
    (∃ stage, Approved serialize ts id call.toCallContext stage) ∨
      ∃ commandCall : CommandCall Key,
        commandCall.toolRequest platform execPolicy call.turn call.request.runtime = some call.request ∧
        LeavesUnasked platform execPolicy call.turn commandCall := by
  have hsound := (run.sound (List.Subset.refl ts)).calls id call hcall
  have hbehind := hsound.phase
  rw [hphase] at hbehind
  cases attempt with
  | escalated =>
    obtain ⟨-, retryReason, networkApprovalContext, -, happroved⟩ := hbehind
    rcases happroved with happroved | ⟨-, -, halready⟩
    · exact .inl ⟨_, happroved⟩
    · obtain ⟨reason, happroved⟩ := hsound.approved halready
      exact .inl ⟨_, happroved⟩
  | initial =>
    obtain ⟨hallowed, hsandbox, hneeds⟩ := hbehind
    have hbypass : call.request.sandboxModeForFirstAttempt = .bypassSandboxFirstAttempt := by
      unfold CallContext.initialSandbox at hsandbox
      split at hsandbox
      · assumption
      · exact absurd hsandbox.symm hneeded
    by_cases hneedsApproval : call.NeedsApproval
    · obtain ⟨reason, happroved⟩ := hsound.approved (hneeds hneedsApproval)
      exact .inl ⟨_, happroved⟩
    right
    have hskip : ∃ bypass amendment, call.request.execApprovalRequirement = .skip bypass amendment := by
      cases hrequirement : call.request.execApprovalRequirement with
      | skip bypass amendment => exact ⟨bypass, amendment, rfl⟩
      | needsApproval reason amendment =>
        exact absurd (.inl ⟨reason, amendment, hrequirement⟩) hneedsApproval
      | forbidden reason => exact absurd ⟨reason, hrequirement⟩ hallowed
    obtain ⟨bypass, amendment, hskip⟩ := hskip
    rcases hrequest with hpatch | ⟨commandCall, hrequest⟩
    · -- patches never ask to leave the sandbox
      unfold ToolRequest.sandboxModeForFirstAttempt at hbypass
      rw [hpatch] at hbypass
      cases hbypass
    · exact ⟨commandCall, hrequest, leavesUnasked_of_skip hrequest hbypass hskip⟩

/-- A command that was approved is attempted again where the sandbox denied it. -/
theorem unsandboxed_attempts_approved_script :
    ∃ ts, ∃ session : Session ℕ Text, ∃ call, SessionRun some .linux ts session ∧ session.calls 0 = some call ∧
      call.phase = .attempting .escalated .none ∧
      ((∃ stage, Approved some ts 0 call.toCallContext stage) ∨ ∃ commandCall : CommandCall Text,
        commandCall.toolRequest cargoPlatform ⟨fun _ => [], fun _ => none⟩ call.turn call.request.runtime =
          some call.request ∧
        LeavesUnasked cargoPlatform ⟨fun _ => [], fun _ => none⟩ call.turn commandCall) := by
  have hnew : SessionRun some .linux [] (Session.new : Session ℕ Text) := .nil
  have hasked := (hnew.next (.run 0 cargoContext) rfl).next (.tell 0 (.hooksDecided none)) rfl
  have happroved := (hasked.next (.tell 0 .cacheChecked) rfl).next (.tell 0 (.userDecided .approved)) rfl
  have run := happroved.next (.tell 0 (.attempted (.sandboxDenied none))) rfl
  exact ⟨_, _, _, run, rfl, rfl, unsandboxed_attempts_approved run rfl rfl (by decide) _ _
    (.inr ⟨cargoCall, by decide +kernel⟩)⟩

/-! ## Calls end -/

/-- How far an approval is from the attempt it is for. -/
def Stage.rank : Stage → ℕ
  | first _ => 5
  | retry .. => 1

/-- How many answers a call may wait for yet. -/
def Phase.rank : Phase → ℕ
  | hooks stage => stage.rank + 3
  | guardian stage | cache stage => stage.rank + 2
  | user stage _ => stage.rank + 1
  | attempting .initial _ => 5
  | attempting .escalated _ => 1
  | finished _ => 0

/-- How many attempts a call may make yet. -/
def Phase.attemptsLeft (phase : Phase) : ℕ := if 5 ≤ phase.rank then 2 else if 1 ≤ phase.rank then 1 else 0

/-- Is the call told something? -/
def tells (id : Id) (t : Transition (Session Id Key) (Action Id Key)) : Bool :=
  match t.label with
  | .tell id' _ => id' = id
  | .run .. => false

/-- Does an attempt of the call end? -/
def endsAttempt (id : Id) (t : Transition (Session Id Key) (Action Id Key)) : Bool :=
  match t.label with
  | .tell id' (.attempted _) => id' = id
  | _ => false

lemma rank_proceed : (call.proceed os stage).phase.rank = stage.rank := by
  cases stage <;> rfl

lemma rank_decided {rejectionMessage : Text} :
    (call.decided os stage decision rejectionMessage).phase.rank ≤ stage.rank := by
  unfold decided
  split
  · exact Nat.zero_le _
  · exact le_of_eq rank_proceed

lemma rank_startApproval : (call.startApproval os stage).phase.rank ≤ stage.rank + 2 := by
  have hcached : (call.withCachedApproval stage).phase.rank ≤ stage.rank + 2 := by
    unfold withCachedApproval
    split
    · show stage.rank + 1 ≤ _
      omega
    · exact le_refl (stage.rank + 2)
  unfold startApproval
  split
  · exact le_refl (stage.rank + 2)
  split
  · exact hcached
  · exact hcached
  split
  · exact Nat.le_add_right_of_le rank_decided
  split
  · show stage.rank + 1 ≤ _
    omega
  · exact hcached

lemma rank_requestApproval {evaluateHooks : Bool} :
    (call.requestApproval os stage evaluateHooks).phase.rank ≤ stage.rank + 3 := by
  unfold requestApproval
  split
  · exact le_refl (stage.rank + 3)
  · exact Nat.le_succ_of_le rank_startApproval

lemma rank_run : (run os context).phase.rank ≤ 8 := by
  unfold run
  split
  · split
    · exact rank_requestApproval
    · show 5 ≤ 8
      omega
  · exact Nat.zero_le 8
  · exact rank_requestApproval

lemma rank_afterInitial {result : AttemptResult} : (call.afterInitial os result).phase.rank ≤ 4 := by
  unfold afterInitial
  split
  swap
  · exact Nat.zero_le 4
  split
  · exact Nat.zero_le 4
  split
  · show 1 ≤ 4
    omega
  · exact rank_requestApproval

/-- Each answer brings a call closer to its end, and one that ends an attempt leaves fewer of them. -/
lemma rank_step (h : call.step serialize os store event = some (store', call')) :
    call'.phase.rank < call.phase.rank ∧
      (∀ result, event = .attempted result → call'.phase.attemptsLeft < call.phase.attemptsLeft) := by
  unfold step at h
  split at h
  · -- the hooks
    rename_i stage decision hcase
    cases h
    rw [hcase]
    refine ⟨?_, fun result hresult => by cases hresult⟩
    show _ < stage.rank + 3
    split
    · exact lt_of_le_of_lt rank_decided (by omega)
    · show 0 < _
      omega
    · exact lt_of_le_of_lt rank_startApproval (by omega)
  · -- the guardian
    rename_i stage decision rejectionMessage hcase
    cases h
    rw [hcase]
    refine ⟨?_, fun result hresult => by cases hresult⟩
    show _ < stage.rank + 2
    exact lt_of_le_of_lt rank_decided (by omega)
  · -- the approvals for the session
    rename_i stage hcase
    cases h
    rw [hcase]
    refine ⟨?_, fun result hresult => by cases hresult⟩
    show _ < stage.rank + 2
    split
    · exact lt_of_le_of_lt rank_decided (by omega)
    · show stage.rank + 1 < _
      omega
  · -- the user
    rename_i stage recorded decision hcase
    cases h
    rw [hcase]
    refine ⟨?_, fun result hresult => by cases hresult⟩
    show _ < stage.rank + 1
    exact lt_of_le_of_lt rank_decided (by omega)
  · -- the first attempt, after which a second one is left
    rename_i sandbox result hcase
    cases h
    have hrank : (call.afterInitial os result).phase.rank ≤ 4 := rank_afterInitial
    rw [hcase]
    refine ⟨?_, fun _ _ => ?_⟩
    · show _ < 5
      omega
    · show (if _ then 2 else if _ then 1 else 0) < 2
      split_ifs <;> omega
  · rename_i sandbox result hcase
    cases h
    rw [hcase]
    exact ⟨Nat.zero_lt_one, fun _ _ => Nat.zero_lt_one⟩
  · cases h

variable (serialize os store) in
lemma step_of_unfinished (hunfinished : ∀ result, call.phase ≠ .finished result) :
    ∃ event, (call.step serialize os store event).isSome = true := by
  unfold step
  cases hcase : call.phase with
  | hooks stage => exact ⟨.hooksDecided none, rfl⟩
  | guardian stage => exact ⟨.guardianDecided .timedOut [], rfl⟩
  | cache stage => exact ⟨.cacheChecked, rfl⟩
  | user stage recorded => exact ⟨.userDecided .abort, rfl⟩
  | attempting attempt sandbox =>
    cases attempt with
    | initial | escalated => exact ⟨.attempted .otherError, rfl⟩
  | finished result => exact absurd hcase (hunfinished result)

lemma tells_self : tells id ⟨before, .tell id event, after⟩ = true :=
  decide_eq_true rfl

lemma tells_other {id' : Id} (h : id ≠ id') :
    tells id' ⟨before, .tell id event, after⟩ = false :=
  decide_eq_false h

lemma endsAttempt_other {id' : Id} (h : id ≠ id') :
    endsAttempt id' ⟨before, .tell id event, after⟩ = false := by
  cases event with
  | attempted result => exact decide_eq_false h
  | _ => rfl

/-- What the answers of a call so far leave to it. -/
def Bounded (ts : List (Transition (Session Id Key) (Action Id Key))) (session : Session Id Key) : Prop :=
  ∀ id, match session.calls id with
    | none => ts.countP (tells id) = 0 ∧ ts.countP (endsAttempt id) = 0
    | some call => ts.countP (tells id) + call.phase.rank ≤ 8 ∧
      ts.countP (endsAttempt id) + call.phase.attemptsLeft ≤ 2

lemma attemptsLeft_mono {phase phase' : Phase} (h : phase.rank ≤ phase'.rank) :
    phase.attemptsLeft ≤ phase'.attemptsLeft := by
  unfold Phase.attemptsLeft
  split_ifs <;> omega

lemma Bounded.step {action : Action Id Key} (h : Bounded ts session)
    (hstep : session.step serialize os action = some session') :
    Bounded (ts ++ [⟨session, action, session'⟩]) session' := by
  intro id'
  have hbefore := h id'
  rw [List.countP_append, List.countP_append, List.countP_singleton, List.countP_singleton]
  cases action with
  | run id context =>
    unfold Session.step at hstep
    dsimp only at hstep
    split at hstep
    swap
    · cases hstep
    rename_i hnew
    cases hstep
    simp only [tells, endsAttempt, Bool.false_eq_true, if_false, Nat.add_zero]
    by_cases hid : id' = id
    · subst hid
      rw [hnew] at hbefore
      rw [Function.update_self]
      have hrank : (run os context).phase.rank ≤ 8 := rank_run
      have hattempts : (run os context).phase.attemptsLeft ≤ 2 := by
        unfold Phase.attemptsLeft
        split_ifs <;> omega
      omega
    · rw [Function.update_of_ne hid]
      exact hbefore
  | tell id event =>
    simp only [Session.step, Effects.bind_eq_some] at hstep
    obtain ⟨call, hcall, ⟨store, call'⟩, htaken, hstep⟩ := hstep
    cases hstep
    by_cases hid : id' = id
    · subst hid
      obtain ⟨hrank, hattempt⟩ := rank_step htaken
      have hmono := attemptsLeft_mono (Nat.le_of_lt hrank)
      rw [hcall] at hbefore
      dsimp only at hbefore ⊢
      rw [Function.update_self]
      rw [tells_self, if_pos rfl]
      refine ⟨by omega, ?_⟩
      cases event with
      | attempted result =>
        have hless := hattempt result rfl
        split <;> omega
      | _ => exact le_trans (Nat.add_le_add_left hmono _) hbefore.2
    · have hne : ¬ id = id' := fun heq => hid heq.symm
      dsimp only
      rw [tells_other hne, endsAttempt_other hne, Function.update_of_ne hid]
      exact hbefore

lemma SessionRun.bounded (run : SessionRun serialize os ts session) : Bounded ts session := by
  induction run with
  | nil => exact fun id => ⟨rfl, rfl⟩
  | snoc run taken ih => exact ih.step taken

/-- Every call of a session ends, whatever the other calls do. It takes at most eight answers, two of which end
an attempt, and until it has ended there is an answer that it takes. -/
theorem calls_end (run : SessionRun serialize os ts session) (hcall : session.calls id = some call) :
    ts.countP (tells id) ≤ 8 ∧ ts.countP (endsAttempt id) ≤ 2 ∧
      (ts.countP (tells id) = 8 → ∃ result, call.phase = .finished result) ∧
      ((∀ result, call.phase ≠ .finished result) →
        ∃ event session', session.step serialize os (.tell id event) = some session') := by
  have hbounded := run.bounded id
  rw [hcall] at hbounded
  obtain ⟨htells, hattempts⟩ := hbounded
  refine ⟨by omega, by omega, ?_, ?_⟩
  · intro hall
    have hrank : call.phase.rank = 0 := by omega
    cases hphase : call.phase with
    | finished result => exact ⟨result, rfl⟩
    | attempting attempt sandbox =>
      rw [hphase] at hrank
      cases attempt <;> cases hrank
    | hooks stage | guardian stage | cache stage | user stage recorded =>
      rw [hphase] at hrank
      cases hrank
  · intro hunfinished
    obtain ⟨event, hevent⟩ := step_of_unfinished serialize os session.toolApprovals hunfinished
    obtain ⟨⟨store, call'⟩, hevent⟩ := Option.isSome_iff_exists.mp hevent
    exact ⟨event, _, by rw [Session.step, hcall, Option.bind_eq_bind, Option.bind_some, hevent]; rfl⟩

/-- A call of `cargo` commands under a managed network. -/
def proxiedContext : CallContext Text := { cargoContext with turn := { cargoContext.turn with network := true } }

/-- The proxy asks for a host, so that the second attempt is approved anew. -/
def askForCrates : AttemptResult := .sandboxDenied (some ⟨.ask, .decider, some .https, some "crates.io".toList⟩)

/-- A call of two attempts, each asked of the hooks, of the approvals for the session and of the user. -/
theorem calls_end_twice :
    ∃ ts, ∃ session : Session ℕ Text, ∃ call, SessionRun some .linux ts session ∧ session.calls 0 = some call ∧
      ts.countP (tells 0) = 8 ∧ ts.countP (endsAttempt 0) = 2 ∧ ∃ result, call.phase = .finished result := by
  have hnew : SessionRun some .linux [] (Session.new : Session ℕ Text) := .nil
  have hasked := (hnew.next (.run 0 proxiedContext) rfl).next (.tell 0 (.hooksDecided none)) rfl
  have happroved := (hasked.next (.tell 0 .cacheChecked) rfl).next (.tell 0 (.userDecided .approved)) rfl
  have hdenied := (happroved.next (.tell 0 (.attempted askForCrates)) rfl).next (.tell 0 (.hooksDecided none)) rfl
  have hagain := (hdenied.next (.tell 0 .cacheChecked) rfl).next (.tell 0 (.userDecided .approved)) rfl
  have run := hagain.next (.tell 0 (.attempted .ok)) rfl
  exact ⟨_, _, _, run, rfl, rfl, rfl, (calls_end run rfl).2.2.1 (show List.countP (tells 0) _ = 8 from rfl)⟩

end

end Supercodex.Approvals

import Supercodex.NetworkApproval.Owners

/-!
# Approvals are single and consistent

What a call returns is what the tables of the session held when it read them, or what the owner of one
approval for its key has decided. A decision for the session stays in the tables until a review gives a
call that had begun before the opposite decision.
-/

namespace Supercodex.NetworkApproval

open Runs Service Phase

/-! ## Where a decision comes from -/

/-- The verdicts that a run has brought on the pending approval of a call. -/
def verdicts (ts : List (Transition Service Label)) (c : CallId) : List Verdict :=
  ts.filterMap fun t => if t.label.call = c then t.label.action.verdict? else none

/-- The table of the session for the decision held the key when the call read it. -/
def ReadFromSession (ts : List (Transition Service Label)) (c : CallId) (request : NetworkPolicyRequest)
    (decision : NetworkDecision) : Prop :=
  ∃ t ∈ ts, t.label = ⟨c, .step⟩ ∧
    ((t.before.calls c = some ⟨request, .checkingDenied⟩ ∧
        request.key ∈ t.before.sessionDeniedHosts ∧ decision = .notAllowed) ∨
      (t.before.calls c = some ⟨request, .checkingApproved⟩ ∧
        request.key ∈ t.before.sessionApprovedHosts ∧ decision = .allow))

/-- A call for the same key owned an approval on which the run has brought this one verdict. -/
def DecidedByOwner (ts : List (Transition Service Label)) (s : Service) (request : NetworkPolicyRequest)
    (decision : NetworkDecision) : Prop :=
  ∃ owner call verdict, s.calls owner = some call ∧ call.request.key = request.key ∧
    verdicts ts owner = [verdict] ∧ decision = verdict.resolved.toNetworkDecision

/-- What the verdicts so far say at each place of a call. -/
def Phase.Told (vs : List Verdict) (justified : NetworkDecision → Prop) : Phase → Prop
  | recording _ _ verdict | forgettingDenial verdict | approving verdict | forgettingApproval verdict
  | denying verdict => vs = [verdict]
  | deciding verdict blocked | removing verdict blocked =>
    vs = [verdict] ∧ (blocked.isSome → verdict = .uncached .deny)
  | resolvingBlocked _ | recordingBlocked .. => vs = [.uncached .deny]
  | returned decision => justified decision
  | _ => vs = []

section

variable {s s' : Service} {c : CallId} {request : NetworkPolicyRequest} {phase : Phase}
  {vs : List Verdict} {justified justified' : NetworkDecision → Prop} {verdict : Verdict}

namespace Phase

lemma Told.mono (h : phase.Told vs justified) (himp : ∀ decision, justified decision → justified' decision) :
    phase.Told vs justified' := by
  cases phase with
  | returned decision => exact himp decision h
  | _ => exact h

lemma told_settleDenial : (settleDenial verdict).Told [verdict] justified := by
  rw [settleDenial]
  split
  · rfl
  · exact ⟨rfl, by simp⟩

lemma told_settle : (settle verdict).Told [verdict] justified := by
  rw [settle]
  split
  · rfl
  · exact told_settleDenial

lemma told_answered {ownerCall : Option ActiveNetworkApprovalCall}
    {outcome : Option NetworkApprovalOutcome} :
    (answered ownerCall outcome verdict).Told [verdict] justified := by
  unfold answered
  split
  · rfl
  · exact told_settle

end Phase

/-- The sections of a call bring no verdict, and it returns what it has read or been told. -/
lemma told_of_proceed (h : s.proceed c request phase = some s') (htold : phase.Told vs justified)
    (hdenied : phase = .checkingDenied → request.key ∈ s.sessionDeniedHosts → justified .notAllowed)
    (happroved : phase = .checkingApproved → request.key ∈ s.sessionApprovedHosts → justified .allow)
    (hwaiting : ∀ owner decision, phase = .waiting owner → s.decisions owner = some decision →
      justified decision.toNetworkDecision)
    (howner : ∀ verdict, vs = [verdict] → justified verdict.resolved.toNetworkDecision) :
    ∃ phase', s'.calls = Function.update s.calls c (some ⟨request, phase'⟩) ∧
      phase'.Told vs justified := by
  cases phase with
  | checkingDenied =>
    cases h
    refine ⟨_, rfl, ?_⟩
    split
    case isTrue hmem => exact hdenied rfl hmem
    case isFalse => exact htold
  | checkingApproved =>
    cases h
    refine ⟨_, rfl, ?_⟩
    split
    case isTrue hmem => exact happroved rfl hmem
    case isFalse => exact htold
  | creating =>
    cases h
    rw [getOrCreatePendingApproval]
    split <;> exact ⟨_, rfl, htold⟩
  | waiting owner =>
    obtain ⟨decision, hdecision, rfl⟩ := Option.map_eq_some_iff.mp h
    exact ⟨_, rfl, hwaiting owner decision rfl hdecision⟩
  | resolvingOwner turn =>
    cases h
    exact ⟨_, rfl, htold⟩
  | recording registrationId outcome verdict =>
    cases h
    obtain ⟨outcomes, heq⟩ := recordCallOutcome_eq s registrationId outcome
    rw [heq]
    refine ⟨_, rfl, ?_⟩
    rw [show vs = [verdict] from htold]
    exact told_settle
  | forgettingDenial verdict =>
    cases h
    exact ⟨_, rfl, htold⟩
  | approving verdict =>
    cases h
    refine ⟨_, rfl, ?_⟩
    rw [show vs = [verdict] from htold]
    exact told_settleDenial
  | forgettingApproval verdict =>
    cases h
    exact ⟨_, rfl, htold⟩
  | denying verdict =>
    cases h
    exact ⟨_, rfl, htold, by simp⟩
  | deciding verdict blocked =>
    cases h
    exact ⟨_, rfl, htold⟩
  | removing verdict blocked =>
    cases h
    refine ⟨_, rfl, ?_⟩
    cases blocked with
    | none => exact howner verdict htold.1
    | some message => rw [htold.1, htold.2 rfl]; rfl
  | resolvingBlocked message =>
    cases h
    refine ⟨_, rfl, ?_⟩
    split
    · exact htold
    · exact howner _ htold
  | recordingBlocked registrationId message =>
    cases h
    obtain ⟨outcomes, heq⟩ := recordCallOutcome_eq s registrationId (.deniedByPolicy message)
    rw [heq]
    exact ⟨_, rfl, howner _ htold⟩
  | readingTurn | runningHooks turn ownerCall | prompting guardian ownerCall | returned decision => cases h

lemma told_of_answer {action : Action} (h : s.answer c request phase action = some s')
    (htold : phase.Told vs justified) : vs = [] ∧ s'.decisions = s.decisions ∧
      ∃ phase', s'.calls = Function.update s.calls c (some ⟨request, phase'⟩) ∧
        phase'.Told action.verdict?.toList justified' := by
  unfold answer at h
  split at h
  case h_1 context =>
    cases h
    refine ⟨htold, rfl, _, rfl, ?_⟩
    cases hreviewable : reviewable context with
    | true =>
      cases context with
      | none => cases hreviewable
      | some turn => simp [readTurn, Action.verdict?, hreviewable, Phase.Told]
    | false => cases context <;> simp [readTurn, Action.verdict?, hreviewable, Phase.Told]
  case h_2 turn ownerCall decision =>
    cases h
    refine ⟨htold, rfl, _, rfl, ?_⟩
    cases decision with
    | none => rfl
    | some decision => exact told_answered
  case h_3 guardian ownerCall decision rejectionMessage =>
    cases h
    exact ⟨htold, rfl, _, rfl, told_answered⟩
  case h_4 => cases h

/-! ## The history of a run -/

/-- Every call is where the verdicts of the run have brought it. -/
structure Explained (ts : List (Transition Service Label)) (s : Service) : Prop where
  unborn (c : CallId) : s.calls c = none → verdicts ts c = []
  told (c : CallId) (call : Call) : s.calls c = some call → call.phase.Told (verdicts ts c) fun decision =>
    ReadFromSession ts c call.request decision ∨ DecidedByOwner ts s call.request decision
  decided (owner : CallId) (decision : PendingApprovalDecision) : s.decisions owner = some decision →
    ∃ verdict, verdicts ts owner = [verdict] ∧ decision = verdict.resolved

lemma verdicts_snoc (ts : List (Transition Service Label)) (t : Transition Service Label) (c : CallId) :
    verdicts (ts ++ [t]) c =
      verdicts ts c ++ if t.label.call = c then t.label.action.verdict?.toList else [] := by
  rw [verdicts, List.filterMap_append, verdicts]
  split
  case isTrue h => cases hverdict : t.label.action.verdict? <;> simp [h, hverdict]
  case isFalse h => simp [h]

namespace Explained

variable {ts : List (Transition Service Label)} {l : Label}

lemma nil : Explained [] default where
  unborn c _ := rfl
  told c call h := by cases h
  decided owner decision h := by cases h

variable {owner : CallId}

lemma decisions_of_change {phase' : Phase} {brought : Option Verdict}
    (change : Change s c request brought phase phase' s')
    {decision : PendingApprovalDecision} (h : s'.decisions owner = some decision) :
    s.decisions owner = some decision ∨
      owner = c ∧ ∃ verdict blocked, phase = .deciding verdict blocked ∧ decision = verdict.resolved := by
  cases change with
  | create hpending =>
    left
    by_cases howner : owner = c
    · rw [howner] at h
      simp [goto] at h
    · simpa [goto, howner] using h
  | decide verdict blocked =>
    by_cases howner : owner = c
    · right
      rw [howner] at h
      simp only [goto, Function.update_self, Option.some_inj] at h
      exact ⟨howner, verdict, blocked, rfl, h.symm⟩
    · left
      simpa [goto, howner] using h
  | _ => exact .inl h

lemma verdicts_eq (h : Explained ts s) (hstep : Step s l s')
    (hverdict : verdicts ts owner = [verdict]) : verdicts (ts ++ [⟨s, l, s'⟩]) owner = [verdict] := by
  rw [verdicts_snoc, hverdict]
  split
  case isFalse => rfl
  case isTrue hcall =>
    obtain ⟨request, haction, -, -⟩ | ⟨call, -, hcalls, -, ⟨haction, -⟩ | hanswer⟩ | ⟨-, hnone, -⟩ :=
      step_cases hstep
    · simp [haction, Action.verdict?]
    · simp [haction, Action.verdict?]
    · -- before an answer there was no verdict
      have htold := h.told _ call hcalls
      obtain ⟨hnil, -⟩ := @told_of_answer _ _ _ _ _ _ _ (fun _ => True) _ hanswer htold
      rw [show l.call = owner from hcall, hverdict] at hnil
      cases hnil
    · rw [show (⟨s, l, s'⟩ : Transition Service Label).label = l from rfl, hnone]
      rfl

lemma readFromSession_snoc {t : Transition Service Label} {decision : NetworkDecision}
    (h : ReadFromSession ts c request decision) : ReadFromSession (ts ++ [t]) c request decision := by
  obtain ⟨t', ht', h⟩ := h
  exact ⟨t', List.mem_append_left _ ht', h⟩

variable {call : Call}

lemma calls_of_step (hstep : Step s l s') (h : s.calls owner = some call) :
    ∃ call', s'.calls owner = some call' ∧ call'.request = call.request := by
  obtain ⟨request, -, hnone, rfl⟩ | ⟨mover, phase', hcalls, change, -⟩ | ⟨-, -, active, outcomes, rfl⟩ :=
    step_cases hstep
  · have howner : owner ≠ l.call := by
      rintro rfl
      rw [hnone] at h
      cases h
    exact ⟨call, by rwa [goto_calls_of_ne howner], rfl⟩
  · exact Consistent.request_change hcalls change h
  · exact ⟨call, h, rfl⟩

section

variable (h : Explained ts s)
include h

section

variable (hstep : Step s l s')
include hstep

lemma decidedByOwner_step {decision : NetworkDecision}
    (hdecided : DecidedByOwner ts s request decision) :
    DecidedByOwner (ts ++ [⟨s, l, s'⟩]) s' request decision := by
  obtain ⟨owner, call, verdict, hcall, hkey, hverdict, hdecision⟩ := hdecided
  obtain ⟨call', hcall', hrequest⟩ := calls_of_step hstep hcall
  exact ⟨owner, call', verdict, hcall', by rw [hrequest, hkey], h.verdicts_eq hstep hverdict, hdecision⟩

lemma told_frame (hc : c ≠ l.call)
    (hcall : s.calls c = some call) :
    call.phase.Told (verdicts (ts ++ [⟨s, l, s'⟩]) c) fun decision =>
      ReadFromSession (ts ++ [⟨s, l, s'⟩]) c call.request decision ∨
        DecidedByOwner (ts ++ [⟨s, l, s'⟩]) s' call.request decision := by
  rw [verdicts_snoc, if_neg (Ne.symm hc), List.append_nil]
  refine (h.told c call hcall).mono fun decision => ?_
  exact Or.imp readFromSession_snoc (h.decidedByOwner_step hstep)

lemma step_start (haction : l.action = .start request) (hnone : s.calls l.call = none)
    (hs' : s' = s.goto l.call request .checkingDenied) : Explained (ts ++ [⟨s, l, s'⟩]) s' where
  unborn c hc := by
    have hne : c ≠ l.call := by
      rintro rfl
      rw [hs', goto_calls_self] at hc
      cases hc
    rw [hs', goto_calls_of_ne hne] at hc
    rw [verdicts_snoc, if_neg (Ne.symm hne), List.append_nil]
    exact h.unborn c hc
  told c call hcall := by
    by_cases hc : c = l.call
    · subst hc
      rw [hs', goto_calls_self] at hcall
      cases hcall
      show verdicts _ _ = []
      rw [verdicts_snoc, h.unborn _ hnone]
      simp [haction, Action.verdict?]
    · rw [hs', goto_calls_of_ne hc] at hcall
      exact h.told_frame hstep hc hcall
  decided owner decision hdecision := by
    rw [hs'] at hdecision
    obtain ⟨verdict, hverdict, heq⟩ := h.decided owner decision hdecision
    exact ⟨verdict, h.verdicts_eq hstep hverdict, heq⟩

lemma step_idle (hnone : l.action.verdict? = none)
    (hcalls : s'.calls = s.calls) (hdecisions : s'.decisions = s.decisions) :
    Explained (ts ++ [⟨s, l, s'⟩]) s' := by
  have hsame (c : CallId) : verdicts (ts ++ [⟨s, l, s'⟩]) c = verdicts ts c := by
    rw [verdicts_snoc, show (⟨s, l, s'⟩ : Transition Service Label).label = l from rfl, hnone]
    simp
  constructor
  · intro c hc
    rw [hsame]
    exact h.unborn c (hcalls ▸ hc)
  · intro c call hcall
    rw [hsame]
    refine (h.told c call (hcalls ▸ hcall)).mono fun decision => ?_
    exact Or.imp readFromSession_snoc (h.decidedByOwner_step hstep)
  · intro owner decision hdecision
    rw [hsame]
    exact h.decided owner decision (hdecisions ▸ hdecision)

end

/-- The call that takes the step ends where the verdicts bring it. -/
lemma told_mover (hconsistent : Consistent s) (hstep : Step s l s')
    (hcall : s.calls l.call = some call)
    (htaken : (l.action = .step ∧ s.proceed l.call call.request call.phase = some s') ∨
      s.answer l.call call.request call.phase l.action = some s') :
    ∃ phase', s'.calls = Function.update s.calls l.call (some ⟨call.request, phase'⟩) ∧
      phase'.Told (verdicts (ts ++ [⟨s, l, s'⟩]) l.call) fun decision =>
        ReadFromSession (ts ++ [⟨s, l, s'⟩]) l.call call.request decision ∨
          DecidedByOwner (ts ++ [⟨s, l, s'⟩]) s' call.request decision := by
  have htold := h.told l.call call hcall
  obtain ⟨haction, hproceed⟩ | hanswer := htaken
  · have hsame : verdicts (ts ++ [⟨s, l, s'⟩]) l.call = verdicts ts l.call := by
      rw [verdicts_snoc]
      simp [haction, Action.verdict?]
    have hlabel : l = ⟨l.call, .step⟩ := by rw [← haction]
    have hbefore (phase : Phase) (hphase : call.phase = phase) :
        s.calls l.call = some ⟨call.request, phase⟩ := by rw [hcall, ← hphase]
    rw [hsame]
    refine told_of_proceed hproceed (htold.mono fun decision => Or.imp readFromSession_snoc
      (h.decidedByOwner_step hstep)) ?_ ?_ ?_ ?_
    · intro hphase hmem
      exact .inl ⟨_, List.mem_append_right _ (List.mem_singleton_self _), hlabel,
        .inl ⟨hbefore _ hphase, hmem, rfl⟩⟩
    · intro hphase hmem
      exact .inl ⟨_, List.mem_append_right _ (List.mem_singleton_self _), hlabel,
        .inr ⟨hbefore _ hphase, hmem, rfl⟩⟩
    · intro owner decision hphase hdecision
      obtain ⟨other, hother, hkey⟩ := hconsistent.waiting _ call owner hcall hphase
      obtain ⟨verdict, hverdict, rfl⟩ := h.decided owner decision hdecision
      exact .inr (h.decidedByOwner_step hstep ⟨owner, other, verdict, hother, hkey, hverdict, rfl⟩)
    · intro verdict hverdict
      exact .inr (h.decidedByOwner_step hstep ⟨l.call, call, verdict, hcall, rfl, hverdict, rfl⟩)
  · obtain ⟨hnil, -, phase', hcalls, htold'⟩ := told_of_answer hanswer htold
    refine ⟨phase', hcalls, ?_⟩
    rw [verdicts_snoc, hnil, if_pos rfl, List.nil_append]
    exact htold'

/-- A decision that is there after the step has its one verdict in the trace. -/
lemma decided_mover (hstep : Step s l s') {phase' : Phase}
    (hcall : s.calls l.call = some call)
    (change : Change s l.call call.request l.action.verdict? call.phase phase' s') (owner : CallId)
    (decision : PendingApprovalDecision) (hdecision : s'.decisions owner = some decision) :
    ∃ verdict, verdicts (ts ++ [⟨s, l, s'⟩]) owner = [verdict] ∧ decision = verdict.resolved := by
  obtain hdecision | ⟨rfl, verdict, blocked, hphase, rfl⟩ := decisions_of_change change hdecision
  · obtain ⟨verdict, hverdict, heq⟩ := h.decided owner decision hdecision
    exact ⟨verdict, h.verdicts_eq hstep hverdict, heq⟩
  · have htold := h.told _ call hcall
    rw [hphase] at htold
    exact ⟨verdict, h.verdicts_eq hstep htold.1, rfl⟩

theorem step (hconsistent : Consistent s) (hstep : Step s l s') :
    Explained (ts ++ [⟨s, l, s'⟩]) s' := by
  obtain ⟨request, haction, hnone, hs'⟩ | ⟨call, phase', hcall, change, htaken⟩ |
    ⟨-, hnone, active, outcomes, rfl⟩ := step_cases hstep
  · exact h.step_start hstep haction hnone hs'
  · obtain ⟨phase'', hcalls, htold⟩ := h.told_mover hconsistent hstep hcall htaken
    constructor
    · intro c hc
      have hne : c ≠ l.call := by
        rintro rfl
        rw [hcalls, Function.update_self] at hc
        cases hc
      rw [hcalls, Function.update_of_ne hne] at hc
      rw [verdicts_snoc, if_neg (Ne.symm hne), List.append_nil]
      exact h.unborn c hc
    · intro c call' hcall'
      by_cases hc : c = l.call
      · subst hc
        rw [hcalls, Function.update_self] at hcall'
        cases hcall'
        exact htold
      · rw [hcalls, Function.update_of_ne hc] at hcall'
        exact h.told_frame hstep hc hcall'
    · exact h.decided_mover hstep hcall change
  · exact h.step_idle hstep hnone rfl rfl

end

end Explained

/-- The verdicts of a run explain where its calls are. -/
theorem explained_of_run {ts : List (Transition Service Label)} (run : Run Step default ts s) :
    Explained ts s := by
  induction run with
  | nil => exact .nil
  | snoc run taken ih => exact ih.step (consistent_of_run run) taken

end

/-! ## Decisions for the session -/

/-- The tables that keep decisions for the session. -/
inductive SessionTable where
  | approved
  | denied

namespace SessionTable

/-- The keys of the table. -/
def keys : SessionTable → Service → Finset HostApprovalKey
  | approved, s => s.sessionApprovedHosts
  | denied, s => s.sessionDeniedHosts

/-- What a call returns when it finds its key in the table. -/
def decision : SessionTable → NetworkDecision
  | approved => .allow
  | denied => .notAllowed

/-- The verdict that puts a key into the table. -/
def verdict : SessionTable → Verdict
  | approved => .uncached .allowForSession
  | denied => .denyForSession

/-- The verdicts that take a key out of the table. -/
def Opposes : SessionTable → Verdict → Prop
  | approved, verdict => verdict.cacheSessionDeny = true
  | denied, verdict => verdict.resolved = .allowForSession

/-- The phases before a call has read its key in the table, and its return with what it has read. -/
def Fresh : SessionTable → Phase → Prop
  | _, .checkingDenied => True
  | approved, .checkingApproved => True
  | table, .returned decision => decision = table.decision
  | _, _ => False

end SessionTable

section

variable {s s' : Service} {c : CallId} {request : NetworkPolicyRequest} {phase : Phase}
  {table : SessionTable} {k : HostApprovalKey} {mid : Service}

/-- A review gives the verdict that takes the key out of the table to a call that had begun before. -/
def Overtaken (table : SessionTable) (k : HostApprovalKey) (mid : Service)
    (ts : List (Transition Service Label)) : Prop :=
  ∃ t ∈ ts, ∃ decision rejectionMessage call, t.label.action = .review decision rejectionMessage ∧
    table.Opposes decision.verdict ∧ mid.calls t.label.call = some call ∧ call.request.key = k

/-- The key stays in the table, and the calls that begin after some moment find it there. -/
structure Steady (table : SessionTable) (k : HostApprovalKey) (mid s : Service) : Prop where
  mem : k ∈ table.keys s
  fresh (c : CallId) (call : Call) : s.calls c = some call → call.request.key = k →
    mid.calls c = none → table.Fresh call.phase
  agree (c : CallId) (call : Call) (verdict : Verdict) : s.calls c = some call → call.request.key = k →
    call.phase.verdict? = some verdict → ¬table.Opposes verdict
  known (c : CallId) (call : Call) : mid.calls c = some call →
    ∃ call', s.calls c = some call' ∧ call'.request = call.request

lemma fresh_of_proceed (hfresh : table.Fresh phase) (hmem : request.key ∈ table.keys s)
    (hexclusive : request.key ∈ s.sessionApprovedHosts → request.key ∉ s.sessionDeniedHosts)
    (h : s.proceed c request phase = some s') :
    ∃ phase', s'.calls = Function.update s.calls c (some ⟨request, phase'⟩) ∧ table.Fresh phase' := by
  cases phase with
  | checkingDenied =>
    cases h
    refine ⟨_, rfl, ?_⟩
    cases table with
    | denied => rw [if_pos (show request.key ∈ s.sessionDeniedHosts from hmem)]; rfl
    | approved => rw [if_neg (hexclusive hmem)]; trivial
  | checkingApproved =>
    cases h
    refine ⟨_, rfl, ?_⟩
    cases table with
    | denied => cases hfresh
    | approved => rw [if_pos (show request.key ∈ s.sessionApprovedHosts from hmem)]; rfl
  | returned => cases h
  | _ => cases table <;> cases hfresh

lemma not_answer_of_fresh (hfresh : table.Fresh phase) {action : Action} :
    s.answer c request phase action = none := by
  cases phase with
  | readingTurn | runningHooks | prompting => cases table <;> cases hfresh
  | _ => rfl

lemma review_of_opposes {action : Action} {verdict : Verdict} (h : action.verdict? = some verdict)
    (hopposes : table.Opposes verdict) : ∃ decision rejectionMessage,
      action = .review decision rejectionMessage ∧ verdict = decision.verdict := by
  cases action with
  | review decision rejectionMessage =>
    cases h
    exact ⟨decision, rejectionMessage, rfl, rfl⟩
  | turn context =>
    simp only [Action.verdict?] at h
    split at h
    · cases h
    · cases h
      cases table <;> cases hopposes
  | hooks decision =>
    obtain ⟨decision, -, rfl⟩ := Option.map_eq_some_iff.mp h
    cases decision <;> cases table <;> cases hopposes
  | _ => cases h

namespace Steady

lemma mem_change (hconsistent : Consistent s) (h : Steady table k mid s) {call : Call}
    {brought : Option Verdict} {phase' : Phase} (hcall : s.calls c = some call)
    (change : Change s c call.request brought call.phase phase' s') : k ∈ table.keys s' := by
  by_cases hkey : call.request.key = k
  · have hagree := h.agree c call
    have hdemands := hconsistent.demands c call hcall
    have hmem := h.mem
    generalize hphase : call.phase = phase at change hagree hdemands
    cases change with
    | forgetDenial verdict =>
      cases table with
      | denied => exact absurd hdemands (hagree verdict hcall hkey rfl)
      | approved => exact hmem
    | forgetApproval verdict =>
      cases table with
      | denied => exact hmem
      | approved => exact absurd hdemands (hagree verdict hcall hkey rfl)
    | approve verdict =>
      cases table with
      | denied => exact hmem
      | approved => exact Finset.mem_insert_of_mem hmem
    | deny verdict =>
      cases table with
      | denied => exact Finset.mem_insert_of_mem hmem
      | approved => exact hmem
    | _ => cases table <;> exact hmem
  · obtain ⟨happroved, hdenied⟩ := change.tables_of_ne (Ne.symm hkey)
    cases table with
    | denied => exact hdenied.mpr h.mem
    | approved => exact happroved.mpr h.mem

/-- A key stays in a table until a review overtakes its decision. -/
lemma step (hconsistent : Consistent s) (h : Steady table k mid s) {l : Label} (hstep : Step s l s') :
    Overtaken table k mid [⟨s, l, s'⟩] ∨ Steady table k mid s' := by
  obtain ⟨request, -, hnone, rfl⟩ | ⟨call, phase', hcall, change, htaken⟩ |
    ⟨-, -, active, outcomes, rfl⟩ := step_cases hstep
  · right
    constructor
    · cases table <;> exact h.mem
    · intro c call hcall hkey hmid
      by_cases hc : c = l.call
      · rw [hc, goto_calls_self] at hcall
        cases hcall
        cases table <;> trivial
      · rw [goto_calls_of_ne hc] at hcall
        exact h.fresh c call hcall hkey hmid
    · intro c call verdict hcall hkey hverdict
      by_cases hc : c = l.call
      · rw [hc, goto_calls_self] at hcall
        cases hcall
        cases hverdict
      · rw [goto_calls_of_ne hc] at hcall
        exact h.agree c call verdict hcall hkey hverdict
    · intro c call hmid
      obtain ⟨call', hcall', hrequest⟩ := h.known c call hmid
      have hc : c ≠ l.call := by
        rintro rfl
        rw [hnone] at hcall'
        cases hcall'
      exact ⟨call', by rwa [goto_calls_of_ne hc], hrequest⟩
  · have hmover (hkey : call.request.key = k) (hmid : mid.calls l.call = none) :
        l.action = .step ∧ table.Fresh phase' := by
      have hfresh := h.fresh l.call call hcall hkey hmid
      obtain ⟨haction, hproceed⟩ | hanswer := htaken
      · obtain ⟨phase'', hcalls, hfresh'⟩ :=
          fresh_of_proceed hfresh (hkey ▸ h.mem) (hconsistent.exclusive _) hproceed
        rw [change.calls_eq] at hcalls
        have hphase := congrFun hcalls l.call
        rw [Function.update_self, Function.update_self] at hphase
        cases hphase
        exact ⟨haction, hfresh'⟩
      · rw [not_answer_of_fresh hfresh] at hanswer
        cases hanswer
    by_cases hovertaken : Overtaken table k mid [⟨s, l, s'⟩]
    · exact .inl hovertaken
    right
    constructor
    · exact h.mem_change hconsistent hcall change
    · intro c call' hcall' hkey hmid
      rw [change.calls_eq] at hcall'
      by_cases hc : c = l.call
      · rw [hc, Function.update_self] at hcall'
        cases hcall'
        exact (hmover hkey (hc ▸ hmid)).2
      · rw [Function.update_of_ne hc] at hcall'
        exact h.fresh c call' hcall' hkey hmid
    · intro c call' verdict hcall' hkey hverdict hopposes
      rw [change.calls_eq] at hcall'
      by_cases hc : c = l.call
      · rw [hc, Function.update_self] at hcall'
        cases hcall'
        have hbrought : l.action.verdict? = some verdict := by
          generalize hphase : call.phase = phase at change
          have hagree := fun h' => h.agree l.call call verdict hcall hkey (hphase ▸ h') hopposes
          cases change with
          | keep outcomes quiet => exact (quiet.verdict verdict hverdict).resolve_left hagree
          | remove _ blocked => cases blocked <;> cases hverdict
          | approve => exact absurd (verdict?_settleDenial.symm.trans hverdict) hagree
          | join | create => cases hverdict
          | _ => exact absurd hverdict hagree
        obtain ⟨decision, rejectionMessage, haction, rfl⟩ := review_of_opposes hbrought hopposes
        cases hmid : mid.calls l.call with
        | none =>
          rw [(hmover hkey hmid).1] at haction
          cases haction
        | some before =>
          obtain ⟨now, hnow, hrequest⟩ := h.known l.call before hmid
          rw [hcall] at hnow
          cases hnow
          exact hovertaken ⟨_, List.mem_singleton_self _, decision, rejectionMessage, before, haction,
            hopposes, hmid, by rw [← hrequest]; exact hkey⟩
      · rw [Function.update_of_ne hc] at hcall'
        exact h.agree c call' verdict hcall' hkey hverdict hopposes
    · intro c before hmid
      obtain ⟨now, hnow, hrequest⟩ := h.known c before hmid
      obtain ⟨after, hafter, hrequest'⟩ := Consistent.request_change hcall change hnow
      exact ⟨after, hafter, hrequest'.trans hrequest⟩
  · exact .inr ⟨by cases table <;> exact h.mem, h.fresh, h.agree, h.known⟩

lemma run {ts : List (Transition Service Label)} (hmid : Consistent mid) (h : Steady table k mid mid)
    (run : Run Step mid ts s) : Consistent s ∧ (Overtaken table k mid ts ∨ Steady table k mid s) := by
  induction run with
  | nil => exact ⟨hmid, .inr h⟩
  | snoc run taken ih =>
    refine ⟨ih.1.step taken, ?_⟩
    obtain ⟨t, ht, hovertaken⟩ | hsteady := ih.2
    · exact .inl ⟨t, List.mem_append_left _ ht, hovertaken⟩
    · obtain ⟨t, ht, hovertaken⟩ | hsteady := hsteady.step ih.1 taken
      · exact .inl ⟨t, List.mem_append_right _ ht, hovertaken⟩
      · exact .inr hsteady

/-- A call that returns after a decision for the session has been made has removed its approval, and the
decision is in the table. -/
lemma mem_of_returned {vs : List Verdict} {justified : NetworkDecision → Prop} {decision : NetworkDecision}
    (hproceed : s.proceed c request phase = some s') (htold : phase.Told vs justified)
    (hdemands : phase.Demands request.key s.sessionApprovedHosts s.sessionDeniedHosts)
    (hverdict : table.verdict ∈ vs) (change : Change s c request none phase (.returned decision) s') :
    request.key ∈ table.keys s' ∧ s'.pendingHostApprovals request.key = none := by
  have hblocked : table.verdict ≠ .uncached .deny := by cases table <;> decide
  generalize hphase' : returned decision = phase' at change
  cases change with
  | keep outcomes quiet =>
    have hfree : phase.owns = false := quiet.owns.symm.trans (hphase' ▸ rfl)
    cases phase with
    | returned => cases hproceed
    | resolvingBlocked | recordingBlocked =>
      rw [show vs = [.uncached .deny] from htold, List.mem_singleton] at hverdict
      exact absurd hverdict hblocked
    | checkingDenied | checkingApproved | creating | waiting =>
      rw [show vs = [] from htold] at hverdict
      cases hverdict
    | _ => cases hfree
  | remove verdict blocked =>
    refine ⟨?_, Function.update_self ..⟩
    rw [htold.1, List.mem_singleton] at hverdict
    rw [← hverdict] at hdemands
    cases table with
    | denied => exact hdemands.2 rfl
    | approved => exact hdemands.1 rfl
  | approve verdict =>
    have howns := @owns_settleDenial verdict
    rw [← hphase'] at howns
    cases howns
  | _ => cases hphase'

/-- When a call that has decided for the session returns, its key is in the table and nobody owns an
approval for it. -/
lemma of_return {ts : List (Transition Service Label)} (run : Run Step default ts s)
    {decision : NetworkDecision} (hstep : Step s ⟨c, .step⟩ mid)
    (hreturned : mid.calls c = some ⟨request, .returned decision⟩) (hverdict : table.verdict ∈ verdicts ts c) :
    Steady table request.key mid mid := by
  have hconsistent := consistent_of_run run
  have hmid := hconsistent.step hstep
  obtain ⟨hmem, hpending⟩ :
      request.key ∈ table.keys mid ∧ mid.pendingHostApprovals request.key = none := by
    obtain ⟨_, haction, -⟩ | ⟨call, phase', hcall, change, htaken⟩ | ⟨hmoved, -⟩ :=
      step_cases hstep
    · cases haction
    · have hproceed : s.proceed c call.request call.phase = some mid := by
        obtain ⟨-, hproceed⟩ | hanswer := htaken
        · exact hproceed
        · obtain ⟨request', phase⟩ := call
          cases phase <;> cases hanswer
      rw [change.calls_eq, Function.update_self] at hreturned
      cases hreturned
      exact mem_of_returned hproceed ((explained_of_run run).told c call hcall)
        (hconsistent.demands c call hcall) hverdict change
    · exact absurd rfl hmoved
  refine ⟨hmem, ?_, ?_, ?_⟩
  · intro c call hcall _ hnone
    rw [hnone] at hcall
    cases hcall
  · intro c call verdict hcall hkey hphase
    have howns : call.phase.owns = true := by
      by_contra hfree
      rw [verdict?_of_not_owns (Bool.not_eq_true _ ▸ hfree)] at hphase
      cases hphase
    have hentry := (hmid.entry _ c).mpr ⟨call, hcall, howns, hkey⟩
    rw [hpending] at hentry
    cases hentry
  · intro c call hcall
    exact ⟨call, hcall, rfl⟩

end Steady

end

/-! ## The service -/

/-- Is a review of the call outstanding? -/
def Phase.isPrompting : Phase → Bool
  | prompting .. => true
  | _ => false

lemma Phase.owns_of_isPrompting {phase : Phase} (h : phase.isPrompting = true) : phase.owns = true := by
  cases phase <;> first | rfl | cases h

/-- Every call that begins after a decision for the session was returned finds it in its table, if no
review gives the opposite decision to a call that had begun before. -/
def Lasting (table : SessionTable) (ts : List (Transition Service Label)) (s : Service) : Prop :=
  ∀ earlier before mid later owner request decision,
    ts = earlier ++ [⟨before, ⟨owner, .step⟩, mid⟩] ++ later →
    mid.calls owner = some ⟨request, .returned decision⟩ → table.verdict ∈ verdicts earlier owner →
    Overtaken table request.key mid later ∨ (request.key ∈ table.keys s ∧
      ∀ c call, mid.calls c = none → s.calls c = some call → call.request.key = request.key →
        table.Fresh call.phase)

lemma lasting_of_run {s : Service} {ts : List (Transition Service Label)}
    (run : Run Step default ts s) (table : SessionTable) : Lasting table ts s := by
  rintro earlier before mid later owner request decision rfl hreturned hverdict
  obtain ⟨mid', hfirst, hsecond⟩ := run.split
  have hmid : mid = mid' := hfirst.last
  subst hmid
  obtain ⟨before', hearlier, hlast⟩ := hfirst.split
  obtain ⟨hbefore, hstep⟩ := hlast.single
  have hbefore : before = before' := hbefore
  subst hbefore
  have hsteady := Steady.of_return hearlier hstep hreturned hverdict
  obtain ⟨-, hovertaken | hsteady⟩ := hsteady.run ((consistent_of_run hearlier).step hstep) hsecond
  · exact .inl hovertaken
  · exact .inr ⟨hsteady.mem, fun c call hnone hcall hkey => hsteady.fresh c call hcall hkey hnone⟩

/-- At most one review for a key is outstanding. A call returns what a table of the session held for its
key or the one verdict on an approval for its key. A decision for the session lasts until it is overtaken.
No key is in both tables, and the owner of a pending approval has not returned. -/
theorem approvals_single_and_consistent {s : Service} {ts : List (Transition Service Label)}
    (run : Run Step default ts s) :
    (∀ c c' call call', s.calls c = some call → s.calls c' = some call' →
      call.phase.isPrompting = true → call'.phase.isPrompting = true →
      call.request.key = call'.request.key → c = c') ∧
    (∀ c request decision, s.calls c = some ⟨request, .returned decision⟩ →
      ReadFromSession ts c request decision ∨ DecidedByOwner ts s request decision) ∧
    (∀ table, Lasting table ts s) ∧
    (∀ k ∈ s.sessionApprovedHosts, k ∉ s.sessionDeniedHosts) ∧
    ∀ k owner, s.pendingHostApprovals k = some owner →
      ∃ call, s.calls owner = some call ∧ call.request.key = k ∧
        ∀ decision, call.phase ≠ .returned decision := by
  have hconsistent := consistent_of_run run
  refine ⟨?_, ?_, lasting_of_run run, hconsistent.exclusive, ?_⟩
  · intro c c' call call' hcall hcall' hprompting hprompting' hkey
    exact hconsistent.owner_unique hcall hcall' (owns_of_isPrompting hprompting)
      (owns_of_isPrompting hprompting') hkey
  · intro c request decision hcall
    exact (explained_of_run run).told c _ hcall
  · intro k owner hpending
    obtain ⟨call, hcall, howns, hkey⟩ := (hconsistent.entry k owner).mp hpending
    refine ⟨call, hcall, hkey, fun decision hreturned => ?_⟩
    rw [hreturned] at howns
    cases howns

/-- A request of the sample runs. -/
def sampleRequest : NetworkPolicyRequest := ⟨.http, "example.com".toList, 80⟩

/-- A turn whose requests are reviewed by the user. -/
def sampleTurn : TurnContext := ⟨.readOnly .fullAccess false, .onRequest, false⟩

/-- A call without a turn is denied without a review. -/
def blockedLabels : List Label :=
  [⟨0, .start sampleRequest⟩, ⟨0, .step⟩, ⟨0, .step⟩, ⟨0, .step⟩, ⟨0, .turn none⟩, ⟨0, .step⟩, ⟨0, .step⟩,
    ⟨0, .step⟩]

/-- The steps of a call from its start to its review. -/
def untilReview (c : CallId) : List Label :=
  [⟨c, .step⟩, ⟨c, .turn (some sampleTurn)⟩, ⟨c, .step⟩, ⟨c, .hooks none⟩]

/-- Call 1 has read both tables when call 0 is denied for the session. -/
def denialLabels : List Label :=
  [⟨1, .start sampleRequest⟩, ⟨1, .step⟩, ⟨1, .step⟩, ⟨0, .start sampleRequest⟩, ⟨0, .step⟩, ⟨0, .step⟩] ++
    untilReview 0 ++ [⟨0, .review (.networkPolicyAmendment .deny) []⟩, ⟨0, .step⟩, ⟨0, .step⟩, ⟨0, .step⟩]

/-- Call 1 is then allowed for the session, and call 2 begins. -/
def overtakingLabels : List Label :=
  untilReview 1 ++ [⟨1, .review .approvedForSession []⟩, ⟨1, .step⟩, ⟨1, .step⟩, ⟨1, .step⟩, ⟨1, .step⟩,
    ⟨2, .start sampleRequest⟩, ⟨2, .step⟩, ⟨2, .step⟩]

/-- Is this the answer of a review? -/
def Action.isReview : Action → Bool
  | review .. => true
  | _ => false

lemma blocked_view : (take next default blockedLabels).map (fun taken =>
    (taken.2.calls 0, taken.1.all fun t => t.before.sessionDeniedHosts = ∅,
      taken.1.all fun t => !t.label.action.isReview)) =
    some (some ⟨sampleRequest, .returned .notAllowed⟩, true, true) := rfl

lemma denial_view : (take next default denialLabels).bind (fun taken =>
    (taken.2.next ⟨0, .step⟩).bind fun mid => (take next mid overtakingLabels).map fun taken' =>
      (mid.calls 0, mid.calls 2, taken'.2.calls 2, verdicts taken.1 0)) =
    some (some ⟨sampleRequest, .returned .notAllowed⟩, none, some ⟨sampleRequest, .returned .allow⟩,
      [.denyForSession]) := rfl

/-- The denial of the sample run is in its table when its call has returned. -/
theorem approvals_after_denial : ∃ ts s, Run Step default ts s ∧ Lasting .denied ts s ∧
    (∀ k ∈ s.sessionApprovedHosts, k ∉ s.sessionDeniedHosts) ∧
    s.calls 0 = some ⟨sampleRequest, .returned .notAllowed⟩ := by
  obtain ⟨⟨earlier, before⟩, htake, hview⟩ := Option.bind_eq_some_iff.mp denial_view
  obtain ⟨mid, hmid, hview⟩ := Option.bind_eq_some_iff.mp hview
  obtain ⟨_, -, hview⟩ := Option.map_eq_some_iff.mp hview
  simp only [Prod.mk.injEq] at hview
  have run := (Run.nil.take htake).next ⟨0, .step⟩ hmid
  obtain ⟨-, -, hlasting, hexclusive, -⟩ := approvals_single_and_consistent run
  exact ⟨_, mid, run, hlasting .denied, hexclusive, hview.1⟩

/-- A call may be denied although no table held its key and no review was made, and a call that begins
after a denial for the session was returned may be allowed. -/
theorem blocked_and_overtaken :
    (∃ ts s request, Run Step default ts s ∧ s.calls 0 = some ⟨request, .returned .notAllowed⟩ ∧
      ¬ReadFromSession ts 0 request .notAllowed ∧ ∀ t ∈ ts, t.label.action.isReview = false) ∧
    ∃ earlier before mid later s request,
      Run Step default (earlier ++ [⟨before, ⟨0, .step⟩, mid⟩] ++ later) s ∧
      mid.calls 0 = some ⟨request, .returned .notAllowed⟩ ∧ .denyForSession ∈ verdicts earlier 0 ∧
      mid.calls 2 = none ∧ s.calls 2 = some ⟨request, .returned .allow⟩ := by
  constructor
  · obtain ⟨⟨ts, s⟩, htake, hview⟩ := Option.map_eq_some_iff.mp blocked_view
    simp only [Prod.mk.injEq] at hview
    obtain ⟨hcall, hempty, hreviews⟩ := hview
    refine ⟨ts, s, sampleRequest, Run.nil.take htake, hcall, ?_, ?_⟩
    · rintro ⟨t, ht, -, ⟨-, hmem, -⟩ | ⟨-, -, hdecision⟩⟩
      · have hnone := List.all_eq_true.mp hempty t ht
        rw [decide_eq_true_eq] at hnone
        rw [hnone] at hmem
        cases hmem
      · cases hdecision
    · intro t ht
      exact (Bool.not_eq_true' _).mp (List.all_eq_true.mp hreviews t ht)
  · obtain ⟨⟨earlier, before⟩, htake, hview⟩ := Option.bind_eq_some_iff.mp denial_view
    obtain ⟨mid, hmid, hview⟩ := Option.bind_eq_some_iff.mp hview
    obtain ⟨⟨later, s⟩, htake', hview⟩ := Option.map_eq_some_iff.mp hview
    simp only [Prod.mk.injEq] at hview
    obtain ⟨hdenied, hnone, hallowed, hverdicts⟩ := hview
    refine ⟨earlier, before, mid, later, s, sampleRequest, ?_, hdenied, ?_, hnone, hallowed⟩
    · exact ((Run.nil.take htake).next ⟨0, .step⟩ hmid).take htake'
    · rw [hverdicts]
      exact List.mem_singleton_self _

end Supercodex.NetworkApproval

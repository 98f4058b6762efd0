import Supercodex.NetworkApproval.Service

/-!
# The owners of pending approvals

At most one call owns the pending approval of a key, from its creation until its removal, and the tables
of the session change for the key only between the two. So the decisions for one key are made one after
the other, and the tables never hold it both ways.
-/

namespace Supercodex.NetworkApproval

open Runs Phase Service

namespace Phase

/-- Does the call own a pending approval? -/
def owns : Phase → Bool
  | readingTurn | resolvingOwner _ | runningHooks .. | prompting .. | recording .. | forgettingDenial _
  | approving _ | forgettingApproval _ | denying _ | deciding .. | removing .. => true
  | _ => false

/-- What the tables of the session hold for the key of a call, as far as the call relies on it. -/
def Demands (key : HostApprovalKey) (approved denied : Finset HostApprovalKey) : Phase → Prop
  | forgettingDenial verdict => verdict.resolved = .allowForSession
  | approving verdict => verdict.resolved = .allowForSession ∧ key ∉ denied
  | forgettingApproval verdict => verdict.cacheSessionDeny = true
  | denying verdict => verdict.cacheSessionDeny = true ∧ key ∉ approved
  | deciding verdict _ | removing verdict _ =>
    (verdict.resolved = .allowForSession → key ∈ approved) ∧ (verdict.cacheSessionDeny → key ∈ denied)
  | _ => True

/-- The verdict that the owner of an approval carries. -/
def verdict? : Phase → Option Verdict
  | recording _ _ verdict | forgettingDenial verdict | approving verdict | forgettingApproval verdict
  | denying verdict | deciding verdict _ | removing verdict _ => some verdict
  | _ => none

/-- The phases that follow from one another without a change of the tables, when an answer may bring a
verdict. -/
structure Quiet (s : Service) (request : NetworkPolicyRequest) (brought : Option Verdict)
    (phase phase' : Phase) : Prop where
  owns : phase'.owns = phase.owns
  demands : phase'.Demands request.key s.sessionApprovedHosts s.sessionDeniedHosts
  notWaiting : ∀ owner, phase' ≠ waiting owner
  verdict : ∀ verdict, phase'.verdict? = some verdict →
    phase.verdict? = some verdict ∨ brought = some verdict

end Phase

/-- The steps of a call, by what they change. -/
inductive Change (s : Service) (c : CallId) (request : NetworkPolicyRequest) (brought : Option Verdict) :
    Phase → Phase → Service → Prop where
  | keep {phase phase' : Phase} (outcomes : Text → Option NetworkApprovalOutcome)
      (quiet : phase.Quiet s request brought phase') :
      Change s c request brought phase phase' ({ s with callOutcomes := outcomes }.goto c request phase')
  | join (owner : CallId) (pending : s.pendingHostApprovals request.key = some owner) :
      Change s c request brought .creating (.waiting owner) (s.goto c request (.waiting owner))
  | create (pending : s.pendingHostApprovals request.key = none) :
      Change s c request brought .creating .readingTurn
        ({ s with
            pendingHostApprovals := Function.update s.pendingHostApprovals request.key (some c)
            decisions := Function.update s.decisions c none }.goto c request .readingTurn)
  | forgetDenial (verdict : Verdict) :
      Change s c request brought (.forgettingDenial verdict) (.approving verdict)
        ({ s with sessionDeniedHosts := s.sessionDeniedHosts.erase request.key }.goto c request
          (.approving verdict))
  | approve (verdict : Verdict) :
      Change s c request brought (.approving verdict) (.settleDenial verdict)
        ({ s with sessionApprovedHosts := insert request.key s.sessionApprovedHosts }.goto c request
          (.settleDenial verdict))
  | forgetApproval (verdict : Verdict) :
      Change s c request brought (.forgettingApproval verdict) (.denying verdict)
        ({ s with sessionApprovedHosts := s.sessionApprovedHosts.erase request.key }.goto c request
          (.denying verdict))
  | deny (verdict : Verdict) :
      Change s c request brought (.denying verdict) (.deciding verdict none)
        ({ s with sessionDeniedHosts := insert request.key s.sessionDeniedHosts }.goto c request
          (.deciding verdict none))
  | decide (verdict : Verdict) (blocked : Option Text) :
      Change s c request brought (.deciding verdict blocked) (.removing verdict blocked)
        ({ s with decisions := Function.update s.decisions c (some verdict.resolved) }.goto c request
          (.removing verdict blocked))
  | remove (verdict : Verdict) (blocked : Option Text) :
      Change s c request brought (.removing verdict blocked) (.finish verdict blocked)
        ({ s with pendingHostApprovals :=
            Function.update s.pendingHostApprovals request.key none }.goto c request
          (.finish verdict blocked))

namespace Phase

variable {key : HostApprovalKey} {approved denied : Finset HostApprovalKey} {verdict : Verdict}

lemma owns_settleDenial : (settleDenial verdict).owns = true := by
  rw [settleDenial]
  split <;> rfl

lemma owns_settle : (settle verdict).owns = true := by
  rw [settle]
  split
  · rfl
  · exact owns_settleDenial

variable {ownerCall : Option ActiveNetworkApprovalCall} {outcome : Option NetworkApprovalOutcome}

lemma owns_answered : (answered ownerCall outcome verdict).owns = true := by
  unfold answered
  split
  · rfl
  · exact owns_settle

lemma demands_settleDenial (h : verdict.resolved = .allowForSession → key ∈ approved) :
    (settleDenial verdict).Demands key approved denied := by
  rw [settleDenial]
  split
  case isTrue hdeny => exact hdeny
  case isFalse hdeny => exact ⟨h, fun h => absurd h hdeny⟩

lemma demands_settle : (settle verdict).Demands key approved denied := by
  rw [settle]
  split
  case isTrue hallow => exact hallow
  case isFalse hallow => exact demands_settleDenial fun h => absurd h hallow

lemma demands_answered : (answered ownerCall outcome verdict).Demands key approved denied := by
  unfold answered
  split
  · trivial
  · exact demands_settle

variable {phase : Phase}

lemma demands_of_not_owns (h : phase.owns = false) : phase.Demands key approved denied := by
  cases phase <;> trivial

lemma verdict?_of_not_owns (h : phase.owns = false) : phase.verdict? = none := by
  cases phase <;> first | rfl | cases h

lemma verdict?_settleDenial : (settleDenial verdict).verdict? = some verdict := by
  rw [settleDenial]
  split <;> rfl

lemma verdict?_settle : (settle verdict).verdict? = some verdict := by
  rw [settle]
  split
  · rfl
  · exact verdict?_settleDenial

lemma verdict?_answered : (answered ownerCall outcome verdict).verdict? = some verdict := by
  unfold answered
  split
  · rfl
  · exact verdict?_settle

lemma ne_waiting_of_owns (h : phase.owns = true) (owner : CallId) :
    phase ≠ waiting owner := by
  intro heq
  rw [heq] at h
  cases h

end Phase

/-! ## Every step is one of the changes -/

/-- The verdict on the pending approval of a call that an answer from outside brings. -/
def Action.verdict? : Action → Option Verdict
  | turn context => if reviewable context then none else some (.uncached .deny)
  | hooks decision => decision.map PermissionRequestDecision.verdict
  | review decision _ => some decision.verdict
  | _ => none

section

variable {s s' : Service} {c : CallId} {request : NetworkPolicyRequest} {phase phase' : Phase}
  {brought : Option Verdict}

lemma recordCallOutcome_eq (s : Service) (registrationId : Text) (outcome : NetworkApprovalOutcome) :
    ∃ outcomes, s.recordCallOutcome registrationId outcome = { s with callOutcomes := outcomes } := by
  rw [recordCallOutcome]
  split
  · exact ⟨s.callOutcomes, rfl⟩
  · exact ⟨_, rfl⟩

lemma Change.of_quiet (quiet : phase.Quiet s request brought phase') :
    Change s c request brought phase phase' (s.goto c request phase') :=
  .keep s.callOutcomes quiet

lemma Change.of_owned (h : phase.owns = true) (h' : phase'.owns = true)
    (demands : phase'.Demands request.key s.sessionApprovedHosts s.sessionDeniedHosts)
    (verdict : phase'.verdict? = none ∨ phase'.verdict? = brought) :
    Change s c request brought phase phase' (s.goto c request phase') := by
  refine .of_quiet ⟨h'.trans h.symm, demands, ne_waiting_of_owns h', fun v hv => .inr ?_⟩
  obtain hnone | hbrought := verdict
  · rw [hnone] at hv
    cases hv
  · rw [← hbrought, hv]

lemma Change.of_free (h : phase.owns = false) (h' : phase'.owns = false)
    (hwait : ∀ owner, phase' ≠ .waiting owner) :
    Change s c request brought phase phase' (s.goto c request phase') := by
  refine .of_quiet ⟨h'.trans h.symm, demands_of_not_owns h', hwait, fun v hv => ?_⟩
  rw [verdict?_of_not_owns h'] at hv
  cases hv

lemma change_of_proceed (h : s.proceed c request phase = some s') :
    ∃ phase', Change s c request brought phase phase' s' := by
  cases phase with
  | checkingDenied | checkingApproved =>
    cases h
    refine ⟨_, .of_free rfl ?_ fun owner => ?_⟩ <;> split <;> first | rfl | simp
  | creating =>
    cases h
    rw [getOrCreatePendingApproval]
    split
    case h_1 owner hpending => exact ⟨_, .join owner hpending⟩
    case h_2 hpending => exact ⟨_, .create hpending⟩
  | waiting owner =>
    obtain ⟨decision, -, rfl⟩ := Option.map_eq_some_iff.mp h
    exact ⟨_, .of_free rfl rfl (by simp)⟩
  | resolvingOwner turn =>
    cases h
    exact ⟨_, .of_owned rfl rfl trivial (.inl rfl)⟩
  | recording registrationId outcome verdict =>
    cases h
    obtain ⟨outcomes, heq⟩ := recordCallOutcome_eq s registrationId outcome
    rw [heq]
    exact ⟨_, .keep outcomes ⟨owns_settle, demands_settle,
      ne_waiting_of_owns owns_settle, fun v hv => .inl (verdict?_settle.symm.trans hv)⟩⟩
  | forgettingDenial verdict => cases h; exact ⟨_, .forgetDenial verdict⟩
  | approving verdict => cases h; exact ⟨_, .approve verdict⟩
  | forgettingApproval verdict => cases h; exact ⟨_, .forgetApproval verdict⟩
  | denying verdict => cases h; exact ⟨_, .deny verdict⟩
  | deciding verdict blocked => cases h; exact ⟨_, .decide verdict blocked⟩
  | removing verdict blocked => cases h; exact ⟨_, .remove verdict blocked⟩
  | resolvingBlocked message =>
    cases h
    refine ⟨_, .of_free rfl ?_ fun owner => ?_⟩ <;> split <;> first | rfl | simp
  | recordingBlocked registrationId message =>
    cases h
    obtain ⟨outcomes, heq⟩ := recordCallOutcome_eq s registrationId (.deniedByPolicy message)
    rw [heq]
    exact ⟨_, .keep outcomes ⟨rfl, trivial, by simp, fun v hv => nomatch hv⟩⟩
  | readingTurn | runningHooks turn ownerCall | prompting guardian ownerCall | returned decision => cases h

lemma change_of_answer {action : Action} (h : s.answer c request phase action = some s') :
    ∃ phase', Change s c request action.verdict? phase phase' s' := by
  unfold answer at h
  split at h
  case h_1 context =>
    cases h
    refine ⟨readTurn request context, ?_⟩
    cases hreviewable : reviewable context with
    | true =>
      cases context with
      | none => cases hreviewable
      | some turn =>
        simp only [readTurn, hreviewable]
        exact .of_owned rfl rfl trivial (.inl rfl)
    | false =>
      have hblocked : readTurn request context =
          .deciding (.uncached .deny) (some (policyDenialMessage request)) := by
        cases context <;> simp [readTurn, hreviewable]
      rw [hblocked]
      refine .of_owned rfl rfl ⟨by simp [Verdict.uncached], by simp [Verdict.uncached]⟩ (.inr ?_)
      simp [verdict?, Action.verdict?, hreviewable]
  case h_2 turn ownerCall decision =>
    cases h
    cases decision with
    | none => exact ⟨_, .of_owned rfl rfl trivial (.inl rfl)⟩
    | some decision =>
      exact ⟨_, .of_owned rfl owns_answered demands_answered (.inr verdict?_answered)⟩
  case h_3 guardian ownerCall decision rejectionMessage =>
    cases h
    exact ⟨_, .of_owned rfl owns_answered demands_answered (.inr verdict?_answered)⟩
  case h_4 => cases h

/-- A step starts a call, is taken by one call, or leaves the calls and the tables alone. -/
theorem step_cases {l : Label} (h : Step s l s') :
    (∃ request, l.action = .start request ∧ s.calls l.call = none ∧
        s' = s.goto l.call request .checkingDenied) ∨
      (∃ call phase', s.calls l.call = some call ∧
        Change s l.call call.request l.action.verdict? call.phase phase' s' ∧
        ((l.action = .step ∧ s.proceed l.call call.request call.phase = some s') ∨
          s.answer l.call call.request call.phase l.action = some s')) ∨
      (l.action ≠ .step ∧ l.action.verdict? = none ∧
        ∃ active outcomes, s' = { s with activeCalls := active, callOutcomes := outcomes }) := by
  obtain ⟨c, action⟩ := l
  have hadvance (h : s.advance c action = some s') : ∃ call phase', s.calls c = some call ∧
      Change s c call.request action.verdict? call.phase phase' s' ∧
      ((action = .step ∧ s.proceed c call.request call.phase = some s') ∨
        s.answer c call.request call.phase action = some s') := by
    unfold advance at h
    split at h
    case h_1 call hcall _ =>
      obtain ⟨phase', hchange⟩ := change_of_proceed h
      exact ⟨call, phase', hcall, hchange, .inl ⟨rfl, h⟩⟩
    case h_2 call hcall _ _ =>
      obtain ⟨phase', hchange⟩ := change_of_answer h
      exact ⟨call, phase', hcall, hchange, .inr h⟩
    case h_3 => cases h
  cases action with
  | start request =>
    simp only [Step, next] at h
    split_ifs at h with hnone
    exact .inl ⟨request, rfl, hnone, (Option.some.inj h).symm⟩
  | register call =>
    cases h
    refine .inr (.inr ⟨by simp, rfl, ?_⟩)
    rw [registerCall]
    split <;> exact ⟨_, s.callOutcomes, rfl⟩
  | unregister registrationId =>
    cases h
    exact .inr (.inr ⟨by simp, rfl, _, s.callOutcomes, rfl⟩)
  | takeOutcome registrationId =>
    cases h
    exact .inr (.inr ⟨by simp, rfl, s.activeCalls, _, rfl⟩)
  | step | turn context | hooks decision | review decision rejectionMessage => exact .inr (.inl (hadvance h))

/-! ## What a change leaves alone -/

@[simp] lemma goto_calls_self (s : Service) (c : CallId) (request : NetworkPolicyRequest) (phase : Phase) :
    (s.goto c request phase).calls c = some ⟨request, phase⟩ := Function.update_self ..

lemma goto_calls_of_ne {c' : CallId} (h : c' ≠ c) (s : Service) (request : NetworkPolicyRequest)
    (phase : Phase) : (s.goto c request phase).calls c' = s.calls c' := Function.update_of_ne h ..

namespace Change

section

variable (h : Change s c request brought phase phase' s')
include h

lemma calls_eq :
    s'.calls = Function.update s.calls c (some ⟨request, phase'⟩) := by
  cases h <;> rfl

lemma tables_of_ne {k : HostApprovalKey}
    (hk : k ≠ request.key) :
    (k ∈ s'.sessionApprovedHosts ↔ k ∈ s.sessionApprovedHosts) ∧
      (k ∈ s'.sessionDeniedHosts ↔ k ∈ s.sessionDeniedHosts) := by
  cases h with
  | forgetDenial => exact ⟨Iff.rfl, by simp [goto, hk]⟩
  | approve | forgetApproval => exact ⟨by simp [goto, hk], Iff.rfl⟩
  | deny => exact ⟨Iff.rfl, by simp [goto, hk]⟩
  | _ => exact ⟨Iff.rfl, Iff.rfl⟩

lemma tables_of_not_owns (hfree : phase.owns = false) :
    s'.sessionApprovedHosts = s.sessionApprovedHosts ∧ s'.sessionDeniedHosts = s.sessionDeniedHosts := by
  cases h with
  | keep | join | create => exact ⟨rfl, rfl⟩
  | _ => cases hfree

end

end Change

lemma Phase.Demands.congr {key : HostApprovalKey} {approved denied approved' denied' : Finset HostApprovalKey}
    (happroved : key ∈ approved' ↔ key ∈ approved) (hdenied : key ∈ denied' ↔ key ∈ denied)
    (h : phase.Demands key approved denied) : phase.Demands key approved' denied' := by
  cases phase with
  | approving | denying | deciding | removing =>
    simpa only [Phase.Demands, happroved, hdenied] using h
  | forgettingDenial | forgettingApproval => exact h
  | _ => trivial

/-! ## One owner for each key -/

/-- The pending approvals are those of the owners, and the tables hold what the owners rely on. -/
structure Consistent (s : Service) : Prop where
  entry (k : HostApprovalKey) (c : CallId) : s.pendingHostApprovals k = some c ↔
    ∃ call, s.calls c = some call ∧ call.phase.owns = true ∧ call.request.key = k
  demands (c : CallId) (call : Call) : s.calls c = some call →
    call.phase.Demands call.request.key s.sessionApprovedHosts s.sessionDeniedHosts
  exclusive (k : HostApprovalKey) : k ∈ s.sessionApprovedHosts → k ∉ s.sessionDeniedHosts
  waiting (c : CallId) (call : Call) (owner : CallId) : s.calls c = some call →
    call.phase = .waiting owner → ∃ other, s.calls owner = some other ∧ other.request.key = call.request.key

namespace Consistent

lemma default : Consistent default where
  entry k c := by simp [Service.default]
  demands c call h := by cases h
  exclusive k h := by cases h
  waiting c call owner h := by cases h

lemma owner_unique (h : Consistent s) {c c' : CallId} {call call' : Call} (hc : s.calls c = some call)
    (hc' : s.calls c' = some call') (howns : call.phase.owns = true) (howns' : call'.phase.owns = true)
    (hkey : call.request.key = call'.request.key) : c = c' := by
  have hentry := (h.entry _ c).mpr ⟨call, hc, howns, rfl⟩
  have hentry' := (h.entry _ c').mpr ⟨call', hc', howns', rfl⟩
  rw [hkey, hentry'] at hentry
  exact (Option.some.inj hentry).symm

end Consistent

/-- A change keeps the entries, where the call that makes it and the table agree. -/
lemma entry_of_update (h : Consistent s) {call : Call} (hcall : s.calls c = some call)
    (hrequest : call.request = request) {entries : HostApprovalKey → Option CallId}
    (hother : ∀ k ≠ request.key, entries k = s.pendingHostApprovals k)
    (hnew : ∀ c', entries request.key = some c' ↔
      if c' = c then phase'.owns = true else s.pendingHostApprovals request.key = some c')
    (k : HostApprovalKey) (c' : CallId) : entries k = some c' ↔
      ∃ call, (Function.update s.calls c (some ⟨request, phase'⟩)) c' = some call ∧
        call.phase.owns = true ∧ call.request.key = k := by
  by_cases hc : c' = c
  · subst hc
    rw [Function.update_self]
    by_cases hk : k = request.key
    · subst hk
      rw [hnew, if_pos rfl]
      constructor
      · intro howns
        exact ⟨_, rfl, howns, rfl⟩
      · rintro ⟨_, heq, howns, -⟩
        cases heq
        exact howns
    · rw [hother k hk, h.entry]
      constructor
      · rintro ⟨call', hcall', -, hkey⟩
        rw [hcall] at hcall'
        cases hcall'
        exact absurd (hkey.symm.trans (congrArg _ hrequest)) hk
      · rintro ⟨_, heq, -, hkey⟩
        cases heq
        exact absurd hkey.symm hk
  · rw [Function.update_of_ne hc, ← h.entry]
    by_cases hk : k = request.key
    · rw [hk, hnew, if_neg hc]
    · rw [hother k hk]

namespace Consistent

section

variable (h : Consistent s) {call : Call} (hcall : s.calls c = some call)
  (change : Change s c call.request brought call.phase phase' s')
include h hcall change

lemma entry_change (k : HostApprovalKey) (c' : CallId) : s'.pendingHostApprovals k = some c' ↔
    ∃ call, s'.calls c' = some call ∧ call.phase.owns = true ∧ call.request.key = k := by
  have hself : s.pendingHostApprovals call.request.key = some c ↔ call.phase.owns = true := by
    rw [h.entry]
    constructor
    · rintro ⟨call', hcall', howns, -⟩
      rw [hcall] at hcall'
      cases hcall'
      exact howns
    · intro howns
      exact ⟨call, hcall, howns, rfl⟩
  -- most changes leave the entries alone, and a call that owns its entry keeps it
  have hsame (hpending : s'.pendingHostApprovals = s.pendingHostApprovals)
      (howns : phase'.owns = call.phase.owns) : s'.pendingHostApprovals k = some c' ↔
        ∃ call, s'.calls c' = some call ∧ call.phase.owns = true ∧ call.request.key = k := by
    rw [change.calls_eq, hpending]
    refine entry_of_update h hcall rfl (fun _ _ => rfl) (fun c' => ?_) k c'
    split
    case isTrue hc => rw [hc, hself, howns]
    case isFalse => exact Iff.rfl
  generalize hphase : call.phase = phase at change hself hsame
  cases change with
  | keep outcomes quiet => exact hsame rfl quiet.owns
  | join | forgetDenial | forgetApproval | deny | decide => exact hsame rfl rfl
  | approve => exact hsame rfl owns_settleDenial
  | create hpending =>
    refine entry_of_update h hcall rfl (fun k hk => Function.update_of_ne hk ..) (fun c' => ?_) k c'
    show Function.update _ _ _ _ = _ ↔ _
    rw [Function.update_self, hpending, Option.some_inj]
    split
    case isTrue hc => exact iff_of_true hc.symm rfl
    case isFalse hc => exact iff_of_false (Ne.symm hc) (by simp)
  | remove verdict blocked =>
    refine entry_of_update h hcall rfl (fun k hk => Function.update_of_ne hk ..) (fun c' => ?_) k c'
    show Function.update _ _ _ _ = _ ↔ _
    rw [Function.update_self, hself.mpr rfl, Option.some_inj]
    split
    · exact iff_of_false (by simp) (by cases blocked <;> simp [finish, owns])
    case isFalse hc => exact iff_of_false (by simp) (Ne.symm hc)

lemma demands_change_self :
    phase'.Demands call.request.key s'.sessionApprovedHosts s'.sessionDeniedHosts := by
  have hdemands := h.demands c call hcall
  generalize hphase : call.phase = phase at change hdemands
  cases change with
  | keep outcomes quiet => exact quiet.demands
  | join | create => trivial
  | forgetDenial verdict => exact ⟨hdemands, Finset.notMem_erase _ _⟩
  | approve verdict => exact demands_settleDenial fun _ => Finset.mem_insert_self _ _
  | forgetApproval verdict => exact ⟨hdemands, Finset.notMem_erase _ _⟩
  | deny verdict =>
    refine ⟨fun hallow => ?_, fun _ => Finset.mem_insert_self _ _⟩
    rw [verdict.denies hdemands.1] at hallow
    cases hallow
  | decide verdict blocked => exact hdemands
  | remove verdict blocked => cases blocked <;> trivial

lemma demands_change (c' : CallId) (call' : Call) (hcall' : s'.calls c' = some call') :
    call'.phase.Demands call'.request.key s'.sessionApprovedHosts s'.sessionDeniedHosts := by
  rw [change.calls_eq] at hcall'
  by_cases hc : c' = c
  · subst hc
    rw [Function.update_self] at hcall'
    cases hcall'
    exact @demands_change_self _ _ _ _ _ h call hcall change
  rw [Function.update_of_ne hc] at hcall'
  have hdemands := h.demands c' call' hcall'
  -- an owner of the same key would be the call that changes the tables
  by_cases howns' : call'.phase.owns = true
  · by_cases howns : call.phase.owns = true
    · have hkey : call'.request.key ≠ call.request.key := fun hkey =>
        hc (h.owner_unique hcall' hcall howns' howns hkey)
      obtain ⟨happroved, hdenied⟩ := change.tables_of_ne hkey
      exact hdemands.congr happroved hdenied
    · obtain ⟨happroved, hdenied⟩ := change.tables_of_not_owns (Bool.not_eq_true _ ▸ howns)
      rwa [happroved, hdenied]
  · exact demands_of_not_owns (Bool.not_eq_true _ ▸ howns')

lemma exclusive_change (k : HostApprovalKey) (happroved : k ∈ s'.sessionApprovedHosts) :
    k ∉ s'.sessionDeniedHosts := by
  have hdemands := h.demands c call hcall
  have hbefore := h.exclusive k
  generalize hphase : call.phase = phase at change hdemands
  cases change with
  | forgetDenial verdict => exact fun hdenied => hbefore happroved (Finset.mem_of_mem_erase hdenied)
  | approve verdict =>
    obtain rfl | happroved := Finset.mem_insert.mp happroved
    · exact hdemands.2
    · exact hbefore happroved
  | forgetApproval verdict => exact hbefore (Finset.mem_of_mem_erase happroved)
  | deny verdict =>
    intro hdenied
    obtain rfl | hdenied := Finset.mem_insert.mp hdenied
    · exact hdemands.2 happroved
    · exact hbefore happroved hdenied
  | _ => exact hbefore happroved

omit h in
lemma request_change {owner : CallId} {other : Call} (hother : s.calls owner = some other) :
    ∃ other', s'.calls owner = some other' ∧ other'.request = other.request := by
  rw [change.calls_eq]
  by_cases howner : owner = c
  · subst howner
    rw [hcall] at hother
    cases hother
    exact ⟨_, Function.update_self .., rfl⟩
  · rw [Function.update_of_ne howner]
    exact ⟨other, hother, rfl⟩

lemma waiting_change (c' : CallId) (call' : Call) (owner : CallId) (hcall' : s'.calls c' = some call')
    (hwaiting : call'.phase = .waiting owner) :
    ∃ other, s'.calls owner = some other ∧ other.request.key = call'.request.key := by
  have hbefore : ∃ other, s.calls owner = some other ∧ other.request.key = call'.request.key := by
    rw [change.calls_eq] at hcall'
    by_cases hc : c' = c
    · subst hc
      rw [Function.update_self] at hcall'
      cases hcall'
      generalize hphase : call.phase = phase at change
      cases change with
      | keep outcomes quiet => exact absurd hwaiting (quiet.notWaiting owner)
      | join owner' hpending =>
        cases hwaiting
        obtain ⟨other, hother, -, hkey⟩ := (h.entry _ _).mp hpending
        exact ⟨other, hother, hkey⟩
      | approve verdict => exact absurd hwaiting (ne_waiting_of_owns owns_settleDenial owner)
      | remove verdict blocked => cases blocked <;> cases hwaiting
      | _ => cases hwaiting
    · rw [Function.update_of_ne hc] at hcall'
      exact h.waiting c' call' owner hcall' hwaiting
  obtain ⟨other, hother, hkey⟩ := hbefore
  obtain ⟨other', hother', hrequest⟩ := request_change hcall change hother
  exact ⟨other', hother', by rw [hrequest, hkey]⟩

end

lemma start (h : Consistent s) (hnone : s.calls c = none) :
    Consistent (s.goto c request .checkingDenied) where
  entry k c' := by
    show s.pendingHostApprovals k = some c' ↔ _
    rw [h.entry]
    by_cases hc : c' = c
    · subst hc
      rw [hnone, goto_calls_self]
      constructor
      · rintro ⟨_, heq, -⟩
        cases heq
      · rintro ⟨_, heq, howns, -⟩
        cases heq
        cases howns
    · rw [goto_calls_of_ne hc]
  demands c' call hcall := by
    by_cases hc : c' = c
    · subst hc
      rw [goto_calls_self] at hcall
      cases hcall
      trivial
    · rw [goto_calls_of_ne hc] at hcall
      exact h.demands c' call hcall
  exclusive := h.exclusive
  waiting c' call owner hcall hwaiting := by
    have hbefore : ∃ other, s.calls owner = some other ∧ other.request.key = call.request.key := by
      by_cases hc : c' = c
      · subst hc
        rw [goto_calls_self] at hcall
        cases hcall
        cases hwaiting
      · rw [goto_calls_of_ne hc] at hcall
        exact h.waiting c' call owner hcall hwaiting
    obtain ⟨other, hother, hkey⟩ := hbefore
    have howner : owner ≠ c := by
      rintro rfl
      rw [hnone] at hother
      cases hother
    exact ⟨other, by rwa [goto_calls_of_ne howner], hkey⟩

theorem step (h : Consistent s) {l : Label} (hstep : Step s l s') : Consistent s' := by
  obtain ⟨request, -, hnone, rfl⟩ | ⟨call, phase', hcall, change, -⟩ | ⟨-, -, active, outcomes, rfl⟩ :=
    step_cases hstep
  · exact h.start hnone
  · exact ⟨h.entry_change hcall change, h.demands_change hcall change, h.exclusive_change hcall change,
      h.waiting_change hcall change⟩
  · exact ⟨h.entry, h.demands, h.exclusive, h.waiting⟩

end Consistent

/-- The pending approvals and the tables agree with the calls in every state of every run. -/
theorem consistent_of_run {ts : List (Transition Service Label)} (run : Run Step default ts s) :
    Consistent s := by
  induction run with
  | nil => exact .default
  | snoc run taken ih => exact ih.step taken

end

end Supercodex.NetworkApproval

import Mathlib
import Supercodex.Mcp.ToolNames

/-!
# Qualified tool names are distinct, short and independent of the order

Sanitized parts and digest digits hold only characters of tool names, for which bytes and characters
agree. The allocation keeps the names in use and the keys of the map the same, so that each tool adds
one entry. The two collision passes ask only for the set of the candidates, and the sort has one
result, because the identities differ.
-/

namespace Supercodex.Mcp

open ToolInfo

open History (byteLen)

/-! ## Texts of tool name characters -/

/-- Only characters of tool names. -/
def IsToolNameText (t : Text) : Prop := ∀ c ∈ t, isToolNameChar c = true

lemma isToolNameText_of_all {t : Text} (h : t.all isToolNameChar = true) : IsToolNameText t :=
  List.all_eq_true.mp h

lemma utf8Size_eq_one {c : Char} (h : isToolNameChar c = true) : c.utf8Size = 1 := by
  have hle : c.val ≤ 127 := by
    simp only [isToolNameChar, Char.isAlphanum, Char.isAlpha, Char.isUpper, Char.isLower,
      Char.isDigit, Bool.or_eq_true, Bool.and_eq_true, decide_eq_true_eq, beq_iff_eq] at h
    rcases h with ((h | h) | h) | rfl
    · exact UInt32.le_trans h.2 (by decide)
    · exact UInt32.le_trans h.2 (by decide)
    · exact UInt32.le_trans h.2 (by decide)
    · decide
  simp [Char.utf8Size, hle]

namespace IsToolNameText

variable {t u : Text}

lemma byteLen_eq (ht : IsToolNameText t) : byteLen t = t.length := by
  induction t with
  | nil => rfl
  | cons c t ih =>
    have hrest : byteLen t = t.length := ih fun d hd => ht d (List.mem_cons_of_mem _ hd)
    have hsize := utf8Size_eq_one (ht c List.mem_cons_self)
    show (c.utf8Size + (t.map Char.utf8Size).sum) = t.length + 1
    rw [hsize, show (t.map Char.utf8Size).sum = t.length from hrest, Nat.add_comm]

lemma append (ht : IsToolNameText t) (hu : IsToolNameText u) : IsToolNameText (t ++ u) := by
  intro c hc
  rcases List.mem_append.mp hc with hc | hc
  · exact ht c hc
  · exact hu c hc

lemma take (ht : IsToolNameText t) (n : ℕ) : IsToolNameText (t.take n) :=
  fun c hc => ht c (List.mem_of_mem_take hc)

end IsToolNameText

lemma isToolNameText_sanitize (name : Text) :
    IsToolNameText (sanitizeResponsesApiToolName name) := by
  have hmap : IsToolNameText (name.map fun c => if isToolNameChar c then c else '_') := by
    intro d hd
    obtain ⟨c, -, rfl⟩ := List.mem_map.mp hd
    show isToolNameChar (if isToolNameChar c then c else '_') = true
    split
    · assumption
    · decide
  simp only [sanitizeResponsesApiToolName]
  split
  · exact isToolNameText_of_all (by decide)
  · exact hmap

/-- What the name of a tool must be. -/
structure IsQualifiedName (ns name : Text) : Prop where
  namespaceText : IsToolNameText ns
  nameText : IsToolNameText name
  short : byteLen (ns ++ name) ≤ maxToolNameLength

/-! ## Digests -/

/-- What `format!("{sha1:x}")` gives: forty lower-case hexadecimal digits. -/
structure IsHexDigest (sha1Hex : Text → Text) : Prop where
  length_eq : ∀ t, (sha1Hex t).length = 40
  digits : ∀ t, ∀ c ∈ sha1Hex t, c ∈ "0123456789abcdef".toList

/-- So many attempts for a raw identity give different digits. -/
def EnoughAttempts (sha1Hex : Text → Text) (raw : Text) (count : ℕ) : Prop :=
  ∃ attempts : Finset ℕ, (∀ attempt ∈ attempts, attempt < attemptCount) ∧ count ≤ attempts.card ∧
    Set.InjOn (fun attempt => (sha1Hex (hashInput raw attempt)).take callableNameHashLen) attempts

/-- The digits eventually differ: for each tool there are as many different ones as there are tools. -/
def PrefixesDiffer (sha1Hex : Text → Text) (tools : List ToolInfo) : Prop :=
  ∀ tool ∈ tools, EnoughAttempts sha1Hex tool.rawToolIdentity tools.length

section Parts

variable {sha1Hex : Text → Text} (hsha : IsHexDigest sha1Hex)
include hsha

lemma isToolNameText_sha1Hex (t : Text) : IsToolNameText (sha1Hex t) := by
  have hdigits : IsToolNameText "0123456789abcdef".toList := isToolNameText_of_all (by decide)
  exact fun c hc => hdigits c (hsha.digits t c hc)

lemma isToolNameText_suffix (raw : Text) : IsToolNameText (callableNameHashSuffix sha1Hex raw) := by
  intro c hc
  rcases List.mem_cons.mp hc with rfl | hc
  · decide
  · exact (isToolNameText_sha1Hex hsha raw).take callableNameHashLen c hc

lemma length_suffix (raw : Text) : (callableNameHashSuffix sha1Hex raw).length = 13 := by
  simp [callableNameHashSuffix, callableNameHashLen, hsha.length_eq]

lemma byteLen_suffix (raw : Text) : byteLen (callableNameHashSuffix sha1Hex raw) = 13 := by
  rw [(isToolNameText_suffix hsha raw).byteLen_eq, length_suffix hsha]

lemma isToolNameText_appendHashSuffix {value : Text} (hvalue : IsToolNameText value) (raw : Text) :
    IsToolNameText (appendHashSuffix sha1Hex value raw) :=
  hvalue.append (isToolNameText_suffix hsha raw)

lemma isToolNameText_appendNamespaceHashSuffix {ns : Text} (hns : IsToolNameText ns) (raw : Text) :
    IsToolNameText (appendNamespaceHashSuffix sha1Hex ns raw) := by
  rw [appendNamespaceHashSuffix]
  split
  · have hdelimiter : IsToolNameText mcpToolNameDelimiter := isToolNameText_of_all (by decide)
    exact ((hns.take _).append (isToolNameText_suffix hsha raw)).append hdelimiter
  · exact isToolNameText_appendHashSuffix hsha hns raw

variable {ns name : Text} (hns : IsToolNameText ns)
include hns

lemma exists_fitCallablePartsWithHash (name : Text) : ∃ nsLen nameLen, nsLen + nameLen ≤ 51 ∧
    ∀ raw, fitCallablePartsWithHash sha1Hex ns name raw =
      (ns.take nsLen, name.take nameLen ++ callableNameHashSuffix sha1Hex raw) := by
  by_cases hroom : 13 ≤ 64 - ns.length
  · refine ⟨ns.length, 64 - ns.length - 13, by omega, fun raw => ?_⟩
    simp only [fitCallablePartsWithHash, byteLen_suffix hsha raw, hns.byteLen_eq, maxToolNameLength,
      if_pos hroom, truncateName, List.take_length]
  · refine ⟨51, 0, by omega, fun raw => ?_⟩
    simp only [fitCallablePartsWithHash, byteLen_suffix hsha raw, hns.byteLen_eq, maxToolNameLength,
      if_neg hroom, truncateName, List.take_zero, List.nil_append]

/-- Names that are fitted alike have the same digest prefix. -/
lemma take_sha1Hex_eq_of_fit_eq {raw raw' : Text}
    (h : (fitCallablePartsWithHash sha1Hex ns name raw).1 ++
        (fitCallablePartsWithHash sha1Hex ns name raw).2 =
      (fitCallablePartsWithHash sha1Hex ns name raw').1 ++
        (fitCallablePartsWithHash sha1Hex ns name raw').2) :
    (sha1Hex raw).take callableNameHashLen = (sha1Hex raw').take callableNameHashLen := by
  obtain ⟨nsLen, nameLen, -, hfit⟩ := exists_fitCallablePartsWithHash hsha hns name
  rw [hfit, hfit, ← List.append_assoc, ← List.append_assoc] at h
  exact (List.cons.inj (List.append_cancel_left h)).2

lemma isQualifiedName_fit (hname : IsToolNameText name) (raw : Text) :
    IsQualifiedName (fitCallablePartsWithHash sha1Hex ns name raw).1
      (fitCallablePartsWithHash sha1Hex ns name raw).2 := by
  obtain ⟨nsLen, nameLen, hlen, hfit⟩ := exists_fitCallablePartsWithHash hsha hns name
  have hfst : IsToolNameText (ns.take nsLen) := hns.take nsLen
  have hsnd : IsToolNameText (name.take nameLen ++ callableNameHashSuffix sha1Hex raw) :=
    (hname.take nameLen).append (isToolNameText_suffix hsha raw)
  rw [hfit]
  refine ⟨hfst, hsnd, ?_⟩
  rw [(hfst.append hsnd).byteLen_eq]
  simp only [List.length_append, List.length_take, length_suffix hsha, maxToolNameLength]
  omega

/-- With more attempts than used names, one of them is free. -/
lemma uniqueCallableParts_spec (hname : IsToolNameText name) {raw : Text} {used : Finset Text}
    {attempts : Finset ℕ}
    (hbound : ∀ attempt ∈ attempts, attempt < attemptCount) (hcard : used.card < attempts.card)
    (hinj : Set.InjOn (fun attempt =>
      (sha1Hex (hashInput raw attempt)).take callableNameHashLen) attempts) :
    ∃ ns' name', uniqueCallableParts sha1Hex ns name raw used =
        some ((ns', name', ns' ++ name'), insert (ns' ++ name') used) ∧
      IsQualifiedName ns' name' ∧ ns' ++ name' ∉ used := by
  simp only [uniqueCallableParts]
  split
  · rename_i hfirst
    exact ⟨ns, name, rfl, ⟨hns, hname, hfirst.1⟩, hfirst.2⟩
  let parts := fun attempt => fitCallablePartsWithHash sha1Hex ns name (hashInput raw attempt)
  have hnames : Set.InjOn (fun attempt => (parts attempt).1 ++ (parts attempt).2) attempts := by
    intro a ha b hb hab
    exact hinj ha hb (take_sha1Hex_eq_of_fit_eq hsha hns hab)
  have hsome := FreshNames.firstFresh_isSome_of_card hbound hcard hnames
  obtain ⟨attempt, hattempt⟩ := Option.isSome_iff_exists.mp hsome
  have hfresh := FreshNames.firstFresh_notMem hattempt
  refine ⟨(parts attempt).1, (parts attempt).2, ?_, ?_, hfresh⟩
  · rw [hattempt]
    rfl
  · exact isQualifiedName_fit hsha hns hname (hashInput raw attempt)

end Parts

/-! ## The allocation -/

/-- The entry that the map holds for a tool: under the name of its new parts the tool itself, with
these parts. -/
structure IsEntryOf (tool : ToolInfo) (entry : Sigma fun _ : Text => ToolInfo) : Prop where
  key_eq : entry.1 = entry.2.callableNamespace ++ entry.2.callableName
  tool_eq : entry.2 = { tool with
    callableNamespace := entry.2.callableNamespace, callableName := entry.2.callableName }

/-- What the collision passes keep of a candidate. -/
structure IsCandidate (candidate : CallableToolCandidate) : Prop where
  rawToolIdentity_eq : candidate.rawToolIdentity = candidate.tool.rawToolIdentity
  namespaceText : IsToolNameText candidate.callableNamespace
  nameText : IsToolNameText candidate.callableName

section Allocation

variable {sha1Hex : Text → Text} (hsha : IsHexDigest sha1Hex)
include hsha

/-- Each candidate adds one entry; the names in use stay the keys of the map. -/
lemma allocateNames_spec {candidates : List CallableToolCandidate} {used : Finset Text}
    {acc : AList fun _ : Text => ToolInfo} (hused : ∀ name, name ∈ used ↔ name ∈ acc)
    (hcandidates : ∀ candidate ∈ candidates, IsCandidate candidate)
    (hattempts : ∀ candidate ∈ candidates,
      EnoughAttempts sha1Hex candidate.rawToolIdentity (used.card + candidates.length)) :
    ∃ qualified entries, allocateNames sha1Hex used acc candidates = some qualified ∧
      qualified.entries = entries.reverse ++ acc.entries ∧
      List.Forall₂ IsEntryOf (candidates.map (·.tool)) entries ∧
      ∀ entry ∈ entries, ∃ ns name, entry.1 = ns ++ name ∧ IsQualifiedName ns name := by
  induction candidates generalizing used acc with
  | nil => exact ⟨acc, [], rfl, rfl, .nil, by simp⟩
  | cons candidate candidates ih =>
    have hcandidate := hcandidates candidate List.mem_cons_self
    obtain ⟨attempts, hbound, hcard, hinj⟩ := hattempts candidate List.mem_cons_self
    rw [List.length_cons] at hcard
    have hroom : used.card < attempts.card := by omega
    obtain ⟨ns, name, hparts, hqualified, hfresh⟩ := uniqueCallableParts_spec hsha
      hcandidate.namespaceText hcandidate.nameText hbound hroom hinj
    set tool : ToolInfo := { candidate.tool with callableNamespace := ns, callableName := name }
    have hacc : ns ++ name ∉ acc := fun h => hfresh ((hused _).mpr h)
    have hkeys : ∀ key, key ∈ insert (ns ++ name) used ↔ key ∈ acc.insert (ns ++ name) tool := by
      intro key
      rw [Finset.mem_insert, AList.mem_insert, hused]
    have hrest : ∀ other ∈ candidates, EnoughAttempts sha1Hex other.rawToolIdentity
        ((insert (ns ++ name) used).card + candidates.length) := by
      intro other hother
      have henough := hattempts other (List.mem_cons_of_mem _ hother)
      rw [List.length_cons] at henough
      rwa [Finset.card_insert_of_notMem hfresh, Nat.add_assoc, Nat.add_comm 1]
    obtain ⟨qualified, entries, hresult, hentries, hall, hnames⟩ := ih hkeys
      (fun other hother => hcandidates other (List.mem_cons_of_mem _ hother)) hrest
    refine ⟨qualified, ⟨ns ++ name, tool⟩ :: entries, ?_, ?_, ?_, ?_⟩
    · simp only [allocateNames, hparts, Option.bind_eq_bind, Option.bind_some]
      exact hresult
    · rw [hentries, AList.entries_insert_of_notMem hacc, List.reverse_cons, List.append_assoc]
      rfl
    · exact .cons ⟨rfl, rfl⟩ hall
    · intro entry hentry
      rcases List.mem_cons.mp hentry with rfl | hentry
      · exact ⟨ns, name, rfl, hqualified⟩
      · exact hnames entry hentry

end Allocation

/-! ## The collision passes -/

section Passes

variable {β : Type} [DecidableEq β] {base : CallableToolCandidate → β}
  {identity : CallableToolCandidate → Text} {rename : CallableToolCandidate → CallableToolCandidate}
  {candidates candidates' : List CallableToolCandidate}

lemma identitiesByBase_perm (h : candidates.Perm candidates') (key : β) :
    identitiesByBase base identity candidates key = identitiesByBase base identity candidates' key :=
  List.toFinset_eq_of_perm _ _ ((h.filter _).map identity)

lemma renameColliding_perm (h : candidates.Perm candidates') :
    (renameColliding base identity rename candidates).Perm
      (renameColliding base identity rename candidates') := by
  simp only [renameColliding, identitiesByBase_perm h]
  exact h.map _

lemma map_renameColliding {γ : Type} (f : CallableToolCandidate → γ)
    (hf : ∀ candidate, f (rename candidate) = f candidate) :
    (renameColliding base identity rename candidates).map f = candidates.map f := by
  rw [renameColliding, List.map_map]
  refine List.map_congr_left fun candidate _ => ?_
  rw [Function.comp_apply]
  split
  · exact hf candidate
  · rfl

lemma forall_mem_renameColliding {P : CallableToolCandidate → Prop}
    (hP : ∀ candidate, P candidate → P (rename candidate))
    (h : ∀ candidate ∈ candidates, P candidate) :
    ∀ candidate ∈ renameColliding base identity rename candidates, P candidate := by
  intro renamed hrenamed
  obtain ⟨candidate, hcandidate, rfl⟩ := List.mem_map.mp hrenamed
  split
  · exact hP candidate (h candidate hcandidate)
  · exact h candidate hcandidate

end Passes

/-! ## Raw identities -/

/-- The raw identity of a tool, in its parts. -/
def ToolInfo.rawIdentity (tool : ToolInfo) : Text × Text × Text × Text × Text :=
  (tool.serverName, tool.callableNamespace, tool.connectorId.getD [], tool.callableName,
    tool.tool.name)

/-- No name of the tool holds the character that separates the parts of its identity. -/
structure ToolInfo.NulFree (tool : ToolInfo) : Prop where
  serverName : '\x00' ∉ tool.serverName
  callableNamespace : '\x00' ∉ tool.callableNamespace
  callableName : '\x00' ∉ tool.callableName
  name : '\x00' ∉ tool.tool.name

lemma rawIdentity_eq_of_rawToolIdentity_eq {tool tool' : ToolInfo} (hnul : tool.NulFree)
    (hnul' : tool'.NulFree) (h : tool.rawToolIdentity = tool'.rawToolIdentity) :
    tool.rawIdentity = tool'.rawIdentity := by
  obtain ⟨h, hname⟩ := Text.eq_and_eq_of_append_cons_eq' hnul.name hnul'.name h
  obtain ⟨h, hcallable⟩ :=
    Text.eq_and_eq_of_append_cons_eq' hnul.callableName hnul'.callableName h
  simp only [rawNamespaceIdentity, List.append_assoc, List.cons_append] at h
  obtain ⟨hserver, h⟩ := Text.eq_and_eq_of_append_cons_eq hnul.serverName hnul'.serverName h
  obtain ⟨hnamespace, hconnector⟩ :=
    Text.eq_and_eq_of_append_cons_eq hnul.callableNamespace hnul'.callableNamespace h
  simp only [rawIdentity, hserver, hnamespace, hconnector, hcallable, hname]

lemma nodup_rawToolIdentity {tools : List ToolInfo} (hnul : ∀ tool ∈ tools, tool.NulFree)
    (hdistinct : (tools.map rawIdentity).Nodup) :
    (tools.map rawToolIdentity).Nodup := by
  refine (List.Nodup.of_map _ hdistinct).map_on ?_
  intro tool htool tool' htool' h
  exact List.inj_on_of_nodup_map hdistinct htool htool'
    (rawIdentity_eq_of_rawToolIdentity_eq (hnul tool htool) (hnul tool' htool') h)

/-! ## The sorted candidates -/

/-- The candidates as the last loop of `qualify_tools` finds them. -/
def preparedCandidates (sha1Hex : Text → Text) (tools : List ToolInfo) :
    List CallableToolCandidate :=
  sortCandidates (renameCollidingTools sha1Hex
    (renameCollidingNamespaces sha1Hex (collectCandidates ∅ tools)))

lemma collectCandidates_eq {tools : List ToolInfo} {seen : Finset Text}
    (hnodup : (tools.map rawToolIdentity).Nodup)
    (hseen : ∀ tool ∈ tools, tool.rawToolIdentity ∉ seen) :
    collectCandidates seen tools = tools.map candidate := by
  induction tools generalizing seen with
  | nil => rfl
  | cons tool tools ih =>
    rw [List.map_cons, List.nodup_cons] at hnodup
    rw [collectCandidates, if_neg (hseen tool List.mem_cons_self), List.map_cons]
    congr 1
    refine ih hnodup.2 fun other hother => ?_
    rw [Finset.mem_insert, not_or]
    refine ⟨fun heq => hnodup.1 ?_, hseen other (List.mem_cons_of_mem _ hother)⟩
    exact List.mem_map.mpr ⟨other, hother, heq⟩

lemma sortCandidates_perm (candidates : List CallableToolCandidate) :
    (sortCandidates candidates).Perm candidates := List.mergeSort_perm _ _

lemma sortCandidates_eq_of_perm {candidates candidates' : List CallableToolCandidate}
    (hnodup : (candidates.map (·.rawToolIdentity)).Nodup) (h : candidates.Perm candidates') :
    sortCandidates candidates = sortCandidates candidates' := by
  have hsorted : ∀ cs : List CallableToolCandidate, (sortCandidates cs).Pairwise
      fun left right => decide (left.rawToolIdentity ≤ right.rawToolIdentity) = true := by
    intro cs
    refine List.pairwise_mergeSort ?_ ?_ cs
    · intro a b c hab hbc
      exact decide_eq_true (le_trans (of_decide_eq_true hab) (of_decide_eq_true hbc))
    · intro a b
      simpa using le_total a.rawToolIdentity b.rawToolIdentity
  refine List.Perm.eq_of_pairwise ?_ (hsorted candidates) (hsorted candidates') ?_
  · intro left right hleft hright hle hge
    have hmem : left ∈ candidates := (sortCandidates_perm candidates).subset hleft
    have hmem' : right ∈ candidates :=
      h.symm.subset ((sortCandidates_perm candidates').subset hright)
    exact List.inj_on_of_nodup_map hnodup hmem hmem'
      (le_antisymm (of_decide_eq_true hle) (of_decide_eq_true hge))
  · exact (sortCandidates_perm candidates).trans (h.trans (sortCandidates_perm candidates').symm)

section Prepared

variable (sha1Hex : Text → Text) {tools : List ToolInfo}
  (hnodup : (tools.map ToolInfo.rawToolIdentity).Nodup)
include hnodup

lemma map_renamed {γ : Type} (f : CallableToolCandidate → γ)
    (hf : ∀ (candidate : CallableToolCandidate) ns name,
      f { candidate with callableNamespace := ns, callableName := name } = f candidate) :
    (renameCollidingTools sha1Hex
      (renameCollidingNamespaces sha1Hex (collectCandidates ∅ tools))).map f =
      tools.map fun tool => f tool.candidate := by
  rw [renameCollidingTools, map_renameColliding f fun candidate => hf candidate _ _,
    renameCollidingNamespaces, map_renameColliding f fun candidate => hf candidate _ _,
    collectCandidates_eq hnodup (by simp), List.map_map]
  rfl

lemma preparedCandidates_eq_of_perm {tools' : List ToolInfo} (h : tools.Perm tools') :
    preparedCandidates sha1Hex tools = preparedCandidates sha1Hex tools' := by
  refine sortCandidates_eq_of_perm ?_ ?_
  · rw [map_renamed sha1Hex hnodup (·.rawToolIdentity) fun _ _ _ => rfl]
    exact hnodup
  · have hnodup' := (h.map rawToolIdentity).nodup_iff.mp hnodup
    rw [collectCandidates_eq hnodup (by simp), collectCandidates_eq hnodup' (by simp)]
    exact renameColliding_perm (renameColliding_perm (h.map _))

lemma map_tool_preparedCandidates :
    ((preparedCandidates sha1Hex tools).map (·.tool)).Perm tools := by
  have hmap := map_renamed sha1Hex hnodup (·.tool) fun _ _ _ => rfl
  refine ((sortCandidates_perm _).map _).trans ?_
  rw [hmap]
  show (tools.map id).Perm tools
  rw [List.map_id]

lemma isCandidate_of_mem_preparedCandidates (hsha : IsHexDigest sha1Hex)
    {candidate : CallableToolCandidate} (h : candidate ∈ preparedCandidates sha1Hex tools) :
    IsCandidate candidate := by
  have hmem := (sortCandidates_perm _).subset h
  rw [collectCandidates_eq hnodup (by simp)] at hmem
  refine forall_mem_renameColliding (P := IsCandidate) ?_ ?_ candidate hmem
  · intro c hc
    exact ⟨hc.1, hc.2, isToolNameText_appendHashSuffix hsha hc.3 _⟩
  refine forall_mem_renameColliding (P := IsCandidate) ?_ ?_
  · intro c hc
    exact ⟨hc.1, isToolNameText_appendNamespaceHashSuffix hsha hc.2 _, hc.3⟩
  · intro c hc
    obtain ⟨tool, -, rfl⟩ := List.mem_map.mp hc
    exact ⟨rfl, isToolNameText_sanitize _, isToolNameText_sanitize _⟩

end Prepared

/-! ## Qualification -/

/-- `qualify_tools` gives each tool one entry, under a short name of tool name characters, and does
not depend on the order of the tools. -/
theorem qualifyTools_total_injective {sha1Hex : Text → Text} (hsha : IsHexDigest sha1Hex)
    {tools : List ToolInfo} (hnul : ∀ tool ∈ tools, tool.NulFree)
    (hdistinct : (tools.map rawIdentity).Nodup) (hdiffer : PrefixesDiffer sha1Hex tools) :
    ∃ qualified, qualifyTools sha1Hex tools = some qualified ∧
      (∃ entries, qualified.entries.Perm entries ∧ List.Forall₂ (fun tool entry =>
        entry.1 = entry.2.callableNamespace ++ entry.2.callableName ∧
        entry.2 = { tool with
          callableNamespace := entry.2.callableNamespace
          callableName := entry.2.callableName }) tools entries) ∧
      (∀ name ∈ qualified, byteLen name ≤ maxToolNameLength ∧
        ∀ c ∈ name, isToolNameChar c = true) ∧
      ∀ permuted, tools.Perm permuted → qualifyTools sha1Hex permuted = some qualified := by
  have hnodup := nodup_rawToolIdentity hnul hdistinct
  have htools := map_tool_preparedCandidates sha1Hex hnodup
  have hattempts : ∀ candidate ∈ preparedCandidates sha1Hex tools,
      EnoughAttempts sha1Hex candidate.rawToolIdentity
        ((∅ : Finset Text).card + (preparedCandidates sha1Hex tools).length) := by
    intro candidate hcandidate
    have hlength : (preparedCandidates sha1Hex tools).length = tools.length := by
      simpa using htools.length_eq
    have hmem : candidate.tool ∈ tools := htools.subset (List.mem_map_of_mem hcandidate)
    rw [Finset.card_empty, Nat.zero_add, hlength,
      (isCandidate_of_mem_preparedCandidates sha1Hex hnodup hsha hcandidate).rawToolIdentity_eq]
    exact hdiffer candidate.tool hmem
  have hused : ∀ name, name ∈ (∅ : Finset Text) ↔ name ∈ (∅ : AList fun _ : Text => ToolInfo) := by
    simp
  obtain ⟨qualified, entries, hresult, hentries, hall, hnames⟩ := allocateNames_spec hsha hused
    (fun _ => isCandidate_of_mem_preparedCandidates sha1Hex hnodup hsha) hattempts
  rw [AList.empty_entries, List.append_nil] at hentries
  -- the entries stand in the order of the candidates; a permutation pairs them with the tools
  obtain ⟨paired, hpaired, hperm⟩ := List.perm_comp_forall₂ htools.symm hall
  refine ⟨qualified, hresult, ⟨paired, ?_, ?_⟩, ?_, ?_⟩
  · rw [hentries]
    exact (List.reverse_perm entries).trans hperm.symm
  · exact hpaired.imp fun tool entry h => ⟨h.key_eq, h.tool_eq⟩
  · intro name hname
    rw [AList.mem_keys, AList.keys, hentries, List.mem_keys] at hname
    obtain ⟨tool, hentry⟩ := hname
    obtain ⟨ns, rest, rfl, hqualified⟩ := hnames _ (List.mem_reverse.mp hentry)
    exact ⟨hqualified.short, hqualified.namespaceText.append hqualified.nameText⟩
  · intro permuted h
    rw [← hresult]
    show allocateNames sha1Hex ∅ ∅ (preparedCandidates sha1Hex permuted) = _
    rw [preparedCandidates_eq_of_perm sha1Hex hnodup h]

/-- A tool of the server `docs`. -/
def docsTool (name : Text) : ToolInfo where
  serverName := "docs".toList
  callableName := name
  callableNamespace := "mcp__docs__".toList
  serverInstructions := none
  tool := ⟨name, []⟩
  connectorId := none
  connectorName := none
  pluginDisplayNames := []
  connectorDescription := none

/-- SHA-1 on the identities of two tools and of their second attempts. -/
def docsDigests (t : Text) : Text :=
  if t = hashInput (docsTool "a.b".toList).rawToolIdentity 0 then
    "d3a534feb35e8b59ea657aef2f32c835bf983c7f".toList
  else if t = hashInput (docsTool "a.b".toList).rawToolIdentity 1 then
    "cba3ff20c30dff11b6ae72a0594a58d08a6a609a".toList
  else if t = hashInput (docsTool "a_b".toList).rawToolIdentity 0 then
    "0a5333f7272817d4629abaefe936f34a772b5cb0".toList
  else if t = hashInput (docsTool "a_b".toList).rawToolIdentity 1 then
    "af430c40d7e05f4d2174903148258636750357bb".toList
  else "da39a3ee5e6b4b0d3255bfef95601890afd80709".toList

lemma mem_hexDigits_of_all {t : Text}
    (h : t.all (fun c => "0123456789abcdef".toList.contains c) = true) :
    ∀ c ∈ t, c ∈ "0123456789abcdef".toList :=
  fun c hc => List.contains_iff_mem.mp (List.all_eq_true.mp h c hc)

lemma docsDigests_isHexDigest : IsHexDigest docsDigests := by
  constructor
  · intro t
    unfold docsDigests
    split_ifs <;> rfl
  · intro t
    unfold docsDigests
    split_ifs <;> exact mem_hexDigits_of_all (by decide +kernel)

lemma enoughAttempts_two {sha1Hex : Text → Text} {raw : Text}
    (h : (sha1Hex (hashInput raw 0)).take callableNameHashLen ≠
      (sha1Hex (hashInput raw 1)).take callableNameHashLen) : EnoughAttempts sha1Hex raw 2 := by
  refine ⟨{0, 1}, by decide, by decide, ?_⟩
  rw [Finset.coe_insert, Finset.coe_singleton, Set.injOn_pair]
  intro heq
  exact absurd heq h

/-- Two tools of one server whose sanitized names are the same. -/
def docsTools : List ToolInfo := [docsTool "a.b".toList, docsTool "a_b".toList]

/-- Both tools are named, whichever comes first. -/
theorem qualifyTools_total_injective_docs :
    ∃ qualified, qualifyTools docsDigests docsTools = some qualified ∧
      qualifyTools docsDigests docsTools.reverse = some qualified := by
  have hnul : ∀ tool ∈ docsTools, tool.NulFree := by
    intro tool htool
    rcases List.mem_pair.mp htool with rfl | rfl
    · exact ⟨by decide, by decide, by decide, by decide⟩
    · exact ⟨by decide, by decide, by decide, by decide⟩
  have hdiffer : PrefixesDiffer docsDigests docsTools := by
    intro tool htool
    rcases List.mem_pair.mp htool with rfl | rfl
    · exact enoughAttempts_two (by decide)
    · exact enoughAttempts_two (by decide)
  obtain ⟨qualified, h, -, -, hpermuted⟩ :=
    qualifyTools_total_injective docsDigests_isHexDigest hnul (by decide) hdiffer
  exact ⟨qualified, h, hpermuted _ (List.reverse_perm docsTools).symm⟩

end Supercodex.Mcp

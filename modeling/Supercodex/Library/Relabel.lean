import Mathlib.Data.List.Nodup

/-!
# Renaming labels one after another

Holders stand in a row, each with a label. Some labels are renamed one after another, each time at the
first holder that has the label. A label that was given out before may hide the one that is meant: every
holder gets the name that is meant for it exactly if no holder with a given-out label comes first.
-/

namespace Supercodex.Relabel

variable {α : Type} [DecidableEq α]

/-- The first holder of a label gets another one. -/
def renameFirst (old new : α) (labels : List α) : List α := labels.set (labels.idxOf old) new

/-- Labels are renamed one after another. -/
def relabel : List (α × α) → List α → List α
  | [], labels => labels
  | (old, new) :: renames, labels => relabel renames (if old = new then labels else renameFirst old new labels)

/-- What a label is to become. -/
def target (renames : List (α × α)) (label : α) : α := (renames.lookup label).getD label

/-- A label is that of one holder. -/
def Single (labels : List α) (label : α) : Prop := labels.count label = 1

instance (labels : List α) (label : α) : Decidable (Single labels label) :=
  inferInstanceAs (Decidable (labels.count label = 1))

/-- Where the first of two renames gives out the label that the second one is about, the holder that the
second one means comes before that of the first. -/
def Clear (labels : List α) (earlier later : α × α) : Prop :=
  later.1 = earlier.2 → labels.idxOf later.1 < labels.idxOf earlier.1

instance (labels : List α) : DecidableRel (Clear labels) := fun earlier later =>
  inferInstanceAs (Decidable (later.1 = earlier.2 → labels.idxOf later.1 < labels.idxOf earlier.1))

/-- No holder of a label that was given out comes before the holder that is meant. -/
def InOrder (labels : List α) (renames : List (α × α)) : Prop := renames.Pairwise (Clear labels)

instance (labels : List α) (renames : List (α × α)) : Decidable (InOrder labels renames) :=
  inferInstanceAs (Decidable (renames.Pairwise (Clear labels)))

variable {labels : List α} {label old new : α} {renames done : List (α × α)}

@[simp] lemma length_renameFirst : (renameFirst old new labels).length = labels.length :=
  List.length_set

lemma renameFirst_of_notMem (h : old ∉ labels) : renameFirst old new labels = labels := by
  rw [renameFirst, List.idxOf_eq_length h, List.set_eq_of_length_le (Nat.le_refl _)]

lemma renameFirst_append (h : old ∉ labels) (rest : List α) :
    renameFirst old new (labels ++ old :: rest) = labels ++ new :: rest := by
  rw [renameFirst, List.idxOf_append_of_notMem h, List.idxOf_cons_self, Nat.add_zero,
    List.set_append_right _ _ (Nat.le_refl _), Nat.sub_self, List.set_cons_zero]

lemma idxOf_spec (h : label ∈ labels) : labels[labels.idxOf label]? = some label := by
  have hlt := List.idxOf_lt_length_of_mem h
  rw [List.getElem?_eq_getElem hlt, List.getElem_idxOf]

lemma idxOf_le {p : ℕ} (h : labels[p]? = some label) : labels.idxOf label ≤ p := by
  by_contra hlt
  obtain ⟨hp, hlabel⟩ := List.getElem?_eq_some_iff.mp h
  have hbefore := List.not_of_lt_findIdx (p := (· == label)) (Nat.lt_of_not_le hlt)
  rw [hlabel, beq_self_eq_true] at hbefore
  cases hbefore

lemma Single.mem (h : Single labels label) : label ∈ labels :=
  List.count_pos_iff.mp (by rw [h]; exact Nat.one_pos)

lemma Single.idxOf (h : Single labels label) {p : ℕ} (hp : labels[p]? = some label) :
    labels.idxOf label = p := by
  obtain ⟨hlt, hlabel⟩ := List.getElem?_eq_some_iff.mp hp
  have hparts : labels = labels.take p ++ label :: labels.drop (p + 1) := by
    rw [← hlabel, List.getElem_cons_drop, List.take_append_drop]
  have hbefore : label ∉ labels.take p := by
    rw [Single, hparts, List.count_append, List.count_cons_self] at h
    exact List.count_eq_zero.mp (by omega)
  conv_lhs => rw [hparts]
  rw [List.idxOf_append, if_neg hbefore, List.idxOf_cons_self, List.length_take]
  omega

lemma Single.sublist {labels' : List α} (h : Single labels label) (hsub : labels'.Sublist labels)
    (hmem : label ∈ labels') : Single labels' label := by
  have hle := hsub.count_le label
  have hpos := List.count_pos_iff.mpr hmem
  rw [Single] at h ⊢
  omega

lemma relabel_ne {p : ℕ} (hnew : ∀ r ∈ renames, r.2 ≠ label) (hp : labels[p]? ≠ some label) :
    (relabel renames labels)[p]? ≠ some label := by
  induction renames generalizing labels with
  | nil => exact hp
  | cons rename renames ih =>
    obtain ⟨old, new⟩ := rename
    rw [relabel]
    refine ih (fun r hr => hnew r (List.mem_cons_of_mem _ hr)) ?_
    split
    · exact hp
    rw [renameFirst, List.getElem?_set]
    have hne := hnew (old, new) List.mem_cons_self
    split
    · split
      · exact fun heq => hne (Option.some.inj heq)
      · exact fun heq => nomatch heq
    · exact hp

lemma relabel_snoc (renames : List (α × α)) (labels : List α) (old new : α) : relabel (renames ++ [(old, new)]) labels =
    if old = new then relabel renames labels else renameFirst old new (relabel renames labels) := by
  induction renames generalizing labels with
  | nil => rfl
  | cons rename renames ih => exact ih _

/-! ## Targets -/

section Lookup

variable {κ ν : Type} [BEq κ] [LawfulBEq κ] {entries : List (κ × ν)} {key : κ} {value : ν}

lemma lookup_of_mem (hkeys : (entries.map Prod.fst).Nodup) (h : (key, value) ∈ entries) :
    entries.lookup key = some value := by
  induction entries with
  | nil => exact absurd h List.not_mem_nil
  | cons entry entries ih =>
    obtain ⟨key', value'⟩ := entry
    rw [List.map_cons, List.nodup_cons] at hkeys
    rw [List.lookup_cons]
    rcases List.mem_cons.mp h with heq | h
    · cases heq
      rw [beq_self_eq_true]
    have hmem : key ∈ entries.map Prod.fst := List.mem_map_of_mem (f := Prod.fst) h
    have hne : key ≠ key' := fun heq => hkeys.1 (heq ▸ hmem)
    rw [beq_false_of_ne hne]
    exact ih hkeys.2 h

lemma lookup_of_notMem (h : key ∉ entries.map Prod.fst) : entries.lookup key = none := by
  refine List.lookup_eq_none_iff.mpr fun entry hentry => bne_iff_ne.mpr fun heq => h ?_
  rw [heq]
  exact List.mem_map_of_mem hentry

end Lookup

lemma target_of_mem (hdone : (done.map Prod.fst).Nodup) (h : (old, new) ∈ done) : target done old = new := by
  rw [target, lookup_of_mem hdone h]
  rfl

lemma target_of_notMem (h : label ∉ done.map Prod.fst) : target done label = label := by
  rw [target, lookup_of_notMem h]
  rfl

lemma eq_or_mem_of_target {a : α} (h : target done a = label) : a = label ∨ (a, label) ∈ done := by
  rw [target] at h
  cases hlookup : done.lookup a with
  | none =>
    rw [hlookup] at h
    exact .inl h
  | some b =>
    rw [hlookup] at h
    cases h
    obtain ⟨before, after, hdone, -⟩ := List.lookup_eq_some_iff.mp hlookup
    exact .inr (by rw [hdone]; simp)

lemma target_snoc (hold : old ∉ done.map Prod.fst) (a : α) :
    target (done ++ [(old, new)]) a = if a = old then new else target done a := by
  by_cases ha : a = old
  · rw [if_pos ha, ha, target, List.lookup_append, lookup_of_notMem hold, List.lookup_cons, beq_self_eq_true]
    rfl
  · rw [if_neg ha, target, target, List.lookup_append, List.lookup_cons, beq_false_of_ne ha]
    cases done.lookup a <;> rfl

/-! ## One rename -/

lemma idxOf_map_target (hsingle : ∀ r ∈ done, Single labels r.1) (hold : Single labels old)
    (hnotMem : old ∉ done.map Prod.fst) :
    (labels.map (target done)).idxOf old = labels.idxOf old ∨
      ∃ r ∈ done, r.2 = old ∧ labels.idxOf r.1 = (labels.map (target done)).idxOf old ∧
        labels.idxOf r.1 < labels.idxOf old := by
  have hmeant : (labels.map (target done))[labels.idxOf old]? = some old := by
    rw [List.getElem?_map, idxOf_spec hold.mem, Option.map_some, target_of_notMem hnotMem]
  have hle := idxOf_le hmeant
  have hfirst := idxOf_spec (List.mem_of_getElem? hmeant)
  generalize (labels.map (target done)).idxOf old = q at hle hfirst ⊢
  rw [List.getElem?_map, Option.map_eq_some_iff] at hfirst
  obtain ⟨a, ha, htarget⟩ := hfirst
  rcases eq_or_mem_of_target htarget with rfl | hmem
  · exact .inl (hold.idxOf ha).symm
  have hq := (hsingle _ hmem).idxOf ha
  rcases Nat.lt_or_eq_of_le hle with hlt | heq
  · exact .inr ⟨_, hmem, rfl, hq, by omega⟩
  · exact .inl heq

lemma renameFirst_map_target (hold : Single labels old) (hnotMem : old ∉ done.map Prod.fst)
    (hidx : (labels.map (target done)).idxOf old = labels.idxOf old) :
    renameFirst old new (labels.map (target done)) = labels.map (target (done ++ [(old, new)])) := by
  refine List.ext_getElem (by simp) fun p hp hp' => ?_
  rw [length_renameFirst, List.length_map] at hp
  simp only [renameFirst, List.getElem_set, List.getElem_map, hidx, target_snoc hnotMem]
  split
  case isTrue heq =>
    have hmeant := idxOf_spec hold.mem
    rw [heq, List.getElem?_eq_getElem hp, Option.some.injEq] at hmeant
    rw [if_pos hmeant]
  case isFalse hne =>
    rw [if_neg]
    intro hlabel
    exact hne (hold.idxOf (by rw [List.getElem?_eq_getElem hp, hlabel]))

/-! ## All renames -/

/-- The renames that are left, after some that went right. -/
lemma relabel_iff_from (done : List (α × α)) (hold : ((done ++ renames).map Prod.fst).Nodup)
    (hnew : ((done ++ renames).map Prod.snd).Nodup) (hsingle : ∀ r ∈ done ++ renames, Single labels r.1) :
    (∀ r ∈ done ++ renames, ∀ p : ℕ, labels[p]? = some r.1 →
      (relabel renames (labels.map (target done)))[p]? = some r.2) ↔
        (∀ earlier ∈ done, ∀ later ∈ renames, Clear labels earlier later) ∧ InOrder labels renames := by
  induction renames generalizing done with
  | nil =>
    refine ⟨fun _ => ⟨fun _ _ _ h => absurd h List.not_mem_nil, .nil⟩, fun _ r hr p hp => ?_⟩
    rw [List.append_nil] at hold hr
    rw [relabel, List.getElem?_map, hp, Option.map_some, target_of_mem hold hr]
  | cons rename renames ih =>
    obtain ⟨old, new⟩ := rename
    have hdone : ∀ r ∈ done, Single labels r.1 := fun r hr => hsingle r (List.mem_append_left _ hr)
    have hmeant : Single labels old := hsingle (old, new) (by simp)
    have hshift : done ++ (old, new) :: renames = done ++ [(old, new)] ++ renames := by simp
    have hrest := ih (done ++ [(old, new)]) (hshift ▸ hold) (hshift ▸ hnew) (hshift ▸ hsingle)
    rw [← hshift] at hrest
    rw [List.map_append, List.nodup_append] at hold hnew
    obtain ⟨hfst, -, hapart⟩ := hold
    obtain ⟨-, -, hapart'⟩ := hnew
    have hnotMem : old ∉ done.map Prod.fst := fun hmem => hapart old hmem old (by simp) rfl
    have hnotMem' : new ∉ done.map Prod.snd := fun hmem => hapart' new hmem new (by simp) rfl
    have hgood (hclear : ∀ earlier ∈ done, Clear labels earlier (old, new))
        (hstate : (if old = new then labels.map (target done)
          else renameFirst old new (labels.map (target done))) = labels.map (target (done ++ [(old, new)]))) :
        (∀ r ∈ done ++ (old, new) :: renames, ∀ p : ℕ, labels[p]? = some r.1 →
          (relabel ((old, new) :: renames) (labels.map (target done)))[p]? = some r.2) ↔
        (∀ earlier ∈ done, ∀ later ∈ (old, new) :: renames, Clear labels earlier later) ∧
          InOrder labels ((old, new) :: renames) := by
      rw [relabel, hstate, hrest, InOrder, InOrder, List.pairwise_cons]
      constructor
      · rintro ⟨hbefore, hafter⟩
        refine ⟨fun earlier hearlier later hlater => ?_, ⟨fun later hlater => ?_, hafter⟩⟩
        · rcases List.mem_cons.mp hlater with rfl | hlater
          · exact hclear earlier hearlier
          · exact hbefore earlier (List.mem_append_left _ hearlier) later hlater
        · exact hbefore _ (by simp) later hlater
      · rintro ⟨hbefore, hhead, hafter⟩
        refine ⟨fun earlier hearlier later hlater => ?_, hafter⟩
        rcases List.mem_append.mp hearlier with hearlier | hearlier
        · exact hbefore earlier hearlier later (List.mem_cons_of_mem _ hlater)
        · rw [List.mem_singleton.mp hearlier]
          exact hhead later hlater
    by_cases hsame : old = new
    · refine hgood (fun earlier hearlier heq => ?_) ?_
      · refine absurd (List.mem_map_of_mem (f := Prod.snd) hearlier) ?_
        rw [← heq, hsame]
        exact hnotMem'
      · rw [if_pos hsame]
        refine List.map_congr_left fun a _ => ?_
        rw [target_snoc hnotMem]
        split
        case isTrue ha => rw [ha, target_of_notMem hnotMem, hsame]
        case isFalse => rfl
    · rcases idxOf_map_target hdone hmeant hnotMem with hidx | ⟨r, hr, hnewer, hidx, hlt⟩
      · refine hgood (fun earlier hearlier heq => ?_) ?_
        · -- the holder that was renamed to the old label is not the first of them
          have hheld : (labels.map (target done))[labels.idxOf earlier.1]? = some old := by
            rw [List.getElem?_map, idxOf_spec (hdone earlier hearlier).mem, Option.map_some,
              target_of_mem hfst hearlier]
            exact congrArg some heq.symm
          have hle := idxOf_le hheld
          rw [hidx] at hle
          refine Nat.lt_of_le_of_ne hle fun hequal => hnotMem ?_
          have hspec := idxOf_spec (hdone earlier hearlier).mem
          rw [← hequal, idxOf_spec hmeant.mem, Option.some.injEq] at hspec
          rw [hspec]
          exact List.mem_map_of_mem hearlier
        · rw [if_neg hsame]
          exact renameFirst_map_target hmeant hnotMem hidx
      · constructor
        · intro h
          have hheld := h r (List.mem_append_left _ hr) _ (idxOf_spec (hdone r hr).mem)
          rw [relabel, if_neg hsame, hnewer] at hheld
          refine absurd hheld (relabel_ne (fun r' hr' heq => ?_) ?_)
          · refine hapart' r.2 (List.mem_map_of_mem hr) r'.2 ?_ (hnewer.trans heq.symm)
            exact List.mem_cons_of_mem _ (List.mem_map_of_mem hr')
          · rw [hidx, renameFirst, List.getElem?_set, if_pos rfl]
            split
            · exact fun heq => hsame (Option.some.inj heq).symm
            · exact fun heq => nomatch heq
        · rintro ⟨hbefore, -⟩
          have hclear := hbefore r hr (old, new) List.mem_cons_self hnewer.symm
          exact absurd hclear (Nat.not_lt_of_lt hlt)

/-- Every holder gets the name that is meant for it exactly if the renames are in order. -/
theorem relabel_iff (hold : (renames.map Prod.fst).Nodup) (hnew : (renames.map Prod.snd).Nodup)
    (hsingle : ∀ r ∈ renames, Single labels r.1) :
    (∀ r ∈ renames, ∀ p : ℕ, labels[p]? = some r.1 → (relabel renames labels)[p]? = some r.2) ↔
      InOrder labels renames := by
  have hnone : labels.map (target []) = labels := List.map_id _
  have h := relabel_iff_from [] hold hnew hsingle
  rw [hnone, List.nil_append] at h
  rw [h]
  exact ⟨And.right, fun horder => ⟨fun _ h => absurd h List.not_mem_nil, horder⟩⟩

/-! ## Holders with names of their own -/

variable {ι : Type} {holders holders' : List (ι × α)}

omit [DecidableEq α] in
lemma mem_iff_getElem? {i : ι} : (i, label) ∈ holders ↔
    ∃ p : ℕ, (holders.map Prod.fst)[p]? = some i ∧ (holders.map Prod.snd)[p]? = some label := by
  simp only [List.getElem?_map, Option.map_eq_some_iff]
  constructor
  · intro h
    obtain ⟨p, hp⟩ := List.mem_iff_getElem?.mp h
    exact ⟨p, ⟨(i, label), hp, rfl⟩, ⟨(i, label), hp, rfl⟩⟩
  · rintro ⟨p, ⟨⟨i', label'⟩, hp, rfl⟩, ⟨holder, hp', rfl⟩⟩
    rw [hp] at hp'
    cases hp'
    exact List.mem_of_getElem? hp

/-- The same, of holders that are told apart by names instead of their places. -/
theorem relabel_iff_of_names (hold : (renames.map Prod.fst).Nodup) (hnew : (renames.map Prod.snd).Nodup)
    (hsingle : ∀ r ∈ renames, Single (holders.map Prod.snd) r.1) (hnames : (holders.map Prod.fst).Nodup)
    (hsame : holders'.map Prod.fst = holders.map Prod.fst)
    (hlabels : holders'.map Prod.snd = relabel renames (holders.map Prod.snd)) :
    (∀ r ∈ renames, ∀ i, (i, r.1) ∈ holders → (i, r.2) ∈ holders') ↔
      InOrder (holders.map Prod.snd) renames := by
  rw [← relabel_iff hold hnew hsingle, ← hlabels]
  refine forall₂_congr fun r _ => ?_
  constructor
  · intro h p hp
    have hlt : p < (holders.map Prod.fst).length := by
      have hlt := (List.getElem?_eq_some_iff.mp hp).1
      rwa [List.length_map] at hlt ⊢
    obtain ⟨q, hq, hq'⟩ := mem_iff_getElem?.mp
      (h _ (mem_iff_getElem?.mpr ⟨p, List.getElem?_eq_getElem hlt, hp⟩))
    rw [hsame] at hq
    obtain ⟨hltq, hq⟩ := List.getElem?_eq_some_iff.mp hq
    have hpq : q = p := (List.Nodup.getElem_inj_iff hnames).mp hq
    rwa [← hpq]
  · intro h i hi
    obtain ⟨p, hp, hp'⟩ := mem_iff_getElem?.mp hi
    exact mem_iff_getElem?.mpr ⟨p, by rw [hsame, hp], h p hp'⟩

end Supercodex.Relabel

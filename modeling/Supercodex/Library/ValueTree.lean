import Supercodex.Library.Text
import Mathlib.Data.List.Nodup

/-!
# Trees of tables and arrays

An overlay merges tables key by key and replaces everything else. A leaf of the lower tree stays unless
the higher tree holds a value on the way to it where one of the two is no table; which leaves a stack of
overlays ends with, and which tree each one comes from, follows from that.
-/

namespace Supercodex

/-- A tree of tables and arrays over scalars. -/
inductive ValueTree (S : Type) where
  | scalar (value : S)
  | array (items : List (ValueTree S))
  | table (entries : List (Text × ValueTree S))

namespace ValueTree

variable {S : Type}

/-- The items of an array under the texts of their indices. -/
def indexed {α : Type} (items : List α) : List (Text × α) :=
  items.zipIdx.map fun (item, i) => (Nat.toDigits 10 i, item)

/-- The values directly below a value. -/
def children : ValueTree S → List (Text × ValueTree S)
  | scalar _ => []
  | array items => indexed items
  | table entries => entries

/-- The scalar at a path. -/
def leafAt : ValueTree S → List Text → Option S
  | scalar value, [] => some value
  | _, [] => none
  | v, k :: p => (v.children.lookup k).bind (leafAt · p)

/-- No table has two entries under one key. -/
inductive Valid : ValueTree S → Prop where
  | scalar (value : S) : Valid (scalar value)
  | array {items : List (ValueTree S)} (h : ∀ item ∈ items, Valid item) : Valid (array items)
  | table {entries : List (Text × ValueTree S)} (hnodup : (entries.map Prod.fst).Nodup)
    (h : ∀ entry ∈ entries, Valid entry.2) : Valid (table entries)

/-- The entries with another value under a key that they hold. -/
def setEntry (entries : List (Text × ValueTree S)) (key : Text) (value : ValueTree S) :
    List (Text × ValueTree S) :=
  entries.map fun entry => if entry.1 = key then (key, value) else entry

mutual

/-- The upper value over the lower one. -/
def overlay (lower : ValueTree S) : ValueTree S → ValueTree S
  | table upper =>
    match lower with
    | table entries => table (overlayEntries entries upper)
    | _ => table upper
  | upper => upper

/-- The upper entries over the lower ones. -/
def overlayEntries (lower : List (Text × ValueTree S)) :
    List (Text × ValueTree S) → List (Text × ValueTree S)
  | [] => lower
  | (key, value) :: upper =>
    match lower.lookup key with
    | some existing => overlayEntries (setEntry lower key (overlay existing value)) upper
    | none => overlayEntries (lower ++ [(key, value)]) upper

end

/-- The entries with a value under a key, in the place of the value that was there. -/
def insertEntry (entries : List (Text × ValueTree S)) (key : Text) (value : ValueTree S) :
    List (Text × ValueTree S) :=
  match entries.lookup key with
  | some _ => setEntry entries key value
  | none => entries ++ [(key, value)]

/-- The entries without those under a key. -/
def removeEntry (entries : List (Text × ValueTree S)) (key : Text) : List (Text × ValueTree S) :=
  entries.filter fun entry => entry.1 ≠ key

mutual

/-- The number of tables and arrays on the longest way down. -/
def depth : ValueTree S → ℕ
  | scalar _ => 0
  | array items => depthItems items + 1
  | table entries => depthEntries entries + 1

/-- The greatest depth of an item. -/
def depthItems : List (ValueTree S) → ℕ
  | [] => 0
  | item :: items => max item.depth (depthItems items)

/-- The greatest depth of an entry. -/
def depthEntries : List (Text × ValueTree S) → ℕ
  | [] => 0
  | (_, value) :: entries => max value.depth (depthEntries entries)

end

lemma depth_lt_array {items : List (ValueTree S)} {item : ValueTree S} (h : item ∈ items) :
    item.depth < (array items).depth := by
  show item.depth < depthItems items + 1
  induction items with
  | nil => cases h
  | cons first items ih =>
    rw [depthItems]
    obtain rfl | h := List.mem_cons.mp h
    · omega
    · have := ih h
      omega

variable {entries : List (Text × ValueTree S)} {key : Text}

lemma depth_lt_table {value : ValueTree S}
    (h : (key, value) ∈ entries) : value.depth < (table entries).depth := by
  show value.depth < depthEntries entries + 1
  induction entries with
  | nil => cases h
  | cons first entries ih =>
    obtain ⟨key', value'⟩ := first
    rw [depthEntries]
    obtain h | h := List.mem_cons.mp h
    · cases h
      omega
    · have := ih h
      omega

/-! ## Lookup -/

variable {α : Type}

lemma lookup_cons_ite (k key : Text) (value : α) (entries : List (Text × α)) :
    ((key, value) :: entries).lookup k = if k = key then some value else entries.lookup k := by
  by_cases h : k = key
  · subst h
    rw [List.lookup_cons_self, if_pos rfl]
  · have hne : (k == key) = false := by simpa using h
    rw [List.lookup_cons, hne, if_neg h]

lemma lookup_setEntry_ne {k key : Text} (h : k ≠ key)
    (value : ValueTree S) : (setEntry entries key value).lookup k = entries.lookup k := by
  induction entries with
  | nil => rfl
  | cons entry entries ih =>
    obtain ⟨k', v⟩ := entry
    rw [setEntry, List.map_cons, ← setEntry]
    by_cases hkey : k' = key
    · rw [if_pos hkey, lookup_cons_ite, lookup_cons_ite, hkey, if_neg h, if_neg h, ih]
    · rw [if_neg hkey, lookup_cons_ite, lookup_cons_ite, ih]

lemma lookup_setEntry_self {existing : ValueTree S}
    (h : entries.lookup key = some existing) (value : ValueTree S) :
    (setEntry entries key value).lookup key = some value := by
  induction entries with
  | nil => simp at h
  | cons entry entries ih =>
    obtain ⟨k', v⟩ := entry
    rw [setEntry, List.map_cons, ← setEntry]
    by_cases hkey : k' = key
    · rw [if_pos hkey, lookup_cons_ite, if_pos rfl]
    · rw [lookup_cons_ite, if_neg (Ne.symm hkey)] at h
      rw [if_neg hkey, lookup_cons_ite, if_neg (Ne.symm hkey), ih h]

lemma lookup_concat (h : entries.lookup key = none) (value : ValueTree S) (k : Text) :
    (entries ++ [(key, value)]).lookup k = if k = key then some value else entries.lookup k := by
  induction entries with
  | nil => rw [List.nil_append, lookup_cons_ite]
  | cons entry entries ih =>
    obtain ⟨k', v⟩ := entry
    rw [lookup_cons_ite] at h
    split_ifs at h with hkey
    rw [List.cons_append, lookup_cons_ite, lookup_cons_ite, ih h]
    by_cases hk : k = k'
    · subst hk
      rw [if_pos rfl, if_neg (Ne.symm hkey), if_pos rfl]
    · rw [if_neg hk, if_neg hk]

lemma lookup_insertEntry (entries : List (Text × ValueTree S)) (key k : Text) (value : ValueTree S) :
    (insertEntry entries key value).lookup k = if k = key then some value else entries.lookup k := by
  cases hexisting : entries.lookup key with
  | some existing =>
    rw [insertEntry, hexisting]
    show (setEntry entries key value).lookup k = _
    split
    case isTrue h => rw [h, lookup_setEntry_self hexisting]
    case isFalse h => rw [lookup_setEntry_ne h]
  | none =>
    rw [insertEntry, hexisting]
    exact lookup_concat hexisting value k

lemma lookup_removeEntry (entries : List (Text × ValueTree S)) (key k : Text) :
    (removeEntry entries key).lookup k = if k = key then none else entries.lookup k := by
  induction entries with
  | nil => simp [removeEntry]
  | cons entry entries ih =>
    obtain ⟨key', value⟩ := entry
    rw [lookup_cons_ite]
    by_cases hkey : key' = key
    · rw [show removeEntry ((key', value) :: entries) key = removeEntry entries key by
        simp [removeEntry, hkey], ih, hkey]
      split <;> rfl
    · rw [show removeEntry ((key', value) :: entries) key = (key', value) :: removeEntry entries key by
        simp [removeEntry, hkey], lookup_cons_ite, ih]
      by_cases hk : k = key'
      · rw [if_pos hk, if_pos hk, if_neg (hk ▸ hkey)]
      · rw [if_neg hk, if_neg hk]

lemma lookup_eq_none_of_not_mem {entries : List (Text × α)}
    (h : key ∉ entries.map Prod.fst) : entries.lookup key = none := by
  induction entries with
  | nil => rfl
  | cons entry entries ih =>
    obtain ⟨k', v⟩ := entry
    rw [List.map_cons, List.mem_cons, not_or] at h
    rw [lookup_cons_ite, if_neg h.1, ih h.2]

lemma mem_of_lookup_eq_some {entries : List (Text × α)} {value : α}
    (h : entries.lookup key = some value) : (key, value) ∈ entries := by
  induction entries with
  | nil => simp at h
  | cons entry entries ih =>
    obtain ⟨k', v⟩ := entry
    rw [lookup_cons_ite] at h
    split_ifs at h with hkey
    · cases h
      rw [hkey]
      exact List.mem_cons_self
    · exact List.mem_cons_of_mem _ (ih h)

lemma lookup_eq_some_of_mem {entries : List (Text × α)}
    (hnodup : (entries.map Prod.fst).Nodup) {value : α} (h : (key, value) ∈ entries) :
    entries.lookup key = some value := by
  induction entries with
  | nil => cases h
  | cons entry entries ih =>
    obtain ⟨k', v⟩ := entry
    rw [List.map_cons, List.nodup_cons] at hnodup
    rw [lookup_cons_ite]
    rcases List.mem_cons.mp h with heq | hmem
    · cases heq
      rw [if_pos rfl]
    have hne : key ≠ k' := by
      rintro rfl
      exact hnodup.1 (List.mem_map.mpr ⟨_, hmem, rfl⟩)
    rw [if_neg hne, ih hnodup.2 hmem]

/-- What stands under a key after an overlay of tables. -/
lemma lookup_overlayEntries {lower upper : List (Text × ValueTree S)}
    (hnodup : (upper.map Prod.fst).Nodup) (k : Text) :
    (overlayEntries lower upper).lookup k =
      match upper.lookup k with
      | none => lower.lookup k
      | some value => some ((lower.lookup k).elim value (overlay · value)) := by
  induction upper generalizing lower with
  | nil => rfl
  | cons entry upper ih =>
    obtain ⟨key, value⟩ := entry
    rw [List.map_cons, List.nodup_cons] at hnodup
    have hrest := lookup_eq_none_of_not_mem hnodup.1
    rw [lookup_cons_ite, overlayEntries]
    split
    · rename_i existing hexisting
      rw [ih hnodup.2]
      by_cases hk : k = key
      · subst hk
        rw [hrest, if_pos rfl, hexisting]
        exact lookup_setEntry_self hexisting _
      · rw [if_neg hk, lookup_setEntry_ne hk]
    · rename_i hnone
      rw [ih hnodup.2, lookup_concat hnone]
      by_cases hk : k = key
      · subst hk
        rw [hrest, if_pos rfl, if_pos rfl, hnone]
        rfl
      · rw [if_neg hk, if_neg hk]

/-! ## The paths of leaves -/

/-- What a value is. -/
inductive Kind where
  | scalar
  | array
  | table
deriving DecidableEq

/-- The kind of a value. -/
def kind : ValueTree S → Kind
  | scalar _ => .scalar
  | array _ => .array
  | table _ => .table

lemma leafAt_cons (v : ValueTree S) (k : Text) (p : List Text) :
    v.leafAt (k :: p) = (v.children.lookup k).bind (leafAt · p) := by
  cases v <;> rfl

variable {p : List Text} {v : ValueTree S} {s : S} {k : Text}

lemma exists_child (h : v.leafAt (k :: p) = some s)
    : ∃ c, v.children.lookup k = some c ∧ c.leafAt p = some s := by
  rw [leafAt_cons, Option.bind_eq_some_iff] at h
  exact h

variable {v c : ValueTree S}

lemma leafAt_cons_of_lookup (h : v.children.lookup k = some c)
    : v.leafAt (k :: p) = c.leafAt p := by
  rw [leafAt_cons, h, Option.bind_some]

mutual

/-- The paths of the leaves. -/
def leaves : ValueTree S → List (List Text)
  | scalar _ => [[]]
  | array items => itemLeaves 0 items
  | table entries => entryLeaves entries

/-- The paths of the leaves in the entries of a table. -/
def entryLeaves : List (Text × ValueTree S) → List (List Text)
  | [] => []
  | (key, child) :: entries => (leaves child).map (key :: ·) ++ entryLeaves entries

/-- The paths of the leaves in the items of an array, from an index on. -/
def itemLeaves (index : ℕ) : List (ValueTree S) → List (List Text)
  | [] => []
  | item :: items => (leaves item).map (Nat.toDigits 10 index :: ·) ++ itemLeaves (index + 1) items

end

lemma mem_entryLeaves :
    p ∈ entryLeaves entries ↔ ∃ k c p', (k, c) ∈ entries ∧ p = k :: p' ∧ p' ∈ c.leaves := by
  induction entries with
  | nil => simp [entryLeaves]
  | cons entry entries ih =>
    obtain ⟨key, child⟩ := entry
    rw [entryLeaves, List.mem_append, ih, List.mem_map]
    constructor
    · rintro (⟨p', hp', rfl⟩ | ⟨k, c, p', hmem, rfl, hp'⟩)
      · exact ⟨key, child, p', List.mem_cons_self, rfl, hp'⟩
      · exact ⟨k, c, p', List.mem_cons_of_mem _ hmem, rfl, hp'⟩
    · rintro ⟨k, c, p', hmem, rfl, hp'⟩
      rcases List.mem_cons.mp hmem with heq | hmem
      · cases heq
        exact .inl ⟨p', hp', rfl⟩
      · exact .inr ⟨k, c, p', hmem, rfl, hp'⟩

lemma itemLeaves_eq (index : ℕ) (items : List (ValueTree S)) : itemLeaves index items =
    entryLeaves ((items.zipIdx index).map fun (item, i) => (Nat.toDigits 10 i, item)) := by
  induction items generalizing index with
  | nil => rfl
  | cons item items ih => rw [itemLeaves, ih, List.zipIdx_cons, List.map_cons, entryLeaves]

lemma mem_leaves : p ∈ v.leaves ↔
    (p = [] ∧ v.kind = .scalar) ∨ ∃ k c p', (k, c) ∈ v.children ∧ p = k :: p' ∧ p' ∈ c.leaves := by
  cases v with
  | scalar value => simp [leaves, children, kind]
  | array items =>
    rw [leaves, itemLeaves_eq, mem_entryLeaves]
    simp [children, indexed, kind]
  | table entries =>
    rw [leaves, mem_entryLeaves]
    simp [children, kind]

lemma nodup_indexed (items : List α) : ((indexed items).map Prod.fst).Nodup := by
  have hkeys : (indexed items).map Prod.fst =
      (List.range' 0 items.length).map (Nat.toDigits 10) := by
    rw [indexed, List.map_map, ← List.zipIdx_map_snd 0 items, List.map_map]
    rfl
  rw [hkeys]
  exact List.Nodup.map Text.toDigits_injective List.nodup_range'

lemma Valid.children (h : v.Valid) (hc : (k, c) ∈ v.children) :
    c.Valid := by
  cases h with
  | scalar value => cases hc
  | array hitems =>
    simp only [ValueTree.children, indexed, List.mem_map] at hc
    obtain ⟨⟨item, i⟩, hmem, heq⟩ := hc
    cases heq
    exact hitems _ (List.fst_mem_of_mem_zipIdx hmem)
  | table hnodup hentries => exact hentries _ hc

lemma Valid.nodup_children (h : v.Valid) : (v.children.map Prod.fst).Nodup := by
  cases h with
  | scalar value => exact List.nodup_nil
  | array hitems => exact nodup_indexed _
  | table hnodup hentries => exact hnodup

lemma mem_leaves_iff (h : v.Valid) :
    p ∈ v.leaves ↔ ∃ s, v.leafAt p = some s := by
  induction p generalizing v with
  | nil =>
    rw [mem_leaves]
    cases v <;> simp [kind, leafAt]
  | cons k p ih =>
    rw [mem_leaves]
    constructor
    · rintro (⟨hnil, -⟩ | ⟨k', c, p', hc, heq, hp'⟩)
      · cases hnil
      · cases heq
        rw [leafAt_cons_of_lookup (lookup_eq_some_of_mem h.nodup_children hc)]
        exact (ih (h.children hc)).mp hp'
    · rintro ⟨s, hs⟩
      obtain ⟨c, hc, hleaf⟩ := exists_child hs
      have hmem := mem_of_lookup_eq_some hc
      exact .inr ⟨k, c, p, hmem, rfl, (ih (h.children hmem)).mpr ⟨s, hleaf⟩⟩

/-! ## Leaves under an overlay -/

/-- The kinds of the values on the way to a path. -/
def spine : ValueTree S → List Text → List Kind
  | v, [] => [v.kind]
  | v, k :: p => v.kind :: ((v.children.lookup k).map (spine · p)).getD []

/-- Does the upper value replace a value on the way to a path, whose values are of these kinds? -/
def replaces : ValueTree S → List Kind → List Text → Bool
  | table upper, .table :: kinds, k :: p =>
    match upper.lookup k with
    | some value => replaces value kinds p
    | none => false
  | _, _, _ => true

lemma spine_cons_of_lookup (h : v.children.lookup k = some c)
    : v.spine (k :: p) = v.kind :: c.spine p := by
  rw [spine, h]
  rfl

lemma overlay_cases (lower upper : ValueTree S) :
    (∃ entries entries', lower = table entries ∧ upper = table entries' ∧
      lower.overlay upper = table (overlayEntries entries entries')) ∨
    ((lower.kind ≠ .table ∨ upper.kind ≠ .table) ∧ lower.overlay upper = upper) := by
  cases upper with
  | scalar value | array items => exact .inr ⟨.inr nofun, rfl⟩
  | table entries' =>
    cases lower with
    | scalar value | array items => exact .inr ⟨.inl nofun, rfl⟩
    | table entries => exact .inl ⟨entries, entries', rfl, rfl, rfl⟩

lemma Valid.nodup (h : Valid (.table entries)) :
    (entries.map Prod.fst).Nodup := by
  cases h with
  | table hnodup hentries => exact hnodup

lemma Valid.of_lookup (h : Valid (.table entries)) (hc : entries.lookup k = some c) : c.Valid := by
  cases h with
  | table hnodup hentries => exact hentries _ (mem_of_lookup_eq_some hc)

lemma children_overlay_table (entries : List (Text × ValueTree S))
    {entries' : List (Text × ValueTree S)} (hnodup : (entries'.map Prod.fst).Nodup) (k : Text) :
    (table (overlayEntries entries entries')).children.lookup k =
      match entries'.lookup k with
      | none => entries.lookup k
      | some value => some ((entries.lookup k).elim value (overlay · value)) :=
  lookup_overlayEntries hnodup k

variable {lower upper : ValueTree S}

lemma leafAt_overlay_of_upper (hvalid : upper.Valid) (h : upper.leafAt p = some s) :
    (lower.overlay upper).leafAt p = some s ∧ (lower.overlay upper).spine p = upper.spine p := by
  induction p generalizing lower upper with
  | nil =>
    cases upper with
    | scalar value => exact ⟨h, rfl⟩
    | array items | table entries => cases h
  | cons k p ih =>
    rcases overlay_cases lower upper with ⟨entries, entries', rfl, rfl, heq⟩ | ⟨-, heq⟩
    · rw [heq]
      obtain ⟨c, hc, hleaf⟩ := exists_child h
      have hcvalid := hvalid.of_lookup hc
      have hlookup := children_overlay_table entries hvalid.nodup k
      rw [show entries'.lookup k = some c from hc] at hlookup
      rw [spine_cons_of_lookup hc, leafAt_cons_of_lookup hlookup, spine_cons_of_lookup hlookup]
      rcases entries.lookup k with _ | existing
      · exact ⟨hleaf, rfl⟩
      · obtain ⟨hleaf', hspine⟩ := @ih existing c hcvalid hleaf
        exact ⟨hleaf', congrArg (_ :: ·) hspine⟩
    · rw [heq]
      exact ⟨h, rfl⟩

/-- A leaf of the lower value stays unless a value on the way to it is replaced. -/
lemma leafAt_overlay_of_lower (hvalid : upper.Valid)
    (h : lower.leafAt p = some s) (hkept : upper.replaces (lower.spine p) p = false) :
    (lower.overlay upper).leafAt p = some s ∧ (lower.overlay upper).spine p = lower.spine p := by
  induction p generalizing lower upper with
  | nil => cases upper <;> simp [replaces] at hkept
  | cons k p ih =>
    obtain ⟨c, hc, hleaf⟩ := exists_child h
    rw [spine_cons_of_lookup hc] at hkept
    rcases overlay_cases lower upper with ⟨entries, entries', rfl, rfl, heq⟩ | ⟨hkind, -⟩
    · have hlookup := children_overlay_table entries hvalid.nodup k
      rw [show entries.lookup k = some c from hc] at hlookup
      simp only [kind, replaces] at hkept
      rw [heq, spine_cons_of_lookup hc]
      rcases hupper : entries'.lookup k with _ | value
      · rw [hupper] at hlookup
        rw [leafAt_cons_of_lookup hlookup, spine_cons_of_lookup hlookup]
        exact ⟨hleaf, rfl⟩
      · rw [hupper] at hlookup hkept
        obtain ⟨hleaf', hspine⟩ := ih (hvalid.of_lookup hupper) hleaf hkept
        rw [leafAt_cons_of_lookup hlookup, spine_cons_of_lookup hlookup]
        exact ⟨hleaf', congrArg (_ :: ·) hspine⟩
    · -- where one of the two is no table, the upper value replaces the lower one
      exfalso
      cases upper with
      | scalar value | array items => cases hkept
      | table entries' =>
        cases lower with
        | scalar value | array items => cases hkept
        | table entries => simp [kind] at hkind

/-- A leaf of the overlay comes from the upper value, or from the lower one with nothing on the way to
it replaced. -/
lemma leafAt_overlay_cases (hvalid : upper.Valid)
    (h : (lower.overlay upper).leafAt p = some s) : upper.leafAt p = some s ∨
      (upper.leafAt p = none ∧ lower.leafAt p = some s ∧ upper.replaces (lower.spine p) p = false) := by
  induction p generalizing lower upper with
  | nil =>
    rcases overlay_cases lower upper with ⟨entries, entries', rfl, rfl, heq⟩ | ⟨-, heq⟩
    · rw [heq] at h
      cases h
    · rw [heq] at h
      exact .inl h
  | cons k p ih =>
    rcases overlay_cases lower upper with ⟨entries, entries', rfl, rfl, heq⟩ | ⟨-, heq⟩
    · rw [heq] at h
      obtain ⟨c, hc, hleaf⟩ := exists_child h
      rw [children_overlay_table entries hvalid.nodup k] at hc
      rcases hupper : entries'.lookup k with _ | value
      · rw [hupper] at hc
        right
        refine ⟨?_, ?_, ?_⟩
        · rw [leafAt_cons, show (table entries').children.lookup k = none from hupper]
          rfl
        · rw [leafAt_cons_of_lookup (show (table entries).children.lookup k = some c from hc)]
          exact hleaf
        · rw [spine_cons_of_lookup (show (table entries).children.lookup k = some c from hc)]
          simp [kind, replaces, hupper]
      · rw [hupper] at hc
        have hchild : (table entries').children.lookup k = some value := hupper
        rw [leafAt_cons_of_lookup hchild]
        rcases hlower : entries.lookup k with _ | existing
        · rw [hlower] at hc
          cases hc
          exact .inl hleaf
        · rw [hlower] at hc
          cases hc
          have hchild' : (table entries).children.lookup k = some existing := hlower
          rw [leafAt_cons_of_lookup hchild', spine_cons_of_lookup hchild']
          simp only [kind, replaces, hupper]
          exact ih (hvalid.of_lookup hupper) hleaf
    · rw [heq] at h
      exact .inl h

/-! ## Stacks of overlays -/

/-- A tree of the stack is the highest one that has a leaf at the path. -/
def Supplies (trees : List (ValueTree S)) (p : List Text) (lower : List (ValueTree S))
    (tree : ValueTree S) (higher : List (ValueTree S)) (s : S) : Prop :=
  trees = lower ++ tree :: higher ∧ tree.leafAt p = some s ∧ ∀ t ∈ higher, t.leafAt p = none

variable {trees : List (ValueTree S)}

section

variable (hvalid : ∀ t ∈ trees, t.Valid)
include hvalid

lemma leafAt_foldl_of_kept {base : ValueTree S} (h : base.leafAt p = some s)
    (hkept : ∀ t ∈ trees, t.replaces (base.spine p) p = false) :
    (trees.foldl overlay base).leafAt p = some s := by
  induction trees generalizing base with
  | nil => exact h
  | cons t trees ih =>
    rw [List.forall_mem_cons] at hvalid hkept
    obtain ⟨hleaf, hspine⟩ := leafAt_overlay_of_lower hvalid.1 h hkept.1
    rw [List.foldl_cons]
    apply ih hvalid.2 hleaf
    rw [hspine]
    exact hkept.2

/-- A leaf of a stack comes from one of its trees, and nothing on the way to it was replaced since. -/
lemma exists_supplies_of_leafAt (h : (trees.foldl overlay (table [])).leafAt p = some s) :
    ∃ lower tree higher, Supplies trees p lower tree higher s ∧
      (trees.foldl overlay (table [])).spine p = tree.spine p ∧
      ∀ t ∈ higher, t.replaces (tree.spine p) p = false := by
  induction trees using List.reverseRecOn with
  | nil => cases p <;> cases h
  | append_singleton trees top ih =>
    rw [List.foldl_concat] at h ⊢
    have htop : top.Valid := hvalid top (by simp)
    rcases leafAt_overlay_cases htop h with hupper | ⟨hnone, hlower, hkept⟩
    · exact ⟨trees, top, [], ⟨rfl, hupper, by simp⟩, (leafAt_overlay_of_upper htop hupper).2, by simp⟩
    obtain ⟨lower, tree, higher, ⟨htrees, hleaf, hhigher⟩, hspine, hall⟩ :=
      ih (fun t ht => hvalid t (List.mem_append_left _ ht)) hlower
    have hsame := (leafAt_overlay_of_lower htop hlower hkept).2
    refine ⟨lower, tree, higher ++ [top], ⟨by simp [htrees], hleaf, ?_⟩, hsame.trans hspine, ?_⟩
    · intro t ht
      rcases List.mem_append.mp ht with ht | ht
      · exact hhigher t ht
      · rw [List.mem_singleton.mp ht]
        exact hnone
    · intro t ht
      rcases List.mem_append.mp ht with ht | ht
      · exact hall t ht
      · rw [List.mem_singleton.mp ht, ← hspine]
        exact hkept

/-- The leaves of a stack are those of the highest trees that supply them, as far as no higher tree
replaces a value on the way. -/
theorem leafAt_foldl_overlay
    : (trees.foldl overlay (table [])).leafAt p = some s ↔
      ∃ lower tree higher, Supplies trees p lower tree higher s ∧
        ∀ t ∈ higher, t.replaces (tree.spine p) p = false := by
  constructor
  · intro h
    obtain ⟨lower, tree, higher, hsupplies, -, hkept⟩ := exists_supplies_of_leafAt hvalid h
    exact ⟨lower, tree, higher, hsupplies, hkept⟩
  · rintro ⟨lower, tree, higher, ⟨rfl, hleaf, -⟩, hkept⟩
    rw [List.forall_mem_append, List.forall_mem_cons] at hvalid
    obtain ⟨-, htree, hhigher⟩ := hvalid
    rw [List.foldl_append, List.foldl_cons]
    obtain ⟨hleaf', hspine⟩ := leafAt_overlay_of_upper htree hleaf
    refine leafAt_foldl_of_kept hhigher hleaf' ?_
    rw [hspine]
    exact hkept

end

end ValueTree

end Supercodex

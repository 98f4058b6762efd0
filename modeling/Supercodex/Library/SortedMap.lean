import Mathlib.Data.List.Nodup
import Mathlib.Data.List.Induction
import Mathlib.Order.Lattice

/-!
# Sorted maps

A map as the list of its entries in the order of the keys. What is put under a key takes the place of what was
there.
-/

namespace Supercodex

/-- Entries with increasing keys. -/
structure SortedMap (κ ν : Type) [LinearOrder κ] where
  entries : List (κ × ν)
  sorted : entries.Pairwise fun e f => e.1 < f.1

namespace SortedMap

lemma lookup_eq_some_iff_mem {κ ν : Type} [BEq κ] [LawfulBEq κ] {es : List (κ × ν)} {k : κ} {v : ν}
    (h : (es.map Prod.fst).Nodup) : es.lookup k = some v ↔ (k, v) ∈ es := by
  rw [List.lookup_eq_some_iff]
  constructor
  · rintro ⟨before, after, rfl, -⟩
    simp
  · intro hmem
    obtain ⟨before, after, rfl⟩ := List.append_of_mem hmem
    refine ⟨before, after, rfl, ?_⟩
    intro e he
    rw [List.map_append, List.nodup_append] at h
    have hne := h.2.2 e.1 (List.mem_map_of_mem he) k (by simp)
    simpa using hne.symm

variable {κ ν : Type} [LinearOrder κ]

/-- The entries with one more put where its key belongs. -/
def insertEntry (k : κ) (v : ν) : List (κ × ν) → List (κ × ν)
  | [] => [(k, v)]
  | e :: es =>
    if k < e.1 then (k, v) :: e :: es
    else if k = e.1 then (k, v) :: es
    else e :: insertEntry k v es

variable {k : κ} {v : ν} {e : κ × ν} {es : List (κ × ν)}

lemma mem_insertEntry (h : es.Pairwise fun e f => e.1 < f.1) :
    e ∈ insertEntry k v es ↔ e = (k, v) ∨ e ∈ es ∧ e.1 ≠ k := by
  induction es with
  | nil =>
    rw [insertEntry, List.mem_singleton]
    simp
  | cons f es ih =>
    obtain ⟨hf, hes⟩ := List.pairwise_cons.mp h
    rw [insertEntry]
    split
    · rename_i hlt
      have hkeys : ∀ e ∈ f :: es, e.1 ≠ k := by
        intro e he
        rcases List.mem_cons.mp he with rfl | he
        · exact hlt.ne'
        · exact (hlt.trans (hf e he)).ne'
      rw [List.mem_cons]
      constructor
      · rintro (rfl | he)
        · exact .inl rfl
        · exact .inr ⟨he, hkeys e he⟩
      · rintro (rfl | ⟨he, -⟩)
        · exact .inl rfl
        · exact .inr he
    · split
      · rename_i heq
        subst heq
        rw [List.mem_cons, List.mem_cons]
        constructor
        · rintro (rfl | he)
          · exact .inl rfl
          · exact .inr ⟨.inr he, (hf e he).ne'⟩
        · rintro (rfl | ⟨rfl | he, hne⟩)
          · exact .inl rfl
          · exact absurd rfl hne
          · exact .inr he
      · rename_i hne
        rw [List.mem_cons, List.mem_cons, ih hes]
        constructor
        · rintro (rfl | rfl | ⟨he, hk⟩)
          · exact .inr ⟨.inl rfl, fun heq => hne heq.symm⟩
          · exact .inl rfl
          · exact .inr ⟨.inr he, hk⟩
        · rintro (rfl | ⟨rfl | he, hk⟩)
          · exact .inr (.inl rfl)
          · exact .inl rfl
          · exact .inr (.inr ⟨he, hk⟩)

lemma pairwise_insertEntry (h : es.Pairwise fun e f => e.1 < f.1) (k : κ) (v : ν) :
    (insertEntry k v es).Pairwise fun e f => e.1 < f.1 := by
  induction es with
  | nil => exact List.pairwise_singleton _ _
  | cons f es ih =>
    obtain ⟨hf, hes⟩ := List.pairwise_cons.mp h
    rw [insertEntry]
    split
    · rename_i hlt
      refine List.pairwise_cons.mpr ⟨?_, h⟩
      intro e he
      rcases List.mem_cons.mp he with rfl | he
      · exact hlt
      · exact hlt.trans (hf e he)
    · split
      · rename_i heq
        subst heq
        exact List.pairwise_cons.mpr ⟨hf, hes⟩
      · rename_i hge hne
        refine List.pairwise_cons.mpr ⟨?_, ih hes⟩
        intro e he
        rcases (mem_insertEntry hes).mp he with rfl | ⟨he, -⟩
        · exact lt_of_le_of_ne (not_lt.mp hge) fun heq => hne heq.symm
        · exact hf e he

/-- The map with a value put under a key. -/
def insert (m : SortedMap κ ν) (k : κ) (v : ν) : SortedMap κ ν :=
  ⟨insertEntry k v m.entries, pairwise_insertEntry m.sorted k v⟩

/-- The map without entries. -/
def empty : SortedMap κ ν := ⟨[], .nil⟩

/-- The map collected from entries, one after the other. -/
def ofList (es : List (κ × ν)) : SortedMap κ ν := es.foldl (fun m e => m.insert e.1 e.2) empty

variable {m : SortedMap κ ν}

lemma mem_insert :
    e ∈ (m.insert k v).entries ↔ e = (k, v) ∨ e ∈ m.entries ∧ e.1 ≠ k := mem_insertEntry m.sorted

lemma nodup_keys (m : SortedMap κ ν) : (m.entries.map Prod.fst).Nodup := by
  rw [List.nodup_iff_pairwise_ne, List.pairwise_map]
  exact m.sorted.imp fun h => h.ne

/-- The value under a key. -/
def get? (m : SortedMap κ ν) (k : κ) : Option ν := m.entries.lookup k

/-- The keys in order. -/
def keys (m : SortedMap κ ν) : List κ := m.entries.map Prod.fst

@[simp] lemma keys_empty : (empty : SortedMap κ ν).keys = [] := rfl

lemma mem_keys_insert {k' : κ} : k' ∈ (m.insert k v).keys ↔ k' = k ∨ k' ∈ m.keys := by
  unfold keys
  simp only [List.mem_map, mem_insert]
  constructor
  · rintro ⟨e, rfl | ⟨he, -⟩, rfl⟩
    · exact .inl rfl
    · exact .inr ⟨e, he, rfl⟩
  · rintro (rfl | ⟨e, he, rfl⟩)
    · exact ⟨(k', v), .inl rfl, rfl⟩
    · by_cases heq : e.1 = k
      · exact ⟨(k, v), .inl rfl, heq.symm⟩
      · exact ⟨e, .inr ⟨he, heq⟩, rfl⟩

lemma get?_eq_some_iff : m.get? k = some v ↔ (k, v) ∈ m.entries :=
  lookup_eq_some_iff_mem m.nodup_keys

lemma get?_eq_none_iff : m.get? k = none ↔ k ∉ m.keys := by
  constructor
  · intro h hk
    obtain ⟨⟨k', v⟩, hmem, rfl⟩ := List.mem_map.mp hk
    rw [get?_eq_some_iff.mpr hmem] at h
    cases h
  · intro h
    cases hget : m.get? k with
    | none => rfl
    | some v => exact absurd (List.mem_map_of_mem (f := Prod.fst) (get?_eq_some_iff.mp hget)) h

lemma ofList_concat (es : List (κ × ν)) (e : κ × ν) : ofList (es ++ [e]) = (ofList es).insert e.1 e.2 := by
  rw [ofList, List.foldl_concat]
  rfl

lemma mem_ofList (h : (es.map Prod.fst).Nodup) : e ∈ (ofList es).entries ↔ e ∈ es := by
  induction es using List.reverseRecOn with
  | nil => rfl
  | append_singleton es f ih =>
    rw [List.map_append, List.map_singleton, List.nodup_append] at h
    rw [ofList_concat, mem_insert, ih h.1, List.mem_append, List.mem_singleton]
    constructor
    · rintro (rfl | ⟨he, -⟩)
      · exact .inr rfl
      · exact .inl he
    · rintro (he | rfl)
      · exact .inr ⟨he, h.2.2 _ (List.mem_map_of_mem he) _ (List.mem_singleton_self _)⟩
      · exact .inl rfl

lemma mem_keys_ofList : k ∈ (ofList es).keys ↔ k ∈ es.map Prod.fst := by
  induction es using List.reverseRecOn with
  | nil => rfl
  | append_singleton es e ih =>
    rw [ofList_concat, mem_keys_insert, ih, List.map_append, List.mem_append, List.map_singleton,
      List.mem_singleton, or_comm]

lemma get?_ofList [BEq κ] [LawfulBEq κ] (h : (es.map Prod.fst).Nodup) (k : κ) :
    (ofList es).get? k = es.lookup k := by
  ext v
  rw [get?_eq_some_iff, mem_ofList h, lookup_eq_some_iff_mem h]

end SortedMap

end Supercodex

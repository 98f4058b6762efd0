import Supercodex.Library.Pieces
import Supercodex.Library.Text

/-!
# Text as bytes

The UTF-8 encoding of text, by the encoding of the standard library.
-/

namespace Supercodex.Utf8

open Pieces

/-- Bytes of a file. -/
abbrev Bytes := List UInt8

/-- The byte of `'\n'`. -/
def newline : UInt8 := 10

/-- `str::as_bytes`. -/
def encode (t : Text) : Bytes := t.flatMap String.utf8EncodeChar

/-- `String::from_utf8`. -/
def decode (bytes : Bytes) : Option Text := bytes.toByteArray.utf8Decode?.map Array.toList

@[simp] lemma encode_nil : encode [] = [] := rfl

@[simp] lemma encode_append (t u : Text) : encode (t ++ u) = encode t ++ encode u :=
  List.flatMap_append

lemma toByteArray_encode (t : Text) : (encode t).toByteArray = t.utf8Encode := rfl

@[simp] lemma decode_encode (t : Text) : decode (encode t) = some t := by
  rw [decode, toByteArray_encode, List.utf8Decode?_utf8Encode]
  rfl

lemma newline_ne_ofNat {n : ℕ} (h : n % 256 ≠ 10) : newline ≠ UInt8.ofNat n := by
  intro heq
  have hnat := congrArg UInt8.toNat heq
  rw [UInt8.toNat_ofNat'] at hnat
  exact h hnat.symm

lemma newline_not_mem_utf8EncodeChar {c : Char} (hc : c ≠ '\n') :
    newline ∉ String.utf8EncodeChar c := by
  have hv : c.val.toNat ≠ 10 := by
    intro h
    exact hc (Char.ext (UInt32.toNat_inj.mp h))
  unfold String.utf8EncodeChar
  dsimp only
  split_ifs with h1 h2 h3
  · simp only [List.mem_cons, List.not_mem_nil, or_false]
    exact newline_ne_ofNat (by omega)
  · simp only [List.mem_cons, List.not_mem_nil, or_false, not_or]
    exact ⟨newline_ne_ofNat (by omega), newline_ne_ofNat (by omega)⟩
  · simp only [List.mem_cons, List.not_mem_nil, or_false, not_or]
    exact ⟨newline_ne_ofNat (by omega), newline_ne_ofNat (by omega), newline_ne_ofNat (by omega)⟩
  · simp only [List.mem_cons, List.not_mem_nil, or_false, not_or]
    exact ⟨newline_ne_ofNat (by omega), newline_ne_ofNat (by omega), newline_ne_ofNat (by omega),
      newline_ne_ofNat (by omega)⟩

lemma newline_not_mem_encode {t : Text} (h : '\n' ∉ t) : newline ∉ encode t := by
  intro hmem
  obtain ⟨c, hc, hbyte⟩ := List.mem_flatMap.mp hmem
  refine newline_not_mem_utf8EncodeChar ?_ hbyte
  rintro rfl
  exact h hc

lemma encode_append_newline (t u : Text) : encode (t ++ '\n' :: u) = encode t ++ newline :: encode u :=
  encode_append t ('\n' :: u)

lemma splitOn_encode (t : Text) : (encode t).splitOn newline = (t.splitOn '\n').map encode := by
  induction t using split_induction (c := '\n') with
  | last t h =>
    rw [List.splitOn_eq_singleton h, List.splitOn_eq_singleton (newline_not_mem_encode h),
      List.map_singleton]
  | separated first rest h ih =>
    rw [encode_append_newline, List.splitOn_append_cons_self_of_not_mem (newline_not_mem_encode h),
      List.splitOn_append_cons_self_of_not_mem h, ih, List.map_cons]

lemma encode_eq_nil_iff {t : Text} : encode t = [] ↔ t = [] := by
  refine ⟨fun h => ?_, fun h => h ▸ rfl⟩
  have hdecode := decode_encode t
  rw [h, ← encode_nil, decode_encode] at hdecode
  cases hdecode
  rfl

lemma pieces_encode (t : Text) :
    pieces newline (encode t) = (pieces '\n' t).map encode := by
  induction t using split_induction (c := '\n') with
  | last t h =>
    by_cases ht : t = []
    · rw [ht]
      rfl
    · have hbytes : encode t ≠ [] := encode_eq_nil_iff.not.mpr ht
      rw [pieces_of_not_mem ht h, pieces_of_not_mem hbytes (newline_not_mem_encode h),
        List.map_singleton]
  | separated first rest h ih =>
    rw [encode_append_newline, pieces_append_cons (newline_not_mem_encode h),
      pieces_append_cons h, ih, List.map_cons, encode_append_newline, encode_nil]

end Supercodex.Utf8

import Galley.Text.Hex
import Galley.Text.Search

/-! # Octets as hexadecimal digits

The digits tell the octets, and no other characters are among them. -/

namespace Galley.Text.Hex

theorem digit_injective : ∀ m < 16, ∀ n < 16, digit m = digit n → m = n := by decide

theorem not_mem_encode {c : Char} (hc : ∀ n < 16, c ≠ digit n) (bytes : List UInt8) :
    c ∉ encode bytes := by
  intro h
  obtain ⟨b, -, h⟩ := List.mem_flatMap.1 h
  have hb : b.toNat < 256 := b.toNat_lt
  simp only [List.mem_cons, List.not_mem_nil, or_false] at h
  rcases h with h | h
  · exact hc _ (by omega) h
  · exact hc _ (by omega) h

theorem encode_injective {bytes other : List UInt8} (h : encode bytes = encode other) :
    bytes = other := by
  induction bytes generalizing other with
  | nil =>
    cases other with
    | nil => rfl
    | cons b other => simp [encode] at h
  | cons b bytes ih =>
    cases other with
    | nil => simp [encode] at h
    | cons b' other =>
      simp only [encode, List.flatMap_cons, List.cons_append, List.nil_append, List.cons.injEq] at h
      obtain ⟨hhigh, hlow, hrest⟩ := h
      have hb : b.toNat < 256 := b.toNat_lt
      have hb' : b'.toNat < 256 := b'.toNat_lt
      have hhigh := digit_injective _ (by omega) _ (by omega) hhigh
      have hlow := digit_injective _ (by omega) _ (by omega) hlow
      have hsame : b = b' := UInt8.toNat_inj.1 (by omega)
      rw [hsame, ih hrest]

theorem utf8Size_digit : ∀ n < 16, (digit n).utf8Size = 1 := by decide

/-- Two octets are written for each one. -/
theorem utf8Size_encode (bytes : List UInt8) : Text.utf8Size (encode bytes) = 2 * bytes.length := by
  induction bytes with
  | nil => rfl
  | cons b bytes ih =>
    have hb : b.toNat < 256 := b.toNat_lt
    have hhigh := utf8Size_digit (b.toNat / 16) (by omega)
    have hlow := utf8Size_digit (b.toNat % 16) (by omega)
    rw [encode] at ih
    simp only [encode, List.flatMap_cons, List.cons_append, List.nil_append, utf8Size_cons, ih, hhigh,
      hlow, List.length_cons]
    omega

end Galley.Text.Hex

import Galley.Text.Utf8

/-! # Octets of a text, read back

The octets of each character are one unit of its own, so a text comes back from its octets by
either reading, and the lossy reading agrees with the strict one wherever that gives a text. -/

namespace Galley.Text.Utf8

/-- An octet with a number below `256` in it, masked to its last bits. -/
theorem payload_ofNat {n : Nat} (k bound : Nat) {mask : UInt8} (hn : n < 256)
    (hk : Nat.pow 2 k = bound) (hm : mask.toNat = bound - 1) :
    payload (UInt8.ofNat n) mask = n % bound := by
  rw [payload, UInt8.toNat_and, hm, ← hk, Nat.pow_eq, Nat.and_two_pow_sub_one_eq_mod,
    UInt8.toNat_ofNat', Nat.mod_eq_of_lt hn]

theorem payload_tail (n : Nat) : payload (UInt8.ofNat (n % 64 + 128)) 0x3F = n % 64 := by
  rw [payload_ofNat 6 64 (by omega) rfl rfl]
  omega

theorem isTail_ofNat (n : Nat) : isTail (UInt8.ofNat (n % 64 + 128)) = true := by
  have h : n % 64 < 64 := Nat.mod_lt _ (by decide)
  simp [isTail, UInt8.le_iff_toNat_le]
  omega

theorem allowsSecond_ofNat {a b : Nat} (ha : a < 256) (hb : b < 256)
    (h : (a = 0xE0 → 0xA0 ≤ b) ∧ (a = 0xED → b ≤ 0x9F) ∧ (a = 0xF0 → 0x90 ≤ b) ∧
      (a = 0xF4 → b ≤ 0x8F) ∧ 0x80 ≤ b ∧ b ≤ 0xBF) :
    allowsSecond (UInt8.ofNat a) (UInt8.ofNat b) = true := by
  have he (k : UInt8) : (UInt8.ofNat a == k) = true ↔ a = k.toNat := by
    rw [beq_iff_eq, ← UInt8.toNat_inj, UInt8.toNat_ofNat', Nat.mod_eq_of_lt ha]
  have hb' : (UInt8.ofNat b).toNat = b := by rw [UInt8.toNat_ofNat', Nat.mod_eq_of_lt hb]
  simp only [allowsSecond, isTail, UInt8.le_iff_toNat_le, hb', he]
  repeat' split
  all_goals
    simp only [Bool.and_eq_true, decide_eq_true_eq]
    simp at *
    omega

theorem unit_encode (c : Char) (rest : Bytes) :
    ∃ first tail, String.utf8EncodeChar c = first :: tail ∧
      unit first (tail ++ rest) = (some c, tail.length) := by
  have hv : c.val.toNat < 0xD800 ∨ 0xDFFF < c.val.toNat ∧ c.val.toNat < 0x110000 := c.valid
  have hc : Char.ofNat c.val.toNat = c := Char.ofNat_toNat c
  generalize hn : c.val.toNat = n at hc hv
  subst hc
  simp only [String.utf8EncodeChar, hn]
  by_cases h1 : n ≤ 0x7F
  · refine ⟨_, _, by rw [if_pos h1], ?_⟩
    have hl : UInt8.ofNat n ≤ 0x7F := by simp [UInt8.le_iff_toNat_le]; omega
    have ht : (UInt8.ofNat n).toNat = n := by simp; omega
    simp [unit, hl, ht]
  by_cases h2 : n ≤ 0x7FF
  · refine ⟨_, _, by rw [if_neg h1, if_pos h2], ?_⟩
    have ha : ¬UInt8.ofNat (n / 64 % 32 + 192) ≤ 0x7F := by simp [UInt8.le_iff_toNat_le]; omega
    have hb : (0xC2 ≤ UInt8.ofNat (n / 64 % 32 + 192) && UInt8.ofNat (n / 64 % 32 + 192) ≤ 0xDF) = true := by
      simp [UInt8.le_iff_toNat_le]; omega
    have hp : payload (UInt8.ofNat (n / 64 % 32 + 192)) 0x1F = n / 64 := by
      rw [payload_ofNat 5 32 (by omega) rfl rfl]; omega
    have hs : n / 64 * 64 + n % 64 = n := by omega
    simp only [unit, if_neg ha, if_pos hb, List.cons_append, List.nil_append, isTail_ofNat, if_true,
      payload_tail, hp, hs, List.length_cons, List.length_nil]
  by_cases h3 : n ≤ 0xFFFF
  · refine ⟨_, _, by rw [if_neg h1, if_neg h2, if_pos h3], ?_⟩
    generalize hf : UInt8.ofNat (n / 4096 % 16 + 224) = first
    have ha : ¬first ≤ 0x7F := by subst hf; simp [UInt8.le_iff_toNat_le]; omega
    have hb : (0xC2 ≤ first && first ≤ 0xDF) = false := by
      subst hf; simp [UInt8.le_iff_toNat_le]; omega
    have hc : (0xE0 ≤ first && first ≤ 0xEF) = true := by
      subst hf; simp [UInt8.le_iff_toNat_le]; omega
    have hd : allowsSecond first (UInt8.ofNat (n / 64 % 64 + 128)) = true := by
      subst hf; exact allowsSecond_ofNat (by omega) (by omega) (by omega)
    have hp : payload first 0x0F = n / 4096 := by
      rw [← hf, payload_ofNat 4 16 (by omega) rfl rfl]; omega
    have hs : n / 4096 * 4096 + n / 64 % 64 * 64 + n % 64 = n := by omega
    simp only [unit, if_neg ha, hb, Bool.false_eq_true, if_false, if_pos hc, List.cons_append,
      List.nil_append, if_pos hd, isTail_ofNat, if_true, payload_tail, hp, hs, List.length_cons,
      List.length_nil]
  · refine ⟨_, _, by rw [if_neg h1, if_neg h2, if_neg h3], ?_⟩
    generalize hf : UInt8.ofNat (n / 262144 % 8 + 240) = first
    have ha : ¬first ≤ 0x7F := by subst hf; simp [UInt8.le_iff_toNat_le]; omega
    have hb : (0xC2 ≤ first && first ≤ 0xDF) = false := by
      subst hf; simp [UInt8.le_iff_toNat_le]; omega
    have hc : (0xE0 ≤ first && first ≤ 0xEF) = false := by
      subst hf; simp [UInt8.le_iff_toNat_le]; omega
    have hd : (0xF0 ≤ first && first ≤ 0xF4) = true := by
      subst hf; simp [UInt8.le_iff_toNat_le]; omega
    have he : allowsSecond first (UInt8.ofNat (n / 4096 % 64 + 128)) = true := by
      subst hf; exact allowsSecond_ofNat (by omega) (by omega) (by omega)
    have hp : payload first 0x07 = n / 262144 := by
      rw [← hf, payload_ofNat 3 8 (by omega) rfl rfl]; omega
    have hs : n / 262144 * 262144 + n / 4096 % 64 * 4096 + n / 64 % 64 * 64 + n % 64 = n := by omega
    simp only [unit, if_neg ha, hb, hc, Bool.false_eq_true, if_false, if_pos hd, List.cons_append,
      List.nil_append, if_pos he, isTail_ofNat, if_true, payload_tail, hp, hs, List.length_cons,
      List.length_nil]

/-- The octets of a character are one unit, whatever comes after them. -/
theorem units_encodeChar (c : Char) (rest : Bytes) :
    units (String.utf8EncodeChar c ++ rest) = some c :: units rest := by
  obtain ⟨first, tail, he, hu⟩ := unit_encode c rest
  rw [he, List.cons_append, units, hu]
  simp

theorem units_encode (text : String) : units (encode text) = text.toList.map some := by
  rw [encode]
  induction text.toList with
  | nil => simp [units]
  | cons c cs ih => rw [List.flatMap_cons, units_encodeChar, ih, List.map_cons]

private theorem eq_map_some_of_mapM {α : Type} {found : List (Option α)} {cs : List α}
    (h : found.mapM id = some cs) : found = cs.map some := by
  induction found generalizing cs with
  | nil => simp_all
  | cons unit found ih =>
    cases unit with
    | none => simp at h
    | some c =>
      simp only [List.mapM_cons, id_eq, Option.bind_eq_bind, Option.bind_some,
        Option.bind_eq_some_iff, Option.pure_def, Option.some.injEq] at h
      obtain ⟨cs', hm, rfl⟩ := h
      rw [ih hm, List.map_cons]

/-- Whole units are read alike both ways. -/
theorem decodeLossy_of_decode? {bytes : Bytes} {text : String} (h : decode? bytes = some text) :
    decodeLossy bytes = text := by
  obtain ⟨cs, hm, rfl⟩ := Option.map_eq_some_iff.1 h
  rw [decodeLossy, eq_map_some_of_mapM hm]
  simp [Function.comp_def]

theorem decodeLossy_encode (text : String) : decodeLossy (encode text) = text := by
  simp [decodeLossy, units_encode, Function.comp_def]

end Galley.Text.Utf8

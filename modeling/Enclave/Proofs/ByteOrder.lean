import Enclave.Word

namespace Enclave.Text

def toBytes (s : String) : Bytes :=
  s.toUTF8.data.toList

theorem toBytes_eq (s : String) : toBytes s = s.toList.flatMap String.utf8EncodeChar := by
  have h : s.toUTF8 = (s.toList.flatMap String.utf8EncodeChar).toByteArray := by
    rw [String.toUTF8_eq_toByteArray, ← String.utf8Encode_toList, List.utf8Encode]
  rw [toBytes, h, List.data_toByteArray]

theorem byte_lt_byte (m n : Nat) : UInt8.ofNat m < UInt8.ofNat n ↔ m % 256 < n % 256 := by
  rw [UInt8.lt_iff_toNat_lt, UInt8.toNat_ofNat', UInt8.toNat_ofNat']

theorem byte_eq_byte (m n : Nat) : UInt8.ofNat m = UInt8.ofNat n ↔ m % 256 = n % 256 := by
  rw [← UInt8.toNat_inj, UInt8.toNat_ofNat', UInt8.toNat_ofNat']

/-- The encoding of a character holds the digits of its code point in base 64. Their number, and so
the first byte, tells the range that the code point is in. -/
theorem encode_cases (c : Char) :
    (c.val.toNat < 0x80 ∧ String.utf8EncodeChar c = [.ofNat c.val.toNat]) ∨
    (∃ p q, 2 ≤ p ∧ p < 32 ∧ q < 64 ∧ c.val.toNat = 64 * p + q ∧
      String.utf8EncodeChar c = [.ofNat (p + 192), .ofNat (q + 128)]) ∨
    (∃ p q r, p < 16 ∧ q < 64 ∧ r < 64 ∧ 32 ≤ 64 * p + q ∧
      c.val.toNat = 4096 * p + 64 * q + r ∧
      String.utf8EncodeChar c = [.ofNat (p + 224), .ofNat (q + 128), .ofNat (r + 128)]) ∨
    (∃ p q r s, p < 8 ∧ q < 64 ∧ r < 64 ∧ s < 64 ∧ 16 ≤ 64 * p + q ∧
      c.val.toNat = 262144 * p + 4096 * q + 64 * r + s ∧
      String.utf8EncodeChar c =
        [.ofNat (p + 240), .ofNat (q + 128), .ofNat (r + 128), .ofNat (s + 128)]) := by
  have hv : c.val.toNat < 0x110000 := by
    have h := c.valid
    simp only [UInt32.isValidChar, Nat.isValidChar] at h
    omega
  rw [String.utf8EncodeChar]
  generalize c.val.toNat = n at hv ⊢
  by_cases h1 : n ≤ 0x7f
  · exact .inl ⟨by omega, if_pos h1⟩
  by_cases h2 : n ≤ 0x7ff
  · refine .inr (.inl ⟨n / 64 % 32, n % 64, by omega, by omega, by omega, by omega, ?_⟩)
    simp only [if_neg h1, if_pos h2]
  by_cases h3 : n ≤ 0xffff
  · refine .inr (.inr (.inl ⟨n / 4096 % 16, n / 64 % 64, n % 64, by omega, by omega, by omega,
      by omega, by omega, ?_⟩))
    simp only [if_neg h1, if_neg h2, if_pos h3]
  · refine .inr (.inr (.inr ⟨n / 262144 % 8, n / 4096 % 64, n / 64 % 64, n % 64, by omega, by omega,
      by omega, by omega, by omega, by omega, ?_⟩))
    simp only [if_neg h1, if_neg h2, if_neg h3]

/-- Two different characters are told apart by their encodings, whatever follows these. -/
theorem encode_append_lt {c d : Char} (h : c < d) (s t : Bytes) :
    String.utf8EncodeChar c ++ s < String.utf8EncodeChar d ++ t := by
  have hlt : c.val.toNat < d.val.toNat := h
  have hc := encode_cases c
  have hd := encode_cases d
  generalize c.val.toNat = m at hlt hc
  generalize d.val.toNat = n at hlt hd
  -- One goal for each pair of ranges; where the ranges differ, the first byte decides.
  rcases hc with ⟨_, hc⟩ | ⟨_, _, _, _, _, _, hc⟩ | ⟨_, _, _, _, _, _, _, _, hc⟩ |
      ⟨_, _, _, _, _, _, _, _, _, _, hc⟩ <;>
    rcases hd with ⟨_, hd⟩ | ⟨_, _, _, _, _, _, hd⟩ | ⟨_, _, _, _, _, _, _, _, hd⟩ |
        ⟨_, _, _, _, _, _, _, _, _, _, hd⟩ <;>
      rw [hc, hd] <;>
        simp only [List.cons_append, List.nil_append, List.cons_lt_cons_iff, byte_lt_byte,
          byte_eq_byte] <;> omega

theorem encode_ne_nil (c : Char) : String.utf8EncodeChar c ≠ [] := by
  rcases encode_cases c with ⟨_, hc⟩ | ⟨_, _, _, _, _, _, hc⟩ | ⟨_, _, _, _, _, _, _, _, hc⟩ |
      ⟨_, _, _, _, _, _, _, _, _, _, hc⟩ <;> simp [hc]

theorem flatMap_encode_lt {cs ds : List Char} (h : cs < ds) :
    cs.flatMap String.utf8EncodeChar < ds.flatMap String.utf8EncodeChar := by
  induction h with
  | nil =>
    rename_i d ds
    rw [List.flatMap_nil, List.flatMap_cons]
    cases he : String.utf8EncodeChar d with
    | nil => exact absurd he (encode_ne_nil d)
    | cons b bs => exact List.nil_lt_cons b _
  | rel hr =>
    rw [List.flatMap_cons, List.flatMap_cons]
    exact encode_append_lt hr _ _
  | cons _ ih =>
    rw [List.flatMap_cons, List.flatMap_cons]
    exact List.append_left_lt ih

theorem toBytes_lt {s t : String} (h : s < t) : toBytes s < toBytes t := by
  rw [toBytes_eq, toBytes_eq]
  exact flatMap_encode_lt h

end Enclave.Text

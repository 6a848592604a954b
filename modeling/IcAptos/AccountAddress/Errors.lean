import IcAptos.AccountAddress.Parse

namespace IcAptos

theorem Str.asBytes_replicate_zero (k : Nat) :
    Str.asBytes (List.replicate k '0') = List.replicate k 48 := by
  induction k with
  | zero => rfl
  | succ k ih => rw [List.replicate_succ, Str.asBytes_cons, ih]; rfl

namespace AccountAddress

theorem fromHex_eq_error_iff {data : List UInt8} {e : AccountAddressParseError} :
    fromHex data = .error e ↔
      ∃ e', Hex.decodeToSlice data length = .error e' ∧ e = .invalidHexChars e' := by
  unfold fromHex
  split <;> rename_i r h <;> simp [h, eq_comm]

theorem asBytes_padded (w : List Char) :
    Str.asBytes (padded w) = List.replicate (length * 2 - Str.len w) 48 ++ Str.asBytes w := by
  unfold padded
  split_ifs with h
  · rw [Str.asBytes_append, Str.asBytes_replicate_zero]
  · rw [show length * 2 - Str.len w = 0 by omega]; rfl

theorem fromStr_error_cases (s : List Char) (e : AccountAddressParseError) :
    fromStr s = some (.error e) ↔
      (withoutZeroX s = [] ∧ e = .tooShort) ∨
      (length * 2 < Str.len (withoutZeroX s) ∧ Str.len (withoutZeroX s) % 2 = 1 ∧
        e = .invalidHexChars .oddLength) ∨
      (length * 2 < Str.len (withoutZeroX s) ∧ Str.len (withoutZeroX s) % 2 = 0 ∧
        e = .invalidHexChars .invalidStringLength) ∨
      (withoutZeroX s ≠ [] ∧ Str.len (withoutZeroX s) ≤ length * 2 ∧
        ∃ e', Hex.FirstInvalid (length * 2 - Str.len (withoutZeroX s)) (Str.asBytes (withoutZeroX s)) e' ∧
          e = .invalidHexChars e') := by
  rw [fromStr_eq]
  generalize withoutZeroX s = w
  by_cases hw : w = []
  · subst hw
    simp only [if_true, Option.some.injEq, Except.error.injEq, @eq_comm _ e, true_and, Str.len_nil,
      Nat.not_lt_zero, false_and, ne_eq, not_true_eq_false, or_false]
  have hzeros : ∀ x ∈ List.replicate (length * 2 - Str.len w) (48 : UInt8), HexCode x.toNat :=
    fun x hx => List.eq_of_mem_replicate hx ▸ by decide
  have hL : (Str.asBytes w).length = Str.len w := rfl
  rw [if_neg hw, Option.some_inj, fromHex_eq_error_iff, asBytes_padded]
  simp only [Hex.decodeToSlice_eq_error, Hex.firstInvalid_append_of_hex hzeros, List.length_append,
    List.length_replicate, hL, hw, false_and, false_or, ne_eq, not_false_eq_true, true_and, Nat.zero_add]
  rcases Nat.lt_or_ge (length * 2) (Str.len w) with hl | hl
  · have hk : length * 2 - Str.len w = 0 := by omega
    have hn : Str.len w ≠ 2 * length := by omega
    simp only [hk, Nat.zero_add, hn, hl, true_and, false_and, or_false, not_le.2 hl, ne_eq,
      not_false_eq_true, or_and_right, exists_or, and_assoc, exists_and_left, exists_eq_left]
  · have hk : length * 2 - Str.len w + Str.len w = 2 * length := by omega
    simp only [hk, Nat.mul_mod_right, Nat.zero_ne_one, false_and, ne_eq, not_true_eq_false,
      false_or, true_and, hl, not_lt.2 hl]

end AccountAddress

end IcAptos

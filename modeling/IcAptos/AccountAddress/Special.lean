import IcAptos.AccountAddress.Numeral

namespace IcAptos

theorem List.length_dropWhile_le_one_iff {α : Type} (p : α → Bool) (l : List α) :
    (l.dropWhile p).length ≤ 1 ↔ ∀ x ∈ l.dropLast, p x = true := by
  induction l with
  | nil => simp
  | cons x xs ih =>
    cases xs with
    | nil => cases h : p x <;> simp [List.dropWhile, h]
    | cons y ys =>
      rw [List.dropLast_cons₂, List.forall_mem_cons, List.dropWhile_cons]
      cases h : p x
      · simp
      · simpa using ih

theorem replicate_append_dropWhile_zero (l : List Char) :
    List.replicate (l.length - (l.dropWhile (· == '0')).length) '0' ++ l.dropWhile (· == '0') = l := by
  have hsplit := List.takeWhile_append_dropWhile (· == '0') l
  have hlen : (l.takeWhile (· == '0')).length + (l.dropWhile (· == '0')).length = l.length := by
    rw [← List.length_append, hsplit]
  have hz : List.replicate (l.takeWhile (· == '0')).length '0' = l.takeWhile (· == '0') :=
    (List.eq_replicate_iff.2 ⟨rfl, fun c hc => by simpa using List.mem_takeWhile_imp hc⟩).symm
  rw [show l.length - (l.dropWhile (· == '0')).length = (l.takeWhile (· == '0')).length by omega,
    hz, hsplit]

theorem Hex.digit_eq_zero {n : Nat} (hn : n < 16) : Hex.hexCharsLower.getD n '0' = '0' ↔ n = 0 :=
  have key : ∀ n : Fin 16, Hex.hexCharsLower.getD n '0' = '0' ↔ n.val = 0 := by decide
  key ⟨n, hn⟩

theorem Hex.encode_all_zero {bs : List UInt8} :
    (∀ c ∈ Hex.encode bs, c = '0') ↔ ∀ b ∈ bs, b = 0 := by
  induction bs with
  | nil => simp
  | cons b bs ih =>
    have hb : b.toNat < 256 := b.toNat_lt_size
    have hz : b = 0 ↔ b.toNat = 0 := ⟨fun h => h ▸ rfl, fun h => UInt8.toNat.inj h⟩
    rw [Hex.encode_cons, List.forall_mem_cons, List.forall_mem_cons, ih, ← and_assoc,
      List.forall_mem_cons]
    refine and_congr_left' ?_
    rw [Hex.digit_eq_zero (by omega), Hex.digit_eq_zero (Nat.mod_lt _ (by omega)), hz]
    omega

namespace AccountAddress

theorem isSpecial_iff (a : AccountAddress) :
    a.isSpecial = true ↔ (∀ b ∈ a.bytes.take 31, b = 0) ∧ (a.bytes.getD 31 0).toNat < 16 := by
  simp only [isSpecial, Bool.and_eq_true, List.all_eq_true, beq_iff_eq, decide_eq_true_eq]
  rfl

theorem toBigUint_lt_sixteen_iff (a : AccountAddress) :
    a.toBigUint < 16 ↔ (∀ b ∈ a.bytes.take 31, b = 0) ∧ (a.bytes.getD 31 0).toNat < 16 := by
  rw [toBigUint_eq_init_last, ← BigUint.fromBytesBe_eq_zero]
  omega

theorem toCanonicalString_eq_init_last (a : AccountAddress) :
    a.toCanonicalString = Hex.encode (a.bytes.take 31) ++
      [Hex.hexCharsLower.getD ((a.bytes.getD 31 0).toNat / 16) '0',
       Hex.hexCharsLower.getD ((a.bytes.getD 31 0).toNat % 16) '0'] := by
  conv_lhs => rw [toCanonicalString, bytes_eq_init_last a]
  simp [Hex.encode]

theorem length_toCanonicalString (a : AccountAddress) : a.toCanonicalString.length = 64 := by
  rw [toCanonicalString, Hex.length_encode, a.length_eq]; rfl

theorem canonical_prefix_zero_iff (a : AccountAddress) :
    (∀ c ∈ a.toCanonicalString.take 63, c = '0') ↔ a.toBigUint < 16 := by
  have hl : (Hex.encode (a.bytes.take 31)).length = 62 := by
    rw [Hex.length_encode, List.length_take, a.length_eq]; rfl
  have hb : (a.bytes.getD 31 0).toNat < 256 := UInt8.toNat_lt_size _
  rw [toBigUint_lt_sixteen_iff, toCanonicalString_eq_init_last, List.take_append_eq_append_take,
    hl, List.take_of_length_le (by omega)]
  simp only [List.mem_append, or_imp, forall_and, Hex.encode_all_zero, Nat.reduceSub,
    List.take_succ_cons, List.take_zero, List.mem_singleton, forall_eq,
    Hex.digit_eq_zero (by omega : (a.bytes.getD 31 0).toNat / 16 < 16)]
  exact and_congr_right' (by omega)

theorem shortStrLossless_eq (a : AccountAddress) :
    a.shortStrLossless = if a.toCanonicalString.dropWhile (· == '0') = [] then ['0']
      else a.toCanonicalString.dropWhile (· == '0') := by
  simp only [shortStrLossless, toCanonicalString, List.isEmpty_iff]

theorem length_shortStrLossless_eq_one_iff (a : AccountAddress) :
    a.shortStrLossless.length = 1 ↔ ∀ c ∈ a.toCanonicalString.take 63, c = '0' := by
  have hd : (a.toCanonicalString.dropWhile (· == '0')).length ≤ 1 ↔
      ∀ c ∈ a.toCanonicalString.take 63, c = '0' := by
    rw [List.length_dropWhile_le_one_iff, List.dropLast_eq_take, length_toCanonicalString]
    simp
  rw [← hd, shortStrLossless_eq]
  split_ifs with h
  · simp [h]
  · have := List.length_pos.2 h
    omega

theorem isSpecial_characterisation (a : AccountAddress) :
    (a.isSpecial = true ↔ a.toBigUint < 16) ∧
    (a.toBigUint < 16 ↔ ∀ c ∈ a.toCanonicalString.take 63, c = '0') ∧
    ((∀ c ∈ a.toCanonicalString.take 63, c = '0') ↔ a.shortStrLossless.length = 1) :=
  ⟨(isSpecial_iff a).trans (toBigUint_lt_sixteen_iff a).symm, (canonical_prefix_zero_iff a).symm,
    (length_shortStrLossless_eq_one_iff a).symm⟩

end AccountAddress

end IcAptos

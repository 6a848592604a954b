import IcAptos.AccountAddress.Parse

namespace IcAptos

namespace AccountAddress

theorem withoutZeroX_of_hex {h : List Char} (hh : ∀ c ∈ h, IsHexDigit c) : withoutZeroX h = h := by
  unfold withoutZeroX
  split_ifs with hs
  · obtain ⟨t, rfl⟩ := (Str.startsWith_zeroX h).1 hs
    exact (not_hex_x (hh 'x' (by simp))).elim
  · rfl

theorem fromStr_of_numeral {h : List Char} {a : AccountAddress} (hne : h ≠ []) (hl : h.length ≤ 64)
    (hh : ∀ c ∈ h, IsHexDigit c) (hv : numeralValue h = a.toBigUint) :
    fromStr h = some (.ok a) ∧ fromStr ('0' :: 'x' :: h) = some (.ok a) := by
  rw [fromStr_eq_ok_iff, fromStr_eq_ok_iff, withoutZeroX_zeroX, withoutZeroX_of_hex hh]
  exact ⟨⟨⟨hne, hl, hh⟩, hv.symm⟩, ⟨hne, hl, hh⟩, hv.symm⟩

theorem canonical_numeral (a : AccountAddress) :
    a.toCanonicalString ≠ [] ∧ a.toCanonicalString.length ≤ 64 ∧
      (∀ c ∈ a.toCanonicalString, IsHexDigit c) ∧ numeralValue a.toCanonicalString = a.toBigUint := by
  refine ⟨fun h => by simpa [h] using length_toCanonicalString a, (length_toCanonicalString a).le,
    Hex.encode_hex _, numeralValue_encode _⟩

theorem shortStrLossless_numeral (a : AccountAddress) :
    a.shortStrLossless ≠ [] ∧ a.shortStrLossless.length ≤ 64 ∧
      (∀ c ∈ a.shortStrLossless, IsHexDigit c) ∧ numeralValue a.shortStrLossless = a.toBigUint := by
  obtain ⟨-, hl, hh, hv⟩ := canonical_numeral a
  have hsplit := List.takeWhile_append_dropWhile (· == '0') a.toCanonicalString
  have hz : ∀ c ∈ a.toCanonicalString.takeWhile (· == '0'), c = '0' := fun c hc => by
    simpa using List.mem_takeWhile_imp hc
  have hvd : numeralValue (a.toCanonicalString.dropWhile (· == '0')) = a.toBigUint := by
    rw [← hv, ← numeralValue_zeros_append hz, hsplit]
  have hmem : ∀ c ∈ a.toCanonicalString.dropWhile (· == '0'), c ∈ a.toCanonicalString :=
    fun c hc => (List.dropWhile_suffix _).subset hc
  rw [shortStrLossless_eq]
  split_ifs with he
  · rw [he] at hvd
    exact ⟨by simp, by simp, by simp; decide, by simpa [numeralValue_singleton] using hvd⟩
  · exact ⟨he, ((List.dropWhile_suffix _).length_le).trans hl, fun c hc => hh c (hmem c hc), hvd⟩

theorem flatMap_fmt02x (bs : List UInt8) : bs.flatMap fmt02x = Hex.encode bs := by
  induction bs with
  | nil => rfl
  | cons b bs ih => rw [List.flatMap_cons, ih, fmt02x_eq]; rfl

theorem fromStr_inverts_printers (a : AccountAddress) :
    fromStr a.toHexLiteral = some (.ok a) ∧ fromStr a.toHex = some (.ok a) ∧
    fromStr (a.lowerHex true) = some (.ok a) ∧ fromStr a.toCanonicalString = some (.ok a) ∧
    fromStr a.stringFrom = some (.ok a) ∧
    deserializeHumanReadable a.serializeHumanReadable = some (.ok a) := by
  obtain ⟨cne, cl, ch, cv⟩ := canonical_numeral a
  obtain ⟨sne, sl, sh, sv⟩ := shortStrLossless_numeral a
  have hc := fromStr_of_numeral cne cl ch cv
  have hhex : a.toHex = a.toCanonicalString := by
    simp [toHex, lowerHex, flatMap_fmt02x, toCanonicalString]
  have halt : a.lowerHex true = '0' :: 'x' :: a.toCanonicalString := by
    simp [lowerHex, flatMap_fmt02x, toCanonicalString]
  exact ⟨(fromStr_of_numeral sne sl sh sv).2, hhex ▸ hc.1, halt ▸ hc.2, hc.1, hc.1,
    by rw [deserializeHumanReadable, serializeHumanReadable, hhex]; exact hc.1⟩

theorem toCanonicalString_all_zero_iff (a : AccountAddress) :
    (∀ c ∈ a.toCanonicalString, c = '0') ↔ a = zero := by
  rw [toCanonicalString, Hex.encode_all_zero]
  constructor
  · exact fun h => ext (List.eq_replicate_iff.2 ⟨a.length_eq, h⟩)
  · rintro rfl b hb
    exact List.eq_of_mem_replicate hb

theorem shortStrLossless_minimal_numeral (a : AccountAddress) :
    (∀ c ∈ a.shortStrLossless, c ∈ Hex.hexCharsLower) ∧
    numeralValue a.shortStrLossless = a.toBigUint ∧
    (a.shortStrLossless.head? = some '0' → a.shortStrLossless = ['0']) ∧
    (a.shortStrLossless = ['0'] ↔ a = zero) ∧
    1 ≤ a.shortStrLossless.length ∧ a.shortStrLossless.length ≤ 64 ∧
    List.replicate (64 - a.shortStrLossless.length) '0' ++ a.shortStrLossless =
      a.toCanonicalString := by
  obtain ⟨hne, hl, -, hv⟩ := shortStrLossless_numeral a
  have hs := shortStrLossless_eq a
  by_cases hd : a.toCanonicalString.dropWhile (· == '0') = []
  · rw [if_pos hd] at hs
    have hall : ∀ c ∈ a.toCanonicalString, c = '0' := by
      simpa using List.dropWhile_eq_nil_iff.1 hd
    rw [hs] at hv ⊢
    refine ⟨by decide, hv, fun _ => rfl, ⟨fun _ => (toCanonicalString_all_zero_iff a).1 hall,
      fun _ => rfl⟩, le_refl 1, by decide, ?_⟩
    rw [List.eq_replicate_iff.2 ⟨length_toCanonicalString a, hall⟩]
    exact (List.replicate_succ' 63 '0').symm
  · rw [if_neg hd] at hs
    have hhead : (a.toCanonicalString.dropWhile (· == '0')).head? ≠ some '0' := by
      intro h
      have := List.head?_dropWhile_not (· == '0') a.toCanonicalString
      rw [h] at this
      exact absurd this (by decide)
    have hpad := replicate_append_dropWhile_zero a.toCanonicalString
    rw [length_toCanonicalString] at hpad
    rw [hs] at hne hl hv ⊢
    refine ⟨fun c hc => Hex.encode_lower _ c ((List.dropWhile_suffix _).subset hc), hv,
      fun h => absurd h hhead, ⟨fun e => absurd (by rw [e]; rfl) hhead, ?_⟩,
      List.length_pos.2 hne, hl, hpad⟩
    rintro rfl
    exact absurd (List.dropWhile_eq_nil_iff.2 fun c hc => by
      simpa using (toCanonicalString_all_zero_iff zero).2 rfl c hc) hd

end AccountAddress

end IcAptos

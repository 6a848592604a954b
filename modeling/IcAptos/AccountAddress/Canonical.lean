import IcAptos.AccountAddress.Errors
import IcAptos.AccountAddress.RoundTrip

namespace IcAptos

theorem Char.eq_iff_toNat_eq {c d : Char} : c = d ↔ c.toNat = d.toNat :=
  ⟨congrArg _, fun h => Char.ext (UInt32.toNat.inj h)⟩

theorem Char.toNat_toLower (c : Char) :
    c.toLower.toNat = if 65 ≤ c.toNat ∧ c.toNat ≤ 90 then c.toNat + 32 else c.toNat := by
  show (if c.toNat ≥ 65 ∧ c.toNat ≤ 90 then Char.ofNat (c.toNat + 32) else c).toNat = _
  split_ifs with h
  · simp only [Char.ofNat, dif_pos (Or.inl (by omega) : (c.toNat + 32).isValidChar)]; rfl
  · rfl

theorem Hex.lower_spec : ∀ d ∈ Hex.hexCharsLower,
    ((48 ≤ d.toNat ∧ d.toNat ≤ 57) ∨ (97 ≤ d.toNat ∧ d.toNat ≤ 102)) ∧ IsHexDigit d ∧
      (digitValue d = 0 → d = '0') ∧ d.toUpper.toLower = d := by
  decide

theorem Hex.toLower_eq_iff {c d : Char} (hd : d ∈ Hex.hexCharsLower) :
    c.toLower = d ↔ IsHexDigit c ∧ digitValue c = digitValue d := by
  have hcode := (Hex.lower_spec d hd).1
  rw [Char.eq_iff_toNat_eq, Char.toNat_toLower]
  unfold IsHexDigit HexCode digitValue codeValue
  generalize c.toNat = n
  generalize d.toNat = m at hcode ⊢
  rcases hcode with ⟨h1, h2⟩ | ⟨h1, h2⟩
  · rw [if_pos h2]
    split_ifs <;> omega
  · rw [if_neg (show ¬m ≤ 57 by omega), if_neg (show ¬m ≤ 70 by omega)]
    split_ifs <;> omega

theorem numeralValue_cons (c : Char) (h : List Char) :
    numeralValue (c :: h) = digitValue c * 16 ^ h.length + numeralValue h := by
  rw [← List.singleton_append, numeralValue_append, AccountAddress.numeralValue_singleton]

theorem numeralValue_lt {h : List Char} (hh : ∀ c ∈ h, IsHexDigit c) :
    numeralValue h < 16 ^ h.length := by
  induction h with
  | nil => exact Nat.one_pos
  | cons c h ih =>
    rw [List.forall_mem_cons] at hh
    have hc : digitValue c + 1 ≤ 16 := codeValue_lt hh.1
    rw [numeralValue_cons, List.length_cons, Nat.pow_succ]
    calc digitValue c * 16 ^ h.length + numeralValue h
        < digitValue c * 16 ^ h.length + 16 ^ h.length := Nat.add_lt_add_left (ih hh.2) _
      _ = (digitValue c + 1) * 16 ^ h.length := (Nat.succ_mul _ _).symm
      _ ≤ 16 * 16 ^ h.length := Nat.mul_le_mul_right _ hc
      _ = 16 ^ h.length * 16 := Nat.mul_comm _ _

theorem map_toLower_eq_iff {h l : List Char} (hl : ∀ d ∈ l, d ∈ Hex.hexCharsLower) :
    h.map Char.toLower = l ↔
      (∀ c ∈ h, IsHexDigit c) ∧ h.length = l.length ∧ numeralValue h = numeralValue l := by
  induction h generalizing l with
  | nil => cases l <;> simp [numeralValue]
  | cons c h ih =>
    cases l with
    | nil => simp
    | cons d l =>
      rw [List.forall_mem_cons] at hl
      have hlh : ∀ d ∈ l, IsHexDigit d := fun d hd => (Hex.lower_spec d (hl.2 d hd)).2.1
      simp only [List.map_cons, List.cons.injEq, Hex.toLower_eq_iff hl.1, ih hl.2,
        List.forall_mem_cons, List.length_cons, Nat.add_right_cancel_iff, numeralValue_cons]
      constructor
      · rintro ⟨⟨hc, hv⟩, hh, hlen, hN⟩
        exact ⟨⟨hc, hh⟩, hlen, by rw [hv, hlen, hN]⟩
      · rintro ⟨⟨hc, hh⟩, hlen, hN⟩
        rw [hlen] at hN
        obtain ⟨hv, hN⟩ := (mul_add_eq_mul_add_iff (hlen ▸ numeralValue_lt hh) (numeralValue_lt hlh)).1 hN
        exact ⟨⟨hc, hv⟩, hh, hlen, hN⟩

namespace AccountAddress

theorem canonical_lower (a : AccountAddress) : ∀ c ∈ a.toCanonicalString, c ∈ Hex.hexCharsLower :=
  Hex.encode_lower a.bytes

theorem shortStrLossless_lower (a : AccountAddress) :
    ∀ c ∈ a.shortStrLossless, c ∈ Hex.hexCharsLower := by
  rw [shortStrLossless_eq]
  split_ifs
  · decide
  · exact fun c hc => canonical_lower a c ((List.dropWhile_suffix _).subset hc)

theorem shortStrLossless_head (a : AccountAddress) :
    a.shortStrLossless = ['0'] ∨ ∃ d rest, a.shortStrLossless = d :: rest ∧ d ≠ '0' := by
  rw [shortStrLossless_eq]
  split_ifs with hd
  · exact .inl rfl
  · obtain ⟨d, rest, he⟩ := List.exists_cons_of_ne_nil hd
    refine .inr ⟨d, rest, he, fun h0 => ?_⟩
    have := List.head?_dropWhile_not (· == '0') a.toCanonicalString
    rw [he, h0] at this
    simp at this

theorem length_shortStrLossless_le_iff (a : AccountAddress) {m : Nat} (hm : 1 ≤ m) :
    a.shortStrLossless.length ≤ m ↔ a.toBigUint < 16 ^ m := by
  obtain ⟨-, -, sh, sv⟩ := shortStrLossless_numeral a
  rw [← sv]
  constructor
  · exact fun hl => lt_of_lt_of_le (numeralValue_lt sh) (Nat.pow_le_pow_right (by omega) hl)
  · intro hv
    by_contra hl
    rcases shortStrLossless_head a with he | ⟨d, rest, he, hd⟩
    · rw [he] at hl
      exact hl (by simpa using hm)
    · rw [he] at hl hv sh
      have hdv : digitValue d ≠ 0 :=
        fun h0 => hd ((Hex.lower_spec d (shortStrLossless_lower a d (he ▸ List.mem_cons_self d rest))).2.2.1 h0)
      rw [numeralValue_cons] at hv
      have hpow : 16 ^ m ≤ 16 ^ rest.length :=
        Nat.pow_le_pow_right (by omega) (by simp only [List.length_cons] at hl; omega)
      have hge : 16 ^ rest.length ≤ digitValue d * 16 ^ rest.length := Nat.le_mul_of_pos_left _ (by omega)
      omega

theorem length_shortStrLossless_of_special {a : AccountAddress} (hsp : a.isSpecial = true) :
    a.shortStrLossless.length = 1 :=
  (length_shortStrLossless_eq_one_iff a).2
    ((canonical_prefix_zero_iff a).2 ((toBigUint_lt_sixteen_iff a).2 ((isSpecial_iff a).1 hsp)))

theorem startsWith_zeroX_of_hex {h : List Char} (hh : ∀ c ∈ h, IsHexDigit c) :
    Str.startsWith h ['0', 'x'] = false :=
  Bool.eq_false_iff.2 fun hs => by
    obtain ⟨t, rfl⟩ := (Str.startsWith_zeroX h).1 hs
    exact not_hex_x (hh 'x' (by simp))

theorem len_zeroX_of_hex {h : List Char} (hh : ∀ c ∈ h, IsHexDigit c) :
    Str.len ('0' :: 'x' :: h) = h.length + 2 := by
  rw [len_zeroX, Str.len_of_ascii fun c hc => (hh c hc).ascii]

theorem parse_long_numeral {h : List Char} {a : AccountAddress} (hh : ∀ c ∈ h, IsHexDigit c)
    (hl : h.length = 64) (hv : numeralValue h = a.toBigUint) :
    fromStr h = some (.ok a) ∧ fromStr ('0' :: 'x' :: h) = some (.ok a) ∧
      fromStrStrict ('0' :: 'x' :: h) = some (.ok a) ∧
      fromStrStrict h = some (.error .leadingZeroXRequired) := by
  have hp := fromStr_of_numeral (by rintro rfl; simp at hl) hl.le hh hv
  refine ⟨hp.1, hp.2, fromStrStrict_eq_ok_iff_parse.2 ⟨startsWith_zeroX_cons h, hp.2, .inl ?_⟩,
    fromStrStrict_eq_error_iff.2 (.inl ⟨startsWith_zeroX_of_hex hh, rfl⟩)⟩
  rw [len_zeroX_of_hex hh, hl]

theorem decodeDigits_eq_iff_numeralValue {h : List Char} (hh : ∀ c ∈ h, IsHexDigit c)
    (hl : h.length = 64) (a : AccountAddress) :
    decodeDigits h = a.bytes.map UInt8.toNat ↔ numeralValue h = a.toBigUint := by
  constructor
  · intro hd
    rw [← fromBytesBe_decodeDigits hh (by omega), hd, List.map_map]
    simp [Function.comp_def, UInt8.ofNat_toNat', toBigUint]
  · intro hv
    have hbytes : (decodeDigits h).map UInt8.ofNat = a.bytes := by
      apply BigUint.fromBytesBe_inj
      · rw [List.length_map, length_decodeDigits, a.length_eq, length_def]; omega
      · rw [fromBytesBe_decodeDigits hh (by omega), hv]; rfl
    rw [← hbytes, map_toNat_map_ofNat (decodeDigits_lt hh)]

theorem fromStrStrict_eq_ok_iff_toLower (s : List Char) (a : AccountAddress) :
    fromStrStrict s = some (.ok a) ↔ ∃ h, s = '0' :: 'x' :: h ∧
      (h.map Char.toLower = a.toCanonicalString ∨
        a.isSpecial = true ∧ h.map Char.toLower = a.shortStrLossless) := by
  obtain ⟨-, -, -, cv⟩ := canonical_numeral a
  obtain ⟨-, -, -, sv⟩ := shortStrLossless_numeral a
  rw [fromStrStrict_eq_ok_iff_parse]
  constructor
  · rintro ⟨hs, hok, hlen⟩
    obtain ⟨h, rfl⟩ := (Str.startsWith_zeroX s).1 hs
    rw [fromStr_eq_ok_iff, withoutZeroX_zeroX] at hok
    obtain ⟨⟨-, -, hh⟩, hv⟩ := hok
    rw [len_zeroX_of_hex hh] at hlen
    refine ⟨h, rfl, ?_⟩
    rcases hlen with h66 | ⟨hsp, h3⟩
    · refine .inl ((map_toLower_eq_iff (canonical_lower a)).2 ⟨hh, ?_, by rw [cv, hv]⟩)
      rw [length_toCanonicalString]; omega
    · refine .inr ⟨hsp, (map_toLower_eq_iff (shortStrLossless_lower a)).2 ⟨hh, ?_, by rw [sv, hv]⟩⟩
      rw [length_shortStrLossless_of_special hsp]; omega
  · rintro ⟨h, rfl, hcan | ⟨hsp, hshort⟩⟩
    · obtain ⟨hh, hl, hv⟩ := (map_toLower_eq_iff (canonical_lower a)).1 hcan
      rw [length_toCanonicalString] at hl
      exact fromStrStrict_eq_ok_iff_parse.1 (parse_long_numeral hh hl (hv.trans cv)).2.2.1
    · obtain ⟨hh, hl, hv⟩ := (map_toLower_eq_iff (shortStrLossless_lower a)).1 hshort
      rw [length_shortStrLossless_of_special hsp] at hl
      refine ⟨startsWith_zeroX_cons h, (fromStr_of_numeral ?_ (by omega) hh (hv.trans sv)).2,
        .inr ⟨hsp, by rw [len_zeroX_of_hex hh, hl]⟩⟩
      rintro rfl
      simp at hl

theorem fromStrStrict_toHexLiteral (a : AccountAddress) :
    fromStrStrict a.toHexLiteral = if a.isSpecial = true ∨ 16 ^ 63 ≤ a.toBigUint then some (.ok a)
      else some (.error .longFormRequiredUnlessSpecial) := by
  obtain ⟨sne, sl, sh, sv⟩ := shortStrLossless_numeral a
  have hparse := (fromStr_of_numeral sne sl sh sv).2
  have hlen : Str.len a.toHexLiteral = a.shortStrLossless.length + 2 := len_zeroX_of_hex sh
  have h63 := length_shortStrLossless_le_iff a (m := 63) (by omega)
  split_ifs with h
  · refine fromStrStrict_eq_ok_iff_parse.2 ⟨startsWith_zeroX_cons _, hparse, ?_⟩
    rcases h with hsp | hbig
    · exact .inr ⟨hsp, by rw [hlen, length_shortStrLossless_of_special hsp]⟩
    · exact .inl (by rw [hlen]; omega)
  · rw [not_or, Bool.not_eq_true, not_le] at h
    exact fromStrStrict_eq_error_iff.2 (.inr ⟨startsWith_zeroX_cons _,
      .inr ⟨a, hparse, by rw [hlen]; omega, .inl ⟨h.1, rfl⟩⟩⟩)

theorem flatMap_fmt02X (bs : List UInt8) :
    bs.flatMap fmt02X = (Hex.encode bs).map Char.toUpper := by
  rw [← flatMap_fmt02x, List.map_flatMap]
  rfl

theorem upper_canonical_numeral (a : AccountAddress) :
    (∀ c ∈ a.toCanonicalString.map Char.toUpper, IsHexDigit c) ∧
      (a.toCanonicalString.map Char.toUpper).length = 64 ∧
      numeralValue (a.toCanonicalString.map Char.toUpper) = a.toBigUint := by
  have hfold : (a.toCanonicalString.map Char.toUpper).map Char.toLower = a.toCanonicalString := by
    rw [List.map_map]
    exact List.map_congr_left (fun d hd => (Hex.lower_spec d (canonical_lower a d hd)).2.2.2) |>.trans
      (List.map_id _)
  obtain ⟨hh, hl, hv⟩ := (map_toLower_eq_iff (canonical_lower a)).1 hfold
  exact ⟨hh, hl.trans (length_toCanonicalString a), hv.trans (canonical_numeral a).2.2.2⟩

theorem hexFormats_parse (a : AccountAddress) (alternate : Bool) :
    fromStr (a.upperHex alternate) = some (.ok a) ∧
    fromStrStrict (a.upperHex true) = some (.ok a) ∧
    fromStrStrict (a.lowerHex true) = some (.ok a) ∧
    fromStrStrict (a.upperHex false) = some (.error .leadingZeroXRequired) ∧
    fromStrStrict (a.lowerHex false) = some (.error .leadingZeroXRequired) := by
  obtain ⟨uh, ul, uv⟩ := upper_canonical_numeral a
  have hu := parse_long_numeral uh ul uv
  have hc := parse_long_numeral (Hex.encode_hex a.bytes) (length_toCanonicalString a)
    (canonical_numeral a).2.2.2
  simp only [upperHex, lowerHex, flatMap_fmt02X, flatMap_fmt02x]
  refine ⟨?_, hu.2.2.1, hc.2.2.1, hu.2.2.2, hc.2.2.2⟩
  cases alternate
  exacts [hu.1, hu.2.1]

theorem fromStr_eq_ok_iff_padded_short (s : List Char) (a : AccountAddress) :
    fromStr s = some (.ok a) ↔ ∃ k, k + a.shortStrLossless.length ≤ 64 ∧
      (withoutZeroX s).map Char.toLower = List.replicate k '0' ++ a.shortStrLossless := by
  obtain ⟨sne, -, -, sv⟩ := shortStrLossless_numeral a
  have hlow : ∀ k, ∀ d ∈ List.replicate k '0' ++ a.shortStrLossless, d ∈ Hex.hexCharsLower :=
    fun k d hd => (List.mem_append.1 hd).elim (fun h => List.eq_of_mem_replicate h ▸ by decide)
      (shortStrLossless_lower a d)
  have hval : ∀ k, numeralValue (List.replicate k '0' ++ a.shortStrLossless) = a.toBigUint :=
    fun k => (numeralValue_zeros_append (fun c hc => List.eq_of_mem_replicate hc) _).trans sv
  rw [fromStr_eq_ok_iff]
  constructor
  · rintro ⟨⟨hne, hl, hh⟩, hv⟩
    have hm : 1 ≤ (withoutZeroX s).length := List.length_pos.2 hne
    have hsl := (length_shortStrLossless_le_iff a hm).2 (hv ▸ numeralValue_lt hh)
    refine ⟨(withoutZeroX s).length - a.shortStrLossless.length, by omega,
      (map_toLower_eq_iff (hlow _)).2 ⟨hh, ?_, by rw [hval, hv]⟩⟩
    simp only [List.length_append, List.length_replicate]
    omega
  · rintro ⟨k, hk, hmap⟩
    obtain ⟨hh, hl, hv⟩ := (map_toLower_eq_iff (hlow k)).1 hmap
    simp only [List.length_append, List.length_replicate] at hl
    refine ⟨⟨fun e => ?_, by omega, hh⟩, by rw [hv, hval]⟩
    rw [e, List.length_nil] at hl
    exact sne (List.length_eq_zero.1 (by omega))

theorem fromHexLiteral_agrees_with_fromStr :
    (∀ s, (fromHexLiteral s).isSome) ∧
    (∀ s, Str.startsWith s ['0', 'x'] = false → fromHexLiteral s = some (.error .leadingZeroXRequired)) ∧
    fromHexLiteral ['0', 'x'] = some (.ok zero) ∧ fromStr ['0', 'x'] = some (.error .tooShort) ∧
    (∀ h, h ≠ [] → fromHexLiteral ('0' :: 'x' :: h) = fromStr ('0' :: 'x' :: h)) ∧
    ∀ a : AccountAddress, fromHexLiteral a.toHexLiteral = some (.ok a) := by
  have agree : ∀ h, h ≠ [] → fromHexLiteral ('0' :: 'x' :: h) = fromStr ('0' :: 'x' :: h) :=
    fun h hh => by rw [fromHexLiteral_zeroX, fromStr_eq, withoutZeroX_zeroX, if_neg hh]
  have nonZeroX : ∀ s, Str.startsWith s ['0', 'x'] = false →
      fromHexLiteral s = some (.error .leadingZeroXRequired) :=
    fun s hs => by simp [fromHexLiteral, hs]
  refine ⟨fun s => ?_, nonZeroX, ?_, by decide, agree, fun a => ?_⟩
  · cases hs : Str.startsWith s ['0', 'x']
    · rw [nonZeroX s hs]; rfl
    · obtain ⟨h, rfl⟩ := (Str.startsWith_zeroX s).1 hs
      rw [fromHexLiteral_zeroX]; rfl
  · obtain ⟨z, hz, hv⟩ := fromHex_padded_of_hex (h := []) (by simp) (by simp)
    have hzero : zero.toBigUint = 0 := BigUint.fromBytesBe_eq_zero.2 fun _ hb => List.eq_of_mem_replicate hb
    rw [fromHexLiteral_zeroX, hz, toBigUint_inj (hv.trans hzero.symm)]
  · obtain ⟨sne, sl, sh, sv⟩ := shortStrLossless_numeral a
    exact (agree _ sne).trans (fromStr_of_numeral sne sl sh sv).2

end AccountAddress

end IcAptos

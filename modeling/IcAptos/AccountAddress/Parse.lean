import IcAptos.AccountAddress.Special
import Mathlib.Data.Nat.Digits

namespace IcAptos

theorem numeralValue_foldl (h : List Char) (acc : Nat) :
    h.foldl (fun n c => 16 * n + digitValue c) acc = acc * 16 ^ h.length + numeralValue h := by
  induction h generalizing acc with
  | nil => simp [numeralValue]
  | cons c h ih =>
    simp only [numeralValue, List.foldl_cons, List.length_cons, ih (16 * acc + digitValue c),
      ih (16 * 0 + digitValue c)]
    ring

theorem numeralValue_append (h k : List Char) :
    numeralValue (h ++ k) = numeralValue h * 16 ^ k.length + numeralValue k := by
  rw [numeralValue, List.foldl_append, numeralValue_foldl]; rfl

theorem numeralValue_zeros_append {z : List Char} (hz : ∀ c ∈ z, c = '0') (h : List Char) :
    numeralValue (z ++ h) = numeralValue h := by
  have : numeralValue z = 0 := by
    induction z with
    | nil => rfl
    | cons c z ih =>
      rw [List.forall_mem_cons] at hz
      rw [← List.singleton_append, numeralValue_append, ih hz.2, hz.1]
      simp [numeralValue, digitValue, codeValue]
  simp [numeralValue_append, this]

theorem foldl_decodeDigits {p : List Char} (hp : ∀ c ∈ p, IsHexDigit c) (he : p.length % 2 = 0)
    (acc : Nat) : ((decodeDigits p).map UInt8.ofNat).foldl (fun n b => 256 * n + b.toNat) acc =
      p.foldl (fun n c => 16 * n + digitValue c) acc := by
  induction p using decodeDigits.induct generalizing acc with
  | case1 c d rest ih =>
    simp only [List.forall_mem_cons] at hp
    have vc : digitValue c < 16 := codeValue_lt hp.1
    have vd : digitValue d < 16 := codeValue_lt hp.2.1
    simp only [decodeDigits, List.map_cons, List.foldl_cons, List.length_cons] at he ⊢
    rw [UInt8.toNat_ofNat_of_lt (by show _ < 256; omega), ih hp.2.2 (by omega)]
    congr 1
    ring
  | case2 t ht =>
    match t, ht with
    | [], _ => rfl
    | [_], _ => simp at he
    | _ :: _ :: _, ht => exact (ht _ _ _ rfl).elim

theorem fromBytesBe_decodeDigits {p : List Char} (hp : ∀ c ∈ p, IsHexDigit c)
    (he : p.length % 2 = 0) :
    BigUint.fromBytesBe ((decodeDigits p).map UInt8.ofNat) = numeralValue p :=
  foldl_decodeDigits hp he 0

theorem length_decodeDigits (p : List Char) : (decodeDigits p).length = p.length / 2 := by
  induction p using decodeDigits.induct with
  | case1 c d rest ih => simp only [decodeDigits, List.length_cons, ih]; omega
  | case2 t ht =>
    match t, ht with
    | [], _ | [_], _ => simp [decodeDigits]
    | _ :: _ :: _, ht => exact (ht _ _ _ rfl).elim

theorem decodeDigits_lt {p : List Char} (hp : ∀ c ∈ p, IsHexDigit c) : ∀ x ∈ decodeDigits p, x < 256 := by
  induction p using decodeDigits.induct with
  | case1 c d rest ih =>
    simp only [List.forall_mem_cons] at hp
    have vc : digitValue c < 16 := codeValue_lt hp.1
    have vd : digitValue d < 16 := codeValue_lt hp.2.1
    simp only [decodeDigits, List.forall_mem_cons]
    exact ⟨by omega, ih hp.2.2⟩
  | case2 t ht =>
    match t, ht with
    | [], _ | [_], _ => simp [decodeDigits]
    | _ :: _ :: _, ht => exact (ht _ _ _ rfl).elim

theorem numeralValue_encode (bs : List UInt8) : numeralValue (Hex.encode bs) = BigUint.fromBytesBe bs := by
  rw [← fromBytesBe_decodeDigits (Hex.encode_hex bs) (by rw [Hex.length_encode]; omega),
    Hex.decodeDigits_encode, List.map_map]
  simp [Function.comp_def, UInt8.ofNat_toNat']

theorem Nat.digitChar_eq_getD : ∀ n : Fin 16, Nat.digitChar n = Hex.hexCharsLower.getD n '0' := by
  decide

theorem fmt02x_eq (b : UInt8) :
    fmt02x b = [Hex.hexCharsLower.getD (b.toNat / 16) '0', Hex.hexCharsLower.getD (b.toNat % 16) '0'] := by
  have hb : b.toNat < 256 := b.toNat_lt_size
  unfold fmt02x Nat.toDigits
  generalize b.toNat = n at *
  rcases n with _ | k
  · rfl
  have hlo : (k + 1) % 16 < 16 := Nat.mod_lt _ (by omega)
  by_cases h : (k + 1) / 16 = 0
  · simp [Nat.toDigitsCore, h, Nat.digitChar_eq_getD ⟨_, hlo⟩]; rfl
  · have h' : (k + 1) / 16 / 16 = 0 := by omega
    simp [Nat.toDigitsCore, h, h', Nat.digitChar_eq_getD ⟨_, hlo⟩,
      Nat.digitChar_eq_getD ⟨(k + 1) / 16, by omega⟩, Nat.mod_eq_of_lt (show (k + 1) / 16 < 16 by omega)]

theorem Str.len_eq_zero {t : List Char} : Str.len t = 0 ↔ t = [] := by
  cases t with
  | nil => simp
  | cons c t => simp [c.utf8Size_pos.ne']

theorem not_hex_x : ¬IsHexDigit 'x' := by decide

namespace AccountAddress

instance nonempty : Nonempty AccountAddress := ⟨zero⟩

def withoutZeroX (s : List Char) : List Char := if Str.startsWith s ['0', 'x'] then s.drop 2 else s

def padded (h : List Char) : List Char :=
  if Str.len h < length * 2 then List.replicate (length * 2 - Str.len h) '0' ++ h else h

theorem fromHex_eq_ok {data : List UInt8} {a : AccountAddress} :
    fromHex data = .ok a ↔ Hex.decodeToSlice data length = .ok a.bytes := by
  unfold fromHex
  split <;> rename_i r h
  · simp only [h, Except.ok.injEq]
    exact ⟨fun e => e ▸ rfl, fun e => ext e⟩
  · simp [h]

theorem fromHex_eq_error {data : List UInt8} {e : AccountAddressParseError}
    (h : fromHex data = .error e) : ∃ e', e = .invalidHexChars e' := by
  unfold fromHex at h
  split at h
  · simp at h
  · exact ⟨_, (Except.error.inj h).symm⟩

@[simp] theorem startsWith_zeroX_cons (h : List Char) : Str.startsWith ('0' :: 'x' :: h) ['0', 'x'] = true :=
  (Str.startsWith_zeroX _).2 ⟨h, rfl⟩

theorem len_zeroX (h : List Char) : Str.len ('0' :: 'x' :: h) = Str.len h + 2 := by
  simp only [Str.len_cons, show '0'.utf8Size = 1 from rfl, show 'x'.utf8Size = 1 from rfl]; omega

theorem fromHexLiteral_zeroX (h : List Char) :
    fromHexLiteral ('0' :: 'x' :: h) = some (fromHex (Str.asBytes (padded h))) := by
  simp only [fromHexLiteral, startsWith_zeroX_cons, Bool.not_true, Bool.false_eq_true, if_false,
    usizeSub, len_zeroX, Nat.le_add_left, if_true, Nat.add_sub_cancel, Str.sliceFrom_zeroX,
    Option.pure_def, Option.bind_eq_bind, Option.some_bind, padded]
  split_ifs with hlt hle
  · rfl
  · exact absurd hlt.le hle
  · rfl

theorem withoutZeroX_zeroX (h : List Char) : withoutZeroX ('0' :: 'x' :: h) = h := by
  simp [withoutZeroX]

theorem fromStr_eq (s : List Char) :
    fromStr s = if withoutZeroX s = [] then some (.error .tooShort)
      else some (fromHex (Str.asBytes (padded (withoutZeroX s)))) := by
  by_cases hs : ∃ t, s = '0' :: 'x' :: t
  · obtain ⟨t, rfl⟩ := hs
    simp only [fromStr, startsWith_zeroX_cons, Bool.not_true, len_zeroX, withoutZeroX_zeroX,
      fromHexLiteral_zeroX, beq_iff_eq, Nat.add_left_eq_self, Str.len_eq_zero]
    rfl
  · have hw : Str.startsWith s ['0', 'x'] = false :=
      Bool.eq_false_iff.2 fun h => hs ((Str.startsWith_zeroX s).1 h)
    simp only [fromStr, hw, withoutZeroX, Bool.not_false, if_true, List.cons_append,
      List.nil_append, fromHexLiteral_zeroX, List.isEmpty_iff]
    rfl

theorem padded_of_len_le {h : List Char} (hl : Str.len h ≤ length * 2) :
    padded h = List.replicate (length * 2 - Str.len h) '0' ++ h := by
  unfold padded
  split_ifs
  · rfl
  · rw [show length * 2 - Str.len h = 0 by omega]; rfl

theorem mem_padded {h : List Char} {c : Char} (hc : c ∈ h) : c ∈ padded h := by
  unfold padded; split_ifs <;> simp [hc]

theorem zeros_hex (k : Nat) (h : List Char) (hh : ∀ c ∈ h, IsHexDigit c) :
    ∀ c ∈ List.replicate k '0' ++ h, IsHexDigit c := by
  intro c hc
  rcases List.mem_append.1 hc with hc | hc
  · rw [List.eq_of_mem_replicate hc]; decide
  · exact hh c hc

theorem fromHex_padded_of_hex {h : List Char} (hh : ∀ c ∈ h, IsHexDigit c) (hl : h.length ≤ 64) :
    ∃ a, fromHex (Str.asBytes (padded h)) = .ok a ∧ a.toBigUint = numeralValue h := by
  have hlen : Str.len h = h.length := Str.len_of_ascii fun c hc => (hh c hc).ascii
  have hpad := padded_of_len_le (h := h) (by rw [hlen]; exact hl)
  rw [hlen] at hpad
  have hph : ∀ c ∈ padded h, IsHexDigit c := hpad ▸ zeros_hex _ h hh
  have hpl : (padded h).length = 64 := by rw [hpad]; simp [length]; omega
  refine ⟨⟨(decodeDigits (padded h)).map UInt8.ofNat, by simp [length_decodeDigits, hpl]; rfl⟩, ?_, ?_⟩
  · rw [fromHex_eq_ok, Hex.decodeToSlice_eq_ok]
    refine ⟨?_, Hex.decodePairs_digits hph 0⟩
    show Str.len (padded h) = _
    rw [Str.len_of_ascii fun c hc => (hph c hc).ascii, hpl]; rfl
  · show BigUint.fromBytesBe _ = _
    rw [fromBytesBe_decodeDigits hph (by omega), hpad,
      numeralValue_zeros_append fun c hc => List.eq_of_mem_replicate hc]

theorem fromHex_padded_eq_ok {h : List Char} {a : AccountAddress}
    (hok : fromHex (Str.asBytes (padded h)) = .ok a) :
    (h.length ≤ 64 ∧ ∀ c ∈ h, IsHexDigit c) ∧ a.toBigUint = numeralValue h := by
  rw [fromHex_eq_ok, Hex.decodeToSlice_eq_ok] at hok
  obtain ⟨hlen, hdec⟩ := hok
  have hlen' : Str.len (padded h) = 64 := hlen
  have hph := Hex.decodePairs_hex (by rw [hlen']) hdec
  have hh : ∀ c ∈ h, IsHexDigit c := fun c hc => hph c (mem_padded hc)
  have hasc : Str.len h = h.length := Str.len_of_ascii fun c hc => (hh c hc).ascii
  have hle : Str.len h ≤ 64 := by
    unfold padded at hlen'
    split_ifs at hlen' with hlt
    · exact Nat.le_of_lt hlt
    · exact hlen'.le
  have hpad := padded_of_len_le (h := h) hle
  have hpl : (padded h).length = 64 := by
    rw [← Str.len_of_ascii fun c hc => (hph c hc).ascii, hlen']
  rw [Hex.decodePairs_digits hph] at hdec
  refine ⟨⟨hasc ▸ hle, hh⟩, ?_⟩
  rw [toBigUint, ← Except.ok.inj hdec, fromBytesBe_decodeDigits hph (by omega), hpad,
    numeralValue_zeros_append fun c hc => List.eq_of_mem_replicate hc]

theorem fromStr_eq_ok_iff {s : List Char} {a : AccountAddress} :
    fromStr s = some (.ok a) ↔ (withoutZeroX s ≠ [] ∧ (withoutZeroX s).length ≤ 64 ∧
      ∀ c ∈ withoutZeroX s, IsHexDigit c) ∧ a.toBigUint = numeralValue (withoutZeroX s) := by
  rw [fromStr_eq]
  split_ifs with hw
  · simp [hw]
  · simp only [Option.some.injEq, hw, ne_eq, not_false_eq_true, true_and]
    refine ⟨fromHex_padded_eq_ok, fun ⟨⟨hl, hh⟩, hv⟩ => ?_⟩
    obtain ⟨a', ha', hv'⟩ := fromHex_padded_of_hex hh hl
    rw [toBigUint_inj (hv'.trans hv.symm)] at ha'
    exact ha'

theorem fromStr_isSome (s : List Char) : (fromStr s).isSome := by
  rw [fromStr_eq]; split_ifs <;> rfl

theorem fromStr_eq_error {s : List Char} {e : AccountAddressParseError}
    (h : fromStr s = some (.error e)) : e = .tooShort ∨ ∃ e', e = .invalidHexChars e' := by
  rw [fromStr_eq] at h
  split_ifs at h
  · exact .inl (Except.error.inj (Option.some.inj h)).symm
  · exact .inr (fromHex_eq_error (Option.some.inj h))

theorem fromStr_relaxed_grammar (s : List Char) :
    (fromStr s).isSome ∧
    (fromStr s = some (.error .tooShort) ↔ withoutZeroX s = []) ∧
    (∀ a, fromStr s = some (.ok a) ↔ (1 ≤ (withoutZeroX s).length ∧ (withoutZeroX s).length ≤ 64 ∧
      ∀ c ∈ withoutZeroX s, IsHexDigit c) ∧ a.toBigUint = numeralValue (withoutZeroX s)) ∧
    ((∃ e, fromStr s = some (.error (.invalidHexChars e))) ↔ withoutZeroX s ≠ [] ∧
      ¬((withoutZeroX s).length ≤ 64 ∧ ∀ c ∈ withoutZeroX s, IsHexDigit c)) := by
  refine ⟨fromStr_isSome s, ?_, fun a => ?_, ?_⟩
  · rw [fromStr_eq]
    split_ifs with hw
    · simp [hw]
    · simp only [Option.some.injEq, hw, iff_false]
      intro he
      obtain ⟨e', he'⟩ := fromHex_eq_error he
      cases he'
  · simp only [fromStr_eq_ok_iff, Nat.one_le_iff_ne_zero, ne_eq, List.length_eq_zero]
  · rw [fromStr_eq]
    split_ifs with hw
    · simp [hw]
    · simp only [Option.some.injEq, hw, ne_eq, not_false_eq_true, true_and]
      constructor
      · rintro ⟨e, he⟩ ⟨hl, hh⟩
        obtain ⟨a, ha, -⟩ := fromHex_padded_of_hex hh hl
        rw [ha] at he
        cases he
      · intro hv
        cases hr : fromHex (Str.asBytes (padded (withoutZeroX s))) with
        | ok a => exact (hv (fromHex_padded_eq_ok hr).1).elim
        | error e =>
          obtain ⟨e', rfl⟩ := fromHex_eq_error hr
          exact ⟨e', rfl⟩

theorem length_def : length = 32 := rfl

theorem fromStrStrict_eq_ok_iff_parse {s : List Char} {a : AccountAddress} :
    fromStrStrict s = some (.ok a) ↔ Str.startsWith s ['0', 'x'] = true ∧ fromStr s = some (.ok a) ∧
      (Str.len s = 66 ∨ a.isSpecial = true ∧ Str.len s = 3) := by
  unfold fromStrStrict
  by_cases hs : Str.startsWith s ['0', 'x'] = true
  · obtain ⟨r, hr⟩ := Option.isSome_iff_exists.1 (fromStr_isSome s)
    simp only [hs, hr, Bool.not_true, Bool.false_eq_true, if_false, Option.map_some', Option.some.injEq,
      true_and, length_def]
    cases r with
    | error e => simp
    | ok b =>
      simp only [Except.bind_ok', Except.ok.injEq]
      by_cases h66 : Str.len s = 66 <;> by_cases hsp : b.isSpecial = true <;>
        by_cases h3 : Str.len s = 3 <;> simp [h66, hsp, h3] <;>
        (rintro rfl; simpa using hsp)
  · simp [hs]


theorem fromStrStrict_eq_error_iff {s : List Char} {e : AccountAddressParseError} :
    fromStrStrict s = some (.error e) ↔
      (Str.startsWith s ['0', 'x'] = false ∧ e = .leadingZeroXRequired) ∨
      (Str.startsWith s ['0', 'x'] = true ∧ (fromStr s = some (.error e) ∨
        ∃ a, fromStr s = some (.ok a) ∧ Str.len s ≠ 66 ∧
          (a.isSpecial = false ∧ e = .longFormRequiredUnlessSpecial ∨
           a.isSpecial = true ∧ Str.len s ≠ 3 ∧ e = .invalidPaddingZeroes))) := by
  unfold fromStrStrict
  by_cases hs : Str.startsWith s ['0', 'x'] = true
  · obtain ⟨r, hr⟩ := Option.isSome_iff_exists.1 (fromStr_isSome s)
    simp only [hs, hr, Bool.not_true, Bool.false_eq_true, if_false, Option.map_some', Option.some.injEq,
      true_and, length_def, false_and, false_or]
    cases r with
    | error e' =>
      simp only [Except.bind_error', Except.error.injEq, reduceCtorEq, exists_false, or_false,
        false_and, false_or]
    | ok b =>
      simp only [Except.bind_ok', Except.ok.injEq, reduceCtorEq, false_or, exists_eq_left']
      by_cases h66 : Str.len s = 66 <;> by_cases hsp : b.isSpecial = true <;>
        by_cases h3 : Str.len s = 3 <;> simp [h66, hsp, h3, @eq_comm _ e]
  · simp only [Bool.not_eq_true] at hs
    simp only [hs, Bool.not_false, if_true, Option.some.injEq, Except.error.injEq, @eq_comm _ e,
      true_and, Bool.false_eq_true, false_and, or_false]

theorem numeralValue_singleton (c : Char) : numeralValue [c] = digitValue c := by
  simp [numeralValue]

theorem map_toNat_map_ofNat {D : List Nat} (h : ∀ x ∈ D, x < 256) :
    (D.map UInt8.ofNat).map UInt8.toNat = D := by
  induction D with
  | nil => rfl
  | cons x D ih =>
    rw [List.forall_mem_cons] at h
    simp only [List.map_cons, UInt8.toNat_ofNat_of_lt h.1, ih h.2]

theorem toBigUint_of_init_zero (a : AccountAddress) (h : ∀ b ∈ a.bytes.take 31, b = 0) :
    a.toBigUint = (a.bytes.getD 31 0).toNat := by
  rw [toBigUint_eq_init_last, BigUint.fromBytesBe_eq_zero.2 h]; simp

theorem fromStrStrict_eq_ok_iff {s : List Char} {a : AccountAddress} :
    fromStrStrict s = some (.ok a) ↔
      (∃ h, s = '0' :: 'x' :: h ∧ h.length = 64 ∧ (∀ c ∈ h, IsHexDigit c) ∧
        decodeDigits h = a.bytes.map UInt8.toNat) ∨
      (∃ c, s = ['0', 'x', c] ∧ IsHexDigit c ∧ digitValue c = (a.bytes.getD 31 0).toNat ∧
        ∀ b ∈ a.bytes.take 31, b = 0) := by
  rw [fromStrStrict_eq_ok_iff_parse]
  constructor
  · rintro ⟨hs, hok, hlen⟩
    obtain ⟨h, rfl⟩ := (Str.startsWith_zeroX s).1 hs
    rw [fromStr_eq_ok_iff, withoutZeroX_zeroX] at hok
    obtain ⟨⟨hne, hl, hh⟩, hv⟩ := hok
    rw [len_zeroX, Str.len_of_ascii fun c hc => (hh c hc).ascii] at hlen
    rcases hlen with h66 | ⟨hsp, h3⟩
    · have hbytes : (decodeDigits h).map UInt8.ofNat = a.bytes := by
        apply BigUint.fromBytesBe_inj
        · rw [List.length_map, length_decodeDigits, a.length_eq, length_def]; omega
        · rw [fromBytesBe_decodeDigits hh (by omega), ← hv]; rfl
      exact .inl ⟨h, rfl, by omega, hh, by rw [← hbytes, map_toNat_map_ofNat (decodeDigits_lt hh)]⟩
    · obtain ⟨c, rfl⟩ : ∃ c, h = [c] := List.length_eq_one.1 (by omega)
      have hinit := ((isSpecial_iff a).1 hsp).1
      refine .inr ⟨c, rfl, hh c (List.mem_singleton_self c), ?_, hinit⟩
      rw [← numeralValue_singleton, ← hv, toBigUint_of_init_zero a hinit]
  · rintro (⟨h, rfl, hl, hh, hd⟩ | ⟨c, rfl, hc, hv, hinit⟩)
    · refine ⟨startsWith_zeroX_cons h, ?_, .inl ?_⟩
      · rw [fromStr_eq_ok_iff, withoutZeroX_zeroX]
        refine ⟨⟨fun e => by simp [e] at hl, hl.le, hh⟩, ?_⟩
        rw [← fromBytesBe_decodeDigits hh (by omega), hd, List.map_map]
        simp [Function.comp_def, UInt8.ofNat_toNat', toBigUint]
      · rw [len_zeroX, Str.len_of_ascii fun c hc => (hh c hc).ascii, hl]
    · refine ⟨startsWith_zeroX_cons [c], ?_, .inr ⟨?_, ?_⟩⟩
      · rw [fromStr_eq_ok_iff, withoutZeroX_zeroX]
        refine ⟨⟨by simp, by simp, by simpa using hc⟩, ?_⟩
        rw [numeralValue_singleton, hv, toBigUint_of_init_zero a hinit]
      · exact (isSpecial_iff a).2 ⟨hinit, hv ▸ codeValue_lt hc⟩
      · rw [len_zeroX, Str.len_cons, utf8Size_of_ascii hc.ascii]; rfl

theorem fromStr_ne_strict_error {s : List Char} :
    fromStr s ≠ some (.error .leadingZeroXRequired) ∧
    fromStr s ≠ some (.error .longFormRequiredUnlessSpecial) ∧
    fromStr s ≠ some (.error .invalidPaddingZeroes) := by
  refine ⟨fun h => ?_, fun h => ?_, fun h => ?_⟩ <;>
    rcases fromStr_eq_error h with h | ⟨_, h⟩ <;> cases h

theorem fromStrStrict_aip40_grammar (s : List Char) :
    (fromStrStrict s).isSome ∧
    (∀ a, fromStrStrict s = some (.ok a) ↔
      (∃ h, s = '0' :: 'x' :: h ∧ h.length = 64 ∧ (∀ c ∈ h, IsHexDigit c) ∧
        decodeDigits h = a.bytes.map UInt8.toNat) ∨
      (∃ c, s = ['0', 'x', c] ∧ IsHexDigit c ∧ digitValue c = (a.bytes.getD 31 0).toNat ∧
        ∀ b ∈ a.bytes.take 31, b = 0)) ∧
    (fromStrStrict s = some (.error .leadingZeroXRequired) ↔ Str.startsWith s ['0', 'x'] = false) ∧
    (∀ e, Str.startsWith s ['0', 'x'] = true → fromStr s = some (.error e) →
      fromStrStrict s = some (.error e)) ∧
    (fromStrStrict s = some (.error .longFormRequiredUnlessSpecial) ↔
      Str.startsWith s ['0', 'x'] = true ∧
        ∃ a, fromStr s = some (.ok a) ∧ a.isSpecial = false ∧ Str.len s ≠ 66) ∧
    (fromStrStrict s = some (.error .invalidPaddingZeroes) ↔
      Str.startsWith s ['0', 'x'] = true ∧
        ∃ a, fromStr s = some (.ok a) ∧ a.isSpecial = true ∧ Str.len s ≠ 66 ∧ Str.len s ≠ 3) := by
  obtain ⟨n₁, n₂, n₃⟩ := fromStr_ne_strict_error (s := s)
  refine ⟨?_, fun a => fromStrStrict_eq_ok_iff, ?_, fun e hs he => ?_, ?_, ?_⟩
  · unfold fromStrStrict
    cases Str.startsWith s ['0', 'x'] <;> simp [fromStr_isSome]
  · rw [fromStrStrict_eq_error_iff]
    cases Str.startsWith s ['0', 'x'] <;> simp [n₁]
  · exact fromStrStrict_eq_error_iff.2 (.inr ⟨hs, .inl he⟩)
  · rw [fromStrStrict_eq_error_iff]
    cases Str.startsWith s ['0', 'x'] <;> simp [n₂]
    exact ⟨fun ⟨a, h, h66, hsp⟩ => ⟨a, h, hsp, h66⟩, fun ⟨a, h, hsp, h66⟩ => ⟨a, h, h66, hsp⟩⟩
  · rw [fromStrStrict_eq_error_iff]
    cases Str.startsWith s ['0', 'x'] <;> simp [n₃]
    exact ⟨fun ⟨a, h, h66, hsp, h3⟩ => ⟨a, h, hsp, h66, h3⟩, fun ⟨a, h, hsp, h66, h3⟩ => ⟨a, h, h66, hsp, h3⟩⟩

end AccountAddress

end IcAptos

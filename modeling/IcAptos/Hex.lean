import IcAptos.Str

namespace IcAptos

inductive FromHexError where
  | invalidHexCharacter (c : Char) (index : Nat)
  | oddLength
  | invalidStringLength
  deriving DecidableEq, Repr

def Hex.hexCharsLower : List Char :=
  ['0', '1', '2', '3', '4', '5', '6', '7', '8', '9', 'a', 'b', 'c', 'd', 'e', 'f']

def Hex.encode (data : List UInt8) : List Char :=
  data.flatMap fun b => [Hex.hexCharsLower.getD (b.toNat / 16) '0', Hex.hexCharsLower.getD (b.toNat % 16) '0']

def Hex.val (c : UInt8) (idx : Nat) : Except FromHexError UInt8 :=
  if 65 ≤ c.toNat ∧ c.toNat ≤ 70 then .ok (c - 65 + 10)
  else if 97 ≤ c.toNat ∧ c.toNat ≤ 102 then .ok (c - 97 + 10)
  else if 48 ≤ c.toNat ∧ c.toNat ≤ 57 then .ok (c - 48)
  else .error (.invalidHexCharacter (Char.ofNat c.toNat) idx)

def Hex.decodePairs : Nat → List UInt8 → Except FromHexError (List UInt8)
  | i, hi :: lo :: rest => do
    let h ← Hex.val hi i
    let l ← Hex.val lo (i + 1)
    let out ← Hex.decodePairs (i + 2) rest
    return (h <<< 4 ||| l) :: out
  | _, _ => .ok []

def Hex.decodeToSlice (data : List UInt8) (outLen : Nat) : Except FromHexError (List UInt8) :=
  if data.length % 2 ≠ 0 then .error .oddLength
  else if data.length / 2 ≠ outLen then .error .invalidStringLength
  else Hex.decodePairs 0 data

def Hex.decode (data : List UInt8) : Except FromHexError (List UInt8) :=
  if data.length % 2 ≠ 0 then .error .oddLength else Hex.decodePairs 0 data

def HexCode (n : Nat) : Prop := (48 ≤ n ∧ n ≤ 57) ∨ (65 ≤ n ∧ n ≤ 70) ∨ (97 ≤ n ∧ n ≤ 102)

instance : DecidablePred HexCode := fun _ => inferInstanceAs (Decidable (_ ∨ _))

def codeValue (n : Nat) : Nat := if n ≤ 57 then n - 48 else if n ≤ 70 then n - 55 else n - 87

def IsHexDigit (c : Char) : Prop := HexCode c.toNat

instance : DecidablePred IsHexDigit := fun c => inferInstanceAs (Decidable (HexCode c.toNat))

def digitValue (c : Char) : Nat := codeValue c.toNat

def numeralValue (h : List Char) : Nat := h.foldl (fun n c => 16 * n + digitValue c) 0

def decodeDigits : List Char → List Nat
  | c :: d :: rest => (16 * digitValue c + digitValue d) :: decodeDigits rest
  | _ => []

theorem Hex.val_eq (b : UInt8) (i : Nat) :
    Hex.val b i = if HexCode b.toNat then .ok (UInt8.ofNat (codeValue b.toNat))
      else .error (.invalidHexCharacter (Char.ofNat b.toNat) i) := by
  have add (a k : UInt8) : (a + k).toNat = (a.toNat + k.toNat) % 256 := BitVec.toNat_add ..
  have sub (k : UInt8) (hk : k.toNat ≤ b.toNat) : (b - k).toNat = b.toNat - k.toNat :=
    UInt8.toNat_sub_of_le _ _ hk
  have ofNat (n : Nat) (h : n < 256) : (UInt8.ofNat n).toNat = n := UInt8.toNat_ofNat_of_lt h
  unfold Hex.val
  by_cases h₁ : 65 ≤ b.toNat ∧ b.toNat ≤ 70
  · rw [if_pos h₁, if_pos (.inr (.inl h₁)), codeValue, if_neg (by omega), if_pos h₁.2]
    refine congrArg Except.ok (UInt8.toNat.inj ?_)
    rw [add, sub 65 h₁.1, ofNat _ (by omega)]
    show (b.toNat - 65 + 10) % 256 = _; omega
  by_cases h₂ : 97 ≤ b.toNat ∧ b.toNat ≤ 102
  · rw [if_neg h₁, if_pos h₂, if_pos (.inr (.inr h₂)), codeValue, if_neg (by omega), if_neg (by omega)]
    refine congrArg Except.ok (UInt8.toNat.inj ?_)
    rw [add, sub 97 h₂.1, ofNat _ (by omega)]
    show (b.toNat - 97 + 10) % 256 = _; omega
  by_cases h₃ : 48 ≤ b.toNat ∧ b.toNat ≤ 57
  · rw [if_neg h₁, if_neg h₂, if_pos h₃, if_pos (.inl h₃), codeValue, if_pos h₃.2]
    refine congrArg Except.ok (UInt8.toNat.inj ?_)
    rw [sub 48 h₃.1, ofNat _ (by omega)]; rfl
  · rw [if_neg h₁, if_neg h₂, if_neg h₃, if_neg]
    unfold HexCode; omega

theorem UInt8.ofNat_toNat' (b : UInt8) : UInt8.ofNat b.toNat = b :=
  UInt8.toNat.inj (by simp [UInt8.toNat, UInt8.ofNat, BitVec.toNat_ofNat])

theorem Hex.shiftLeft_or_toNat {h l : UInt8} (hh : h.toNat < 16) (hl : l.toNat < 16) :
    (h <<< 4 ||| l).toNat = 16 * h.toNat + l.toNat := by
  have key : ∀ x y : Fin 16, ((UInt8.ofNat x) <<< 4 ||| UInt8.ofNat y).toNat = 16 * x + y := by
    decide
  simpa [UInt8.ofNat_toNat'] using key ⟨h.toNat, hh⟩ ⟨l.toNat, hl⟩

theorem codeValue_lt {n : Nat} (h : HexCode n) : codeValue n < 16 := by
  unfold HexCode at h; unfold codeValue; split_ifs <;> omega

theorem IsHexDigit.ascii {c : Char} (h : IsHexDigit c) : IsAscii c := by
  unfold IsHexDigit HexCode at h; unfold IsAscii; omega

theorem Hex.val_ascii {c : Char} (hc : IsAscii c) (i : Nat) :
    Hex.val c.val.toUInt8 i = if IsHexDigit c then .ok (UInt8.ofNat (digitValue c))
      else .error (.invalidHexCharacter c i) := by
  rw [Hex.val_eq, toUInt8_toNat_of_ascii hc, Char.ofNat_toNat]; rfl

theorem Hex.decodePairs_cons_cons {i : Nat} {hi lo : UInt8} {rest out : List UInt8}
    (h : Hex.decodePairs i (hi :: lo :: rest) = .ok out) :
    HexCode hi.toNat ∧ HexCode lo.toNat ∧ ∃ out', Hex.decodePairs (i + 2) rest = .ok out' := by
  rw [Hex.decodePairs, Hex.val_eq, Hex.val_eq] at h
  by_cases h₁ : HexCode hi.toNat <;> by_cases h₂ : HexCode lo.toNat <;>
    simp only [h₁, h₂, if_true, if_false, Except.ok_bind', Except.error_bind', reduceCtorEq] at h
  cases hr : Hex.decodePairs (i + 2) rest with
  | error e => simp [hr] at h
  | ok out' => exact ⟨h₁, h₂, out', rfl⟩

theorem Hex.digit_spec : ∀ n : Fin 16, IsAscii (Hex.hexCharsLower.getD n '0') ∧
    IsHexDigit (Hex.hexCharsLower.getD n '0') ∧ digitValue (Hex.hexCharsLower.getD n '0') = n := by
  decide

@[simp] theorem Hex.encode_nil : Hex.encode [] = [] := rfl

@[simp] theorem Hex.encode_cons (b : UInt8) (bs : List UInt8) :
    Hex.encode (b :: bs) = Hex.hexCharsLower.getD (b.toNat / 16) '0' ::
      Hex.hexCharsLower.getD (b.toNat % 16) '0' :: Hex.encode bs := rfl

theorem Hex.length_encode (bs : List UInt8) : (Hex.encode bs).length = 2 * bs.length := by
  induction bs with
  | nil => rfl
  | cons b bs ih => simp only [Hex.encode_cons, List.length_cons, ih]; omega

theorem Hex.encode_hex (bs : List UInt8) : ∀ c ∈ Hex.encode bs, IsHexDigit c := by
  induction bs with
  | nil => simp
  | cons b bs ih =>
    have hb : b.toNat < 256 := b.toNat_lt_size
    simp only [Hex.encode_cons, List.forall_mem_cons]
    exact ⟨(Hex.digit_spec ⟨_, by omega⟩).2.1, (Hex.digit_spec ⟨_, by omega⟩).2.1, ih⟩

theorem Hex.getD_mem (n : Nat) : Hex.hexCharsLower.getD n '0' ∈ Hex.hexCharsLower := by
  rw [List.getD_eq_getElem?_getD]
  cases h : Hex.hexCharsLower[n]? with
  | none => decide
  | some c => exact List.getElem?_mem h

theorem Hex.encode_lower (bs : List UInt8) : ∀ c ∈ Hex.encode bs, c ∈ Hex.hexCharsLower := by
  induction bs with
  | nil => simp
  | cons b bs ih =>
    simp only [Hex.encode_cons, List.forall_mem_cons]
    exact ⟨Hex.getD_mem _, Hex.getD_mem _, ih⟩

theorem Hex.decodeDigits_encode (bs : List UInt8) :
    decodeDigits (Hex.encode bs) = bs.map UInt8.toNat := by
  induction bs with
  | nil => rfl
  | cons b bs ih =>
    have hb : b.toNat < 256 := b.toNat_lt_size
    rw [Hex.encode_cons, decodeDigits, ih, (Hex.digit_spec ⟨_, by omega⟩).2.2,
      (Hex.digit_spec ⟨_, by omega⟩).2.2]
    simp only [List.map_cons, List.cons.injEq, and_true]
    omega

theorem Hex.decodePairs_digits {p : List Char} (hp : ∀ c ∈ p, IsHexDigit c) (i : Nat) :
    Hex.decodePairs i (Str.asBytes p) = .ok ((decodeDigits p).map UInt8.ofNat) := by
  induction p using decodeDigits.induct generalizing i with
  | case1 c d rest ih =>
    simp only [List.forall_mem_cons] at hp
    obtain ⟨hc, hd, hrest⟩ := hp
    have vc : digitValue c < 16 := codeValue_lt hc
    have vd : digitValue d < 16 := codeValue_lt hd
    have e (n : Nat) (h : n < 16) : (UInt8.ofNat n).toNat = n := UInt8.toNat_ofNat_of_lt (by show n < 256; omega)
    simp only [Str.asBytes_cons, utf8EncodeChar_of_ascii hc.ascii, utf8EncodeChar_of_ascii hd.ascii,
      List.singleton_append, Hex.decodePairs, Hex.val_ascii hc.ascii, Hex.val_ascii hd.ascii,
      if_pos hc, if_pos hd, ih hrest, decodeDigits, List.map_cons, Except.ok_bind',
      Except.pure_eq_ok]
    congr 2
    apply UInt8.toNat.inj
    rw [Hex.shiftLeft_or_toNat (by rw [e _ vc]; exact vc) (by rw [e _ vd]; exact vd), e _ vc, e _ vd,
      UInt8.toNat_ofNat_of_lt (by show _ < 256; omega)]
  | case2 t ht =>
    match t, ht with
    | [], _ => rfl
    | [c], _ => simp [utf8EncodeChar_of_ascii (hp c (List.mem_singleton_self c)).ascii,
        Hex.decodePairs, decodeDigits]
    | c :: d :: rest, ht => exact (ht c d rest rfl).elim

theorem HexCode.lt {n : Nat} (h : HexCode n) : n < 128 := by
  unfold HexCode at h; omega

theorem Hex.decodePairs_length {i : Nat} {data out : List UInt8}
    (h : Hex.decodePairs i data = .ok out) : out.length = data.length / 2 := by
  induction i, data using Hex.decodePairs.induct generalizing out with
  | case1 i hi lo rest ih =>
    obtain ⟨h₁, h₂, out', hr⟩ := Hex.decodePairs_cons_cons h
    rw [Hex.decodePairs, hr, Hex.val_eq, Hex.val_eq, if_pos h₁, if_pos h₂] at h
    simp only [Except.ok_bind', Except.pure_eq_ok, Except.ok.injEq] at h
    subst h
    simp only [List.length_cons, ih hr]
    omega
  | case2 t i ht =>
    rw [Hex.decodePairs.eq_2 _ _ ht, Except.ok.injEq] at h
    subst h
    match t, ht with
    | [], _ | [_], _ => simp
    | _ :: _ :: _, ht => exact (ht _ _ _ rfl).elim

theorem Hex.decodePairs_not_ascii {c : Char} (hc : ¬IsAscii c) (bs : List UInt8) {i : Nat}
    {out : List UInt8} : Hex.decodePairs i (String.utf8EncodeChar c ++ bs) ≠ .ok out := by
  intro h
  obtain ⟨b₁, b₂, rest, he, hb⟩ := utf8EncodeChar_of_not_ascii hc
  rw [he, List.cons_append, List.cons_append] at h
  have := (Hex.decodePairs_cons_cons h).1.lt
  omega

theorem Hex.decodePairs_hex {p : List Char} (hp : Str.len p % 2 = 0) {i : Nat} {out : List UInt8}
    (h : Hex.decodePairs i (Str.asBytes p) = .ok out) : ∀ c ∈ p, IsHexDigit c := by
  induction p using decodeDigits.induct generalizing i out with
  | case1 c d rest ih =>
    by_cases hc : IsAscii c
    · by_cases hd : IsAscii d
      · rw [Str.asBytes_cons, Str.asBytes_cons, utf8EncodeChar_of_ascii hc,
          utf8EncodeChar_of_ascii hd] at h
        obtain ⟨h₁, h₂, out', hr⟩ := Hex.decodePairs_cons_cons h
        rw [toUInt8_toNat_of_ascii hc] at h₁
        rw [toUInt8_toNat_of_ascii hd] at h₂
        simp only [Str.len_cons, utf8Size_of_ascii hc, utf8Size_of_ascii hd] at hp
        simp only [List.forall_mem_cons]
        exact ⟨h₁, h₂, ih (by omega) hr⟩
      · rw [Str.asBytes_cons, utf8EncodeChar_of_ascii hc, Str.asBytes_cons] at h
        obtain ⟨b₁, b₂, rest, he, hb⟩ := utf8EncodeChar_of_not_ascii hd
        rw [he] at h
        have := (Hex.decodePairs_cons_cons h).2.1.lt
        omega
    · exact (Hex.decodePairs_not_ascii hc _ h).elim
  | case2 t ht =>
    match t, ht with
    | [], _ => simp
    | [c], _ =>
      by_cases hc : IsAscii c
      · simp [Str.len_cons, utf8Size_of_ascii hc] at hp
      · exact (Hex.decodePairs_not_ascii hc [] (by simpa using h)).elim
    | _ :: _ :: _, ht => exact (ht _ _ _ rfl).elim

def Hex.FirstInvalid (i : Nat) (data : List UInt8) (e : FromHexError) : Prop :=
  ∃ pre b post, data = pre ++ b :: post ∧ (∀ x ∈ pre, HexCode x.toNat) ∧ ¬HexCode b.toNat ∧
    e = .invalidHexCharacter (Char.ofNat b.toNat) (i + pre.length)

theorem Hex.firstInvalid_nil {i : Nat} {e : FromHexError} : ¬Hex.FirstInvalid i [] e := by
  rintro ⟨pre, b, post, h, -⟩
  simp at h

theorem Hex.firstInvalid_cons_of_hex {i : Nat} {b : UInt8} {bs : List UInt8} {e : FromHexError}
    (hb : HexCode b.toNat) : Hex.FirstInvalid i (b :: bs) e ↔ Hex.FirstInvalid (i + 1) bs e := by
  constructor
  · rintro ⟨_ | ⟨p, pre⟩, c, post, h, hpre, hc, rfl⟩
    · simp only [List.nil_append, List.cons.injEq] at h
      exact absurd (h.1 ▸ hb) hc
    · simp only [List.cons_append, List.cons.injEq] at h
      obtain ⟨rfl, rfl⟩ := h
      refine ⟨pre, c, post, rfl, fun x hx => hpre x (List.mem_cons_of_mem _ hx), hc, ?_⟩
      rw [List.length_cons, Nat.add_right_comm, Nat.add_assoc]
  · rintro ⟨pre, c, post, rfl, hpre, hc, rfl⟩
    refine ⟨b :: pre, c, post, rfl, List.forall_mem_cons.2 ⟨hb, hpre⟩, hc, ?_⟩
    rw [List.length_cons, Nat.add_right_comm, Nat.add_assoc]

theorem Hex.firstInvalid_cons_of_not_hex {i : Nat} {b : UInt8} {bs : List UInt8} {e : FromHexError}
    (hb : ¬HexCode b.toNat) :
    Hex.FirstInvalid i (b :: bs) e ↔ e = .invalidHexCharacter (Char.ofNat b.toNat) i := by
  constructor
  · rintro ⟨_ | ⟨p, pre⟩, c, post, h, hpre, hc, rfl⟩
    · simp only [List.nil_append, List.cons.injEq] at h
      rw [h.1]; rfl
    · simp only [List.cons_append, List.cons.injEq] at h
      exact absurd (h.1 ▸ hpre p (List.mem_cons_self _ _)) hb
  · rintro rfl
    exact ⟨[], b, bs, rfl, by simp, hb, rfl⟩

theorem Hex.firstInvalid_append_of_hex {i : Nat} {pre data : List UInt8} {e : FromHexError}
    (hpre : ∀ x ∈ pre, HexCode x.toNat) :
    Hex.FirstInvalid i (pre ++ data) e ↔ Hex.FirstInvalid (i + pre.length) data e := by
  induction pre generalizing i with
  | nil => rfl
  | cons p pre ih =>
    rw [List.forall_mem_cons] at hpre
    rw [List.cons_append, Hex.firstInvalid_cons_of_hex hpre.1, ih hpre.2, List.length_cons,
      Nat.add_assoc, Nat.add_comm 1]

theorem Hex.decodePairs_eq_error {i : Nat} {data : List UInt8} {e : FromHexError}
    (he : data.length % 2 = 0) : Hex.decodePairs i data = .error e ↔ Hex.FirstInvalid i data e := by
  induction i, data using Hex.decodePairs.induct generalizing e with
  | case1 i hi lo rest ih =>
    have hr : rest.length % 2 = 0 := by simp only [List.length_cons] at he; omega
    rw [Hex.decodePairs, Hex.val_eq, Hex.val_eq]
    by_cases h₁ : HexCode hi.toNat
    · rw [Hex.firstInvalid_cons_of_hex h₁]
      by_cases h₂ : HexCode lo.toNat
      · rw [Hex.firstInvalid_cons_of_hex h₂, show i + 1 + 1 = i + 2 from rfl, ← ih hr]
        cases Hex.decodePairs (i + 2) rest <;> simp [h₁, h₂]
      · rw [Hex.firstInvalid_cons_of_not_hex h₂]
        simp [h₁, h₂, eq_comm]
    · rw [Hex.firstInvalid_cons_of_not_hex h₁]
      simp [h₁, eq_comm]
  | case2 t i ht =>
    rw [Hex.decodePairs.eq_2 _ _ ht]
    match t, ht with
    | [], _ => simp [Hex.firstInvalid_nil]
    | [_], _ => simp at he
    | _ :: _ :: _, ht => exact (ht _ _ _ rfl).elim

theorem Hex.decode_eq_error {data : List UInt8} {e : FromHexError} :
    Hex.decode data = .error e ↔
      (data.length % 2 = 1 ∧ e = .oddLength) ∨ (data.length % 2 = 0 ∧ Hex.FirstInvalid 0 data e) := by
  unfold Hex.decode
  split_ifs with h
  · have h1 : data.length % 2 = 1 := by omega
    simp [h1, eq_comm]
  · have h0 : data.length % 2 = 0 := by omega
    simp [h0, Hex.decodePairs_eq_error h0]

theorem Hex.decodeToSlice_eq_error {data : List UInt8} {n : Nat} {e : FromHexError} :
    Hex.decodeToSlice data n = .error e ↔
      (data.length % 2 = 1 ∧ e = .oddLength) ∨
      (data.length % 2 = 0 ∧ data.length ≠ 2 * n ∧ e = .invalidStringLength) ∨
      (data.length = 2 * n ∧ Hex.FirstInvalid 0 data e) := by
  unfold Hex.decodeToSlice
  split_ifs with h₁ h₂
  · have h1 : data.length % 2 = 1 := by omega
    have hn : data.length ≠ 2 * n := by omega
    simp [h1, hn, eq_comm]
  · have h0 : data.length % 2 = 0 := by omega
    have hn : data.length ≠ 2 * n := by omega
    simp [h0, hn, eq_comm]
  · have hn : data.length = 2 * n := by omega
    simp [hn, Hex.decodePairs_eq_error (show data.length % 2 = 0 by omega)]

theorem Hex.decodeToSlice_eq_ok {data out : List UInt8} {n : Nat} :
    Hex.decodeToSlice data n = .ok out ↔ data.length = 2 * n ∧ Hex.decodePairs 0 data = .ok out := by
  unfold Hex.decodeToSlice
  split_ifs
  · simp only [reduceCtorEq, false_iff, not_and]; intro; omega
  · simp only [reduceCtorEq, false_iff, not_and]; intro; omega
  · simp only [show data.length = 2 * n by omega, true_and]

theorem Hex.decode_eq_ok {data out : List UInt8} :
    Hex.decode data = .ok out ↔ data.length % 2 = 0 ∧ Hex.decodePairs 0 data = .ok out := by
  unfold Hex.decode
  split_ifs <;> simp_all

end IcAptos

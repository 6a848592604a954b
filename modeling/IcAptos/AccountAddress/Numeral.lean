import IcAptos.AccountAddress.Basic
import Mathlib.Tactic.Ring
import Mathlib.Tactic.Positivity
import Mathlib.Tactic.NormNum
import Mathlib.Data.List.GetD

namespace IcAptos

theorem mul_add_lt_mul_add {a b x y P : Nat} (hab : a < b) (hx : x < P) : a * P + x < b * P + y :=
  calc a * P + x < (a + 1) * P := by rw [Nat.succ_mul]; omega
    _ ≤ b * P := Nat.mul_le_mul_right _ hab
    _ ≤ b * P + y := Nat.le_add_right _ _

theorem mul_add_lt_mul_add_iff {a b x y P : Nat} (hx : x < P) (hy : y < P) :
    a * P + x < b * P + y ↔ a < b ∨ a = b ∧ x < y := by
  rcases Nat.lt_trichotomy a b with h | rfl | h
  · simp [h, mul_add_lt_mul_add h hx]
  · simp
  · have := mul_add_lt_mul_add (y := x) h hy
    simp only [show ¬a < b by omega, show a ≠ b by omega, false_and, or_self, iff_false]
    omega

theorem List.cons_lt_cons_iff_of_lt {α : Type} [LT α] {a b : α} {as bs : List α} :
    List.lt (a :: as) (b :: bs) ↔ a < b ∨ ¬a < b ∧ ¬b < a ∧ List.lt as bs := by
  constructor
  · intro h
    cases h with
    | head _ _ h => exact .inl h
    | tail h₁ h₂ h => exact .inr ⟨h₁, h₂, h⟩
  · rintro (h | ⟨h₁, h₂, h⟩)
    · exact .head _ _ h
    · exact .tail h₁ h₂ h

theorem BigUint.fromBytesBe_foldl (bs : List UInt8) (acc : Nat) :
    bs.foldl (fun n b => 256 * n + b.toNat) acc = acc * 256 ^ bs.length + BigUint.fromBytesBe bs := by
  induction bs generalizing acc with
  | nil => simp [BigUint.fromBytesBe]
  | cons b bs ih =>
    simp only [BigUint.fromBytesBe, List.foldl_cons, List.length_cons, ih (256 * acc + b.toNat),
      ih (256 * 0 + b.toNat)]
    ring

@[simp] theorem BigUint.fromBytesBe_nil : BigUint.fromBytesBe [] = 0 := rfl

theorem BigUint.fromBytesBe_cons (b : UInt8) (bs : List UInt8) :
    BigUint.fromBytesBe (b :: bs) = b.toNat * 256 ^ bs.length + BigUint.fromBytesBe bs := by
  rw [BigUint.fromBytesBe, List.foldl_cons, BigUint.fromBytesBe_foldl]; simp

theorem BigUint.fromBytesBe_append (bs cs : List UInt8) :
    BigUint.fromBytesBe (bs ++ cs) = BigUint.fromBytesBe bs * 256 ^ cs.length + BigUint.fromBytesBe cs := by
  rw [BigUint.fromBytesBe, List.foldl_append, BigUint.fromBytesBe_foldl]; rfl

theorem BigUint.fromBytesBe_lt (bs : List UInt8) : BigUint.fromBytesBe bs < 256 ^ bs.length := by
  induction bs with
  | nil => simp
  | cons b bs ih =>
    rw [BigUint.fromBytesBe_cons, List.length_cons, pow_succ']
    simpa using mul_add_lt_mul_add (y := 0) (show b.toNat < 255 + 1 from b.toNat_lt_size) ih

theorem BigUint.fromBytesBe_lt_iff {bs cs : List UInt8} (h : bs.length = cs.length) :
    List.lt bs cs ↔ BigUint.fromBytesBe bs < BigUint.fromBytesBe cs := by
  induction bs generalizing cs with
  | nil =>
    obtain _ | ⟨c, cs⟩ := cs
    · exact iff_of_false nofun (Nat.lt_irrefl _)
    · simp at h
  | cons b bs ih =>
    obtain _ | ⟨c, cs⟩ := cs
    · simp at h
    simp only [List.length_cons, Nat.add_right_cancel_iff] at h
    rw [List.cons_lt_cons_iff_of_lt, BigUint.fromBytesBe_cons, BigUint.fromBytesBe_cons, h,
      mul_add_lt_mul_add_iff (BigUint.fromBytesBe_lt bs |>.trans_eq (by rw [h]))
        (BigUint.fromBytesBe_lt cs), ← ih h]
    have e₁ : b < c ↔ b.toNat < c.toNat := Iff.rfl
    have e₂ : c < b ↔ c.toNat < b.toNat := Iff.rfl
    rcases Nat.lt_trichotomy b.toNat c.toNat with hbc | hbc | hbc
    · simp [e₁, hbc]
    · simp [e₁, e₂, hbc]
    · simp [e₁, e₂, hbc, Nat.lt_asymm hbc, Nat.ne_of_gt hbc]

theorem mul_add_eq_mul_add_iff {a b x y P : Nat} (hx : x < P) (hy : y < P) :
    a * P + x = b * P + y ↔ a = b ∧ x = y := by
  constructor
  · intro h
    have h₁ := (mul_add_lt_mul_add_iff (a := a) (b := b) hx hy).not.1 (by omega)
    have h₂ := (mul_add_lt_mul_add_iff (a := b) (b := a) hy hx).not.1 (by omega)
    omega
  · rintro ⟨rfl, rfl⟩; rfl

theorem BigUint.fromBytesBe_inj {bs cs : List UInt8} (hl : bs.length = cs.length)
    (h : BigUint.fromBytesBe bs = BigUint.fromBytesBe cs) : bs = cs := by
  induction bs generalizing cs with
  | nil => cases cs <;> simp_all
  | cons b bs ih =>
    obtain _ | ⟨c, cs⟩ := cs
    · simp at hl
    simp only [List.length_cons, Nat.add_right_cancel_iff] at hl
    rw [BigUint.fromBytesBe_cons, BigUint.fromBytesBe_cons, hl,
      mul_add_eq_mul_add_iff (BigUint.fromBytesBe_lt bs |>.trans_eq (by rw [hl]))
        (BigUint.fromBytesBe_lt cs)] at h
    rw [UInt8.toNat.inj h.1, ih hl h.2]

theorem BigUint.fromBytesBe_eq_zero {bs : List UInt8} :
    BigUint.fromBytesBe bs = 0 ↔ ∀ b ∈ bs, b = 0 := by
  induction bs with
  | nil => simp
  | cons b bs ih =>
    rw [BigUint.fromBytesBe_cons, Nat.add_eq_zero, Nat.mul_eq_zero, ih, List.forall_mem_cons]
    simp only [pow_eq_zero_iff', OfNat.ofNat_ne_zero, ne_eq, false_and, or_false]
    exact and_congr_left' ⟨fun h => UInt8.toNat.inj h, fun h => h ▸ rfl⟩

def BigUint.toBytesBe : Nat → Nat → List UInt8
  | 0, _ => []
  | k + 1, n => UInt8.ofNat (n / 256 ^ k) :: BigUint.toBytesBe k (n % 256 ^ k)

theorem BigUint.length_toBytesBe (k n : Nat) : (BigUint.toBytesBe k n).length = k := by
  induction k generalizing n with
  | zero => rfl
  | succ k ih => simp [BigUint.toBytesBe, ih]

theorem BigUint.fromBytesBe_toBytesBe {k n : Nat} (h : n < 256 ^ k) :
    BigUint.fromBytesBe (BigUint.toBytesBe k n) = n := by
  induction k generalizing n with
  | zero => simp_all [BigUint.toBytesBe]
  | succ k ih =>
    have hd : n / 256 ^ k < 256 := Nat.div_lt_of_lt_mul (by rwa [pow_succ] at h)
    rw [BigUint.toBytesBe, BigUint.fromBytesBe_cons, BigUint.length_toBytesBe,
      ih (Nat.mod_lt _ (by positivity)), UInt8.toNat_ofNat_of_lt hd, Nat.div_add_mod']

theorem Hex.digit_lt_digit {m n : Nat} (hm : m < 16) (hn : n < 16) :
    Hex.hexCharsLower.getD m '0' < Hex.hexCharsLower.getD n '0' ↔ m < n :=
  have key : ∀ m n : Fin 16,
      Hex.hexCharsLower.getD m '0' < Hex.hexCharsLower.getD n '0' ↔ m < n := by decide
  key ⟨m, hm⟩ ⟨n, hn⟩

theorem Hex.encode_lt_iff {bs cs : List UInt8} (h : bs.length = cs.length) :
    List.lt (Hex.encode bs) (Hex.encode cs) ↔ List.lt bs cs := by
  induction bs generalizing cs with
  | nil =>
    obtain _ | ⟨c, cs⟩ := cs
    · exact iff_of_false nofun nofun
    · simp at h
  | cons b bs ih =>
    obtain _ | ⟨c, cs⟩ := cs
    · simp at h
    simp only [List.length_cons, Nat.add_right_cancel_iff] at h
    have hb : b.toNat < 256 := b.toNat_lt_size
    have hc : c.toNat < 256 := c.toNat_lt_size
    have e₁ : b < c ↔ b.toNat < c.toNat := Iff.rfl
    have e₂ : c < b ↔ c.toNat < b.toNat := Iff.rfl
    simp only [Hex.encode_cons, List.cons_lt_cons_iff_of_lt, ih h, e₁, e₂,
      Hex.digit_lt_digit (Nat.mod_lt _ (by omega) : b.toNat % 16 < 16) (Nat.mod_lt _ (by omega)),
      Hex.digit_lt_digit (Nat.mod_lt _ (by omega) : c.toNat % 16 < 16) (Nat.mod_lt _ (by omega)),
      Hex.digit_lt_digit (by omega : b.toNat / 16 < 16) (by omega : c.toNat / 16 < 16),
      Hex.digit_lt_digit (by omega : c.toNat / 16 < 16) (by omega : b.toNat / 16 < 16)]
    by_cases hl : List.lt bs cs <;> simp only [hl, and_true, and_false, or_false] <;> omega

namespace AccountAddress

theorem ext {a b : AccountAddress} (h : a.bytes = b.bytes) : a = b := by
  cases a; cases b; cases h; rfl

theorem toBigUint_lt (a : AccountAddress) : a.toBigUint < 2 ^ 256 := by
  have := BigUint.fromBytesBe_lt a.bytes
  rw [a.length_eq] at this
  exact this.trans_eq (by norm_num [AccountAddress.length])

theorem toBigUint_inj {a b : AccountAddress} (h : a.toBigUint = b.toBigUint) : a = b :=
  ext (BigUint.fromBytesBe_inj (a.length_eq.trans b.length_eq.symm) h)

def ofBigUint (n : Nat) : AccountAddress :=
  ⟨BigUint.toBytesBe 32 n, BigUint.length_toBytesBe 32 n⟩

theorem toBigUint_ofBigUint {n : Nat} (h : n < 2 ^ 256) : (ofBigUint n).toBigUint = n :=
  BigUint.fromBytesBe_toBytesBe (h.trans_eq (by norm_num))

theorem bytes_eq_init_last (a : AccountAddress) :
    a.bytes = a.bytes.take 31 ++ [a.bytes.getD 31 0] := by
  have hl : a.bytes.length = 32 := a.length_eq
  conv_lhs => rw [← List.take_append_drop 31 a.bytes]
  rw [List.drop_eq_getElem_cons (by omega), List.drop_eq_nil_of_le (by omega),
    List.getD_eq_getElem _ _ (by omega)]

theorem toBigUint_eq_init_last (a : AccountAddress) :
    a.toBigUint = BigUint.fromBytesBe (a.bytes.take 31) * 256 + (a.bytes.getD 31 0).toNat := by
  conv_lhs => rw [toBigUint, bytes_eq_init_last a, BigUint.fromBytesBe_append]
  simp [BigUint.fromBytesBe_cons]

theorem toBigUint_order_embedding :
    (∀ a b : AccountAddress, (a < b ↔ a.toBigUint < b.toBigUint) ∧
      (a.toBigUint < b.toBigUint ↔ List.lt a.toCanonicalString b.toCanonicalString)) ∧
    Function.Injective toBigUint ∧ (∀ a : AccountAddress, a.toBigUint < 2 ^ 256) ∧
    ∀ n, n < 2 ^ 256 → ∃ a : AccountAddress, a.toBigUint = n := by
  refine ⟨fun a b => ?_, fun _ _ => toBigUint_inj, toBigUint_lt,
    fun n h => ⟨ofBigUint n, toBigUint_ofBigUint h⟩⟩
  have hl : a.bytes.length = b.bytes.length := a.length_eq.trans b.length_eq.symm
  exact ⟨BigUint.fromBytesBe_lt_iff hl, (BigUint.fromBytesBe_lt_iff hl).symm.trans
    (Hex.encode_lt_iff hl).symm⟩

end AccountAddress

end IcAptos

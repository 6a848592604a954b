import Mathlib.Data.List.Basic

namespace IcAptos

def Str.asBytes (s : List Char) : List UInt8 := s.flatMap String.utf8EncodeChar

def Str.len (s : List Char) : Nat := (Str.asBytes s).length

def Str.startsWith (s p : List Char) : Bool := p.isPrefixOf s

def Str.sliceFrom : Nat → List Char → Option (List Char)
  | 0, s => some s
  | _ + 1, [] => none
  | i + 1, c :: s => if c.utf8Size ≤ i + 1 then Str.sliceFrom (i + 1 - c.utf8Size) s else none

def usizeSub (a b : Nat) : Option Nat := if b ≤ a then some (a - b) else none

def IsAscii (c : Char) : Prop := c.toNat < 128

instance : DecidablePred IsAscii := fun c => inferInstanceAs (Decidable (c.toNat < 128))

instance decEqExcept {ε α : Type} [DecidableEq ε] [DecidableEq α] : DecidableEq (Except ε α)
  | .ok a, .ok b => if h : a = b then isTrue (h ▸ rfl) else isFalse fun e => h (Except.ok.inj e)
  | .error a, .error b =>
    if h : a = b then isTrue (h ▸ rfl) else isFalse fun e => h (Except.error.inj e)
  | .ok _, .error _ => isFalse nofun
  | .error _, .ok _ => isFalse nofun

@[simp] theorem Except.ok_bind' {ε α β : Type} (a : α) (f : α → Except ε β) :
    (Except.ok a >>= f) = f a := rfl

@[simp] theorem Except.error_bind' {ε α β : Type} (e : ε) (f : α → Except ε β) :
    (Except.error e >>= f) = Except.error e := rfl

@[simp] theorem Except.bind_ok' {ε α β : Type} (a : α) (f : α → Except ε β) :
    (Except.ok a).bind f = f a := rfl

@[simp] theorem Except.bind_error' {ε α β : Type} (e : ε) (f : α → Except ε β) :
    (Except.error e).bind f = Except.error e := rfl

@[simp] theorem Except.throw_eq_error {ε α : Type} (e : ε) : (throw e : Except ε α) = .error e := rfl

@[simp] theorem Except.pure_eq_ok {ε α : Type} (a : α) : (pure a : Except ε α) = .ok a := rfl

@[simp] theorem Except.mapError_ok' {ε ε' α : Type} (f : ε → ε') (a : α) :
    (Except.ok a : Except ε α).mapError f = .ok a := rfl

@[simp] theorem Except.mapError_error' {ε ε' α : Type} (f : ε → ε') (e : ε) :
    (Except.error e : Except ε α).mapError f = .error (f e) := rfl

theorem Except.mapError_eq_ok {ε ε' α : Type} {f : ε → ε'} {x : Except ε α} {a : α} :
    x.mapError f = .ok a ↔ x = .ok a := by
  cases x <;> simp

@[simp] theorem Str.asBytes_nil : Str.asBytes [] = [] := rfl

@[simp] theorem Str.asBytes_cons (c : Char) (s : List Char) :
    Str.asBytes (c :: s) = String.utf8EncodeChar c ++ Str.asBytes s := List.flatMap_cons ..

@[simp] theorem Str.asBytes_append (s t : List Char) :
    Str.asBytes (s ++ t) = Str.asBytes s ++ Str.asBytes t := List.flatMap_append ..

@[simp] theorem Str.len_nil : Str.len [] = 0 := rfl

@[simp] theorem Str.len_cons (c : Char) (s : List Char) :
    Str.len (c :: s) = c.utf8Size + Str.len s := by
  simp [Str.len]

@[simp] theorem Str.len_append (s t : List Char) : Str.len (s ++ t) = Str.len s + Str.len t := by
  simp [Str.len]

theorem val_le_iff_ascii (c : Char) : c.val ≤ 0x7f ↔ IsAscii c := by
  show c.val.toBitVec.toNat ≤ 127 ↔ c.val.toBitVec.toNat < 128
  omega

theorem utf8EncodeChar_of_ascii {c : Char} (h : IsAscii c) :
    String.utf8EncodeChar c = [c.val.toUInt8] := by
  simp [String.utf8EncodeChar, (val_le_iff_ascii c).2 h]

theorem utf8Size_of_ascii {c : Char} (h : IsAscii c) : c.utf8Size = 1 := by
  rw [← String.length_utf8EncodeChar, utf8EncodeChar_of_ascii h]; rfl

theorem toUInt8_toNat_of_ascii {c : Char} (h : IsAscii c) : c.val.toUInt8.toNat = c.toNat := by
  unfold IsAscii Char.toNat at h
  simp only [UInt32.toUInt8, Nat.toUInt8, UInt8.ofNat, UInt8.toNat, BitVec.toNat_ofNat]
  exact Nat.mod_eq_of_lt (by omega)

theorem Str.asBytes_of_ascii {s : List Char} (h : ∀ c ∈ s, IsAscii c) :
    Str.asBytes s = s.map (fun c => c.val.toUInt8) := by
  induction s with
  | nil => rfl
  | cons c s ih =>
    simp only [List.forall_mem_cons] at h
    simp [utf8EncodeChar_of_ascii h.1, ih h.2]

theorem Str.len_of_ascii {s : List Char} (h : ∀ c ∈ s, IsAscii c) : Str.len s = s.length := by
  simp [Str.len, Str.asBytes_of_ascii h]

theorem le_or_self (a b : Nat) : b ≤ a ||| b :=
  Nat.le_of_testBit fun i h => by simp [Nat.testBit_or, h]

theorem utf8EncodeChar_of_not_ascii {c : Char} (h : ¬IsAscii c) :
    ∃ b₁ b₂ bs, String.utf8EncodeChar c = b₁ :: b₂ :: bs ∧ 128 ≤ b₁.toNat := by
  unfold String.utf8EncodeChar
  simp only [mt (val_le_iff_ascii c).1 h, if_false]
  split_ifs
  · exact ⟨_, _, [], rfl, le_trans (by decide) (le_or_self _ _)⟩
  · exact ⟨_, _, _, rfl, le_trans (by decide) (le_or_self _ _)⟩
  · exact ⟨_, _, _, rfl, le_trans (by decide) (le_or_self _ _)⟩

@[simp] theorem Str.startsWith_zeroX (s : List Char) :
    Str.startsWith s ['0', 'x'] = true ↔ ∃ t, s = '0' :: 'x' :: t := by
  match s with
  | [] | [_] => simp [Str.startsWith, List.isPrefixOf]
  | a :: b :: t => simp [Str.startsWith, List.isPrefixOf, @eq_comm _ '0', @eq_comm _ 'x']

@[simp] theorem Str.sliceFrom_zeroX (t : List Char) :
    Str.sliceFrom 2 ('0' :: 'x' :: t) = some t := by
  simp [Str.sliceFrom, show '0'.utf8Size = 1 from rfl, show 'x'.utf8Size = 1 from rfl]

end IcAptos

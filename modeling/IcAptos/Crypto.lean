import IcAptos.Hex
import Mathlib.Algebra.Group.Nat.Basic

namespace IcAptos

/-- Modelled from the spec: `HashValue` (aptos-crypto `hash.rs` is not under src/), the
32-byte digest returned by the hashing capability the core consumes. -/
structure HashValue where
  hash : List UInt8
  length_eq : hash.length = 32
  deriving DecidableEq

/-- Modelled from the spec: `Ed25519PublicKey` (`ed25519_keys.rs` is not under src/), the
opaque key, identified by its `to_bytes()` encoding of `ED25519_PUBLIC_KEY_LENGTH` bytes. -/
structure Ed25519PublicKey where
  toBytes : List UInt8
  length_eq : toBytes.length = 32
  deriving DecidableEq

/-- Modelled from the spec: `Ed25519Signature` (`ed25519_sigs.rs` is not under src/),
identified by its `to_bytes()` encoding of `ED25519_SIGNATURE_LENGTH` bytes. -/
structure Ed25519Signature where
  toBytes : List UInt8
  length_eq : toBytes.length = 64
  deriving DecidableEq

/-- Modelled from the spec: the one variant of aptos-crypto's `CryptoMaterialError` that the
code under src/ raises, for a byte buffer of the wrong length. -/
inductive CryptoMaterialError where
  | wrongLengthError
  deriving DecidableEq, Repr

theorem Ed25519PublicKey.ext {p q : Ed25519PublicKey} (h : p.toBytes = q.toBytes) : p = q := by
  cases p; cases q; cases h; rfl

def leBytes : Nat → Nat → List UInt8
  | 0, _ => []
  | k + 1, n => UInt8.ofNat n :: leBytes k (n / 256)

def UInt64.toLeBytes (x : UInt64) : List UInt8 := leBytes 8 x.toNat

theorem length_leBytes (k n : Nat) : (leBytes k n).length = k := by
  induction k generalizing n with
  | zero => rfl
  | succ k ih => simp [leBytes, ih]

theorem UInt64.length_toLeBytes (x : UInt64) : (UInt64.toLeBytes x).length = 8 := length_leBytes 8 _

theorem leBytes_inj {k m n : Nat} (h : leBytes k m = leBytes k n) : m % 256 ^ k = n % 256 ^ k := by
  induction k generalizing m n with
  | zero => simp [Nat.mod_one]
  | succ k ih =>
    simp only [leBytes, List.cons.injEq] at h
    have hd : m % 256 = n % 256 := by
      simpa [UInt8.toNat, UInt8.ofNat, BitVec.toNat_ofNat] using congrArg UInt8.toNat h.1
    rw [Nat.pow_succ', Nat.mod_mul, Nat.mod_mul, hd, ih h.2]

theorem UInt64.toLeBytes_inj {x y : UInt64} (h : UInt64.toLeBytes x = UInt64.toLeBytes y) : x = y := by
  have hx : x.toNat < 256 ^ 8 := x.toNat_lt_size
  have hy : y.toNat < 256 ^ 8 := y.toNat_lt_size
  have := leBytes_inj h
  rw [Nat.mod_eq_of_lt hx, Nat.mod_eq_of_lt hy] at this
  exact UInt64.toNat.inj this

end IcAptos

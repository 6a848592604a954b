import IcAptos.Crypto
import IcAptos.AccountAddress.Canonical

namespace IcAptos

inductive Scheme where
  | ed25519
  | multiEd25519
  | singleKey
  | multiKey
  | noScheme
  | deriveAuid
  | deriveObjectAddressFromObject
  | deriveObjectAddressFromGuid
  | deriveObjectAddressFromSeed
  | deriveResourceAccountAddress
  deriving DecidableEq, Repr

def Scheme.toU8 : Scheme → UInt8
  | .ed25519 => 0
  | .multiEd25519 => 1
  | .singleKey => 2
  | .multiKey => 3
  | .noScheme => 250
  | .deriveAuid => 251
  | .deriveObjectAddressFromObject => 252
  | .deriveObjectAddressFromGuid => 253
  | .deriveObjectAddressFromSeed => 254
  | .deriveResourceAccountAddress => 255

def Scheme.name : Scheme → String
  | .ed25519 => "Ed25519"
  | .multiEd25519 => "MultiEd25519"
  | .singleKey => "SingleKey"
  | .multiKey => "MultiKey"
  | .noScheme => "NoScheme"
  | .deriveAuid => "DeriveAuid"
  | .deriveObjectAddressFromObject => "DeriveObjectAddressFromObject"
  | .deriveObjectAddressFromGuid => "DeriveObjectAddressFromGuid"
  | .deriveObjectAddressFromSeed => "DeriveObjectAddressFromSeed"
  | .deriveResourceAccountAddress => "DeriveResourceAccountAddress"

def Scheme.display (s : Scheme) : String := "Scheme::" ++ s.name

inductive AnyhowError where
  | msg (text : String)
  | hex (e : FromHexError)
  | cryptoMaterial (e : CryptoMaterialError)
  deriving DecidableEq, Repr

theorem Hex.decode_asBytes_eq_ok {s : List Char} {out : List UInt8} :
    Hex.decode (Str.asBytes s) = .ok out ↔
      s.length % 2 = 0 ∧ (∀ c ∈ s, IsHexDigit c) ∧ decodeDigits s = out.map UInt8.toNat := by
  rw [Hex.decode_eq_ok]
  constructor
  · rintro ⟨hl, hd⟩
    have hh := Hex.decodePairs_hex hl hd
    rw [Hex.decodePairs_digits hh, Except.ok.injEq] at hd
    refine ⟨Str.len_of_ascii (fun c hc => (hh c hc).ascii) ▸ (hl : Str.len s % 2 = 0), hh, ?_⟩
    rw [← hd, AccountAddress.map_toNat_map_ofNat (decodeDigits_lt hh)]
  · rintro ⟨hl, hh, hd⟩
    refine ⟨show Str.len s % 2 = 0 from (Str.len_of_ascii fun c hc => (hh c hc).ascii).symm ▸ hl, ?_⟩
    rw [Hex.decodePairs_digits hh, hd, List.map_map]
    simp [Function.comp_def, UInt8.ofNat_toNat']

structure AuthenticationKey where
  bytes : List UInt8
  length_eq : bytes.length = AccountAddress.length
  deriving DecidableEq

namespace AuthenticationKey

def length : Nat := AccountAddress.length

def zero : AuthenticationKey := ⟨List.replicate 32 0, rfl⟩

def ofHashValue (h : HashValue) : AuthenticationKey := ⟨h.hash, h.length_eq⟩

section Derivation

variable (sha3_256Of : List UInt8 → HashValue)

def fromPreimage (publicKeyBytes : List UInt8) (scheme : Scheme) : AuthenticationKey :=
  ofHashValue (sha3_256Of (publicKeyBytes ++ [scheme.toU8]))

def auid (txnHash : List UInt8) (auidCounter : UInt64) : AuthenticationKey :=
  fromPreimage sha3_256Of (txnHash ++ UInt64.toLeBytes auidCounter) .deriveAuid

def objectAddressFromObject (source deriveFrom : AccountAddress) : AuthenticationKey :=
  fromPreimage sha3_256Of (source.toVec ++ deriveFrom.toVec) .deriveObjectAddressFromObject

def ed25519 (publicKey : Ed25519PublicKey) : AuthenticationKey :=
  fromPreimage sha3_256Of publicKey.toBytes .ed25519

end Derivation

def accountAddress (k : AuthenticationKey) : AccountAddress := ⟨k.bytes, k.length_eq⟩

def toVec (k : AuthenticationKey) : List UInt8 := k.bytes

def tryFrom (bytes : List UInt8) : Except CryptoMaterialError AuthenticationKey :=
  if h : bytes.length ≠ length then .error .wrongLengthError
  else .ok ⟨bytes, not_not.1 h⟩

def fromStr (s : List Char) : Except AnyhowError AuthenticationKey :=
  if s.isEmpty then .error (.msg "authentication key string should not be empty.")
  else do
    let bytesOut ← (Hex.decode (Str.asBytes s)).mapError .hex
    let key ← (tryFrom bytesOut).mapError .cryptoMaterial
    return key

def lowerHex (k : AuthenticationKey) (_alternate : Bool) : List Char := Hex.encode k.bytes

def display (k : AuthenticationKey) : List Char := k.lowerHex true

theorem ext {k l : AuthenticationKey} (h : k.bytes = l.bytes) : k = l := by
  cases k; cases l; cases h; rfl

inductive Derivation where
  | ed25519 (publicKey : Ed25519PublicKey)
  | auid (txnHash : List UInt8) (auidCounter : UInt64)
  | objectAddressFromObject (source deriveFrom : AccountAddress)

def Derivation.key (sha3_256Of : List UInt8 → HashValue) : Derivation → AuthenticationKey
  | .ed25519 pk => AuthenticationKey.ed25519 sha3_256Of pk
  | .auid txnHash c => AuthenticationKey.auid sha3_256Of txnHash c
  | .objectAddressFromObject source deriveFrom =>
    AuthenticationKey.objectAddressFromObject sha3_256Of source deriveFrom

def Derivation.hashInput : Derivation → List UInt8
  | .ed25519 pk => pk.toBytes ++ [0]
  | .auid txnHash c => txnHash ++ UInt64.toLeBytes c ++ [251]
  | .objectAddressFromObject source deriveFrom => source.bytes ++ deriveFrom.bytes ++ [252]

theorem derivation_domain_separated :
    (∀ (sha3_256Of : List UInt8 → HashValue) (d : Derivation),
      d.key sha3_256Of = ofHashValue (sha3_256Of d.hashInput)) ∧
    Function.Injective Derivation.hashInput := by
  refine ⟨fun sha3_256Of d => ?_, fun d₁ d₂ h => ?_⟩
  · cases d <;> simp only [Derivation.key, Derivation.hashInput, ed25519, auid,
      objectAddressFromObject, fromPreimage, AccountAddress.toVec, List.append_assoc] <;> rfl
  · rcases d₁ with p | ⟨t, c⟩ | ⟨s, d⟩ <;> rcases d₂ with p' | ⟨t', c'⟩ | ⟨s', d'⟩ <;>
      simp only [Derivation.hashInput, ← List.append_assoc] at h <;>
      obtain ⟨hb, ht⟩ := List.append_inj' h rfl <;>
      first | exact absurd ht (by decide) | skip
    · rw [Ed25519PublicKey.ext hb]
    · obtain ⟨rfl, hc⟩ := List.append_inj' hb (by rw [UInt64.length_toLeBytes, UInt64.length_toLeBytes])
      rw [UInt64.toLeBytes_inj hc]
    · obtain ⟨hs, hd⟩ := List.append_inj hb (by rw [s.length_eq, s'.length_eq])
      rw [AccountAddress.ext hs, AccountAddress.ext hd]

theorem tryFrom_eq_ok {bytes : List UInt8} {k : AuthenticationKey} :
    tryFrom bytes = .ok k ↔ bytes = k.bytes := by
  unfold tryFrom
  split_ifs with h
  · simp only [reduceCtorEq, false_iff]
    exact fun e => h (e ▸ k.length_eq)
  · exact ⟨fun e => by cases e; rfl, fun e => by cases e; rfl⟩

theorem fromStr_eq_ok_iff_decode {s : List Char} {k : AuthenticationKey} :
    fromStr s = .ok k ↔ s ≠ [] ∧ Hex.decode (Str.asBytes s) = .ok k.bytes := by
  unfold fromStr
  split_ifs with he
  · simp [List.isEmpty_iff.1 he]
  · have hne : s ≠ [] := fun e => he (List.isEmpty_iff.2 e)
    cases Hex.decode (Str.asBytes s) <;>
      simp [-Except.pure_eq_ok, Except.mapError_eq_ok, tryFrom_eq_ok, hne]

theorem fromStr_eq_ok_iff {s : List Char} {k : AuthenticationKey} :
    fromStr s = .ok k ↔
      s.length = 64 ∧ (∀ c ∈ s, IsHexDigit c) ∧ decodeDigits s = k.bytes.map UInt8.toNat := by
  have hk : k.bytes.length = 32 := k.length_eq
  rw [fromStr_eq_ok_iff_decode, Hex.decode_asBytes_eq_ok]
  constructor
  · rintro ⟨-, hl, hh, hs⟩
    have hlen := congrArg List.length hs
    rw [length_decodeDigits, List.length_map, hk] at hlen
    exact ⟨by omega, hh, hs⟩
  · rintro ⟨hl, hh, hs⟩
    exact ⟨fun e => by simp [e] at hl, by omega, hh, hs⟩

theorem fromStr_lowerHex (k : AuthenticationKey) (alternate : Bool) :
    fromStr (k.lowerHex alternate) = .ok k := by
  have hk : k.bytes.length = 32 := k.length_eq
  rw [fromStr_eq_ok_iff, lowerHex, Hex.length_encode, hk]
  exact ⟨rfl, Hex.encode_hex _, Hex.decodeDigits_encode _⟩

theorem fromStr_eq_error_iff_decode {s : List Char} {e : AnyhowError} (hs : s ≠ []) :
    fromStr s = .error e ↔
      (∃ e', Hex.decode (Str.asBytes s) = .error e' ∧ e = .hex e') ∨
      (∃ out, Hex.decode (Str.asBytes s) = .ok out ∧ out.length ≠ length ∧
        e = .cryptoMaterial .wrongLengthError) := by
  have he : s.isEmpty = false := by simpa using hs
  rw [fromStr, if_neg (by simp [he])]
  cases Hex.decode (Str.asBytes s) with
  | error e' =>
    simp only [Except.mapError_error', Except.error_bind', Except.error.injEq, exists_eq_left',
      reduceCtorEq, false_and, exists_false, or_false, @eq_comm _ e]
  | ok out =>
    simp only [Except.mapError_ok', Except.ok_bind', Except.ok.injEq, exists_eq_left', reduceCtorEq,
      false_and, exists_false, false_or, tryFrom, ne_eq]
    by_cases h : out.length = length
    · simp only [h, not_true_eq_false, dite_false, Except.mapError_ok', Except.ok_bind',
        false_and, iff_false]
      exact nofun
    · simp only [h, not_false_eq_true, dite_true, Except.mapError_error', Except.error_bind',
        Except.error.injEq, true_and, @eq_comm _ e]

theorem exists_decode_wrong_length {s : List Char} {e : AnyhowError} :
    (∃ out, Hex.decode (Str.asBytes s) = .ok out ∧ out.length ≠ length ∧
        e = .cryptoMaterial .wrongLengthError) ↔
      (∀ c ∈ s, IsHexDigit c) ∧ s.length % 2 = 0 ∧ s.length ≠ 64 ∧
        e = .cryptoMaterial .wrongLengthError := by
  simp only [Hex.decode_asBytes_eq_ok]
  constructor
  · rintro ⟨out, ⟨hl, hh, hd⟩, hn, rfl⟩
    have hlen := congrArg List.length hd
    rw [length_decodeDigits, List.length_map] at hlen
    exact ⟨hh, hl, fun h => hn (by rw [← hlen, h]; rfl), rfl⟩
  · rintro ⟨hh, hl, hn, rfl⟩
    refine ⟨(decodeDigits s).map UInt8.ofNat, ⟨hl, hh, ?_⟩, ?_, rfl⟩
    · rw [AccountAddress.map_toNat_map_ofNat (decodeDigits_lt hh)]
    · rw [List.length_map, length_decodeDigits]
      show s.length / 2 ≠ 32
      omega

theorem fromStr_eq_error_iff (s : List Char) (e : AnyhowError) :
    fromStr s = .error e ↔
      (s = [] ∧ e = .msg "authentication key string should not be empty.") ∨
      (Str.len s % 2 = 1 ∧ e = .hex .oddLength) ∨
      (Str.len s % 2 = 0 ∧ ∃ e', Hex.FirstInvalid 0 (Str.asBytes s) e' ∧ e = .hex e') ∨
      (s ≠ [] ∧ (∀ c ∈ s, IsHexDigit c) ∧ s.length % 2 = 0 ∧ s.length ≠ 64 ∧
        e = .cryptoMaterial .wrongLengthError) := by
  by_cases hs : s = []
  · subst hs
    simp only [fromStr, List.isEmpty_nil, if_true, Except.error.injEq, @eq_comm _ e, true_and,
      Str.asBytes_nil, Hex.firstInvalid_nil, false_and, exists_false, Str.len_nil, Nat.zero_mod,
      Nat.zero_ne_one, ne_eq, not_true_eq_false, or_false]
  rw [fromStr_eq_error_iff_decode hs, exists_decode_wrong_length]
  have hL : (Str.asBytes s).length = Str.len s := rfl
  simp only [Hex.decode_eq_error, hL, hs, false_and, false_or, ne_eq, not_false_eq_true, true_and,
    or_and_right, exists_or, and_assoc, exists_and_left, exists_eq_left, or_assoc]

theorem fromStr_eq_ok_iff_accountAddress (s : List Char) (k : AuthenticationKey) :
    fromStr s = .ok k ↔ s.length = 64 ∧ Str.startsWith s ['0', 'x'] = false ∧
      AccountAddress.fromStr s = some (.ok k.accountAddress) := by
  rw [fromStr_eq_ok_iff, AccountAddress.fromStr_eq_ok_iff]
  constructor
  · rintro ⟨hl, hh, hd⟩
    rw [AccountAddress.withoutZeroX_of_hex hh]
    refine ⟨hl, AccountAddress.startsWith_zeroX_of_hex hh, ⟨?_, hl.le, hh⟩,
      ((AccountAddress.decodeDigits_eq_iff_numeralValue hh hl _).1 hd).symm⟩
    rintro rfl
    simp at hl
  · rintro ⟨hl, hs, ⟨-, -, hh⟩, hv⟩
    have hw : AccountAddress.withoutZeroX s = s := by simp [AccountAddress.withoutZeroX, hs]
    rw [hw] at hh hv
    exact ⟨hl, hh, (AccountAddress.decodeDigits_eq_iff_numeralValue hh hl k.accountAddress).2 hv.symm⟩

theorem display_without_zeroX (k : AuthenticationKey) :
    k.display = k.accountAddress.toCanonicalString ∧ fromStr k.display = .ok k ∧
      AccountAddress.fromStr k.display = some (.ok k.accountAddress) ∧
      AccountAddress.fromStrStrict k.display = some (.error .leadingZeroXRequired) := by
  have hc := AccountAddress.parse_long_numeral (Hex.encode_hex k.bytes)
    (AccountAddress.length_toCanonicalString k.accountAddress)
    (AccountAddress.canonical_numeral k.accountAddress).2.2.2
  exact ⟨rfl, fromStr_lowerHex k true, hc.1, hc.2.2.2⟩

end AuthenticationKey

end IcAptos

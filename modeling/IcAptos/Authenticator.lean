import IcAptos.AuthenticationKey

namespace IcAptos

def maxNumOfSigs : Nat := 32

inductive AccountAuthenticator where
  | ed25519 (publicKey : Ed25519PublicKey) (signature : Ed25519Signature)
  | noAccountAuthenticator
  deriving DecidableEq

namespace AccountAuthenticator

def scheme : AccountAuthenticator → Scheme
  | .ed25519 .. => .ed25519
  | .noAccountAuthenticator => .noScheme

def publicKeyBytes : AccountAuthenticator → List UInt8
  | .ed25519 publicKey _ => publicKey.toBytes
  | .noAccountAuthenticator => []

def signatureBytes : AccountAuthenticator → List UInt8
  | .ed25519 _ signature => signature.toBytes
  | .noAccountAuthenticator => []

def authenticationKey (sha3_256Of : List UInt8 → HashValue) (x : AccountAuthenticator) :
    Option AuthenticationKey :=
  match x with
  | .noAccountAuthenticator => none
  | _ => some (AuthenticationKey.fromPreimage sha3_256Of x.publicKeyBytes x.scheme)

def numberOfSignatures : AccountAuthenticator → Nat
  | .ed25519 .. => 1
  | .noAccountAuthenticator => 0

def display (x : AccountAuthenticator) : List Char :=
  "AccountAuthenticator[scheme id: ".toList ++ x.scheme.name.toList ++ ", public key: ".toList ++
    Hex.encode x.publicKeyBytes ++ ", signature: ".toList ++ Hex.encode x.signatureBytes ++ "]".toList

theorem authenticationKey_spec (sha3_256Of : List UInt8 → HashValue) (x : AccountAuthenticator) :
    (x.authenticationKey sha3_256Of = none ↔ x = .noAccountAuthenticator) ∧
    (x ≠ .noAccountAuthenticator →
      x.authenticationKey sha3_256Of =
        some (AuthenticationKey.fromPreimage sha3_256Of x.publicKeyBytes x.scheme)) := by
  cases x <;> simp [authenticationKey]

end AccountAuthenticator

inductive TransactionAuthenticator where
  | ed25519 (publicKey : Ed25519PublicKey) (signature : Ed25519Signature)
  deriving DecidableEq

namespace TransactionAuthenticator

section Verify

variable {Msg ε : Type} (signatureVerify : Ed25519Signature → Msg → Ed25519PublicKey → Except ε Unit)

def verify (t : TransactionAuthenticator) (rawTxn : Msg) : Except ε Unit :=
  match t with
  | .ed25519 publicKey signature => signatureVerify signature rawTxn publicKey

end Verify

def sender : TransactionAuthenticator → AccountAuthenticator
  | .ed25519 publicKey signature => .ed25519 publicKey signature

theorem sender_verifies_own_key :
    ∀ (sha3_256Of : List UInt8 → HashValue) {Msg ε : Type}
      (signatureVerify : Ed25519Signature → Msg → Ed25519PublicKey → Except ε Unit),
    (∀ (pk : Ed25519PublicKey) (sig : Ed25519Signature) (raw : Msg),
      (ed25519 pk sig).sender = .ed25519 pk sig ∧
      (ed25519 pk sig).sender.authenticationKey sha3_256Of =
        some (AuthenticationKey.ed25519 sha3_256Of pk) ∧
      (ed25519 pk sig).sender.numberOfSignatures = 1 ∧
      (ed25519 pk sig).sender.numberOfSignatures ≤ maxNumOfSigs ∧
      (ed25519 pk sig).verify signatureVerify raw = signatureVerify sig raw pk) ∧
    ∀ x : AccountAuthenticator,
      (x.authenticationKey sha3_256Of = none ↔ x = .noAccountAuthenticator) ∧
      (x ≠ .noAccountAuthenticator →
        x.authenticationKey sha3_256Of =
          some (AuthenticationKey.fromPreimage sha3_256Of x.publicKeyBytes x.scheme)) :=
  fun sha3_256Of _ _ _ => ⟨fun _ _ _ => ⟨rfl, rfl, rfl, (by decide : 1 ≤ 32), rfl⟩,
    AccountAuthenticator.authenticationKey_spec sha3_256Of⟩

end TransactionAuthenticator

end IcAptos

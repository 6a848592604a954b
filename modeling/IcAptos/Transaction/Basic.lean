import IcAptos.Authenticator

namespace IcAptos

structure DeprecatedPayload where
  dummyValue : UInt64
  deriving DecidableEq

inductive TransactionPayload (Script EntryFunction : Type) where
  | script (script : Script)
  | moduleBundle (payload : DeprecatedPayload)
  | entryFunction (entryFunction : EntryFunction)
  deriving DecidableEq

def TransactionPayload.intoEntryFunction {Script EntryFunction : Type} :
    TransactionPayload Script EntryFunction → Option EntryFunction
  | .entryFunction f => some f
  | _ => none

structure RawTransaction (Script EntryFunction ChainId : Type) where
  sender : AccountAddress
  sequenceNumber : UInt64
  payload : TransactionPayload Script EntryFunction
  maxGasAmount : UInt64
  gasUnitPrice : UInt64
  expirationTimestampSecs : UInt64
  chainId : ChainId
  deriving DecidableEq

structure Bcs (Script EntryFunction ChainId : Type) where
  rawTransaction : RawTransaction Script EntryFunction ChainId → Option (List UInt8)
  transactionAuthenticator : TransactionAuthenticator → Option (List UInt8)

def OnceCell.getOrInit {α : Type} (cell : Option α) (f : Unit → Option α) : Option (α × Option α) :=
  match cell with
  | some v => some (v, some v)
  | none => (f ()).map fun v => (v, some v)

theorem OnceCell.getOrInit_of_sound {α : Type} {cell : Option α} {f : Unit → Option α}
    (h : ∀ v, cell = some v → f () = some v) :
    OnceCell.getOrInit cell f = (f ()).map fun v => (v, some v) := by
  cases cell with
  | none => rfl
  | some v => simp [OnceCell.getOrInit, h v rfl]

structure SignedTransaction (Script EntryFunction ChainId : Type) where
  rawTxn : RawTransaction Script EntryFunction ChainId
  authenticator : TransactionAuthenticator
  rawTxnSize : Option Nat
  authenticatorSize : Option Nat
  committedHashCell : Option HashValue

structure SignatureCheckedTransaction (Script EntryFunction ChainId : Type) where
  inner : SignedTransaction Script EntryFunction ChainId

inductive Transaction (Script EntryFunction ChainId : Type) where
  | userTransaction (t : SignedTransaction Script EntryFunction ChainId)

section Codec

variable {Script EntryFunction ChainId : Type} (bcs : Bcs Script EntryFunction ChainId)

def SignedTransaction.serialize (t : SignedTransaction Script EntryFunction ChainId) :
    Option (List UInt8) := do
  let rawTxn ← bcs.rawTransaction t.rawTxn
  let authenticator ← bcs.transactionAuthenticator t.authenticator
  return rawTxn ++ authenticator

def Transaction.serialize : Transaction Script EntryFunction ChainId → Option (List UInt8)
  | .userTransaction t => (t.serialize bcs).map ([0] ++ ·)

def Transaction.hash (transactionHasher : List UInt8 → HashValue)
    (x : Transaction Script EntryFunction ChainId) : Option HashValue :=
  (x.serialize bcs).map transactionHasher

end Codec

namespace SignedTransaction

section Methods

variable {Script EntryFunction ChainId : Type} (bcs : Bcs Script EntryFunction ChainId)
  (transactionHasher : List UInt8 → HashValue)

def newSignedTransaction (rawTxn : RawTransaction Script EntryFunction ChainId)
    (authenticator : TransactionAuthenticator) : SignedTransaction Script EntryFunction ChainId :=
  ⟨rawTxn, authenticator, none, none, none⟩

def new (rawTxn : RawTransaction Script EntryFunction ChainId) (publicKey : Ed25519PublicKey)
    (signature : Ed25519Signature) : SignedTransaction Script EntryFunction ChainId :=
  let authenticator := TransactionAuthenticator.ed25519 publicKey signature
  ⟨rawTxn, authenticator, none, none, none⟩

def clone (t : SignedTransaction Script EntryFunction ChainId) :
    SignedTransaction Script EntryFunction ChainId :=
  ⟨t.rawTxn, t.authenticator, t.rawTxnSize, t.authenticatorSize, t.committedHashCell⟩

def eq [DecidableEq Script] [DecidableEq EntryFunction] [DecidableEq ChainId]
    (t u : SignedTransaction Script EntryFunction ChainId) : Bool :=
  t.rawTxn == u.rawTxn && t.authenticator == u.authenticator

def rawTxnBytesLen (t : SignedTransaction Script EntryFunction ChainId) :
    Option (Nat × SignedTransaction Script EntryFunction ChainId) :=
  (OnceCell.getOrInit t.rawTxnSize fun _ => (bcs.rawTransaction t.rawTxn).map List.length).map
    fun (n, cell) => (n, { t with rawTxnSize := cell })

def txnBytesLen (t : SignedTransaction Script EntryFunction ChainId) :
    Option (Nat × SignedTransaction Script EntryFunction ChainId) := do
  let (authenticatorSize, cell) ← OnceCell.getOrInit t.authenticatorSize fun _ =>
    (bcs.transactionAuthenticator t.authenticator).map List.length
  let (rawTxnSize, t) ← rawTxnBytesLen bcs { t with authenticatorSize := cell }
  return (rawTxnSize + authenticatorSize, t)

def committedHash (t : SignedTransaction Script EntryFunction ChainId) :
    Option (HashValue × SignedTransaction Script EntryFunction ChainId) :=
  (OnceCell.getOrInit t.committedHashCell fun _ =>
      (Transaction.userTransaction t.clone).hash bcs transactionHasher).map
    fun (h, cell) => (h, { t with committedHashCell := cell })

variable {ε : Type}
  (signatureVerify : Ed25519Signature → RawTransaction Script EntryFunction ChainId →
    Ed25519PublicKey → Except ε Unit)

def checkSignature (t : SignedTransaction Script EntryFunction ChainId) :
    Except ε (SignatureCheckedTransaction Script EntryFunction ChainId) := do
  t.authenticator.verify signatureVerify t.rawTxn
  return ⟨t⟩

def verifySignature (t : SignedTransaction Script EntryFunction ChainId) : Except ε Unit := do
  t.authenticator.verify signatureVerify t.rawTxn
  return ()

theorem checkSignature_ok_iff_verifySignature (t : SignedTransaction Script EntryFunction ChainId) :
    (∃ checked, t.checkSignature signatureVerify = .ok checked) ↔
      t.verifySignature signatureVerify = .ok () := by
  unfold checkSignature verifySignature
  cases t.authenticator.verify signatureVerify t.rawTxn <;> simp

end Methods

end SignedTransaction

def SignatureCheckedTransaction.intoInner {Script EntryFunction ChainId : Type}
    (c : SignatureCheckedTransaction Script EntryFunction ChainId) :
    SignedTransaction Script EntryFunction ChainId :=
  c.inner

end IcAptos

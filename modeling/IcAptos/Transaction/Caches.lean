import IcAptos.Transaction.Basic

namespace IcAptos

namespace SignedTransaction

inductive Call (Script EntryFunction ChainId : Type) where
  | newSignedTransaction (rawTxn : RawTransaction Script EntryFunction ChainId)
      (authenticator : TransactionAuthenticator)
  | new (rawTxn : RawTransaction Script EntryFunction ChainId) (publicKey : Ed25519PublicKey)
      (signature : Ed25519Signature)
  | rawTxnBytesLen (i : Nat)
  | txnBytesLen (i : Nat)
  | committedHash (i : Nat)
  | clone (i : Nat)
  | checkSignature (i : Nat)

section Run

variable {Script EntryFunction ChainId : Type} (bcs : Bcs Script EntryFunction ChainId)
  (transactionHasher : List UInt8 → HashValue) {ε : Type}
  (signatureVerify : Ed25519Signature → RawTransaction Script EntryFunction ChainId →
    Ed25519PublicKey → Except ε Unit)

def step (pool : List (SignedTransaction Script EntryFunction ChainId)) :
    Call Script EntryFunction ChainId → Option (List (SignedTransaction Script EntryFunction ChainId))
  | .newSignedTransaction rawTxn authenticator =>
    some (pool ++ [newSignedTransaction rawTxn authenticator])
  | .new rawTxn publicKey signature => some (pool ++ [new rawTxn publicKey signature])
  | .rawTxnBytesLen i => do
    let t ← pool[i]?
    let (_, t) ← t.rawTxnBytesLen bcs
    return pool.set i t
  | .txnBytesLen i => do
    let t ← pool[i]?
    let (_, t) ← t.txnBytesLen bcs
    return pool.set i t
  | .committedHash i => do
    let t ← pool[i]?
    let (_, t) ← t.committedHash bcs transactionHasher
    return pool.set i t
  | .clone i => do
    let t ← pool[i]?
    return pool ++ [t.clone]
  | .checkSignature i => do
    let t ← pool[i]?
    match t.checkSignature signatureVerify with
    | .ok checked => return pool.set i checked.intoInner
    | .error _ => return pool.eraseIdx i

def run (pool : List (SignedTransaction Script EntryFunction ChainId)) :
    List (Call Script EntryFunction ChainId) →
      Option (List (SignedTransaction Script EntryFunction ChainId))
  | [] => some pool
  | c :: cs => (step bcs transactionHasher signatureVerify pool c).bind fun pool => run pool cs

def Reachable (t : SignedTransaction Script EntryFunction ChainId) : Prop :=
  ∃ calls pool, run bcs transactionHasher signatureVerify [] calls = some pool ∧ t ∈ pool

theorem newSignedTransaction_reachable (rawTxn : RawTransaction Script EntryFunction ChainId)
    (authenticator : TransactionAuthenticator) :
    Reachable bcs transactionHasher signatureVerify (newSignedTransaction rawTxn authenticator) :=
  ⟨[.newSignedTransaction rawTxn authenticator], _, rfl, List.mem_singleton_self _⟩

structure CacheSound (t : SignedTransaction Script EntryFunction ChainId) : Prop where
  rawTxnSize : ∀ n, t.rawTxnSize = some n → (bcs.rawTransaction t.rawTxn).map List.length = some n
  authenticatorSize : ∀ n, t.authenticatorSize = some n →
    (bcs.transactionAuthenticator t.authenticator).map List.length = some n
  committedHash : ∀ h, t.committedHashCell = some h →
    (Transaction.userTransaction (newSignedTransaction t.rawTxn t.authenticator)).hash bcs
      transactionHasher = some h

def PoolSound (pool : List (SignedTransaction Script EntryFunction ChainId)) : Prop :=
  ∀ t ∈ pool, CacheSound bcs transactionHasher t

variable {bcs transactionHasher}

theorem rawTxnBytesLen_eq {t : SignedTransaction Script EntryFunction ChainId}
    (h : CacheSound bcs transactionHasher t) :
    t.rawTxnBytesLen bcs =
      ((bcs.rawTransaction t.rawTxn).map List.length).map fun n => (n, { t with rawTxnSize := some n }) := by
  rw [rawTxnBytesLen, OnceCell.getOrInit_of_sound h.rawTxnSize, Option.map_map]
  rfl

theorem txnBytesLen_eq {t : SignedTransaction Script EntryFunction ChainId}
    (h : CacheSound bcs transactionHasher t) :
    t.txnBytesLen bcs =
      ((bcs.transactionAuthenticator t.authenticator).map List.length).bind fun a =>
        ((bcs.rawTransaction t.rawTxn).map List.length).map fun n =>
          (n + a, { t with authenticatorSize := some a, rawTxnSize := some n }) := by
  rw [txnBytesLen, OnceCell.getOrInit_of_sound h.authenticatorSize]
  cases ha : (bcs.transactionAuthenticator t.authenticator).map List.length with
  | none => rfl
  | some a =>
    have h' : CacheSound bcs transactionHasher { t with authenticatorSize := some a } :=
      ⟨h.rawTxnSize, fun _ e => Option.some.inj e ▸ ha, h.committedHash⟩
    simp only [Option.map_some', Option.bind_eq_bind, Option.some_bind, rawTxnBytesLen_eq h']
    cases (bcs.rawTransaction t.rawTxn).map List.length <;> rfl

theorem committedHash_eq {t : SignedTransaction Script EntryFunction ChainId}
    (h : CacheSound bcs transactionHasher t) :
    t.committedHash bcs transactionHasher =
      ((Transaction.userTransaction (newSignedTransaction t.rawTxn t.authenticator)).hash bcs
        transactionHasher).map fun v => (v, { t with committedHashCell := some v }) := by
  rw [committedHash, OnceCell.getOrInit_of_sound h.committedHash, Option.map_map]
  rfl

theorem CacheSound.newSignedTransaction (rawTxn : RawTransaction Script EntryFunction ChainId)
    (authenticator : TransactionAuthenticator) :
    CacheSound bcs transactionHasher (newSignedTransaction rawTxn authenticator) :=
  ⟨fun _ => nofun, fun _ => nofun, fun _ => nofun⟩

theorem CacheSound.after_rawTxnBytesLen {t t' : SignedTransaction Script EntryFunction ChainId} {n : Nat}
    (h : CacheSound bcs transactionHasher t) (e : t.rawTxnBytesLen bcs = some (n, t')) :
    CacheSound bcs transactionHasher t' := by
  rw [rawTxnBytesLen_eq h, Option.map_eq_some'] at e
  obtain ⟨m, hm, he⟩ := e
  cases he
  exact ⟨fun _ e => Option.some.inj e ▸ hm, h.authenticatorSize, h.committedHash⟩

theorem CacheSound.after_txnBytesLen {t t' : SignedTransaction Script EntryFunction ChainId} {n : Nat}
    (h : CacheSound bcs transactionHasher t) (e : t.txnBytesLen bcs = some (n, t')) :
    CacheSound bcs transactionHasher t' := by
  rw [txnBytesLen_eq h, Option.bind_eq_some] at e
  obtain ⟨a, ha, e⟩ := e
  obtain ⟨m, hm, he⟩ := Option.map_eq_some'.1 e
  cases he
  exact ⟨fun _ e => Option.some.inj e ▸ hm, fun _ e => Option.some.inj e ▸ ha, h.committedHash⟩

theorem CacheSound.after_committedHash {t t' : SignedTransaction Script EntryFunction ChainId}
    {v : HashValue} (h : CacheSound bcs transactionHasher t)
    (e : t.committedHash bcs transactionHasher = some (v, t')) :
    CacheSound bcs transactionHasher t' := by
  rw [committedHash_eq h, Option.map_eq_some'] at e
  obtain ⟨w, hw, he⟩ := e
  cases he
  exact ⟨h.rawTxnSize, h.authenticatorSize, fun _ e => Option.some.inj e ▸ hw⟩

theorem intoInner_checkSignature {t : SignedTransaction Script EntryFunction ChainId}
    {checked : SignatureCheckedTransaction Script EntryFunction ChainId}
    (e : t.checkSignature signatureVerify = .ok checked) : checked.intoInner = t := by
  unfold checkSignature at e
  cases hv : t.authenticator.verify signatureVerify t.rawTxn with
  | error _ => simp [hv] at e
  | ok _ => simp only [hv, Except.ok_bind', Except.pure_eq_ok, Except.ok.injEq] at e; rw [← e]; rfl

theorem PoolSound.append {pool : List (SignedTransaction Script EntryFunction ChainId)}
    {t : SignedTransaction Script EntryFunction ChainId} (hp : PoolSound bcs transactionHasher pool)
    (ht : CacheSound bcs transactionHasher t) : PoolSound bcs transactionHasher (pool ++ [t]) := by
  intro u hu
  rcases List.mem_append.1 hu with hu | hu
  · exact hp u hu
  · rw [List.mem_singleton.1 hu]; exact ht

theorem PoolSound.set {pool : List (SignedTransaction Script EntryFunction ChainId)} {i : Nat}
    {t : SignedTransaction Script EntryFunction ChainId} (hp : PoolSound bcs transactionHasher pool)
    (ht : CacheSound bcs transactionHasher t) : PoolSound bcs transactionHasher (pool.set i t) := by
  intro u hu
  rcases List.mem_or_eq_of_mem_set hu with hu | rfl
  · exact hp u hu
  · exact ht

theorem step_sound {pool pool' : List (SignedTransaction Script EntryFunction ChainId)}
    {c : Call Script EntryFunction ChainId} (hp : PoolSound bcs transactionHasher pool)
    (e : step bcs transactionHasher signatureVerify pool c = some pool') :
    PoolSound bcs transactionHasher pool' := by
  cases c <;>
    simp only [step, Option.bind_eq_bind, Option.bind_eq_some, Option.pure_def, Option.some.injEq] at e
  case newSignedTransaction rawTxn authenticator =>
    subst e; exact hp.append (CacheSound.newSignedTransaction rawTxn authenticator)
  case new rawTxn _ _ =>
    subst e; exact hp.append (CacheSound.newSignedTransaction rawTxn _)
  case rawTxnBytesLen =>
    obtain ⟨t, ht, _, e', rfl⟩ := e
    exact hp.set ((hp t (List.getElem?_mem ht)).after_rawTxnBytesLen e')
  case txnBytesLen =>
    obtain ⟨t, ht, _, e', rfl⟩ := e
    exact hp.set ((hp t (List.getElem?_mem ht)).after_txnBytesLen e')
  case committedHash =>
    obtain ⟨t, ht, _, e', rfl⟩ := e
    exact hp.set ((hp t (List.getElem?_mem ht)).after_committedHash e')
  case clone =>
    obtain ⟨t, ht, rfl⟩ := e
    have h := hp t (List.getElem?_mem ht)
    exact hp.append ⟨h.rawTxnSize, h.authenticatorSize, h.committedHash⟩
  case checkSignature i =>
    obtain ⟨t, ht, e⟩ := e
    split at e
    · cases e
      rw [intoInner_checkSignature signatureVerify ‹_›]
      exact hp.set (hp t (List.getElem?_mem ht))
    · cases e
      exact fun u hu => hp u (List.mem_of_mem_eraseIdx hu)

theorem run_sound {pool pool' : List (SignedTransaction Script EntryFunction ChainId)}
    {calls : List (Call Script EntryFunction ChainId)} (hp : PoolSound bcs transactionHasher pool)
    (e : run bcs transactionHasher signatureVerify pool calls = some pool') :
    PoolSound bcs transactionHasher pool' := by
  induction calls generalizing pool with
  | nil => cases e; exact hp
  | cons c cs ih =>
    obtain ⟨p, hs, hr⟩ := Option.bind_eq_some.1 e
    exact ih (step_sound signatureVerify hp hs) hr

end Run

section Soundness

variable {Script EntryFunction ChainId : Type} {bcs : Bcs Script EntryFunction ChainId}
  {transactionHasher : List UInt8 → HashValue}

theorem accessors_spec {t : SignedTransaction Script EntryFunction ChainId}
    (h : CacheSound bcs transactionHasher t) :
    (t.rawTxnBytesLen bcs).map Prod.fst = (bcs.rawTransaction t.rawTxn).map List.length ∧
    (t.txnBytesLen bcs).map Prod.fst =
      ((bcs.transactionAuthenticator t.authenticator).map List.length).bind (fun a =>
        ((bcs.rawTransaction t.rawTxn).map List.length).map (fun n => n + a)) ∧
    (t.committedHash bcs transactionHasher).map Prod.fst =
      (Transaction.userTransaction (newSignedTransaction t.rawTxn t.authenticator)).hash bcs
        transactionHasher := by
  rw [rawTxnBytesLen_eq h, txnBytesLen_eq h, committedHash_eq h]
  simp [Option.map_map, Function.comp_def, Option.map_bind]

end Soundness

section Content

variable {Script EntryFunction ChainId : Type}

def content (t : SignedTransaction Script EntryFunction ChainId) :
    RawTransaction Script EntryFunction ChainId × TransactionAuthenticator :=
  (t.rawTxn, t.authenticator)

def Call.created : Call Script EntryFunction ChainId →
    Option (RawTransaction Script EntryFunction ChainId × TransactionAuthenticator)
  | .newSignedTransaction rawTxn authenticator => some (rawTxn, authenticator)
  | .new rawTxn publicKey signature => some (rawTxn, .ed25519 publicKey signature)
  | _ => none

def Call.readsCache : Call Script EntryFunction ChainId → Bool
  | .rawTxnBytesLen _ | .txnBytesLen _ | .committedHash _ => true
  | _ => false

variable {bcs : Bcs Script EntryFunction ChainId} {transactionHasher : List UInt8 → HashValue}
  {ε : Type} (signatureVerify : Ed25519Signature → RawTransaction Script EntryFunction ChainId →
    Ed25519PublicKey → Except ε Unit)

theorem content_rawTxnBytesLen {t t' : SignedTransaction Script EntryFunction ChainId} {n : Nat}
    (e : t.rawTxnBytesLen bcs = some (n, t')) : t'.content = t.content := by
  obtain ⟨_, -, he⟩ := Option.map_eq_some'.1 e
  cases he
  rfl

theorem content_txnBytesLen {t t' : SignedTransaction Script EntryFunction ChainId} {n : Nat}
    (e : t.txnBytesLen bcs = some (n, t')) : t'.content = t.content := by
  simp only [txnBytesLen, Option.bind_eq_bind, Option.bind_eq_some, Option.pure_def,
    Option.some.injEq] at e
  obtain ⟨⟨a, cell⟩, -, ⟨m, u⟩, hu, he⟩ := e
  cases he
  have hc := content_rawTxnBytesLen hu
  exact hc

theorem content_committedHash {t t' : SignedTransaction Script EntryFunction ChainId} {v : HashValue}
    (e : t.committedHash bcs transactionHasher = some (v, t')) : t'.content = t.content := by
  obtain ⟨_, -, he⟩ := Option.map_eq_some'.1 e
  cases he
  rfl

theorem mem_set_content {pool : List (SignedTransaction Script EntryFunction ChainId)} {i : Nat}
    {t t' : SignedTransaction Script EntryFunction ChainId} (ht : pool[i]? = some t)
    (h : t'.content = t.content) : ∀ u ∈ pool.set i t', u.content ∈ pool.map content := by
  intro u hu
  rcases List.mem_or_eq_of_mem_set hu with hu | rfl
  · exact List.mem_map_of_mem _ hu
  · exact h ▸ List.mem_map_of_mem _ (List.getElem?_mem ht)

theorem set_eq_self_of_getElem? {α : Type} {l : List α} {i : Nat} {a : α} (h : l[i]? = some a) :
    l.set i a = l := by
  apply List.ext_getElem?
  intro j
  rw [List.getElem?_set']
  split_ifs with hij
  · subst hij; rw [h]; rfl
  · rfl

theorem map_content_set {pool : List (SignedTransaction Script EntryFunction ChainId)} {i : Nat}
    {t t' : SignedTransaction Script EntryFunction ChainId} (ht : pool[i]? = some t)
    (h : t'.content = t.content) : (pool.set i t').map content = pool.map content := by
  rw [List.map_set, h]
  exact set_eq_self_of_getElem? (by rw [List.getElem?_map, ht]; rfl)

theorem step_readsCache {pool pool' : List (SignedTransaction Script EntryFunction ChainId)}
    {c : Call Script EntryFunction ChainId} (hc : c.readsCache = true)
    (e : step bcs transactionHasher signatureVerify pool c = some pool') :
    pool'.map content = pool.map content := by
  cases c <;> simp only [Call.readsCache, Bool.false_eq_true] at hc <;>
    simp only [step, Option.bind_eq_bind, Option.bind_eq_some, Option.pure_def, Option.some.injEq] at e
  case rawTxnBytesLen =>
    obtain ⟨t, ht, _, e', rfl⟩ := e
    exact map_content_set ht (content_rawTxnBytesLen e')
  case txnBytesLen =>
    obtain ⟨t, ht, _, e', rfl⟩ := e
    exact map_content_set ht (content_txnBytesLen e')
  case committedHash =>
    obtain ⟨t, ht, _, e', rfl⟩ := e
    exact map_content_set ht (content_committedHash e')

theorem step_content {pool pool' : List (SignedTransaction Script EntryFunction ChainId)}
    {c : Call Script EntryFunction ChainId}
    (e : step bcs transactionHasher signatureVerify pool c = some pool') :
    ∀ t ∈ pool', t.content ∈ pool.map content ∨ c.created = some t.content := by
  cases c <;>
    simp only [step, Option.bind_eq_bind, Option.bind_eq_some, Option.pure_def, Option.some.injEq] at e
  case newSignedTransaction | new =>
    subst e
    intro t ht
    rcases List.mem_append.1 ht with ht | ht
    · exact .inl (List.mem_map_of_mem _ ht)
    · rw [List.mem_singleton.1 ht]; exact .inr rfl
  case rawTxnBytesLen =>
    obtain ⟨t, ht, _, e', rfl⟩ := e
    exact fun u hu => .inl (mem_set_content ht (content_rawTxnBytesLen e') u hu)
  case txnBytesLen =>
    obtain ⟨t, ht, _, e', rfl⟩ := e
    exact fun u hu => .inl (mem_set_content ht (content_txnBytesLen e') u hu)
  case committedHash =>
    obtain ⟨t, ht, _, e', rfl⟩ := e
    exact fun u hu => .inl (mem_set_content ht (content_committedHash e') u hu)
  case clone =>
    obtain ⟨t, ht, rfl⟩ := e
    intro u hu
    rcases List.mem_append.1 hu with hu | hu
    · exact .inl (List.mem_map_of_mem _ hu)
    · rw [List.mem_singleton.1 hu]; exact .inl (List.mem_map_of_mem _ (List.getElem?_mem ht))
  case checkSignature =>
    obtain ⟨t, ht, e⟩ := e
    split at e
    · cases e
      exact fun u hu => .inl (mem_set_content ht
        (congrArg content (intoInner_checkSignature signatureVerify ‹_›)) u hu)
    · cases e
      exact fun u hu => .inl (List.mem_map_of_mem _ (List.mem_of_mem_eraseIdx hu))

theorem run_content {pool pool' : List (SignedTransaction Script EntryFunction ChainId)}
    {calls : List (Call Script EntryFunction ChainId)}
    (e : run bcs transactionHasher signatureVerify pool calls = some pool') :
    ∀ t ∈ pool', t.content ∈ pool.map content ∨ ∃ c ∈ calls, c.created = some t.content := by
  induction calls generalizing pool with
  | nil => cases e; exact fun t ht => .inl (List.mem_map_of_mem _ ht)
  | cons c cs ih =>
    obtain ⟨p, hs, hr⟩ := Option.bind_eq_some.1 e
    intro t ht
    rcases ih hr t ht with hp | ⟨c', hc', hcr⟩
    · obtain ⟨u, hu, hut⟩ := List.mem_map.1 hp
      rcases step_content signatureVerify hs u hu with h | h
      · exact .inl (hut ▸ h)
      · exact .inr ⟨c, List.mem_cons_self _ _, hut ▸ h⟩
    · exact .inr ⟨c', List.mem_cons_of_mem _ hc', hcr⟩

end Content

theorem caches_sound_on_every_run {Script EntryFunction ChainId : Type} [DecidableEq Script]
    [DecidableEq EntryFunction] [DecidableEq ChainId] (bcs : Bcs Script EntryFunction ChainId)
    (transactionHasher : List UInt8 → HashValue) {ε : Type}
    (signatureVerify : Ed25519Signature → RawTransaction Script EntryFunction ChainId →
      Ed25519PublicKey → Except ε Unit) :
    (∀ t, Reachable bcs transactionHasher signatureVerify t → CacheSound bcs transactionHasher t) ∧
    (∀ t, Reachable bcs transactionHasher signatureVerify t →
      (t.rawTxnBytesLen bcs).map Prod.fst = (bcs.rawTransaction t.rawTxn).map List.length ∧
      (t.txnBytesLen bcs).map Prod.fst =
        ((bcs.transactionAuthenticator t.authenticator).map List.length).bind (fun a =>
          ((bcs.rawTransaction t.rawTxn).map List.length).map (fun n => n + a)) ∧
      (t.committedHash bcs transactionHasher).map Prod.fst =
        (Transaction.userTransaction (newSignedTransaction t.rawTxn t.authenticator)).hash bcs
          transactionHasher) ∧
    ∀ t u, Reachable bcs transactionHasher signatureVerify t →
      Reachable bcs transactionHasher signatureVerify u → t.eq u = true →
      (t.rawTxnBytesLen bcs).map Prod.fst = (u.rawTxnBytesLen bcs).map Prod.fst ∧
      (t.txnBytesLen bcs).map Prod.fst = (u.txnBytesLen bcs).map Prod.fst ∧
      (t.committedHash bcs transactionHasher).map Prod.fst =
        (u.committedHash bcs transactionHasher).map Prod.fst := by
  have sound : ∀ t, Reachable bcs transactionHasher signatureVerify t →
      CacheSound bcs transactionHasher t :=
    fun t ⟨_, _, hr, ht⟩ => run_sound signatureVerify (fun _ h => absurd h (List.not_mem_nil _)) hr t ht
  refine ⟨sound, fun t ht => accessors_spec (sound t ht), fun t u ht hu he => ?_⟩
  obtain ⟨hr, ha⟩ : t.rawTxn = u.rawTxn ∧ t.authenticator = u.authenticator := by simpa [eq] using he
  obtain ⟨h₁, h₂, h₃⟩ := accessors_spec (sound t ht)
  obtain ⟨h₁', h₂', h₃'⟩ := accessors_spec (sound u hu)
  rw [h₁, h₂, h₃, h₁', h₂', h₃', hr, ha]
  exact ⟨rfl, rfl, rfl⟩

end SignedTransaction

end IcAptos

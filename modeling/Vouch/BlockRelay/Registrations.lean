import Vouch.Basic

/-!
# Validator registrations for the block relays

`SubmitValidatorRegistrations` of `services/blockrelay/standard` builds one signed registration
per validating account that has a fee recipient and whose registration the signer signs, and
hands the list of them to every configured submitter.

The loop over the accounts keeps two arrays declared before it, `pubkey` and `feeRecipient`, and
overwrites them pass by pass. The account's key is copied into `pubkey` with Go's `copy`, which
leaves in place the bytes that the key does not cover. When every key has the full 48 bytes,
each pass overwrites all of `pubkey`, and the loop builds, in the map's iteration order, what each
entry gives on its own (`submitValidatorRegistrations_registers_each_entry`). A shorter key
keeps the tail of the key of an earlier pass (`registrationPass_pubkey`); whatever the keys'
lengths, each registration handed on is still signed for exactly its message, at an entry whose
key starts its `pubkey` (`submitValidatorRegistrations_hands_signed`). A pass adds at most one
registration, so no validator is registered twice in a call, whatever the map's iteration order
(`submitValidatorRegistrations_registers_once`).

## Main definitions

* `Vouch.BlockRelay.ValidatorRegistration`, `Vouch.BlockRelay.SignedValidatorRegistration`.
* `Vouch.BlockRelay.registrationPass`, `Vouch.BlockRelay.registrationLoop`,
  `Vouch.BlockRelay.submitValidatorRegistrations`.
* `Vouch.BlockRelay.registrationOf`: the registration of one entry, built from it alone.
* `Vouch.BlockRelay.SignedFor`: what a registration added at one entry carries.

## Main results

* `Vouch.BlockRelay.registrationLoop_eq`: the loop refines the entry-by-entry registrations.
* `Vouch.BlockRelay.submitValidatorRegistrations_registers_each_entry`
* `Vouch.BlockRelay.submitValidatorRegistrations_hands_signed`: what every handed registration
  carries, for keys of any length.
* `Vouch.BlockRelay.submitValidatorRegistrations_registers_once`: each validator at most once.

## References

* `src/services/blockrelay/standard/submitvalidatorregistrations.go`, lines 32–109.
-/

namespace Vouch.BlockRelay

/-- `apiv1.ValidatorRegistration`. -/
structure ValidatorRegistration where
  feeRecipient : ExecutionAddress
  gasLimit : ℕ
  timestamp : ℕ
  pubkey : BLSPubKey
deriving DecidableEq, Repr

/-- `apiv1.SignedValidatorRegistration`. -/
structure SignedValidatorRegistration where
  message : ValidatorRegistration
  signature : BLSSignature
deriving DecidableEq, Repr

/-- The fields of the block-relay `Service` that `SubmitValidatorRegistrations` reads: the gas
limit, and the submitters, each by its `Address()`. -/
structure Service where
  gasLimit : ℕ
  validatorRegistrationsSubmitters : List String

/-- What `SubmitValidatorRegistrations` reads besides its arguments and the service: the value of
`time.Now().Round(time.Second)` at each pass of its loop, and the answers of the signer. -/
structure Providers where
  now : ℕ → ℕ
  signValidatorRegistration : Account → ValidatorRegistration → Except String BLSSignature

/-- The key of an account (lines 43–48): `CompositePublicKey()` where the account provides one,
else `PublicKey()`; `none` where it provides neither, and the type assertion panics. -/
def accountPubkey (account : Account) : Option (List UInt8) :=
  match account.compositePublicKey with
  | some key => some key
  | none => account.publicKey

/-- The variables the loop carries from pass to pass: the arrays `pubkey` and `feeRecipient`,
declared before it, and `signedRegistrations`. -/
structure LoopState where
  pubkey : BLSPubKey
  feeRecipient : ExecutionAddress
  signedRegistrations : List SignedValidatorRegistration

section Loop

variable (s : Service) (p : Providers) (feeRecipients : GoMap ℕ ExecutionAddress)

/-- The pass of the loop (lines 43–84) over the entry `(index, account)`, the `i`-th of the map;
`none` where the type assertion panics. -/
def registrationPass (st : LoopState) (i index : ℕ) (account : Account) : Option LoopState := do
  let key ← accountPubkey account
  let pubkey := st.pubkey.copy key
  match feeRecipients.lookup index with
  | none => some { st with pubkey := pubkey, feeRecipient := Bytes.zero 20 }
  | some feeRecipient =>
    let registration : ValidatorRegistration := ⟨feeRecipient, s.gasLimit, p.now i, pubkey⟩
    match p.signValidatorRegistration account registration with
    | .error _ => some { st with pubkey := pubkey, feeRecipient := feeRecipient }
    | .ok sig => some ⟨pubkey, feeRecipient, st.signedRegistrations ++ [⟨registration, sig⟩]⟩

/-- The loop over the entries of the accounts map, from the `i`-th on. -/
def registrationLoop : LoopState → ℕ → List (ℕ × Account) → Option LoopState
  | st, _, [] => some st
  | st, i, (index, account) :: entries =>
    (registrationPass s p feeRecipients st i index account).bind fun st' =>
      registrationLoop st' (i + 1) entries

/-- The registration of the `i`-th entry `(index, account)`, built from the entry alone with its
key copied into a fresh array; `none` when the index has no fee recipient or the signer fails. -/
def registrationOf (i : ℕ) : ℕ × Account → Option SignedValidatorRegistration
  | (index, account) => do
    let key ← accountPubkey account
    let feeRecipient ← feeRecipients.lookup index
    let registration : ValidatorRegistration :=
      ⟨feeRecipient, s.gasLimit, p.now i, (Bytes.zero 48).copy key⟩
    match p.signValidatorRegistration account registration with
    | .ok sig => some ⟨registration, sig⟩
    | .error _ => none

/-- What a registration that the pass over the `i`-th entry `(index, account)` adds carries,
whatever the keys of the passes before it: a `pubkey` that starts with the account's key, the
index's fee recipient, the service's gas limit, the pass's time, and the signer's signature of
exactly its message. -/
def SignedFor (i index : ℕ) (account : Account) (r : SignedValidatorRegistration) : Prop :=
  ∃ key, accountPubkey account = some key ∧ key.take 48 <+: r.message.pubkey.data ∧
    feeRecipients.lookup index = some r.message.feeRecipient ∧ r.message.gasLimit = s.gasLimit ∧
    r.message.timestamp = p.now i ∧ p.signValidatorRegistration account r.message = .ok r.signature

end Loop

/-- `SubmitValidatorRegistrations`: the registrations each submitter is handed, by its address;
`none` where the process panics. It returns `nil` whatever the submitters answer. -/
def submitValidatorRegistrations (s : Service) (p : Providers) (accounts : GoMap ℕ Account)
    (feeRecipients : GoMap ℕ ExecutionAddress) :
    Option (List (String × List SignedValidatorRegistration)) :=
  (registrationLoop s p feeRecipients ⟨Bytes.zero 48, Bytes.zero 20, []⟩ 0 accounts.entries).map
    fun st => s.validatorRegistrationsSubmitters.map fun submitter =>
      (submitter, st.signedRegistrations)

section Refinement

variable {s : Service} {p : Providers} {feeRecipients : GoMap ℕ ExecutionAddress}

/-- A pass copies the account's key over the `pubkey` of the passes before it. -/
theorem registrationPass_pubkey {st st' : LoopState} {i index : ℕ} {account : Account}
    {key : List UInt8} (hkey : accountPubkey account = some key)
    (h : registrationPass s p feeRecipients st i index account = some st') :
    st'.pubkey.data = key.take 48 ++ st.pubkey.data.drop key.length := by
  simp only [registrationPass, hkey, Option.bind_eq_bind, Option.some_bind] at h
  split at h
  · cases h; rfl
  · split at h <;> cases h <;> rfl

example : (registrationPass ⟨0, []⟩ ⟨fun _ => 0, fun _ _ => .error "refused"⟩ ⟨[], by decide⟩
    ⟨⟨List.replicate 48 1, List.length_replicate _ _⟩, Bytes.zero 20, []⟩ 0 2
    ⟨none, some (List.replicate 47 2)⟩).map (·.pubkey.data) =
      some (List.replicate 47 2 ++ [1]) := by
  decide

variable (s p feeRecipients) in
/-- A pass over an account with a key of 48 bytes adds the registration of its entry alone. -/
theorem registrationPass_eq (st : LoopState) (i index : ℕ) (account : Account) {key : List UInt8}
    (hkey : accountPubkey account = some key) (hlen : key.length = 48) :
    ∃ st', registrationPass s p feeRecipients st i index account = some st' ∧
      st'.signedRegistrations =
        st.signedRegistrations ++ (registrationOf s p feeRecipients i (index, account)).toList := by
  have hpk : st.pubkey.copy key = (Bytes.zero 48).copy key :=
    Bytes.ext (by rw [Bytes.copy_of_length_eq _ hlen, Bytes.copy_of_length_eq _ hlen])
  simp only [registrationPass, registrationOf, hkey, hpk, Option.bind_eq_bind, Option.some_bind]
  cases feeRecipients.lookup index with
  | none => simp
  | some feeRecipient =>
    simp only [Option.some_bind]
    split <;> simp_all

variable (s p feeRecipients) in
/-- Over accounts with keys of 48 bytes, the loop adds, in the order of the entries, the
registration of each entry alone. -/
theorem registrationLoop_eq :
    ∀ (entries : List (ℕ × Account)) (st : LoopState) (i : ℕ),
      (∀ entry ∈ entries, ∃ key, accountPubkey entry.2 = some key ∧ key.length = 48) →
      ∃ st', registrationLoop s p feeRecipients st i entries = some st' ∧
        st'.signedRegistrations = st.signedRegistrations ++
          (entries.enumFrom i).filterMap fun x => registrationOf s p feeRecipients x.1 x.2
  | [], st, _, _ => ⟨st, rfl, by simp⟩
  | (index, account) :: entries, st, i, hkeys => by
    obtain ⟨key, hkey, hlen⟩ := hkeys _ (List.mem_cons_self _ _)
    obtain ⟨st₁, h₁, hregs₁⟩ := registrationPass_eq s p feeRecipients st i index account hkey hlen
    obtain ⟨st', h', hregs'⟩ := registrationLoop_eq entries st₁ (i + 1)
      fun entry he => hkeys entry (List.mem_cons_of_mem _ he)
    refine ⟨st', by simp [registrationLoop, h₁, h'], ?_⟩
    rw [hregs', hregs₁, List.enumFrom_cons, List.filterMap_cons]
    cases registrationOf s p feeRecipients i (index, account) <;> simp

/-- What the registration of an entry is: the account's key, the index's fee recipient, the
service's gas limit and the pass's time, signed by the signer. -/
theorem registrationOf_eq_some_iff {i index : ℕ} {account : Account} {key : List UInt8}
    (hkey : accountPubkey account = some key) (hlen : key.length = 48)
    {r : SignedValidatorRegistration} :
    registrationOf s p feeRecipients i (index, account) = some r ↔
      ∃ feeRecipient, feeRecipients.lookup index = some feeRecipient ∧
        r.message.pubkey.data = key ∧ r.message.feeRecipient = feeRecipient ∧
        r.message.gasLimit = s.gasLimit ∧ r.message.timestamp = p.now i ∧
        p.signValidatorRegistration account r.message = .ok r.signature := by
  obtain ⟨⟨feeRecipient', gasLimit, timestamp, pubkey⟩, sig⟩ := r
  have hpk : pubkey.data = key ↔ (Bytes.zero 48).copy key = pubkey := by
    rw [Bytes.ext_iff, Bytes.copy_of_length_eq _ hlen, eq_comm]
  simp only [registrationOf, hkey, Option.bind_eq_bind, Option.some_bind, hpk]
  cases feeRecipients.lookup index with
  | none => simp
  | some feeRecipient =>
    simp only [Option.some_bind, Option.some.injEq, exists_eq_left']
    split <;> rename_i hsign
    · simp only [Option.some.injEq, SignedValidatorRegistration.mk.injEq,
        ValidatorRegistration.mk.injEq]
      constructor
      · rintro ⟨⟨rfl, rfl, rfl, rfl⟩, rfl⟩
        exact ⟨rfl, rfl, rfl, rfl, hsign⟩
      · rintro ⟨rfl, rfl, rfl, rfl, h⟩
        exact ⟨⟨rfl, rfl, rfl, rfl⟩, Except.ok.inj (hsign.symm.trans h)⟩
    · simp only [reduceCtorEq, false_iff, not_and]
      rintro rfl rfl rfl rfl h
      simp [hsign] at h

/-- A pass adds at most one registration, and that one is signed for its own entry. -/
theorem registrationPass_signedFor {st st' : LoopState} {i index : ℕ} {account : Account}
    (h : registrationPass s p feeRecipients st i index account = some st') :
    st'.signedRegistrations = st.signedRegistrations ∨
      ∃ r, st'.signedRegistrations = st.signedRegistrations ++ [r] ∧
        SignedFor s p feeRecipients i index account r := by
  cases hkey : accountPubkey account with
  | none => simp [registrationPass, hkey] at h
  | some key =>
    simp only [registrationPass, hkey, Option.bind_eq_bind, Option.some_bind] at h
    split at h
    · cases h; exact .inl rfl
    · rename_i feeRecipient hfee
      split at h
      · cases h; exact .inl rfl
      · rename_i sig hsig
        cases h
        exact .inr ⟨_, rfl, key, hkey, List.prefix_append _ _, hfee, rfl, rfl, hsig⟩

variable (s p feeRecipients) in
/-- The registrations that the loop adds from its `i`-th entry on are, in order, one for each
entry of a sublist of the entries it passes over, each signed for its entry. -/
theorem registrationLoop_signedFor :
    ∀ (entries : List (ℕ × Account)) (st st' : LoopState) (i : ℕ),
      registrationLoop s p feeRecipients st i entries = some st' →
      ∃ signed new, st'.signedRegistrations = st.signedRegistrations ++ new ∧
        signed.Sublist (entries.enumFrom i) ∧
        List.Forall₂ (fun x r => SignedFor s p feeRecipients x.1 x.2.1 x.2.2 r) signed new
  | [], st, st', _, h => by cases h; exact ⟨[], [], by simp, List.nil_sublist _, .nil⟩
  | (index, account) :: entries, st, st', i, h => by
    obtain ⟨st₁, h₁, h'⟩ := Option.bind_eq_some.mp h
    obtain ⟨signed, new, hregs', hsub, hall⟩ :=
      registrationLoop_signedFor entries st₁ st' (i + 1) h'
    rcases registrationPass_signedFor h₁ with hregs₁ | ⟨r, hregs₁, hr⟩
    · exact ⟨signed, new, by rw [hregs', hregs₁], hsub.cons _, hall⟩
    · exact ⟨(i, index, account) :: signed, r :: new,
        by rw [hregs', hregs₁, List.append_assoc, List.singleton_append], hsub.cons₂ _,
        .cons hr hall⟩

end Refinement

/-- When every account's key has 48 bytes, every submitter is handed the same list: in the map's
iteration order, the registration of each entry built from that entry alone, present exactly when
its index has a fee recipient and the signer signs it. -/
theorem submitValidatorRegistrations_registers_each_entry (s : Service) (p : Providers)
    (accounts : GoMap ℕ Account) (feeRecipients : GoMap ℕ ExecutionAddress)
    (hkeys : ∀ account ∈ accounts.values, ∃ key, accountPubkey account = some key ∧
      key.length = 48) :
    submitValidatorRegistrations s p accounts feeRecipients =
        some (s.validatorRegistrationsSubmitters.map fun submitter =>
          (submitter, accounts.entries.enum.filterMap fun x =>
            registrationOf s p feeRecipients x.1 x.2)) ∧
      ∀ i index account r, accounts.entries[i]? = some (index, account) →
        (registrationOf s p feeRecipients i (index, account) = some r ↔
          ∃ key feeRecipient, accountPubkey account = some key ∧
            feeRecipients.lookup index = some feeRecipient ∧
            r.message.pubkey.data = key ∧ r.message.feeRecipient = feeRecipient ∧
            r.message.gasLimit = s.gasLimit ∧ r.message.timestamp = p.now i ∧
            p.signValidatorRegistration account r.message = .ok r.signature) := by
  have hentries : ∀ entry ∈ accounts.entries, ∃ key, accountPubkey entry.2 = some key ∧
      key.length = 48 := fun entry he => hkeys _ (List.mem_map_of_mem Prod.snd he)
  obtain ⟨st, hst, hregs⟩ := registrationLoop_eq s p feeRecipients accounts.entries
    ⟨Bytes.zero 48, Bytes.zero 20, []⟩ 0 hentries
  refine ⟨by simp [submitValidatorRegistrations, hst, hregs, List.enum], ?_⟩
  intro i index account r hi
  obtain ⟨key, hkey, hlen⟩ : ∃ key, accountPubkey account = some key ∧ key.length = 48 :=
    hentries _ (List.mem_iff_getElem?.mpr ⟨i, hi⟩)
  rw [registrationOf_eq_some_iff hkey hlen]
  simp only [hkey, Option.some.injEq, exists_and_left, exists_eq_left']

/-- Two relays and a gas limit of 30,000,000. -/
def twoRelays : Service := ⟨30000000, ["relay-a", "relay-b"]⟩

/-- Accounts of validators 1, with a composite key, 2 and 3, each key of 48 bytes. -/
def threeAccounts : GoMap ℕ Account :=
  ⟨[(1, ⟨some (List.replicate 48 1), some (List.replicate 48 9)⟩),
    (2, ⟨none, some (List.replicate 48 2)⟩), (3, ⟨none, some (List.replicate 48 3)⟩)], by decide⟩

/-- Fee recipients for validators 1 and 3. -/
def twoFeeRecipients : GoMap ℕ ExecutionAddress :=
  ⟨[(1, ⟨List.replicate 20 7, List.length_replicate _ _⟩),
    (3, ⟨List.replicate 20 8, List.length_replicate _ _⟩)], by decide⟩

/-- A clock at one second per pass, and a signer that refuses the account of validator 3. -/
def refusingSigner : Providers where
  now i := 1700000000 + i
  signValidatorRegistration account _ :=
    if account.publicKey = some (List.replicate 48 3) then .error "refused"
    else .ok ⟨List.replicate 96 5, List.length_replicate _ _⟩

theorem submitValidatorRegistrations_registers_each_entry_threeAccounts :
    (∀ account ∈ threeAccounts.values, ∃ key, accountPubkey account = some key ∧
      key.length = 48) ∧
    (submitValidatorRegistrations twoRelays refusingSigner threeAccounts twoFeeRecipients =
        some (twoRelays.validatorRegistrationsSubmitters.map fun submitter =>
          (submitter, threeAccounts.entries.enum.filterMap fun x =>
            registrationOf twoRelays refusingSigner twoFeeRecipients x.1 x.2)) ∧
      ∀ i index account r, threeAccounts.entries[i]? = some (index, account) →
        (registrationOf twoRelays refusingSigner twoFeeRecipients i (index, account) = some r ↔
          ∃ key feeRecipient, accountPubkey account = some key ∧
            twoFeeRecipients.lookup index = some feeRecipient ∧
            r.message.pubkey.data = key ∧ r.message.feeRecipient = feeRecipient ∧
            r.message.gasLimit = twoRelays.gasLimit ∧ r.message.timestamp = refusingSigner.now i ∧
            refusingSigner.signValidatorRegistration account r.message = .ok r.signature)) :=
  have hkeys : ∀ account ∈ threeAccounts.values, ∃ key, accountPubkey account = some key ∧
      key.length = 48 := by
    simp [threeAccounts, GoMap.values, accountPubkey]
  ⟨hkeys, submitValidatorRegistrations_registers_each_entry _ _ _ _ hkeys⟩

/-- Whatever the lengths of the accounts' keys, every submitter is handed the same list, and each
registration in it is signed by the signer for exactly its message, built at an entry of the
accounts whose index has the registration's fee recipient, with the service's gas limit, the time
of that entry's pass, and a `pubkey` that starts with the entry's key. -/
theorem submitValidatorRegistrations_hands_signed (s : Service) (p : Providers)
    (accounts : GoMap ℕ Account) (feeRecipients : GoMap ℕ ExecutionAddress)
    {handed : List (String × List SignedValidatorRegistration)}
    (h : submitValidatorRegistrations s p accounts feeRecipients = some handed) :
    ∃ regs, handed = s.validatorRegistrationsSubmitters.map (fun submitter => (submitter, regs)) ∧
      ∀ r ∈ regs, ∃ i index account key, accounts.entries[i]? = some (index, account) ∧
        accountPubkey account = some key ∧ key.take 48 <+: r.message.pubkey.data ∧
        feeRecipients.lookup index = some r.message.feeRecipient ∧
        r.message.gasLimit = s.gasLimit ∧ r.message.timestamp = p.now i ∧
        p.signValidatorRegistration account r.message = .ok r.signature := by
  obtain ⟨st, hst, rfl⟩ := Option.map_eq_some'.mp h
  obtain ⟨signed, regs, hregs, hsub, hall⟩ :=
    registrationLoop_signedFor s p feeRecipients accounts.entries _ st 0 hst
  refine ⟨regs, by rw [hregs, List.nil_append], fun r hr => ?_⟩
  obtain ⟨⟨i, index, account⟩, hi, key, hsf⟩ := exists_mem_of_forall₂ hall hr
  exact ⟨i, index, account, key, List.mem_enum_iff_getElem?.mp (hsub.subset hi), hsf⟩

/-- Validator 1 with a key of 48 bytes, then validator 3 with a key of 47 bytes. -/
def shortKeyAccounts : GoMap ℕ Account :=
  ⟨[(1, ⟨none, some (List.replicate 48 1)⟩), (3, ⟨none, some (List.replicate 47 4)⟩)], by decide⟩

/-- What every relay is handed for `shortKeyAccounts`: the second `pubkey` keeps the last byte of
the first key. -/
def shortKeyRegistrations : List SignedValidatorRegistration :=
  [⟨⟨⟨List.replicate 20 7, List.length_replicate _ _⟩, 30000000, 1700000000,
      ⟨List.replicate 48 1, List.length_replicate _ _⟩⟩,
    ⟨List.replicate 96 5, List.length_replicate _ _⟩⟩,
   ⟨⟨⟨List.replicate 20 8, List.length_replicate _ _⟩, 30000000, 1700000001,
      ⟨List.replicate 47 4 ++ [1], by simp⟩⟩,
    ⟨List.replicate 96 5, List.length_replicate _ _⟩⟩]

/-- Every relay is handed `shortKeyRegistrations`. -/
theorem submitValidatorRegistrations_shortKeyAccounts :
    submitValidatorRegistrations twoRelays refusingSigner shortKeyAccounts twoFeeRecipients =
      some [("relay-a", shortKeyRegistrations), ("relay-b", shortKeyRegistrations)] := by
  decide

theorem submitValidatorRegistrations_hands_signed_shortKey :
    submitValidatorRegistrations twoRelays refusingSigner shortKeyAccounts twoFeeRecipients =
        some [("relay-a", shortKeyRegistrations), ("relay-b", shortKeyRegistrations)] ∧
      ∃ regs, [("relay-a", shortKeyRegistrations), ("relay-b", shortKeyRegistrations)] =
          twoRelays.validatorRegistrationsSubmitters.map (fun submitter => (submitter, regs)) ∧
        ∀ r ∈ regs, ∃ i index account key, shortKeyAccounts.entries[i]? = some (index, account) ∧
          accountPubkey account = some key ∧ key.take 48 <+: r.message.pubkey.data ∧
          twoFeeRecipients.lookup index = some r.message.feeRecipient ∧
          r.message.gasLimit = twoRelays.gasLimit ∧ r.message.timestamp = refusingSigner.now i ∧
          refusingSigner.signValidatorRegistration account r.message = .ok r.signature :=
  have h := submitValidatorRegistrations_shortKeyAccounts
  ⟨h, submitValidatorRegistrations_hands_signed _ _ _ _ h⟩

/-- No validator is registered twice in a call: the registrations every submitter is handed are,
in the map's iteration order, one for each of a list of distinct validator indices of the
accounts, each signed for the entry of its index. -/
theorem submitValidatorRegistrations_registers_once (s : Service) (p : Providers)
    (accounts : GoMap ℕ Account) (feeRecipients : GoMap ℕ ExecutionAddress)
    {handed : List (String × List SignedValidatorRegistration)}
    (h : submitValidatorRegistrations s p accounts feeRecipients = some handed) :
    ∃ regs indices,
      handed = s.validatorRegistrationsSubmitters.map (fun submitter => (submitter, regs)) ∧
      indices.Nodup ∧ indices.Sublist accounts.keys ∧
      List.Forall₂ (fun index r => ∃ i account, accounts.entries[i]? = some (index, account) ∧
        SignedFor s p feeRecipients i index account r) indices regs := by
  obtain ⟨st, hst, rfl⟩ := Option.map_eq_some'.mp h
  obtain ⟨signed, regs, hregs, hsub, hall⟩ :=
    registrationLoop_signedFor s p feeRecipients accounts.entries _ st 0 hst
  have hkeys : (signed.map fun x => x.2.1).Sublist accounts.keys := by
    rw [GoMap.keys, ← List.enumFrom_map_snd 0 accounts.entries, List.map_map]
    exact hsub.map _
  refine ⟨regs, signed.map fun x => x.2.1, by rw [hregs, List.nil_append],
    hkeys.nodup accounts.keys_nodup, hkeys, ?_⟩
  rw [List.forall₂_map_left_iff]
  exact ((List.forall₂_and_left _ _).mpr ⟨fun x hx => hsub.subset hx, hall⟩).imp
    fun x _ h => ⟨x.1, x.2.2, List.mem_enum_iff_getElem?.mp h.1, h.2⟩

theorem submitValidatorRegistrations_registers_once_shortKey :
    submitValidatorRegistrations twoRelays refusingSigner shortKeyAccounts twoFeeRecipients =
        some [("relay-a", shortKeyRegistrations), ("relay-b", shortKeyRegistrations)] ∧
      ∃ regs indices,
        [("relay-a", shortKeyRegistrations), ("relay-b", shortKeyRegistrations)] =
          twoRelays.validatorRegistrationsSubmitters.map (fun submitter => (submitter, regs)) ∧
        indices.Nodup ∧ indices.Sublist shortKeyAccounts.keys ∧
        List.Forall₂ (fun index r => ∃ i account,
          shortKeyAccounts.entries[i]? = some (index, account) ∧
          SignedFor twoRelays refusingSigner twoFeeRecipients i index account r) indices regs :=
  have h := submitValidatorRegistrations_shortKeyAccounts
  ⟨h, submitValidatorRegistrations_registers_once _ _ _ _ h⟩

end Vouch.BlockRelay

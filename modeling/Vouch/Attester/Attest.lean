import Vouch.Attester.Types
import Vouch.Attester.AttestedMap

/-!
# One call of `Attest`

`Service.Attest` is cut here at its uses of `attestedMu` into stretches, each a function:

* `filterStep`, one pass of the filter loop (lines 128–136), and `filterValidatorIndices`, the
  whole loop;
* `prepare`, from the end of the loop to the call of `attest` (lines 138–193): fetch and check
  the attestation data, fetch the validating accounts, set the per-validator information;
* `attestInternal`, the helper `attest` (lines 227–303): sign, build, submit;
* `housekeep`, the deletion of the entry two epochs back after a success (lines 215–220).

`Service.attest` runs them one after the other, as one call that nothing interrupts does. The
interleavings of several calls are in `Vouch.Attester.Concurrent`, built from the same stretches.

A stretch ends in a `Flow`: it goes on, it returns an error, or it panics. The Go runtime panics
where the source indexes past the end of a slice, divides by zero or writes into a nil map; these
are `Flow.panic` and `Outcome.panicked`.

`prepare` asks for the attestation data and then the validating accounts, and `attest` for the
signatures and then the submission, each at most once (`prepare_requests_in_order`,
`attestInternal_requests_in_order`).

## Main definitions

* `Vouch.Attester.filterStep`, `Vouch.Attester.filterValidatorIndices`.
* `Vouch.Attester.checkAttestationData`, `Vouch.Attester.validatorIndexToArrayIndexMap`,
  `Vouch.Attester.perValidatorInformation`, `Vouch.Attester.prepare`.
* `Vouch.Attester.signRequest`, `Vouch.Attester.buildAttestations`,
  `Vouch.Attester.attestInternal`, `Vouch.Attester.housekeep`.
* `Vouch.Attester.Service.attest`: a call of `Attest` that nothing interrupts.
* `Vouch.Attester.Service.new`: `New`, from the results of its two fallible requests.

## References

* `src/services/attester/standard/service.go`, lines 59–303.
-/

namespace Vouch.Attester

/-- How a stretch of `Attest` ends: it goes on with a value, it returns an error, or it
panics. -/
inductive Flow (α : Type)
  | next (a : α)
  | fail (e : AttestError)
  | panic
deriving DecidableEq, Repr

variable {s : Service} {p : Providers} {duty : Duty} {data : AttestationData}
  {m m' : AttestedMap} {epoch : ℕ} {index : ℕ}
  {kept kept' vis : List ℕ} {requests : List Request}

/-! ### The filter loop -/

/-- One pass of the filter loop, one critical section (lines 128–136): a validator already
recorded in the epoch is skipped, any other is recorded and kept. `none` is the panic of a write
into a missing inner map. -/
def filterStep (m : AttestedMap) (epoch : ℕ) (kept : List ℕ)
    (index : ℕ) : Option (AttestedMap × List ℕ) :=
  if m.contains epoch index then some (m, kept)
  else (m.insert epoch index).map fun m' => (m', kept ++ [index])

theorem filterStep_eq_some :
    filterStep m epoch kept index = some (m', kept') ↔
      (m.contains epoch index ∧ m' = m ∧ kept' = kept) ∨
      (¬ m.contains epoch index ∧ m.insert epoch index = some m' ∧ kept' = kept ++ [index]) := by
  unfold filterStep
  by_cases h : m.contains epoch index
  · simp [h, eq_comm]
  · simp only [h, if_false, Option.map_eq_some', Prod.mk.injEq, false_and, false_or,
      not_false_eq_true, true_and]
    constructor
    · rintro ⟨a, ha, rfl, rfl⟩
      exact ⟨ha, rfl⟩
    · rintro ⟨ha, rfl⟩
      exact ⟨m', ha, rfl, rfl⟩

/-- A pass panics exactly when its validator is new and the epoch has no inner map. -/
theorem filterStep_eq_none :
    filterStep m epoch kept index = none ↔ ¬ m.contains epoch index ∧ m epoch = none := by
  unfold filterStep
  by_cases h : m.contains epoch index <;> simp [h, AttestedMap.insert_eq_none]

/-- A pass records its validator and keeps every entry of the outer map. -/
theorem filterStep_spec (h : filterStep m epoch kept index = some (m', kept')) :
    (∀ e v, m'.contains e v ↔ m.contains e v ∨ (e = epoch ∧ v = index)) ∧
      ∀ e, (m' e).isSome = (m e).isSome := by
  rcases filterStep_eq_some.mp h with ⟨hc, rfl, -⟩ | ⟨-, hi, -⟩
  · exact ⟨fun e v => ⟨.inl, by rintro (h | ⟨rfl, rfl⟩); exacts [h, hc]⟩, fun _ => rfl⟩
  · exact ⟨fun e v => AttestedMap.contains_of_insert hi, AttestedMap.isSome_of_insert hi⟩

theorem filterStep_isSome (kept : List ℕ) (index : ℕ)
    (hm : (m epoch).isSome) : (filterStep m epoch kept index).isSome := by
  rw [Option.isSome_iff_ne_none, Ne, filterStep_eq_none]
  simp_all [Option.isSome_iff_ne_none]

/-- The filter loop (lines 127–137) run through `indices`. -/
def filterValidatorIndices (epoch : ℕ) :
    AttestedMap → List ℕ → List ℕ →
      Option (AttestedMap × List ℕ)
  | m, kept, [] => some (m, kept)
  | m, kept, index :: indices =>
    (filterStep m epoch kept index).bind fun r => filterValidatorIndices epoch r.1 r.2 indices

/-- Run through all its validators, the loop records each of them and keeps every entry of the
outer map; where the epoch has an inner map, it does not panic. -/
theorem filterValidatorIndices_spec (epoch : ℕ) :
    ∀ (m : AttestedMap) (kept indices : List ℕ), (m epoch).isSome →
    ∃ m' kept', filterValidatorIndices epoch m kept indices = some (m', kept') ∧
      (∀ e v, m'.contains e v ↔ m.contains e v ∨ (e = epoch ∧ v ∈ indices)) ∧
      ∀ e, (m' e).isSome = (m e).isSome
  | m, kept, [], _ => ⟨m, kept, rfl, by simp, fun _ => rfl⟩
  | m, kept, index :: indices, hm => by
    obtain ⟨⟨m₁, kept₁⟩, h₁⟩ :=
      Option.isSome_iff_exists.mp (filterStep_isSome kept index hm)
    obtain ⟨hc₁, hs₁⟩ := filterStep_spec h₁
    obtain ⟨m', kept', hrun, hc, hs⟩ :=
      filterValidatorIndices_spec epoch m₁ kept₁ indices ((hs₁ epoch).trans hm)
    refine ⟨m', kept', by simp [filterValidatorIndices, h₁, hrun], fun e v => ?_,
      fun e => (hs e).trans (hs₁ e)⟩
    rw [hc, hc₁, List.mem_cons]
    tauto

/-- What the filter loop keeps after the validators kept before: the validators of `indices` that
the map does not hold for the epoch, each once, in the order of `indices`. -/
theorem filterValidatorIndices_kept :
    ∀ {m m' : AttestedMap} {kept kept' : List ℕ} (indices : List ℕ),
      filterValidatorIndices epoch m kept indices = some (m', kept') →
      ∃ new, kept' = kept ++ new ∧ new.Sublist indices ∧ new.Nodup ∧
        ∀ v, v ∈ new ↔ v ∈ indices ∧ ¬ m.contains epoch v
  | m, m', kept, kept', [], h => by
    obtain ⟨rfl, rfl⟩ := Prod.mk.inj (Option.some.inj h)
    exact ⟨[], by simp, List.nil_sublist _, List.nodup_nil, by simp⟩
  | m, m', kept, kept', index :: indices, h => by
    obtain ⟨⟨m₁, kept₁⟩, h₁, hrest⟩ := Option.bind_eq_some.mp h
    obtain ⟨new, rfl, hsub, hnd, hmem⟩ := filterValidatorIndices_kept indices hrest
    rcases filterStep_eq_some.mp h₁ with ⟨hc, rfl, rfl⟩ | ⟨hc, hi, rfl⟩
    · refine ⟨new, rfl, hsub.cons index, hnd, fun v => ?_⟩
      rw [hmem, List.mem_cons]
      rcases eq_or_ne v index with rfl | hv
      · simp [hc]
      · simp [hv]
    · have hmem₁ : ∀ v, m₁.contains epoch v ↔ m.contains epoch v ∨ v = index := fun v => by
        simp [AttestedMap.contains_of_insert hi]
      refine ⟨index :: new, by simp, hsub.cons₂ index,
        List.nodup_cons.mpr ⟨fun h => ((hmem index).mp h).2 ((hmem₁ index).mpr (.inr rfl)), hnd⟩,
        fun v => ?_⟩
      rw [List.mem_cons, hmem, hmem₁, List.mem_cons]
      rcases eq_or_ne v index with rfl | hv
      · simp [hc]
      · simp [hv]

/-! ### From the filter loop to the call of `attest` -/

/-- Lines 152–163: the checks of the fetched data against the duty. With no slots per epoch the
division of line 160 panics. -/
def checkAttestationData (s : Service) (duty : Duty) (data : AttestationData) : Flow Unit :=
  if data.slot ≠ duty.slot then .fail (.slotMismatch duty.slot data.slot)
  else if data.target.epoch < data.source.epoch then
    .fail (.sourceAfterTarget duty.slot data.source.epoch data.target.epoch)
  else if s.slotsPerEpoch = 0 then .panic
  else if duty.slot / s.slotsPerEpoch < data.target.epoch then
    .fail (.targetAfterCurrent duty.slot data.target.epoch (duty.slot / s.slotsPerEpoch))
  else .next ()

theorem checkAttestationData_eq_next :
    checkAttestationData s duty data = .next () ↔
      data.slot = duty.slot ∧ data.source.epoch ≤ data.target.epoch ∧ 0 < s.slotsPerEpoch ∧
        data.target.epoch ≤ duty.slot / s.slotsPerEpoch := by
  unfold checkAttestationData
  split_ifs <;> simp_all; omega

/-- The loop of lines 183–185 from position `i` on, over the map `f` built so far. -/
def indexMapFrom : ℕ → List ℕ → (ℕ → ℕ) → ℕ → ℕ
  | _, [], f => f
  | i, index :: indices, f => indexMapFrom (i + 1) indices (Function.update f index i)

/-- `validatorIndexToArrayIndexMap` (lines 182–185): each index to its position in the list; a
Go map, so an index not in the list reads as `0`. -/
def validatorIndexToArrayIndexMap (validatorIndices : List ℕ) : ℕ → ℕ :=
  indexMapFrom 0 validatorIndices fun _ => 0

theorem indexMapFrom_of_not_mem {v : ℕ} :
    ∀ {i : ℕ} {l : List ℕ} {f : ℕ → ℕ}, v ∉ l → indexMapFrom i l f v = f v
  | _, [], _, _ => rfl
  | _, a :: _, _, hv => by
    rw [List.mem_cons, not_or] at hv
    rw [indexMapFrom, indexMapFrom_of_not_mem hv.2, Function.update_noteq hv.1]

theorem indexMapFrom_of_mem {v : ℕ} :
    ∀ {i : ℕ} {l : List ℕ} {f : ℕ → ℕ}, l.Nodup → v ∈ l → indexMapFrom i l f v = i + l.indexOf v
  | _, [], _, _, hv => absurd hv (List.not_mem_nil v)
  | i, a :: l, f, hnd, hv => by
    rw [List.nodup_cons] at hnd
    rw [indexMapFrom]
    by_cases h : v = a
    · subst h
      rw [indexMapFrom_of_not_mem hnd.1, Function.update_same, List.indexOf_cons_self]
      rfl
    · rw [indexMapFrom_of_mem hnd.2 ((List.mem_cons.mp hv).resolve_left h),
        List.indexOf_cons_ne _ (Ne.symm h)]
      omega

/-- On a list without repeats, the map sends each index to its position. -/
theorem validatorIndexToArrayIndexMap_of_mem {l : List ℕ} {v : ℕ} (hnd : l.Nodup) (hv : v ∈ l) :
    validatorIndexToArrayIndexMap l v = l.indexOf v := by
  rw [validatorIndexToArrayIndexMap, indexMapFrom_of_mem hnd hv, Nat.zero_add]

theorem indexMapFrom_lt {v : ℕ} :
    ∀ {i : ℕ} {l : List ℕ} {f : ℕ → ℕ}, v ∈ l → indexMapFrom i l f v < i + l.length
  | _, [], _, hv => absurd hv (List.not_mem_nil v)
  | i, a :: l, f, hv => by
    rw [indexMapFrom, List.length_cons]
    by_cases hl : v ∈ l
    · have := @indexMapFrom_lt v (i + 1) l (Function.update f a i) hl
      omega
    · rw [indexMapFrom_of_not_mem hl, (List.mem_cons.mp hv).resolve_right hl,
        Function.update_same]
      omega

/-- Every index of the list is sent to a position within it, repeated or not. -/
theorem validatorIndexToArrayIndexMap_lt {l : List ℕ} {v : ℕ} (hv : v ∈ l) :
    validatorIndexToArrayIndexMap l v < l.length := by
  have h := @indexMapFrom_lt v 0 l (fun _ => 0) hv
  rwa [Nat.zero_add] at h

/-- Lines 190–192 for one account, at position `p` of the duty's lists: its committee index, its
index in the committee and the committee's size. `none` where a position is out of range, which
panics. -/
def committeeInfo (duty : Duty) (p : ℕ) : Option (ℕ × ℕ × ℕ) := do
  let committeeIndex ← duty.committeeIndices[p]?
  let validatorCommitteeIndex ← duty.validatorCommitteeIndices[p]?
  pure (committeeIndex, validatorCommitteeIndex, duty.committeeSize committeeIndex)

/-- The arguments `Attest` passes to `attest` (lines 195–203), with the indices of the accounts
(`accountValidatorIndices`, line 174) beside them. -/
structure Prepared where
  accountValidatorIndices : List ℕ
  accounts : List Account
  committeeIndices : List ℕ
  validatorCommitteeIndices : List ℕ
  committeeSizes : List ℕ
  data : AttestationData
deriving DecidableEq, Repr

/-- Lines 173–193: break the accounts into two arrays and set the per-validator information. -/
def perValidatorInformation (duty : Duty) (validatorIndices : List ℕ)
    (accounts : GoMap ℕ Account) (data : AttestationData) : Flow Prepared :=
  let position := validatorIndexToArrayIndexMap validatorIndices
  match accounts.keys.mapM fun index => committeeInfo duty (position index) with
  | none => .panic
  | some infos => .next
    { accountValidatorIndices := accounts.keys
      accounts := accounts.values
      committeeIndices := infos.map (·.1)
      validatorCommitteeIndices := infos.map (·.2.1)
      committeeSizes := infos.map (·.2.2)
      data }

section Prepared

variable {prep : Prepared}

theorem perValidatorInformation_eq_next {accounts : GoMap ℕ Account}
    (h : perValidatorInformation duty vis accounts data = .next prep) :
    prep.accountValidatorIndices = accounts.keys ∧ prep.accounts = accounts.values ∧
      prep.data = data ∧ prep.committeeIndices.length = accounts.entries.length ∧
      prep.validatorCommitteeIndices.length = accounts.entries.length ∧
      prep.committeeSizes.length = accounts.entries.length := by
  unfold perValidatorInformation at h
  dsimp only at h
  split at h
  · cases h
  · rename_i infos hinfos
    cases h
    have := length_of_mapM_eq_some hinfos
    simp_all

/-- The per-validator information at position `i` is what `committeeInfo` gives for the `i`-th
account, at the position the map assigns to its validator. -/
theorem perValidatorInformation_at {accounts : GoMap ℕ Account}
    (h : perValidatorInformation duty vis accounts data = .next prep) {i ci bi size : ℕ}
    (hci : prep.committeeIndices[i]? = some ci)
    (hbi : prep.validatorCommitteeIndices[i]? = some bi)
    (hsize : prep.committeeSizes[i]? = some size) :
    ∃ v, accounts.keys[i]? = some v ∧
      committeeInfo duty (validatorIndexToArrayIndexMap vis v) = some (ci, bi, size) := by
  unfold perValidatorInformation at h
  dsimp only at h
  split at h
  · cases h
  · rename_i infos hinfos
    cases h
    have hat := getElem?_of_mapM_eq_some hinfos i
    simp only [List.getElem?_map, Option.map_eq_some'] at hci hbi hsize
    obtain ⟨x, hx, rfl⟩ := hci
    obtain ⟨_, hx', rfl⟩ := hbi
    obtain ⟨_, hx'', rfl⟩ := hsize
    cases hx.symm.trans hx'
    cases hx.symm.trans hx''
    rwa [hx, eq_comm, Option.bind_eq_some] at hat

/-- The per-validator information is set when the duty's lists cover the position of every
account's validator. -/
theorem perValidatorInformation_isNext {accounts : GoMap ℕ Account}
    (h : ∀ k ∈ accounts.keys, validatorIndexToArrayIndexMap vis k < duty.committeeIndices.length ∧
      validatorIndexToArrayIndexMap vis k < duty.validatorCommitteeIndices.length) :
    ∃ prep, perValidatorInformation duty vis accounts data = .next prep := by
  have hsome : (accounts.keys.mapM fun index =>
      committeeInfo duty (validatorIndexToArrayIndexMap vis index)).isSome :=
    isSome_mapM fun k hk => by
      simp [committeeInfo, List.getElem?_eq_getElem (h k hk).1,
        List.getElem?_eq_getElem (h k hk).2]
  obtain ⟨infos, hinfos⟩ := Option.isSome_iff_exists.mp hsome
  simp only [perValidatorInformation, hinfos]
  exact ⟨_, rfl⟩

end Prepared

/-- Lines 138–193, from the end of the filter loop to the call of `attest`, with the requests
made on the way. `duty.CommitteeIndices()[0]` panics on a duty with no committee index. -/
def prepare (s : Service) (p : Providers) (duty : Duty) (validatorIndices : List ℕ) :
    List Request × Flow Prepared :=
  match duty.committeeIndices with
  | [] => ([], .panic)
  | committeeIndex :: _ =>
    let fetchData := Request.attestationData duty.slot committeeIndex
    match p.attestationData duty.slot committeeIndex with
    | .error cause => ([fetchData], .fail (.attestationData cause))
    | .ok data =>
      match checkAttestationData s duty data with
      | .fail e => ([fetchData], .fail e)
      | .panic => ([fetchData], .panic)
      | .next () =>
        let epoch := duty.slot / s.slotsPerEpoch
        let fetchAccounts := Request.validatingAccounts epoch validatorIndices
        match p.validatingAccountsForEpochByIndex epoch validatorIndices with
        | .error cause => ([fetchData, fetchAccounts], .fail (.validatingAccounts cause))
        | .ok accounts =>
          ([fetchData, fetchAccounts], perValidatorInformation duty validatorIndices accounts data)

section Prepared

variable {prep : Prepared}

/-- What `prepare` did when it reaches the call of `attest`. -/
theorem prepare_eq_next (h : prepare s p duty vis = (requests, .next prep)) :
    ∃ committeeIndex data accounts,
      duty.committeeIndices.head? = some committeeIndex ∧
      p.attestationData duty.slot committeeIndex = .ok data ∧
      checkAttestationData s duty data = .next () ∧
      p.validatingAccountsForEpochByIndex (duty.slot / s.slotsPerEpoch) vis = .ok accounts ∧
      requests = [.attestationData duty.slot committeeIndex,
        .validatingAccounts (duty.slot / s.slotsPerEpoch) vis] ∧
      perValidatorInformation duty vis accounts data = .next prep := by
  unfold prepare at h
  split at h
  · cases h
  · rename_i committeeIndex _ hci
    split at h
    · cases h
    · rename_i data hdata
      split at h
      · cases h
      · cases h
      · rename_i hcheck
        dsimp only at h
        split at h
        · cases h
        · rename_i accounts haccounts
          obtain ⟨rfl, hprep⟩ := Prod.mk.inj h
          exact ⟨committeeIndex, data, accounts, by simp [hci], hdata, hcheck, haccounts, rfl,
            hprep⟩

/-- `prepare` reaches the call of `attest` when the data it fetches passes the checks and the
per-validator information of the accounts it fetches is set. -/
theorem prepare_of_eq_next {committeeIndex : ℕ} {accounts : GoMap ℕ Account}
    (hci : duty.committeeIndices.head? = some committeeIndex)
    (hdata : p.attestationData duty.slot committeeIndex = .ok data)
    (hcheck : checkAttestationData s duty data = .next ())
    (hacc : p.validatingAccountsForEpochByIndex (duty.slot / s.slotsPerEpoch) vis = .ok accounts)
    (hinfo : perValidatorInformation duty vis accounts data = .next prep) :
    (prepare s p duty vis).2 = .next prep := by
  obtain ⟨rest, hcis⟩ : ∃ rest, duty.committeeIndices = committeeIndex :: rest := by
    cases h : duty.committeeIndices <;> simp_all
  simp [prepare, hcis, hdata, hcheck, hacc, hinfo]

end Prepared

/-- `prepare` asks for the attestation data of the duty's slot and then, if it goes on, for the
validating accounts of the slot's epoch: nothing else, in that order. -/
theorem prepare_requests_in_order (vis : List ℕ) :
    ∃ committeeIndex, (prepare s p duty vis).1 <+:
      [.attestationData duty.slot committeeIndex,
        .validatingAccounts (duty.slot / s.slotsPerEpoch) vis] := by
  unfold prepare
  split
  · exact ⟨0, List.nil_prefix⟩
  · rename_i committeeIndex _ _
    refine ⟨committeeIndex, ?_⟩
    split
    · exact List.prefix_append _ _
    · dsimp only
      split
      · exact List.prefix_append _ _
      · exact List.prefix_append _ _
      · split <;> exact List.prefix_rfl

/-! ### The helper `attest` -/

section Attest

variable {prep : Prepared}

/-- The signing request of `attest` (lines 245–254). -/
def signRequest (duty : Duty) (prep : Prepared) : SignRequest where
  accounts := prep.accounts
  slot := duty.slot
  committeeIndices := prep.committeeIndices
  blockRoot := prep.data.beaconBlockRoot
  sourceEpoch := prep.data.source.epoch
  sourceRoot := prep.data.source.root
  targetEpoch := prep.data.target.epoch
  targetRoot := prep.data.target.root

/-- Lines 268–285: the attestation of the signature at position `i`; `none` where `i` is out of
range of the per-validator arrays, which panics. -/
def attestationAt (duty : Duty) (prep : Prepared) (i : ℕ) (sig : BLSSignature) :
    Option Attestation := do
  let committeeSize ← prep.committeeSizes[i]?
  let validatorCommitteeIndex ← prep.validatorCommitteeIndices[i]?
  let committeeIndex ← prep.committeeIndices[i]?
  pure
    { aggregationBits := (Bitlist.new committeeSize).setBitAt validatorCommitteeIndex true
      data :=
        { slot := duty.slot
          index := committeeIndex
          beaconBlockRoot := prep.data.beaconBlockRoot
          source := { epoch := prep.data.source.epoch, root := prep.data.source.root }
          target := { epoch := prep.data.target.epoch, root := prep.data.target.root } }
      signature := sig }

/-- The attestation at position `i` carries the committee index there, and the committee size and
place in the committee there as its aggregation bits. -/
theorem attestationAt_info {i : ℕ} {sig : BLSSignature} {a : Attestation}
    (h : attestationAt duty prep i sig = some a) :
    ∃ bi size, prep.committeeIndices[i]? = some a.data.index ∧
      prep.validatorCommitteeIndices[i]? = some bi ∧ prep.committeeSizes[i]? = some size ∧
      a.aggregationBits = (Bitlist.new size).setBitAt bi true := by
  simp only [attestationAt, Option.bind_eq_bind, Option.bind_eq_some, Option.pure_def,
    Option.some.injEq] at h
  obtain ⟨size, hsize, bi, hbi, ci, hci, rfl⟩ := h
  exact ⟨bi, size, hci, hbi, hsize, rfl⟩

/-- Lines 261–288: an attestation for each non-zero signature, in order. -/
def buildAttestations (duty : Duty) (prep : Prepared) (sigs : List BLSSignature) :
    Option (List Attestation) :=
  (sigs.enum.filter fun x => x.2 ≠ Bytes.zero 96).mapM fun x => attestationAt duty prep x.1 x.2

/-- Building the attestations does not panic when the per-validator arrays cover every
signature. -/
theorem buildAttestations_isSome {sigs : List BLSSignature}
    (hci : sigs.length ≤ prep.committeeIndices.length)
    (hbi : sigs.length ≤ prep.validatorCommitteeIndices.length)
    (hsize : sigs.length ≤ prep.committeeSizes.length) :
    (buildAttestations duty prep sigs).isSome :=
  isSome_mapM fun ⟨i, sig⟩ hx => by
    have hi : i < sigs.length := (List.mem_enum (List.mem_filter.mp hx).1).1
    simp [attestationAt, List.getElem?_eq_getElem (hi.trans_le hci),
      List.getElem?_eq_getElem (hi.trans_le hbi), List.getElem?_eq_getElem (hi.trans_le hsize)]

/-- `attest` (lines 227–303): sign, build the attestations, and submit them unless there are
none, with the requests made on the way. -/
def attestInternal (p : Providers) (duty : Duty) (prep : Prepared) :
    List Request × Flow (List Attestation) :=
  let req := signRequest duty prep
  match p.signBeaconAttestations req with
  | .error cause => ([.signBeaconAttestations req], .fail (.sign cause))
  | .ok sigs =>
    match buildAttestations duty prep sigs with
    | none => ([.signBeaconAttestations req], .panic)
    | some attestations =>
      if attestations = [] then ([.signBeaconAttestations req], .next attestations)
      else
        ([.signBeaconAttestations req, .submitAttestations attestations],
          match p.submitAttestations attestations with
          | .error cause => .fail (.submit cause)
          | .ok () => .next attestations)

/-- What `attest` did when it succeeds. -/
theorem attestInternal_eq_next {atts : List Attestation}
    (h : attestInternal p duty prep = (requests, .next atts)) :
    ∃ sigs, p.signBeaconAttestations (signRequest duty prep) = .ok sigs ∧
      buildAttestations duty prep sigs = some atts ∧
      requests = .signBeaconAttestations (signRequest duty prep) ::
        (if atts = [] then [] else [.submitAttestations atts]) := by
  unfold attestInternal at h
  dsimp only at h
  split at h
  · cases h
  · rename_i sigs hsigs
    split at h
    · cases h
    · rename_i atts' hbuild
      split at h
      · obtain ⟨rfl, h⟩ := Prod.mk.inj h
        cases h
        exact ⟨sigs, hsigs, hbuild, by simp_all⟩
      · obtain ⟨rfl, h⟩ := Prod.mk.inj h
        split at h
        · cases h
        · cases h
          exact ⟨sigs, hsigs, hbuild, by simp_all⟩

/-- `attest` returns the attestations it builds when the signer answers and the submitter
accepts. -/
theorem attestInternal_of_buildAttestations {sigs : List BLSSignature} {atts : List Attestation}
    (hsig : p.signBeaconAttestations (signRequest duty prep) = .ok sigs)
    (hbuild : buildAttestations duty prep sigs = some atts)
    (hsubmit : p.submitAttestations atts = .ok ()) :
    (attestInternal p duty prep).2 = .next atts := by
  simp only [attestInternal, hsig, hbuild]
  split <;> simp [hsubmit]

/-- `attest` asks the signer and then, if it has attestations to submit, the submitter. -/
theorem attestInternal_requests_in_order :
    ∃ atts, (attestInternal p duty prep).1 <+:
      [.signBeaconAttestations (signRequest duty prep), .submitAttestations atts] := by
  unfold attestInternal
  dsimp only
  split
  · exact ⟨[], List.prefix_append _ _⟩
  · split
    · exact ⟨[], List.prefix_append _ _⟩
    · split
      · exact ⟨[], List.prefix_append _ _⟩
      · exact ⟨_, List.prefix_rfl⟩

end Attest

/-- Lines 216–220: after a success, delete the entry two epochs back. -/
def housekeep (m : AttestedMap) (epoch : ℕ) : AttestedMap :=
  if 1 < epoch then m.delete (epoch - 2) else m

/-- Housekeeping in epoch `epoch` removes the entry of `epoch - 2`, and only when `epoch` is at
least 2. -/
theorem housekeep_apply (m : AttestedMap) (epoch e : ℕ) :
    housekeep m epoch e = if epoch = e + 2 then none else m e := by
  by_cases h : epoch = e + 2
  · subst h
    simp [housekeep]
  · rw [if_neg h]
    unfold housekeep
    split_ifs
    · exact AttestedMap.delete_of_ne (by omega)
    · rfl

theorem contains_housekeep {m : AttestedMap} {epoch e v : ℕ} :
    (housekeep m epoch).contains e v ↔ epoch ≠ e + 2 ∧ m.contains e v := by
  by_cases h : epoch = e + 2 <;> simp [AttestedMap.contains, housekeep_apply, h]

/-! ### A call that nothing interrupts -/

/-- How an `Attest` call ends: it returns, or it panics. -/
inductive Outcome
  | returned (r : Except AttestError (List Attestation))
  | panicked
deriving DecidableEq, Repr

/-! ### Building the service -/

/-- A value of the beacon node's spec, by the Go type that `New` asserts on it. -/
inductive SpecValue
  | uint64 (n : ℕ)
  | other
deriving DecidableEq, Repr

/-- `New` (lines 59–100), from what `parseAndCheckParameters` gives (the chain-time service, by
its `SlotToEpoch`, or its error) and from the answer of the spec provider (the spec as a Go map,
or its error): the service, with an empty attested map, or the error `New` returns. -/
def Service.new (parameters : Except String (ℕ → ℕ))
    (spec : Except String (GoMap String SpecValue)) : Except String (Service × AttestedMap) := do
  let slotToEpoch ← parameters.mapError ("problem with parameters: " ++ ·)
  let spec ← spec.mapError ("failed to obtain spec: " ++ ·)
  match spec.lookup "SLOTS_PER_EPOCH" with
  | none => .error "SLOTS_PER_EPOCH not found in spec"
  | some (.uint64 slotsPerEpoch) => .ok (⟨slotsPerEpoch, slotToEpoch⟩, .empty)
  | some .other => .error "SLOTS_PER_EPOCH of unexpected type"

/-- What a call of `Attest` that nothing interrupts leaves: the attested map, the requests made
of the collaborators, in order, and how it ended. -/
structure Run where
  attested : AttestedMap
  requests : List Request
  outcome : Outcome

/-- `Service.Attest` (lines 104–223), run against the attested map `m` with nothing in between
its critical sections. -/
def Service.attest (s : Service) (p : Providers) (m : AttestedMap) (duty : Duty) : Run :=
  let epoch := s.slotToEpoch duty.slot
  match filterValidatorIndices epoch (m.ensure epoch) [] duty.validatorIndices with
  | none => ⟨m.ensure epoch, [], .panicked⟩
  | some (m, validatorIndices) =>
    match prepare s p duty validatorIndices with
    | (requests, .fail e) => ⟨m, requests, .returned (.error e)⟩
    | (requests, .panic) => ⟨m, requests, .panicked⟩
    | (requests, .next prep) =>
      match attestInternal p duty prep with
      | (requests', .fail e) => ⟨m, requests ++ requests', .returned (.error e)⟩
      | (requests', .panic) => ⟨m, requests ++ requests', .panicked⟩
      | (requests', .next attestations) =>
        ⟨housekeep m epoch, requests ++ requests', .returned (.ok attestations)⟩

/-- Run alone, the filter loop after `ensure` does not panic and records the duty's
validators. -/
theorem filterValidatorIndices_ensure (m : AttestedMap) (epoch : ℕ)
    (indices : List ℕ) :
    ∃ m' vis, filterValidatorIndices epoch (m.ensure epoch) [] indices = some (m', vis) ∧
      ∀ e v, m'.contains e v ↔ m.contains e v ∨ (e = epoch ∧ v ∈ indices) := by
  obtain ⟨m', vis, h, hc, -⟩ :=
    filterValidatorIndices_spec epoch (m.ensure epoch) [] indices (by simp)
  exact ⟨m', vis, h, by simpa using hc⟩

/-- Every request of a call is one of `prepare`, after a filter loop that did not panic, or one of
`attest`, after `prepare` went on. -/
theorem mem_requests_attest {r : Request} (h : r ∈ (s.attest p m duty).requests) :
    ∃ m' vis, filterValidatorIndices (s.slotToEpoch duty.slot)
        (m.ensure (s.slotToEpoch duty.slot)) [] duty.validatorIndices = some (m', vis) ∧
      (r ∈ (prepare s p duty vis).1 ∨
        ∃ prep, (prepare s p duty vis).2 = .next prep ∧ r ∈ (attestInternal p duty prep).1) := by
  unfold Service.attest at h
  dsimp only at h
  split at h
  · simp at h
  · rename_i m' vis hf
    refine ⟨m', vis, hf, ?_⟩
    split at h <;> rename_i requests _ hp <;> rw [hp]
    · exact .inl h
    · exact .inl h
    · split at h <;> rename_i requests' _ ha <;> rcases List.mem_append.mp h with h | h <;>
        first | exact .inl h | exact .inr ⟨_, rfl, by rw [ha]; exact h⟩

section Alone

variable (hf : filterValidatorIndices (s.slotToEpoch duty.slot) (m.ensure (s.slotToEpoch duty.slot))
    [] duty.validatorIndices = some (m', vis))
include hf

/-- A call that returns attestations went through `prepare` and `attest`, made their requests
in order, and housekept. -/
theorem attest_eq_ok {atts : List Attestation}
    (h : (s.attest p m duty).outcome = .returned (.ok atts)) :
    ∃ prep requests requests', prepare s p duty vis = (requests, .next prep) ∧
      attestInternal p duty prep = (requests', .next atts) ∧
      (s.attest p m duty).requests = requests ++ requests' ∧
      (s.attest p m duty).attested = housekeep m' (s.slotToEpoch duty.slot) := by
  unfold Service.attest at h ⊢
  dsimp only at h ⊢
  rw [hf] at h ⊢
  dsimp only at h ⊢
  split at h <;> try cases h
  rename_i _ requests prep hprep
  split at h <;> try cases h
  rename_i _ requests' hattest
  exact ⟨prep, requests, requests', hprep, hattest, rfl, rfl⟩

/-- A call whose `prepare` and `attest` go on returns the attestations of `attest`. -/
theorem attest_outcome_of_next {prep : Prepared} {atts : List Attestation}
    (hprep : (prepare s p duty vis).2 = .next prep)
    (hatt : (attestInternal p duty prep).2 = .next atts) :
    (s.attest p m duty).outcome = .returned (.ok atts) := by
  obtain ⟨requests, hp⟩ : ∃ requests, prepare s p duty vis = (requests, .next prep) :=
    ⟨_, Prod.ext rfl hprep⟩
  obtain ⟨requests', ha⟩ : ∃ requests', attestInternal p duty prep = (requests', .next atts) :=
    ⟨_, Prod.ext rfl hatt⟩
  simp [Service.attest, hf, hp, ha]

end Alone

end Vouch.Attester

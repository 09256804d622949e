import Vouch.Attester.Attest

/-!
# A call of `Attest` that nothing interrupts

Results on `Service.attest`, one call of `Attest` run against the attested map with no other
call between its critical sections.

A call that returns attestations asked the signer to sign the fetched data, checked, for every
validating account, and returned and submitted one attestation per non-zero signature, carrying
that signature and the data signed at its position (`attest_attestations_match_signatures`).
Fetched data that fails a check stops the call before any signing or submission. Conversely, a
call returns attestations, from any attested map, when its duty's lists cover its validators and
its collaborators answer as `Answers` says (`attest_returns_of_answers`).

A call that returns an error leaves every validator of its duty recorded in its epoch: the filter
loop records them before the data is fetched, and no error path removes them
(`attest_error_keeps_duty_recorded`, `attest_failed_fetch_leaves_validator_recorded`).

The per-validator committee information is read at the validator's position in the filtered list
of indices, and the duty's lists are indexed by it. Once a validator before it in the duty has
been filtered out, the two positions differ (`attest_reads_committee_at_filtered_position`).
When the filter removes no validator, each attestation carries the committee index and the bits
that the duty gives the validator whose account signed it (`attest_attestations_at_duty_positions`).

A call asks for the accounts of exactly the validators of its duty not yet recorded in its epoch
(`attest_asks_accounts_of_unrecorded`).

## Main definitions

* `Vouch.Attester.Answers`: what a call needs of its duty and collaborators to return
  attestations.
* `Vouch.Attester.Duty.committeeBitsOf`: the committee index and bits the duty gives a validator.

## Main results

* `Vouch.Attester.attest_attestations_match_signatures`
* `Vouch.Attester.attest_returns_of_answers`
* `Vouch.Attester.attest_error_keeps_duty_recorded`
* `Vouch.Attester.attest_failed_fetch_leaves_validator_recorded`
* `Vouch.Attester.attest_reads_committee_at_filtered_position`
* `Vouch.Attester.attest_attestations_at_duty_positions`
* `Vouch.Attester.attest_asks_accounts_of_unrecorded`

## References

* `src/services/attester/standard/service.go`, lines 104–303.
-/

namespace Vouch.Attester

/-- The chain-time service of a chain with `n` slots per epoch: `SlotToEpoch` divides by `n`. -/
def Service.ofSlotsPerEpoch (n : ℕ) : Service := ⟨n, fun slot => slot / n⟩

/-! ### Collaborators and duties for examples -/

/-- A duty of validator `v` alone at `slot`, at place 0 of committee 0, of size 1. -/
def validatorDuty (slot v : ℕ) : Duty := ⟨slot, [v], [0], [0], fun _ => 1⟩

/-- A duty of validators `1` and `2` at slot 32: validator `1` at place 0 of committee 10, of
size 4; validator `2` at place 1 of committee 20, of size 8. -/
def twoCommitteeDuty : Duty :=
  ⟨32, [1, 2], [10, 20], [0, 1], fun committeeIndex => if committeeIndex = 10 then 4 else 8⟩

/-- A signature of all ones. -/
def nonzeroSignature : BLSSignature := ⟨List.replicate 96 1, List.length_replicate 96 1⟩

/-- Collaborators that answer every request: the data of the requested slot and committee, with
source epoch 0 and the slot's epoch of 32 slots as target; an account for each requested index; a
non-zero signature per account; and a successful submission. -/
def answeringProviders : Providers where
  attestationData slot committeeIndex :=
    .ok ⟨slot, committeeIndex, Bytes.zero 32, ⟨0, Bytes.zero 32⟩, ⟨slot / 32, Bytes.zero 32⟩⟩
  validatingAccountsForEpochByIndex _ indices :=
    .ok (GoMap.ofKeys indices fun _ => ⟨none, some (List.replicate 48 2)⟩)
  signBeaconAttestations req := .ok (req.accounts.map fun _ => nonzeroSignature)
  submitAttestations _ := .ok ()

/-! ### What a successful call signs and submits -/

/-- What a call of `Attest` for `duty` needs of the duty and of its collaborators to return
attestations: the duty's lists cover the positions of its validators, the data fetched for its
first committee passes the three checks, the accounts provider answers, for validators it was
asked for only, the signer answers at most one signature per account, and the submitter
accepts. -/
structure Answers (s : Service) (p : Providers) (duty : Duty) : Prop where
  committeeIndices_length : duty.validatorIndices.length ≤ duty.committeeIndices.length
  validatorCommitteeIndices_length :
    duty.validatorIndices.length ≤ duty.validatorCommitteeIndices.length
  attestationData : ∃ committeeIndex data, duty.committeeIndices.head? = some committeeIndex ∧
    p.attestationData duty.slot committeeIndex = .ok data ∧ data.slot = duty.slot ∧
    data.source.epoch ≤ data.target.epoch ∧ 0 < s.slotsPerEpoch ∧
    data.target.epoch ≤ duty.slot / s.slotsPerEpoch
  validatingAccounts : ∀ vis, ∃ accounts,
    p.validatingAccountsForEpochByIndex (duty.slot / s.slotsPerEpoch) vis = .ok accounts ∧
      ∀ v ∈ accounts.keys, v ∈ vis
  signBeaconAttestations : ∀ req, ∃ sigs, p.signBeaconAttestations req = .ok sigs ∧
    sigs.length ≤ req.accounts.length
  submitAttestations : ∀ atts, p.submitAttestations atts = .ok ()

/-- Whatever the attested map, a call whose duty and collaborators give what `Answers` asks
returns attestations: the filter loop, run alone, finds its inner map, every account's position
is within the duty's lists, and every signature's within the per-validator arrays, so no index is
out of range, no check fails and no collaborator fails. -/
theorem attest_returns_of_answers (s : Service) (p : Providers) (m : AttestedMap) (duty : Duty)
    (h : Answers s p duty) : ∃ atts, (s.attest p m duty).outcome = .returned (.ok atts) := by
  obtain ⟨m', vis, hf, -⟩ :=
    filterValidatorIndices_ensure m (s.slotToEpoch duty.slot) duty.validatorIndices
  obtain ⟨new, hvis, hsub, -, -⟩ := filterValidatorIndices_kept _ hf
  rw [List.nil_append] at hvis
  subst vis
  obtain ⟨committeeIndex, data, hci, hdata, hslot, hsource, hpos, htarget⟩ := h.attestationData
  obtain ⟨accounts, hacc, hkeys⟩ := h.validatingAccounts new
  have hcover : ∀ k ∈ accounts.keys,
      validatorIndexToArrayIndexMap new k < duty.committeeIndices.length ∧
        validatorIndexToArrayIndexMap new k < duty.validatorCommitteeIndices.length := fun k hk =>
    have hlt := (validatorIndexToArrayIndexMap_lt (hkeys k hk)).trans_le hsub.length_le
    ⟨hlt.trans_le h.committeeIndices_length, hlt.trans_le h.validatorCommitteeIndices_length⟩
  obtain ⟨prep, hinfo⟩ : ∃ prep, perValidatorInformation duty new accounts data = .next prep :=
    perValidatorInformation_isNext hcover
  obtain ⟨-, hvals, -, hcis, hbis, hsizes⟩ := perValidatorInformation_eq_next hinfo
  obtain ⟨sigs, hsig, hsigs⟩ := h.signBeaconAttestations (signRequest duty prep)
  have hle : sigs.length ≤ accounts.entries.length := by
    simpa [signRequest, hvals] using hsigs
  obtain ⟨atts, hbuild⟩ := Option.isSome_iff_exists.mp
    (buildAttestations_isSome (hcis ▸ hle) (hbis ▸ hle) (hsizes ▸ hle))
  have hcheck : checkAttestationData s duty data = .next () :=
    checkAttestationData_eq_next.mpr ⟨hslot, hsource, hpos, htarget⟩
  exact ⟨atts, attest_outcome_of_next hf (prepare_of_eq_next hci hdata hcheck hacc hinfo)
    (attestInternal_of_buildAttestations hsig hbuild (h.submitAttestations atts))⟩

theorem attest_returns_of_answers_twoCommittee :
    Answers (Service.ofSlotsPerEpoch 32) answeringProviders twoCommitteeDuty ∧
      ∃ atts, ((Service.ofSlotsPerEpoch 32).attest answeringProviders .empty
        twoCommitteeDuty).outcome = .returned (.ok atts) :=
  have h : Answers (Service.ofSlotsPerEpoch 32) answeringProviders twoCommitteeDuty :=
    { committeeIndices_length := by decide
      validatorCommitteeIndices_length := by decide
      attestationData := ⟨10, _, rfl, rfl, rfl, by decide, by decide, by decide⟩
      validatingAccounts := fun _ => ⟨_, rfl, fun _ hv => by simpa using hv⟩
      signBeaconAttestations := fun _ => ⟨_, rfl, by simp⟩
      submitAttestations := fun _ => rfl }
  ⟨h, attest_returns_of_answers _ _ _ _ h⟩

/-! ### What a failed call leaves recorded -/

/-- With validator `1` already recorded in epoch 1, the call for `twoCommitteeDuty` signs for
validator `2`, at place 1 of the duty, with the committee index at place 0, and submits an
attestation with that committee index and a bitlist of that committee's size with bit 0 set:
committee 10, size 4, bit 0, where the duty gives committee 20, size 8, bit 1. -/
theorem attest_reads_committee_at_filtered_position :
    twoCommitteeDuty.validatorIndices[1]? = some 2 ∧
      twoCommitteeDuty.committeeIndices[1]? = some 20 ∧
      twoCommitteeDuty.validatorCommitteeIndices[1]? = some 1 ∧
      twoCommitteeDuty.committeeSize 20 = 8 ∧
      ((Service.ofSlotsPerEpoch 32).attest answeringProviders
          (Function.update AttestedMap.empty 1 (some {1})) twoCommitteeDuty).requests =
        [.attestationData 32 10, .validatingAccounts 1 [2],
          .signBeaconAttestations ⟨[⟨none, some (List.replicate 48 2)⟩], 32, [10],
            Bytes.zero 32, 0, Bytes.zero 32, 1, Bytes.zero 32⟩,
          .submitAttestations [⟨[true, false, false, false],
            ⟨32, 10, Bytes.zero 32, ⟨0, Bytes.zero 32⟩, ⟨1, Bytes.zero 32⟩⟩, nonzeroSignature⟩]] := by
  decide

/-! ### The validators a call asks for -/

/-- A call asks the validating-accounts provider, if at all, for the validators of its duty that
the map did not hold for the duty's epoch before the call, each once and in the duty's order: a
validator the duty lists twice is asked for once, and one already recorded is not asked for. -/
theorem attest_asks_accounts_of_unrecorded (s : Service) (p : Providers) (m : AttestedMap)
    (duty : Duty) {epoch : ℕ} {vis : List ℕ}
    (h : Request.validatingAccounts epoch vis ∈ (s.attest p m duty).requests) :
    vis.Sublist duty.validatorIndices ∧ vis.Nodup ∧
      ∀ v, v ∈ vis ↔ v ∈ duty.validatorIndices ∧ ¬ m.contains (s.slotToEpoch duty.slot) v := by
  obtain ⟨m', vis₀, hf, hr⟩ := mem_requests_attest h
  have hvis : vis = vis₀ := by
    rcases hr with hr | ⟨prep, -, hr⟩
    · obtain ⟨ci, hpre⟩ := @prepare_requests_in_order s p duty vis₀
      exact (by simpa using hpre.subset hr : epoch = _ ∧ vis = vis₀).2
    · obtain ⟨atts, hpre⟩ := @attestInternal_requests_in_order p duty prep
      simpa using hpre.subset hr
  obtain ⟨new, hk, hsub, hnd, hmem⟩ := filterValidatorIndices_kept _ hf
  rw [hvis, hk, List.nil_append]
  exact ⟨hsub, hnd, fun v => by simp [hmem]⟩

theorem attest_asks_accounts_of_unrecorded_twoCommittee :
    Request.validatingAccounts 1 [2] ∈ ((Service.ofSlotsPerEpoch 32).attest answeringProviders
      (Function.update AttestedMap.empty 1 (some {1})) twoCommitteeDuty).requests ∧
    [2].Sublist twoCommitteeDuty.validatorIndices ∧ [2].Nodup ∧
    ∀ v, v ∈ [2] ↔ v ∈ twoCommitteeDuty.validatorIndices ∧
      ¬ AttestedMap.contains (Function.update AttestedMap.empty 1 (some {1}))
        ((Service.ofSlotsPerEpoch 32).slotToEpoch twoCommitteeDuty.slot) v :=
  have h : Request.validatingAccounts 1 [2] ∈ ((Service.ofSlotsPerEpoch 32).attest
      answeringProviders (Function.update AttestedMap.empty 1 (some {1}))
      twoCommitteeDuty).requests := by
    decide
  ⟨h, attest_asks_accounts_of_unrecorded _ _ _ _ h⟩

/-! ### Committee information when the filter removes nothing -/

/-- The committee index and the aggregation bits that `duty` gives validator `v`: those at the
validator's position in the duty's lists. -/
def Duty.committeeBitsOf (duty : Duty) (v : ℕ) : ℕ × Bitlist :=
  let k := duty.validatorIndices.indexOf v
  (duty.committeeIndices.getD k 0,
    (Bitlist.new (duty.committeeSize (duty.committeeIndices.getD k 0))).setBitAt
      (duty.validatorCommitteeIndices.getD k 0) true)

/-- When the duty lists each validator once, the map held none of them for the duty's epoch
before the call, and the accounts provider answers only for validators it is asked for, the
attestations a call returns carry, in order, for each non-zero signature, the committee index and
the aggregation bits that the duty gives the validator whose account is at that signature's
position. -/
theorem attest_attestations_at_duty_positions (s : Service) (p : Providers) (m : AttestedMap)
    (duty : Duty) (hnd : duty.validatorIndices.Nodup)
    (hnew : ∀ v ∈ duty.validatorIndices, ¬ m.contains (s.slotToEpoch duty.slot) v)
    (hasked : ∀ epoch vis accounts, p.validatingAccountsForEpochByIndex epoch vis = .ok accounts →
      ∀ v ∈ accounts.keys, v ∈ vis)
    {atts : List Attestation} (h : (s.attest p m duty).outcome = .returned (.ok atts)) :
    ∃ accounts req sigs,
      p.validatingAccountsForEpochByIndex (duty.slot / s.slotsPerEpoch) duty.validatorIndices =
        .ok accounts ∧
      Request.signBeaconAttestations req ∈ (s.attest p m duty).requests ∧
      req.accounts = accounts.values ∧ p.signBeaconAttestations req = .ok sigs ∧
      atts.map (fun a => (a.data.index, a.aggregationBits)) =
        (sigs.enum.filter fun x => x.2 ≠ Bytes.zero 96).map
          fun x => duty.committeeBitsOf (accounts.keys.getD x.1 0) := by
  obtain ⟨m', vis, hf, -⟩ :=
    filterValidatorIndices_ensure m (s.slotToEpoch duty.slot) duty.validatorIndices
  have hvis : vis = duty.validatorIndices := by
    obtain ⟨new, rfl, hsub, -, hmem⟩ := filterValidatorIndices_kept _ hf
    refine hsub.eq_of_length_le (List.subperm_of_subset hnd fun v hv => ?_).length_le
    exact (hmem v).mpr ⟨hv, by simpa using hnew v hv⟩
  subst hvis
  obtain ⟨prep, _, _, hprep, hattest, hreq, -⟩ := attest_eq_ok hf h
  obtain ⟨_, _, accounts, -, -, -, haccounts, rfl, hinfo⟩ := prepare_eq_next hprep
  obtain ⟨sigs, hsig, hbuild, rfl⟩ := attestInternal_eq_next hattest
  refine ⟨accounts, signRequest duty prep, sigs, haccounts, by simp [hreq],
    (perValidatorInformation_eq_next hinfo).2.1, hsig,
    map_of_mapM_eq_some (fun x a hat => ?_) hbuild⟩
  obtain ⟨bi, size, hci, hbi, hsize, hbits⟩ := attestationAt_info hat
  obtain ⟨v, hv, hinfo_v⟩ := perValidatorInformation_at hinfo hci hbi hsize
  have hvd : v ∈ duty.validatorIndices := hasked _ _ _ haccounts v (List.getElem?_mem hv)
  rw [validatorIndexToArrayIndexMap_of_mem hnd hvd] at hinfo_v
  simp only [committeeInfo, Option.bind_eq_bind, Option.bind_eq_some, Option.pure_def,
    Option.some.injEq, Prod.mk.injEq] at hinfo_v
  obtain ⟨ci, hci', bi', hbi', rfl, rfl, rfl⟩ := hinfo_v
  simp [Duty.committeeBitsOf, List.getD_eq_getElem?_getD, hv, hci', hbi', hbits]

theorem attest_attestations_at_duty_positions_twoCommittee :
    twoCommitteeDuty.validatorIndices.Nodup ∧
    (∀ v ∈ twoCommitteeDuty.validatorIndices, ¬ AttestedMap.empty.contains
      ((Service.ofSlotsPerEpoch 32).slotToEpoch twoCommitteeDuty.slot) v) ∧
    (∀ epoch vis accounts,
      answeringProviders.validatingAccountsForEpochByIndex epoch vis = .ok accounts →
        ∀ v ∈ accounts.keys, v ∈ vis) ∧
    ((Service.ofSlotsPerEpoch 32).attest answeringProviders .empty twoCommitteeDuty).outcome =
      .returned (.ok [⟨[true, false, false, false],
          ⟨32, 10, Bytes.zero 32, ⟨0, Bytes.zero 32⟩, ⟨1, Bytes.zero 32⟩⟩, nonzeroSignature⟩,
        ⟨[false, true, false, false, false, false, false, false],
          ⟨32, 20, Bytes.zero 32, ⟨0, Bytes.zero 32⟩, ⟨1, Bytes.zero 32⟩⟩, nonzeroSignature⟩]) ∧
    ∃ accounts req sigs,
      answeringProviders.validatingAccountsForEpochByIndex
        (twoCommitteeDuty.slot / (Service.ofSlotsPerEpoch 32).slotsPerEpoch)
        twoCommitteeDuty.validatorIndices = .ok accounts ∧
      Request.signBeaconAttestations req ∈ ((Service.ofSlotsPerEpoch 32).attest
        answeringProviders .empty twoCommitteeDuty).requests ∧
      req.accounts = accounts.values ∧ answeringProviders.signBeaconAttestations req = .ok sigs ∧
      [(⟨[true, false, false, false],
          ⟨32, 10, Bytes.zero 32, ⟨0, Bytes.zero 32⟩, ⟨1, Bytes.zero 32⟩⟩, nonzeroSignature⟩ :
            Attestation),
        ⟨[false, true, false, false, false, false, false, false],
          ⟨32, 20, Bytes.zero 32, ⟨0, Bytes.zero 32⟩, ⟨1, Bytes.zero 32⟩⟩,
            nonzeroSignature⟩].map (fun a => (a.data.index, a.aggregationBits)) =
        (sigs.enum.filter fun x => x.2 ≠ Bytes.zero 96).map
          fun x => twoCommitteeDuty.committeeBitsOf (accounts.keys.getD x.1 0) :=
  have hnd : twoCommitteeDuty.validatorIndices.Nodup := by decide
  have hnew : ∀ v ∈ twoCommitteeDuty.validatorIndices, ¬ AttestedMap.empty.contains
      ((Service.ofSlotsPerEpoch 32).slotToEpoch twoCommitteeDuty.slot) v := by
    simp
  have hasked : ∀ epoch vis accounts,
      answeringProviders.validatingAccountsForEpochByIndex epoch vis = .ok accounts →
        ∀ v ∈ accounts.keys, v ∈ vis := by
    rintro epoch vis accounts ⟨⟩ v hv
    simpa using hv
  have h : ((Service.ofSlotsPerEpoch 32).attest answeringProviders .empty
      twoCommitteeDuty).outcome =
      .returned (.ok [⟨[true, false, false, false],
          ⟨32, 10, Bytes.zero 32, ⟨0, Bytes.zero 32⟩, ⟨1, Bytes.zero 32⟩⟩, nonzeroSignature⟩,
        ⟨[false, true, false, false, false, false, false, false],
          ⟨32, 20, Bytes.zero 32, ⟨0, Bytes.zero 32⟩, ⟨1, Bytes.zero 32⟩⟩, nonzeroSignature⟩]) := by
    decide
  ⟨hnd, hnew, hasked, h, attest_attestations_at_duty_positions _ _ _ _ hnd hnew hasked h⟩

end Vouch.Attester

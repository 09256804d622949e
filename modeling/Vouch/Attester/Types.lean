import Vouch.Basic

/-!
# Data of the attester

The values that `Service.Attest` of `services/attester/standard` reads and returns: the duty it
is passed, the attestation data it fetches, the attestations it builds, the errors it returns,
and the collaborators it calls.

The collaborators are external: the attestation-data provider, the validating-accounts provider,
the signer and the submitter. A call of `Attest` makes each request at most once, so each of
them is a function from the request to its response (`Providers`); a statement over every
`Providers` is one over every response. The requests a call makes are recorded as `Request`s, so
that what was asked of the signer and of the submitter can be stated.

## Main definitions

* `Vouch.Attester.Duty`: the attester duty.
* `Vouch.Attester.Checkpoint`, `Vouch.Attester.AttestationData`, `Vouch.Attester.Attestation`,
  `Vouch.Attester.Bitlist.new`, `Vouch.Attester.Bitlist.setBitAt`.
* `Vouch.Attester.AttestError`, `Vouch.Attester.AttestError.message`.
* `Vouch.Attester.SignRequest`, `Vouch.Attester.SignRequest.attestationDataAt`,
  `Vouch.Attester.Request`, `Vouch.Attester.Providers`, `Vouch.Attester.Service`.

## References

* `src/services/attester/standard/service.go`, lines 41–53 and 102–303.
-/

namespace Vouch.Attester

/-- Modelled from the spec: the attester duty (`attester.Duty`; its package is not in the
source). `Attest` reads it through `Slot()`, `ValidatorIndices()`, `CommitteeIndices()`,
`ValidatorCommitteeIndices()` and `CommitteeSize(committeeIndex)`; the three lists hold one entry
per validator of the duty, position by position (§4.5: "the duty (committee index, validator
indices, committee sizes, etc.)"). -/
structure Duty where
  slot : ℕ
  validatorIndices : List ℕ
  committeeIndices : List ℕ
  validatorCommitteeIndices : List ℕ
  committeeSize : ℕ → ℕ

/-- `phase0.Checkpoint`. -/
structure Checkpoint where
  epoch : ℕ
  root : Root
deriving DecidableEq, Repr

/-- `phase0.AttestationData`. -/
structure AttestationData where
  slot : ℕ
  index : ℕ
  beaconBlockRoot : Root
  source : Checkpoint
  target : Checkpoint
deriving DecidableEq, Repr

/-- Modelled from the spec: a `bitfield.Bitlist` (go-bitfield, not in the source), by its bits,
"a variable-length bitlist sized to committee size" (§3). -/
abbrev Bitlist := List Bool

namespace Bitlist

/-- Modelled from the spec: `bitfield.NewBitlist(n)`, `n` unset bits. -/
def new (n : ℕ) : Bitlist := List.replicate n false

/-- Modelled from the spec: `SetBitAt(idx, val)`; an index past the end changes nothing. -/
def setBitAt (b : Bitlist) (idx : ℕ) (val : Bool) : Bitlist := List.set b idx val

end Bitlist

/-- `phase0.Attestation`. -/
structure Attestation where
  aggregationBits : Bitlist
  data : AttestationData
  signature : BLSSignature
deriving DecidableEq, Repr

/-- The errors `Attest` returns, each with the values its message prints. The wrapped causes are
the errors of the collaborators. -/
inductive AttestError
  | attestationData (cause : String)
  | slotMismatch (slot dataSlot : ℕ)
  | sourceAfterTarget (slot source target : ℕ)
  | targetAfterCurrent (slot target current : ℕ)
  | validatingAccounts (cause : String)
  | sign (cause : String)
  | submit (cause : String)
deriving DecidableEq, Repr

/-- The text of the error, as `errors.Wrap` and `fmt.Errorf` write it. -/
def AttestError.message : AttestError → String
  | .attestationData cause => "failed to obtain attestation data: " ++ cause
  | .slotMismatch slot dataSlot =>
    s!"attestation request for slot {slot} returned data for slot {dataSlot}"
  | .sourceAfterTarget slot source target =>
    s!"attestation request for slot {slot} returned source epoch {source} greater than target epoch {target}"
  | .targetAfterCurrent slot target current =>
    s!"attestation request for slot {slot} returned target epoch {target} greater than current epoch {current}"
  | .validatingAccounts cause => "failed to obtain attesting validator accounts: " ++ cause
  | .sign cause => "failed to sign beacon attestations: " ++ cause
  | .submit cause => "failed to submit attestations: " ++ cause

/-- The arguments of `SignBeaconAttestations` (lines 245–254). -/
structure SignRequest where
  accounts : List Account
  slot : ℕ
  committeeIndices : List ℕ
  blockRoot : Root
  sourceEpoch : ℕ
  sourceRoot : Root
  targetEpoch : ℕ
  targetRoot : Root
deriving DecidableEq, Repr

/-- A request `Attest` makes of a collaborator. -/
inductive Request
  | attestationData (slot committeeIndex : ℕ)
  | validatingAccounts (epoch : ℕ) (indices : List ℕ)
  | signBeaconAttestations (req : SignRequest)
  | submitAttestations (attestations : List Attestation)
deriving DecidableEq, Repr

/-- The answers of the collaborators of one `Attest` call: the attestation-data provider, the
validating-accounts provider (a Go map from index to account), the signer and the submitter. -/
structure Providers where
  attestationData : ℕ → ℕ → Except String AttestationData
  validatingAccountsForEpochByIndex :
    ℕ → List ℕ → Except String (GoMap ℕ Account)
  signBeaconAttestations : SignRequest → Except String (List BLSSignature)
  submitAttestations : List Attestation → Except String Unit

/-- The fields of the attester `Service` that `Attest` reads besides its collaborators and the
attested map: `slotsPerEpoch`, taken from the chain spec by `New`, and `SlotToEpoch` of the
chain-time service. -/
structure Service where
  slotsPerEpoch : ℕ
  slotToEpoch : ℕ → ℕ

end Vouch.Attester

import Vouch.Attester.Concurrent
import Vouch.Attester.Single

/-!
# Signing once per epoch and validator

The attested map stops the attester from signing twice for a validator in an epoch: a call keeps
a validator in its filter loop only if the pair of its epoch and the validator is not recorded,
and records it in the same critical section (lines 127–136).

Over every interleaving of calls, the signing calls include an account of a validator for an
epoch at most once, provided that each validating-accounts answer stays within the indices asked
for, and that no call for two epochs later housekeeps while a call for the epoch is still in its
filter loop (`attest_signs_once_per_epoch_and_validator`). The proof is an invariant, `Interlock`:
at most one call holds a pair between its check and its signing call, and a pair signed for or
held stays recorded until the entry of its epoch is deleted. The entry can be deleted between a
call's filter loop and its signing call, by the housekeeping of a call two epochs later; the
signing call then goes ahead with nothing recorded for the epoch
(`attest_signs_after_epoch_evicted`).

## Main definitions

* `Vouch.Attester.signCount`: how often the signing calls included a validator for an epoch.
* `Vouch.Attester.HousekeepsAfterFilters`, `Vouch.Attester.AccountsAsked`.
* `Vouch.Attester.Interlock`: the invariant on one epoch and validator.

## Main results

* `Vouch.Attester.attest_signs_once_per_epoch_and_validator`
* `Vouch.Attester.attest_signs_after_epoch_evicted`

## References

* `src/services/attester/standard/service.go`, lines 116–137, 165–207 and 237–258.
-/

namespace Vouch.Attester

section Defs

variable (s : Service) (calls : CallId → Call)

/-- The epoch of the duty of call `c`. -/
def epochOf (c : CallId) : ℕ := s.slotToEpoch (calls c).duty.slot

/-- The validators for which the step `x` signs an account in epoch `e`: the step of a call for
`e` from `Pc.attesting` makes its signing call with the accounts of its validators. -/
def signedFor (e : ℕ) : CallId × Pc → List ℕ
  | (c, .attesting _ prep) => if epochOf s calls c = e then prep.accountValidatorIndices else []
  | _ => []

/-- How many times the signing calls among the steps `h` included an account of validator `v`
for epoch `e`. -/
def signCount (e v : ℕ) (h : List (CallId × Pc)) : ℕ :=
  (h.flatMap (signedFor s calls e)).count v

/-- The step `x` is the creation of the inner map, or a pass of the filter loop, of a call for
epoch `e`. -/
def inFilterLoop (e : ℕ) : CallId × Pc → Bool
  | (c, .start) => epochOf s calls c = e
  | (c, .filtering (_ :: _) _) => epochOf s calls c = e
  | _ => false

/-- The step `x` is the housekeeping of a call for epoch `e + 2` or later. -/
def housekeepsPast (e : ℕ) : CallId × Pc → Bool
  | (c, .housekeeping _) => e + 2 ≤ epochOf s calls c
  | _ => false

/-- The step `x` deletes the entry of epoch `k`: it is the housekeeping of a call for `k + 2`. -/
def evicts (k : ℕ) : CallId × Pc → Bool
  | (c, .housekeeping _) => epochOf s calls c = k + 2
  | _ => false

/-- The steps `h` deleted the entry of epoch `e`. -/
def Evicted (e : ℕ) (h : List (CallId × Pc)) : Prop := ∃ x ∈ h, evicts s calls e x = true

/-- No call for an epoch `e + 2` or later reaches its housekeeping step before every call for `e`
has left its filter loop: in the steps `h`, no step of the filter loop of a call for `e` follows
such a housekeeping. -/
def HousekeepsAfterFilters (e : ℕ) (h : List (CallId × Pc)) : Prop :=
  h.Pairwise fun x y => housekeepsPast s calls e x = true → inFilterLoop s calls e y = false

instance decHousekeepsAfterFilters (e : ℕ) (h : List (CallId × Pc)) :
    Decidable (HousekeepsAfterFilters s calls e h) :=
  inferInstanceAs (Decidable (h.Pairwise fun x y =>
    housekeepsPast s calls e x = true → inFilterLoop s calls e y = false))

/-- The validating-accounts provider of every call answers only for indices it was asked for. -/
def AccountsAsked : Prop :=
  ∀ c epoch indices accounts,
    (calls c).providers.validatingAccountsForEpochByIndex epoch indices = .ok accounts →
      ∀ k ∈ accounts.keys, k ∈ indices

/-- Every call at its signing call has accounts of distinct validators, all of which it kept. -/
def AccountsWithin (sys : Sys) : Prop :=
  ∀ c kept prep, sys.pc c = .attesting kept prep →
    prep.accountValidatorIndices.Nodup ∧ ∀ k ∈ prep.accountValidatorIndices, k ∈ kept

/-- Call `c` holds validator `v` for epoch `e`: it is a call for `e` that kept `v` and has not yet
made its signing call. -/
def Holds (e v : ℕ) (sys : Sys) (c : CallId) : Prop :=
  epochOf s calls c = e ∧ v ∈ (sys.pc c).kept

/-- The interlock on epoch `e` and validator `v`. -/
structure Interlock (e v : ℕ) (sys : Sys) : Prop where
  /-- The signing calls so far included an account of `v` for `e` at most once. -/
  signCount_le : signCount s calls e v sys.history ≤ 1
  /-- At most one call holds `v` for `e`. -/
  holds_unique : ∀ c c', Holds s calls e v sys c → Holds s calls e v sys c' → c = c'
  /-- No call holds `v` for `e` once a signing call included it. -/
  not_holds_of_signed : signCount s calls e v sys.history = 1 → ∀ c, ¬ Holds s calls e v sys c
  /-- A pair signed for or held stays recorded until the entry of its epoch is deleted. -/
  recorded : (signCount s calls e v sys.history = 1 ∨ ∃ c, Holds s calls e v sys c) →
    sys.attested.contains e v ∨ Evicted s calls e sys.history
  /-- A deleted entry is not made again. -/
  evicted_none : Evicted s calls e sys.history → sys.attested e = none

end Defs

section Steps

variable {s : Service} {calls : CallId → Call} {sys : Sys} {c : CallId} {e v : ℕ}

theorem signCount_append (h : List (CallId × Pc)) (x : CallId × Pc) :
    signCount s calls e v (h ++ [x]) =
      signCount s calls e v h + (signedFor s calls e x).count v := by
  simp [signCount, List.flatMap_append, List.count_append]

theorem evicts_eq_true {pc : Pc} :
    evicts s calls e (c, pc) = true ↔
      (∃ atts, pc = .housekeeping atts) ∧ epochOf s calls c = e + 2 := by
  cases pc <;> simp [evicts]

theorem housekeepsPast_of_evicts {x : CallId × Pc} (h : evicts s calls e x = true) :
    housekeepsPast s calls e x = true := by
  obtain ⟨c, pc⟩ := x
  cases pc <;> simp_all [evicts, housekeepsPast]

/-- A signing step includes `v` for `e` at most once, and only as the step of a call that holds
it. -/
theorem count_signedFor (hw : AccountsWithin sys) :
    (signedFor s calls e (c, sys.pc c)).count v = 0 ∨
      ((signedFor s calls e (c, sys.pc c)).count v = 1 ∧ Holds s calls e v sys c ∧
        ∃ kept prep, sys.pc c = .attesting kept prep) := by
  rcases hpc : sys.pc c with _ | _ | ⟨kept, prep⟩ | _ | _ | _ <;> simp only [signedFor]
  case attesting =>
    by_cases he : epochOf s calls c = e
    · by_cases hv : v ∈ prep.accountValidatorIndices
      · obtain ⟨hnd, hsub⟩ := hw c kept prep hpc
        exact .inr ⟨by simp [he, List.count_eq_one_of_mem hnd hv],
          And.intro he (by simp [hpc, Pc.kept, hsub v hv]), kept, prep, rfl⟩
      · exact .inl (by simp [he, List.count_eq_zero_of_not_mem hv])
    · exact .inl (by simp [he])
  all_goals exact .inl (List.count_nil v)

section Live

variable (hcr : sys.crashed = false)
include hcr

theorem holds_step {c' : CallId} :
    Holds s calls e v (step s calls sys c) c' ↔
      if c' = c then epochOf s calls c = e ∧ v ∈ (move s (calls c) sys.attested (sys.pc c)).2.kept
      else Holds s calls e v sys c' := by
  by_cases h : c' = c
  · subst h
    simp [Holds, step_pc hcr]
  · simp [Holds, step_pc hcr, h]

/-- A call holds `v` for `e` after a step only if it held it before, or the step is a pass of its
filter loop that records `(e, v)`. -/
theorem holds_of_holds_step {c' : CallId} (h : Holds s calls e v (step s calls sys c) c') :
    Holds s calls e v sys c' ∨ (c' = c ∧ inFilterLoop s calls e (c, sys.pc c) = true ∧
      ¬ sys.attested.contains e v ∧ (step s calls sys c).attested.contains e v) := by
  rw [holds_step hcr] at h
  split_ifs at h with hc
  · subst hc
    obtain ⟨rfl, hv⟩ := h
    rcases mem_kept_move hv with hv | ⟨indices, kept, hpc, hnc, hrec⟩
    · exact .inl (And.intro rfl hv)
    · exact .inr ⟨rfl, by simp [inFilterLoop, hpc], hnc, by rw [step_attested hcr]; exact hrec⟩
  · exact .inl h

theorem evicted_step :
    Evicted s calls e (step s calls sys c).history ↔
      Evicted s calls e sys.history ∨ evicts s calls e (c, sys.pc c) = true := by
  simp [Evicted, step_history hcr, or_and_right, exists_or]

/-- After the entry of `e` is deleted, no step of a filter loop for `e` follows. -/
theorem not_inFilterLoop_of_evicted
    (hpre : HousekeepsAfterFilters s calls e (step s calls sys c).history)
    (hev : Evicted s calls e sys.history) : inFilterLoop s calls e (c, sys.pc c) = false := by
  rw [HousekeepsAfterFilters, step_history hcr, List.pairwise_append] at hpre
  obtain ⟨x, hx, he⟩ := hev
  exact hpre.2.2 x hx _ (List.mem_singleton_self _) (housekeepsPast_of_evicts he)

/-- A deleted entry stays deleted. -/
theorem attested_step_of_evicted
    (hpre : HousekeepsAfterFilters s calls e (step s calls sys c).history)
    (hnone : Evicted s calls e sys.history → sys.attested e = none)
    (hev : Evicted s calls e (step s calls sys c).history) :
    (step s calls sys c).attested e = none := by
  rw [step_attested hcr, ← Option.not_isSome_iff_eq_none, isSome_move]
  rcases (evicted_step hcr).mp hev with hold | hnow
  · have hent := not_inFilterLoop_of_evicted hcr hpre hold
    rintro (⟨hpc, he⟩ | ⟨h, -⟩)
    · simp [inFilterLoop, hpc, epochOf, he] at hent
    · simp [hnone hold] at h
  · obtain ⟨⟨atts, hpc⟩, he⟩ := evicts_eq_true.mp hnow
    rintro (⟨hpc', -⟩ | ⟨-, h⟩)
    · simp [hpc] at hpc'
    · exact h ⟨⟨atts, hpc⟩, he⟩

/-- A recorded pair stays recorded, unless the step deletes the entry of its epoch. -/
theorem contains_step (h : sys.attested.contains e v) :
    (step s calls sys c).attested.contains e v ∨ evicts s calls e (c, sys.pc c) = true := by
  rw [step_attested hcr, evicts_eq_true]
  exact contains_move h

/-- A call holds `v` for `e` after a step if it held it before, or if the step records `(e, v)`
for it while no signing call had included `v` for `e` and no call held it. -/
theorem holds_step_cases (hi : Interlock s calls e v sys)
    (hpre : HousekeepsAfterFilters s calls e (step s calls sys c).history) {c' : CallId}
    (h : Holds s calls e v (step s calls sys c) c') :
    Holds s calls e v sys c' ∨ (c' = c ∧ (step s calls sys c).attested.contains e v ∧
      signCount s calls e v sys.history = 0 ∧ ∀ c'', ¬ Holds s calls e v sys c'') := by
  rcases holds_of_holds_step hcr h with h | ⟨rfl, hent, hnc, hrec⟩
  · exact .inl h
  have hnev : ¬ Evicted s calls e sys.history := fun hev => by
    simp [not_inFilterLoop_of_evicted hcr hpre hev] at hent
  have hfree : ¬ (signCount s calls e v sys.history = 1 ∨ ∃ c'', Holds s calls e v sys c'') :=
    fun hcl => (hi.recorded hcl).elim hnc hnev
  push_neg at hfree
  exact .inr ⟨rfl, hrec, by have := hi.signCount_le; omega, hfree.2⟩

/-- A step either includes no account of `v` for `e` in a signing call, or is the signing call of
the one call that holds `v`, the first to include it; after it nobody holds `v`. -/
theorem signCount_step (hw : AccountsWithin sys) (hi : Interlock s calls e v sys) :
    signCount s calls e v (step s calls sys c).history = signCount s calls e v sys.history ∨
      (signCount s calls e v sys.history = 0 ∧
        signCount s calls e v (step s calls sys c).history = 1 ∧
        Holds s calls e v sys c ∧ ∀ c', ¬ Holds s calls e v (step s calls sys c) c') := by
  rw [step_history hcr, signCount_append]
  rcases count_signedFor hw with hk | ⟨hk, hhc, kept, prep, hpc⟩
  · exact .inl (by rw [hk, add_zero])
  · have h1 : signCount s calls e v sys.history ≠ 1 := fun h => hi.not_holds_of_signed h c hhc
    have h0 : signCount s calls e v sys.history = 0 := by have := hi.signCount_le; omega
    refine .inr ⟨h0, by rw [hk, h0], hhc, fun c' => ?_⟩
    rw [holds_step hcr]
    split_ifs with hc'
    · simp [hpc, kept_move_attesting]
    · exact fun h => hc' (hi.holds_unique c' c h hhc)

/-- What a step keeps of the claim of the interlock: a pair signed for or held after the step
was signed for or held before, or the step records it. -/
theorem signedOrHeld_or_contains_of_signedOrHeld_step (hw : AccountsWithin sys) (hi : Interlock s calls e v sys)
    (hpre : HousekeepsAfterFilters s calls e (step s calls sys c).history)
    (h : signCount s calls e v (step s calls sys c).history = 1 ∨
      ∃ c', Holds s calls e v (step s calls sys c) c') :
    (signCount s calls e v sys.history = 1 ∨ ∃ c', Holds s calls e v sys c') ∨
      (step s calls sys c).attested.contains e v := by
  rcases h with hs | ⟨c', h'⟩
  · rcases signCount_step hcr hw hi with heq | ⟨-, -, hhc, -⟩
    · exact .inl (.inl (heq ▸ hs))
    · exact .inl (.inr ⟨c, hhc⟩)
  · rcases holds_step_cases hcr hi hpre h' with hold | ⟨-, hrec, -⟩
    · exact .inl (.inr ⟨c', hold⟩)
    · exact .inr hrec

end Live

theorem interlock_init (m : AttestedMap) : Interlock s calls e v (Sys.init m) where
  signCount_le := by simp [signCount, Sys.init]
  holds_unique := by simp [Holds, Sys.init, Pc.kept]
  not_holds_of_signed := by simp [Holds, Sys.init, Pc.kept]
  recorded := by simp [signCount, Holds, Sys.init, Pc.kept]
  evicted_none := by simp [Evicted, Sys.init]

/-- Every step keeps the interlock, provided its history meets `HousekeepsAfterFilters`. -/
theorem interlock_step (hw : AccountsWithin sys) (hi : Interlock s calls e v sys)
    (hpre : HousekeepsAfterFilters s calls e (step s calls sys c).history) :
    Interlock s calls e v (step s calls sys c) := by
  cases hcr : sys.crashed
  case true => rwa [step_of_crashed hcr]
  case false =>
  exact
  { signCount_le := by
      rcases signCount_step hcr hw hi with heq | ⟨-, h1, -⟩
      · exact heq ▸ hi.signCount_le
      · exact h1.le
    holds_unique := fun c₁ c₂ h₁ h₂ => by
      rcases holds_step_cases hcr hi hpre h₁ with g₁ | ⟨rfl, -, -, hno₁⟩ <;>
        rcases holds_step_cases hcr hi hpre h₂ with g₂ | ⟨rfl, -, -, hno₂⟩
      · exact hi.holds_unique c₁ c₂ g₁ g₂
      · exact absurd g₁ (hno₂ c₁)
      · exact absurd g₂ (hno₁ c₂)
      · rfl
    not_holds_of_signed := fun hs c' h' => by
      rcases signCount_step hcr hw hi with heq | ⟨-, -, -, hno⟩
      · rcases holds_step_cases hcr hi hpre h' with g | ⟨-, -, h0, -⟩
        · exact hi.not_holds_of_signed (heq ▸ hs) c' g
        · omega
      · exact hno c' h'
    recorded := fun hcl => by
      rcases signedOrHeld_or_contains_of_signedOrHeld_step hcr hw hi hpre hcl with hcl | hrec
      · rcases hi.recorded hcl with hc | hev
        · exact (contains_step hcr hc).imp id fun h => (evicted_step hcr).mpr (.inr h)
        · exact .inr ((evicted_step hcr).mpr (.inl hev))
      · exact .inl hrec
    evicted_none := attested_step_of_evicted hcr hpre hi.evicted_none }

/-- The step keeps `AccountsWithin`: `prepare` signs for the accounts the provider returned for
the kept validators. -/
theorem accountsWithin_step (hasked : AccountsAsked calls) (hw : AccountsWithin sys) :
    AccountsWithin (step s calls sys c) := by
  cases hcr : sys.crashed
  case true => rwa [step_of_crashed hcr]
  case false =>
  intro c' kept prep h
  rw [step_pc hcr, Function.update_apply] at h
  split_ifs at h with hc
  · subst hc
    obtain ⟨-, hprep⟩ := move_eq_attesting h
    obtain ⟨_, _, accounts, -, -, -, hacc, -, hinfo⟩ :=
      prepare_eq_next (Prod.ext_iff.mpr ⟨rfl, hprep⟩)
    rw [(perValidatorInformation_eq_next hinfo).1]
    exact ⟨accounts.keys_nodup, hasked _ _ _ _ hacc⟩
  · exact hw c' kept prep h

/-- Over every run whose history meets `HousekeepsAfterFilters`, the interlock holds. -/
theorem interlock_run (hasked : AccountsAsked calls) (m : AttestedMap) (trace : List CallId)
    (hpre : HousekeepsAfterFilters s calls e (run s calls (Sys.init m) trace).history) :
    AccountsWithin (run s calls (Sys.init m) trace) ∧
      Interlock s calls e v (run s calls (Sys.init m) trace) := by
  refine (run_induction (fun sys => AccountsWithin sys ∧
      (HousekeepsAfterFilters s calls e sys.history → Interlock s calls e v sys))
    (fun sys c ⟨hw, hi⟩ => ⟨accountsWithin_step hasked hw, fun hpre' =>
      interlock_step hw (hi (hpre'.sublist (history_prefix_step sys c).sublist)) hpre'⟩)
    trace ⟨fun c kept prep h => ?_, fun _ => interlock_init m⟩).imp id (· hpre)
  cases h

end Steps

/-! ### Signing once per epoch and validator -/

/-- Over every interleaving of calls, the signing calls include an account of validator `v` for
epoch `e` at most once. At its signing call a call includes `v` for `e` only if it kept `v` in its
filter loop, and then `(e, v)` is still recorded, or the whole entry of `e` has been deleted. -/
theorem attest_signs_once_per_epoch_and_validator (s : Service) (calls : CallId → Call)
    (m : AttestedMap) (trace : List CallId) (e v : ℕ) (hasked : AccountsAsked calls)
    (hpre : HousekeepsAfterFilters s calls e (run s calls (Sys.init m) trace).history) :
    signCount s calls e v (run s calls (Sys.init m) trace).history ≤ 1 ∧
      ∀ c kept prep, (run s calls (Sys.init m) trace).pc c = .attesting kept prep →
        epochOf s calls c = e → v ∈ prep.accountValidatorIndices →
          v ∈ kept ∧ ((run s calls (Sys.init m) trace).attested.contains e v ∨
            (run s calls (Sys.init m) trace).attested e = none) := by
  obtain ⟨hw, hi⟩ : AccountsWithin _ ∧ Interlock s calls e v _ := interlock_run hasked m trace hpre
  refine ⟨hi.signCount_le, fun c kept prep hpc he hv => ?_⟩
  have hk : v ∈ kept := (hw c kept prep hpc).2 v hv
  have hholds : Holds s calls e v (run s calls (Sys.init m) trace) c :=
    And.intro he (by simp [hpc, Pc.kept, hk])
  exact ⟨hk, (hi.recorded (.inr ⟨c, hholds⟩)).imp id hi.evicted_none⟩

/-- Call 0 attests for `duty₀` and every other call for `duty₁`, all with collaborators that answer
every request. -/
def twoDutyCalls (duty₀ duty₁ : Duty) (c : CallId) : Call :=
  ⟨if c = 0 then duty₀ else duty₁, answeringProviders⟩

theorem accountsAsked_twoDutyCalls (duty₀ duty₁ : Duty) :
    AccountsAsked (twoDutyCalls duty₀ duty₁) := by
  intro c epoch indices accounts h
  simp only [twoDutyCalls, answeringProviders, Except.ok.injEq] at h
  simp [← h]

/-- Two calls for epoch 0 that share validator 5, interleaved pass by pass: call 0 keeps it,
call 1 finds it recorded and skips it, and the signing calls include it once. -/
theorem attest_signs_once_per_epoch_and_validator_shared :
    AccountsAsked (twoDutyCalls (validatorDuty 0 5) (validatorDuty 1 5)) ∧
    HousekeepsAfterFilters (Service.ofSlotsPerEpoch 32)
      (twoDutyCalls (validatorDuty 0 5) (validatorDuty 1 5)) 0
      (run (Service.ofSlotsPerEpoch 32) (twoDutyCalls (validatorDuty 0 5) (validatorDuty 1 5))
        (Sys.init .empty) [0, 1, 0, 1, 0, 1, 0, 1, 0, 1]).history ∧
    (signCount (Service.ofSlotsPerEpoch 32) (twoDutyCalls (validatorDuty 0 5) (validatorDuty 1 5))
        0 5 (run (Service.ofSlotsPerEpoch 32) (twoDutyCalls (validatorDuty 0 5) (validatorDuty 1 5))
          (Sys.init .empty) [0, 1, 0, 1, 0, 1, 0, 1, 0, 1]).history ≤ 1 ∧
      ∀ c kept prep, (run (Service.ofSlotsPerEpoch 32)
          (twoDutyCalls (validatorDuty 0 5) (validatorDuty 1 5)) (Sys.init .empty)
          [0, 1, 0, 1, 0, 1, 0, 1, 0, 1]).pc c = .attesting kept prep →
        epochOf (Service.ofSlotsPerEpoch 32)
          (twoDutyCalls (validatorDuty 0 5) (validatorDuty 1 5)) c = 0 →
        5 ∈ prep.accountValidatorIndices →
          5 ∈ kept ∧ ((run (Service.ofSlotsPerEpoch 32)
              (twoDutyCalls (validatorDuty 0 5) (validatorDuty 1 5)) (Sys.init .empty)
              [0, 1, 0, 1, 0, 1, 0, 1, 0, 1]).attested.contains 0 5 ∨
            (run (Service.ofSlotsPerEpoch 32)
              (twoDutyCalls (validatorDuty 0 5) (validatorDuty 1 5)) (Sys.init .empty)
              [0, 1, 0, 1, 0, 1, 0, 1, 0, 1]).attested 0 = none)) :=
  have hasked := accountsAsked_twoDutyCalls (validatorDuty 0 5) (validatorDuty 1 5)
  have hpre : HousekeepsAfterFilters (Service.ofSlotsPerEpoch 32)
      (twoDutyCalls (validatorDuty 0 5) (validatorDuty 1 5)) 0
      (run (Service.ofSlotsPerEpoch 32) (twoDutyCalls (validatorDuty 0 5) (validatorDuty 1 5))
        (Sys.init .empty) [0, 1, 0, 1, 0, 1, 0, 1, 0, 1]).history := by
    decide
  ⟨hasked, hpre, attest_signs_once_per_epoch_and_validator _ _ _ _ 0 5 hasked hpre⟩

/-- In that run, the signing calls did include validator 5 for epoch 0, once: the witness
exercises the interlock, it does not hold by there being no signing call. -/
example : signCount (Service.ofSlotsPerEpoch 32)
    (twoDutyCalls (validatorDuty 0 5) (validatorDuty 1 5)) 0 5
    (run (Service.ofSlotsPerEpoch 32) (twoDutyCalls (validatorDuty 0 5) (validatorDuty 1 5))
      (Sys.init .empty) [0, 1, 0, 1, 0, 1, 0, 1, 0, 1]).history = 1 := by
  decide

/-- Call 0, for validator 5 in epoch 0, keeps it and leaves its filter loop; call 1, for epoch 2,
then runs to its end and deletes the entry of epoch 0. The signing call of call 0, its next step,
includes validator 5 for epoch 0 while nothing is recorded for that epoch. No housekeeping comes
before a step of the filter loop of a call for epoch 0. -/
theorem attest_signs_after_epoch_evicted :
    AccountsAsked (twoDutyCalls (validatorDuty 0 5) (validatorDuty 64 7)) ∧
    HousekeepsAfterFilters (Service.ofSlotsPerEpoch 32)
      (twoDutyCalls (validatorDuty 0 5) (validatorDuty 64 7)) 0
      (run (Service.ofSlotsPerEpoch 32) (twoDutyCalls (validatorDuty 0 5) (validatorDuty 64 7))
        (Sys.init .empty) [0, 0, 0, 1, 1, 1, 1, 1, 0]).history ∧
    signCount (Service.ofSlotsPerEpoch 32) (twoDutyCalls (validatorDuty 0 5) (validatorDuty 64 7))
      0 5 (run (Service.ofSlotsPerEpoch 32) (twoDutyCalls (validatorDuty 0 5) (validatorDuty 64 7))
        (Sys.init .empty) [0, 0, 0, 1, 1, 1, 1, 1]).history = 0 ∧
    signCount (Service.ofSlotsPerEpoch 32) (twoDutyCalls (validatorDuty 0 5) (validatorDuty 64 7))
      0 5 (run (Service.ofSlotsPerEpoch 32) (twoDutyCalls (validatorDuty 0 5) (validatorDuty 64 7))
        (Sys.init .empty) [0, 0, 0, 1, 1, 1, 1, 1, 0]).history = 1 ∧
    (run (Service.ofSlotsPerEpoch 32) (twoDutyCalls (validatorDuty 0 5) (validatorDuty 64 7))
      (Sys.init .empty) [0, 0, 0, 1, 1, 1, 1, 1]).attested 0 = none ∧
    ¬ (run (Service.ofSlotsPerEpoch 32) (twoDutyCalls (validatorDuty 0 5) (validatorDuty 64 7))
      (Sys.init .empty) [0, 0, 0, 1, 1, 1, 1, 1]).attested.contains 0 5 :=
  ⟨accountsAsked_twoDutyCalls _ _, by decide⟩

end Vouch.Attester

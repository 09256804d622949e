import Vouch.Attester.Interlock

/-!
# Deleting the entries of past epochs

A call that succeeds deletes the entry of the epoch two before its own (lines 215–220). Over
every interleaving, the keys of the outer map follow the steps taken: a key `k` is present exactly
when the last step that creates or deletes it created it, or when no such step was taken and it
was present at the start (`attested_isSome_run`). Only the housekeeping of a call for epoch
`k + 2` deletes it, so a key can outlive the success of calls for much later epochs
(`attest_keeps_epoch_after_later_success`).

A call creates its inner map and inserts into it in separate critical sections. When no call for
two epochs later housekeeps while a call for the epoch is still in its filter loop, every pass of
a filter loop finds its inner map and does not panic (`step_filtering_not_crashed`). Otherwise a
call can lose its inner map to another call's housekeeping and then insert into the missing inner
map, which panics with `attestedMu` held (`attest_inserts_into_deleted_map`).

## Main definitions

* `Vouch.Attester.hasKeyAfter`: the keys of the outer map, from the steps taken.
* `Vouch.Attester.EntryHeld`: the calls in their filter loop find their inner map.

## Main results

* `Vouch.Attester.attested_isSome_run`, `Vouch.Attester.attest_keeps_epoch_after_later_success`
* `Vouch.Attester.step_filtering_not_crashed`, `Vouch.Attester.attest_inserts_into_deleted_map`

## References

* `src/services/attester/standard/service.go`, lines 116–137 and 215–220.
-/

namespace Vouch.Attester

section Defs

variable (s : Service) (calls : CallId → Call)

/-- The step `x` creates the entry of epoch `k`: it is the first step of a call for `k`. -/
def creates (k : ℕ) : CallId × Pc → Bool
  | (c, .start) => epochOf s calls c = k
  | _ => false

/-- Whether the attested map has the key `k` after the steps `h`, where `present` says whether it
had it before them. -/
def hasKeyAfter (k : ℕ) (present : Bool) (h : List (CallId × Pc)) : Bool :=
  h.foldl (fun b x => creates s calls k x || (b && !evicts s calls k x)) present

/-- Every call for epoch `e` in its filter loop finds the inner map of `e`, unless the entry of `e`
has been deleted. -/
def EntryHeld (e : ℕ) (sys : Sys) : Prop :=
  ∀ c indices kept, sys.pc c = .filtering indices kept → epochOf s calls c = e →
    (sys.attested e).isSome ∨ Evicted s calls e sys.history

end Defs

/-! ### The keys of the outer map -/

section Keys

variable {s : Service} {calls : CallId → Call} {sys : Sys} {c : CallId}

theorem hasKeyAfter_append (k : ℕ) (present : Bool) (h : List (CallId × Pc)) (x : CallId × Pc) :
    hasKeyAfter s calls k present (h ++ [x]) =
      (creates s calls k x || (hasKeyAfter s calls k present h && !evicts s calls k x)) := by
  simp [hasKeyAfter]

/-- One step creates the key `k`, deletes it, or leaves it as it was. -/
theorem isSome_step (hcr : sys.crashed = false) (k : ℕ) :
    ((step s calls sys c).attested k).isSome =
      (creates s calls k (c, sys.pc c) ||
        ((sys.attested k).isSome && !evicts s calls k (c, sys.pc c))) := by
  rw [step_attested hcr, Bool.eq_iff_iff, isSome_move]
  cases sys.pc c <;> simp [creates, evicts, epochOf]

/-- Over every interleaving of calls from a map `m`, the outer map has the key `k` exactly when
the last step that creates or deletes it created it, or no such step was taken and `m` had it. -/
theorem attested_isSome_run (s : Service) (calls : CallId → Call) (m : AttestedMap)
    (trace : List CallId) (k : ℕ) :
    ((run s calls (Sys.init m) trace).attested k).isSome =
      hasKeyAfter s calls k (m k).isSome (run s calls (Sys.init m) trace).history := by
  refine run_induction (fun sys => (sys.attested k).isSome =
    hasKeyAfter s calls k (m k).isSome sys.history) (fun sys c h => ?_) trace rfl
  cases hcr : sys.crashed
  case true => rwa [step_of_crashed hcr]
  case false => rw [isSome_step hcr, step_history hcr, hasKeyAfter_append, h]

end Keys

/-- Call 0, for validator 5 in epoch 0, and then call 1, for validator 7 in epoch 10, both return
attestations; the key of epoch 0, more than two epochs before 10, is still in the map. -/
theorem attest_keeps_epoch_after_later_success :
    epochOf (Service.ofSlotsPerEpoch 32)
      (twoDutyCalls (validatorDuty 0 5) (validatorDuty 320 7)) 1 = 10 ∧
    (run (Service.ofSlotsPerEpoch 32) (twoDutyCalls (validatorDuty 0 5) (validatorDuty 320 7))
      (Sys.init .empty) [0, 0, 0, 0, 0, 1, 1, 1, 1, 1]).pc 0 =
        .done (.ok [⟨[true], ⟨0, 0, Bytes.zero 32, ⟨0, Bytes.zero 32⟩, ⟨0, Bytes.zero 32⟩⟩,
          nonzeroSignature⟩]) ∧
    (run (Service.ofSlotsPerEpoch 32) (twoDutyCalls (validatorDuty 0 5) (validatorDuty 320 7))
      (Sys.init .empty) [0, 0, 0, 0, 0, 1, 1, 1, 1, 1]).pc 1 =
        .done (.ok [⟨[true], ⟨320, 0, Bytes.zero 32, ⟨0, Bytes.zero 32⟩, ⟨10, Bytes.zero 32⟩⟩,
          nonzeroSignature⟩]) ∧
    (run (Service.ofSlotsPerEpoch 32) (twoDutyCalls (validatorDuty 0 5) (validatorDuty 320 7))
      (Sys.init .empty) [0, 0, 0, 0, 0, 1, 1, 1, 1, 1]).attested 0 = some {5} := by
  decide

/-! ### Passes of the filter loop -/

section Filtering

variable {s : Service} {calls : CallId → Call} {sys : Sys} {c : CallId} {e : ℕ}

/-- Every step keeps `EntryHeld`, provided its history meets `HousekeepsAfterFilters`. -/
theorem entryHeld_step (hpre : HousekeepsAfterFilters s calls e (step s calls sys c).history)
    (h : EntryHeld s calls e sys) : EntryHeld s calls e (step s calls sys c) := by
  cases hcr : sys.crashed
  case true => rwa [step_of_crashed hcr]
  case false =>
  intro c' indices kept hpc' he
  rw [evicted_step hcr]
  by_cases hev : evicts s calls e (c, sys.pc c) = true
  · exact .inr (.inr hev)
  have hkeep : ¬ ((∃ atts, sys.pc c = .housekeeping atts) ∧ epochOf s calls c = e + 2) :=
    fun h' => hev (evicts_eq_true.mpr h')
  rw [step_attested hcr, isSome_move]
  rw [step_pc hcr, Function.update_apply] at hpc'
  split_ifs at hpc' with hc
  · subst hc
    rcases move_eq_filtering hpc' with hstart | ⟨index, kept₀, hpc⟩
    · exact .inl (.inl ⟨hstart, he⟩)
    · rcases h c' _ _ hpc he with hs | hold
      · exact .inl (.inr ⟨hs, hkeep⟩)
      · exact absurd (not_inFilterLoop_of_evicted hcr hpre hold) (by simp [inFilterLoop, hpc, he])
  · rcases h c' _ _ hpc' he with hs | hold
    · exact .inl (.inr ⟨hs, hkeep⟩)
    · exact .inr (.inl hold)

theorem entryHeld_run (m : AttestedMap) (trace : List CallId)
    (hpre : HousekeepsAfterFilters s calls e (run s calls (Sys.init m) trace).history) :
    EntryHeld s calls e (run s calls (Sys.init m) trace) :=
  run_induction (fun sys => HousekeepsAfterFilters s calls e sys.history → EntryHeld s calls e sys)
    (fun sys c h hpre' => entryHeld_step hpre'
      (h (hpre'.sublist (history_prefix_step sys c).sublist)))
    trace (fun _ c _ _ h => by cases h) hpre

end Filtering

/-- Over every interleaving in which no call for an epoch two or more after that of call `c`
housekeeps while a call for its epoch is in its filter loop, a pass of the filter loop of `c`
finds its inner map and does not crash the process. -/
theorem step_filtering_not_crashed (s : Service) (calls : CallId → Call) (m : AttestedMap)
    (trace : List CallId) {c index : ℕ} {indices kept : List ℕ}
    (hpre : HousekeepsAfterFilters s calls (epochOf s calls c)
      (run s calls (Sys.init m) (trace ++ [c])).history)
    (hcr : (run s calls (Sys.init m) trace).crashed = false)
    (hpc : (run s calls (Sys.init m) trace).pc c = .filtering (index :: indices) kept) :
    (run s calls (Sys.init m) (trace ++ [c])).crashed = false := by
  rw [run_append, run_cons, run_nil] at hpre ⊢
  have hheld := entryHeld_run m trace (hpre.sublist (history_prefix_step _ c).sublist)
  rcases hheld c _ _ hpc rfl with hsome | hev
  · obtain ⟨⟨m', kept'⟩, hf⟩ := Option.isSome_iff_exists.mp (filterStep_isSome kept index hsome)
    have hf' : filterStep _ (s.slotToEpoch (calls c).duty.slot) kept index = some (m', kept') := hf
    simp [step_crashed hcr, hpc, move, hf']
  · exact absurd (not_inFilterLoop_of_evicted hcr hpre hev) (by simp [inFilterLoop, hpc])

theorem step_filtering_not_crashed_after_next_epoch :
    HousekeepsAfterFilters (Service.ofSlotsPerEpoch 32)
        (twoDutyCalls (validatorDuty 0 5) (validatorDuty 32 7))
        (epochOf (Service.ofSlotsPerEpoch 32)
          (twoDutyCalls (validatorDuty 0 5) (validatorDuty 32 7)) 0)
        (run (Service.ofSlotsPerEpoch 32) (twoDutyCalls (validatorDuty 0 5) (validatorDuty 32 7))
          (Sys.init .empty) ([0, 1, 1, 1, 1, 1] ++ [0])).history ∧
      (run (Service.ofSlotsPerEpoch 32) (twoDutyCalls (validatorDuty 0 5) (validatorDuty 32 7))
        (Sys.init .empty) [0, 1, 1, 1, 1, 1]).crashed = false ∧
      (run (Service.ofSlotsPerEpoch 32) (twoDutyCalls (validatorDuty 0 5) (validatorDuty 32 7))
        (Sys.init .empty) [0, 1, 1, 1, 1, 1]).pc 0 = .filtering [5] [] ∧
      (run (Service.ofSlotsPerEpoch 32) (twoDutyCalls (validatorDuty 0 5) (validatorDuty 32 7))
        (Sys.init .empty) ([0, 1, 1, 1, 1, 1] ++ [0])).crashed = false :=
  have hpre : HousekeepsAfterFilters (Service.ofSlotsPerEpoch 32)
      (twoDutyCalls (validatorDuty 0 5) (validatorDuty 32 7))
      (epochOf (Service.ofSlotsPerEpoch 32)
        (twoDutyCalls (validatorDuty 0 5) (validatorDuty 32 7)) 0)
      (run (Service.ofSlotsPerEpoch 32) (twoDutyCalls (validatorDuty 0 5) (validatorDuty 32 7))
        (Sys.init .empty) ([0, 1, 1, 1, 1, 1] ++ [0])).history := by
    decide
  have hcr : (run (Service.ofSlotsPerEpoch 32)
      (twoDutyCalls (validatorDuty 0 5) (validatorDuty 32 7))
      (Sys.init .empty) [0, 1, 1, 1, 1, 1]).crashed = false := by
    decide
  have hpc : (run (Service.ofSlotsPerEpoch 32)
      (twoDutyCalls (validatorDuty 0 5) (validatorDuty 32 7))
      (Sys.init .empty) [0, 1, 1, 1, 1, 1]).pc 0 = .filtering [5] [] := by
    decide
  ⟨hpre, hcr, hpc, step_filtering_not_crashed _ _ _ _ hpre hcr hpc⟩

/-! ### Inserting into a deleted inner map -/

/-- Call 0, for validator 5 in epoch 0, creates its inner map; call 1, for epoch 2, then runs to
its end and deletes it; the filter step of call 0 then inserts into the missing inner map, and
the process panics. -/
theorem attest_inserts_into_deleted_map :
    (run (Service.ofSlotsPerEpoch 32) (twoDutyCalls (validatorDuty 0 5) (validatorDuty 64 7))
      (Sys.init .empty) [0]).attested 0 = some ∅ ∧
    (run (Service.ofSlotsPerEpoch 32) (twoDutyCalls (validatorDuty 0 5) (validatorDuty 64 7))
      (Sys.init .empty) [0, 1, 1, 1, 1, 1]).pc 0 = .filtering [5] [] ∧
    (run (Service.ofSlotsPerEpoch 32) (twoDutyCalls (validatorDuty 0 5) (validatorDuty 64 7))
      (Sys.init .empty) [0, 1, 1, 1, 1, 1]).attested 0 = none ∧
    (run (Service.ofSlotsPerEpoch 32) (twoDutyCalls (validatorDuty 0 5) (validatorDuty 64 7))
      (Sys.init .empty) [0, 1, 1, 1, 1, 1, 0]).crashed = true := by
  decide

end Vouch.Attester

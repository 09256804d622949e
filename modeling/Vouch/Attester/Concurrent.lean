import Vouch.Attester.Attest

/-!
# Interleaved calls of `Attest`

Several calls of `Attest` on one `Service` run at once, and share only the attested map. Each
call takes the lock `attestedMu` three times or more: once to create the inner map of its epoch
(lines 118–122), once per validator of its duty in the filter loop (lines 128–136), and once to
housekeep after a success (lines 217–219). Between these it only calls its collaborators, which
do not touch the map. A call is therefore a sequence of atomic steps:

* from `Pc.start`, the creation of the inner map;
* from `Pc.filtering`, one pass of the filter loop, or, when the loop is over, everything up to
  the call of `attest` (`prepare`);
* from `Pc.attesting`, the call of `attest`, which signs first;
* from `Pc.housekeeping`, the deletion of the entry two epochs back.

A state `Sys` holds the attested map, the point of every call, whether the process has crashed
(a panic in any goroutine ends the process), and the steps taken so far. `step s calls sys c`
lets call `c` take its next step; `run` takes the steps of a trace of call numbers, so the traces
are the interleavings. The collaborators of each call are fixed in `calls`: each call makes each
of its requests once, so every answer is covered by some `calls`.

Every property of the map and of the calls over all interleavings is proved by induction over
the trace from what one step can do (`run_induction`); the step lemmas are here, the invariants in
`Vouch.Attester.Interlock` and `Vouch.Attester.Eviction`.

## Main definitions

* `Vouch.Attester.Call`, `Vouch.Attester.Pc`, `Vouch.Attester.Sys`, `Vouch.Attester.Sys.init`.
* `Vouch.Attester.move`, `Vouch.Attester.step`, `Vouch.Attester.run`.

## Main results

* `Vouch.Attester.isSome_move`, `Vouch.Attester.contains_move`, `Vouch.Attester.mem_kept_move`:
  what one step of a call can do to the map and to what the call holds.
* `Vouch.Attester.run_induction`: a property that every step keeps holds after every run.

## References

* `src/services/attester/standard/service.go`, lines 104–223.
-/

namespace Vouch.Attester

/-- A call of `Attest` in flight: the duty it was passed and the answers of its collaborators. -/
structure Call where
  duty : Duty
  providers : Providers

/-- Calls are told apart by a number. -/
abbrev CallId := ℕ

/-- Where a call of `Attest` stands between two of its atomic steps. In the filter loop it holds
the validators still to check and those kept so far. -/
inductive Pc
  | start
  | filtering (indices kept : List ℕ)
  | attesting (kept : List ℕ) (prep : Prepared)
  | housekeeping (attestations : List Attestation)
  | done (r : Except AttestError (List Attestation))
  | panicked
deriving DecidableEq, Repr

/-- The validators a call has kept, while it still holds them: in the filter loop and until its
signing call. -/
def Pc.kept : Pc → List ℕ
  | .filtering _ kept => kept
  | .attesting kept _ => kept
  | _ => []

/-- A `Service` with calls of `Attest` in flight: the attested map, the point of every call,
whether the process has crashed, and the steps taken so far, each by its call and the point it
was taken from. -/
structure Sys where
  attested : AttestedMap
  pc : CallId → Pc
  crashed : Bool
  history : List (CallId × Pc)

/-- The map `m`, and no call started. -/
def Sys.init (m : AttestedMap) : Sys := ⟨m, fun _ => .start, false, []⟩

section Step

variable (s : Service)

/-- One atomic step of a call from `pc` against the map `m`: the map after it and the call's next
point. A step that panics leaves the map as it was and the call at `Pc.panicked`. -/
def move (call : Call) (m : AttestedMap) : Pc → AttestedMap × Pc
  | .start => (m.ensure (s.slotToEpoch call.duty.slot), .filtering call.duty.validatorIndices [])
  | .filtering (index :: indices) kept =>
    match filterStep m (s.slotToEpoch call.duty.slot) kept index with
    | some (m', kept') => (m', .filtering indices kept')
    | none => (m, .panicked)
  | .filtering [] kept =>
    match (prepare s call.providers call.duty kept).2 with
    | .next prep => (m, .attesting kept prep)
    | .fail e => (m, .done (.error e))
    | .panic => (m, .panicked)
  | .attesting _ prep =>
    match (attestInternal call.providers call.duty prep).2 with
    | .next attestations => (m, .housekeeping attestations)
    | .fail e => (m, .done (.error e))
    | .panic => (m, .panicked)
  | .housekeeping attestations =>
    (housekeep m (s.slotToEpoch call.duty.slot), .done (.ok attestations))
  | .done r => (m, .done r)
  | .panicked => (m, .panicked)

section Move

variable {s} {call : Call} {m : AttestedMap} {pc : Pc}

/-- Only the creation makes an entry of the outer map, and only the housekeeping of a call two
epochs later removes it. -/
theorem isSome_move (k : ℕ) :
    ((move s call m pc).1 k).isSome ↔
      (pc = .start ∧ s.slotToEpoch call.duty.slot = k) ∨
      ((m k).isSome ∧
        ¬ ((∃ atts, pc = .housekeeping atts) ∧ s.slotToEpoch call.duty.slot = k + 2)) := by
  cases pc with
  | start => simp [move, AttestedMap.isSome_ensure, @eq_comm _ k]
  | filtering indices kept =>
    cases indices with
    | nil => simp only [move]; split <;> simp
    | cons index indices =>
      simp only [move]
      split
      · rename_i m' kept' h
        simp [(filterStep_spec h).2 k]
      · simp
  | attesting kept prep => simp only [move]; split <;> simp
  | housekeeping atts =>
    by_cases h : s.slotToEpoch call.duty.slot = k + 2 <;> simp [move, housekeep_apply, h]
  | done r => simp [move]
  | panicked => simp [move]

/-- A call keeps a validator only if it kept it before or records it in this step. -/
theorem mem_kept_move {v : ℕ} (h : v ∈ (move s call m pc).2.kept) :
    v ∈ pc.kept ∨ ∃ indices kept, pc = .filtering (v :: indices) kept ∧
      ¬ m.contains (s.slotToEpoch call.duty.slot) v ∧
      (move s call m pc).1.contains (s.slotToEpoch call.duty.slot) v := by
  cases pc with
  | start => simp [move, Pc.kept] at h
  | filtering indices kept =>
    cases indices with
    | nil =>
      simp only [move] at h ⊢
      split at h <;> simp_all [Pc.kept]
    | cons index indices =>
      simp only [move] at h ⊢
      split at h
      · rename_i m' kept' hf
        simp only [Pc.kept] at h ⊢
        rcases filterStep_eq_some.mp hf with ⟨-, -, rfl⟩ | ⟨hc, hi, rfl⟩
        · exact .inl h
        · rcases List.mem_append.mp h with h | h
          · exact .inl h
          · obtain rfl := List.mem_singleton.mp h
            exact .inr ⟨indices, kept, rfl, hc,
              (AttestedMap.contains_of_insert hi).mpr (.inr ⟨rfl, rfl⟩)⟩
      · simp [Pc.kept] at h
  | attesting kept prep => simp only [move] at h; split at h <;> simp [Pc.kept] at h
  | housekeeping atts => simp [move, Pc.kept] at h
  | done r => simp [move, Pc.kept] at h
  | panicked => simp [move, Pc.kept] at h

/-- The signing call ends what a call holds. -/
theorem kept_move_attesting {kept : List ℕ} {prep : Prepared} :
    (move s call m (.attesting kept prep)).2.kept = [] := by
  simp only [move]
  split <;> rfl

/-- A recorded pair stays recorded, except through the housekeeping of a call two epochs
later. -/
theorem contains_move {e v : ℕ} (h : m.contains e v) :
    (move s call m pc).1.contains e v ∨
      ((∃ atts, pc = .housekeeping atts) ∧ s.slotToEpoch call.duty.slot = e + 2) := by
  cases pc with
  | start => simp [move, h]
  | filtering indices kept =>
    cases indices with
    | nil => simp only [move]; split <;> simp [h]
    | cons index indices =>
      simp only [move]
      split
      · rename_i m' kept' hf
        exact .inl (((filterStep_spec hf).1 e v).mpr (.inl h))
      · exact .inl h
  | attesting kept prep => simp only [move]; split <;> simp [h]
  | housekeeping atts =>
    by_cases he : s.slotToEpoch call.duty.slot = e + 2
    · exact .inr ⟨⟨atts, rfl⟩, he⟩
    · exact .inl (by simp [move, contains_housekeep, he, h])
  | done r => simp [move, h]
  | panicked => simp [move, h]

/-- A call reaches its signing call only through `prepare`. -/
theorem move_eq_attesting {kept : List ℕ} {prep : Prepared}
    (h : (move s call m pc).2 = .attesting kept prep) :
    pc = .filtering [] kept ∧ (prepare s call.providers call.duty kept).2 = .next prep := by
  rcases pc with _ | ⟨_ | ⟨index, indices⟩, kept'⟩ | ⟨kept', prep'⟩ | atts | r | _ <;>
    simp only [move] at h <;> (try split at h) <;> simp_all

/-- A call is in its filter loop after a step only from its start or from a pass of the loop. -/
theorem move_eq_filtering {indices kept : List ℕ}
    (h : (move s call m pc).2 = .filtering indices kept) :
    pc = .start ∨ ∃ index kept₀, pc = .filtering (index :: indices) kept₀ := by
  rcases pc with _ | ⟨_ | ⟨index, indices'⟩, kept'⟩ | ⟨kept', prep'⟩ | atts | r | _ <;>
    simp only [move] at h <;> (try split at h) <;> simp_all

end Move

variable (calls : CallId → Call)

/-- Call `c` takes its next atomic step; nothing moves once the process has crashed. -/
def step (sys : Sys) (c : CallId) : Sys :=
  if sys.crashed then sys
  else
    { attested := (move s (calls c) sys.attested (sys.pc c)).1
      pc := Function.update sys.pc c (move s (calls c) sys.attested (sys.pc c)).2
      crashed := (move s (calls c) sys.attested (sys.pc c)).2 = .panicked
      history := sys.history ++ [(c, sys.pc c)] }

/-- The calls take their steps in the order of `trace`. -/
def run (sys : Sys) (trace : List CallId) : Sys := trace.foldl (step s calls) sys

variable {s calls} {sys : Sys} {c : CallId}

@[simp] theorem step_of_crashed (h : sys.crashed = true) : step s calls sys c = sys := by
  simp [step, h]

section Live

variable (h : sys.crashed = false)
include h

@[simp] theorem step_attested :
    (step s calls sys c).attested = (move s (calls c) sys.attested (sys.pc c)).1 := by
  simp [step, h]

@[simp] theorem step_pc :
    (step s calls sys c).pc =
      Function.update sys.pc c (move s (calls c) sys.attested (sys.pc c)).2 := by
  simp [step, h]

@[simp] theorem step_crashed :
    (step s calls sys c).crashed =
      decide ((move s (calls c) sys.attested (sys.pc c)).2 = .panicked) := by
  simp [step, h]

@[simp] theorem step_history :
    (step s calls sys c).history = sys.history ++ [(c, sys.pc c)] := by
  simp [step, h]

end Live

@[simp] theorem run_nil : run s calls sys [] = sys := rfl

@[simp] theorem run_cons (trace : List CallId) :
    run s calls sys (c :: trace) = run s calls (step s calls sys c) trace := rfl

theorem run_append (trace trace' : List CallId) :
    run s calls sys (trace ++ trace') = run s calls (run s calls sys trace) trace' :=
  List.foldl_append _ _ _ _

/-- A property that every step keeps holds after every run. -/
theorem run_induction (P : Sys → Prop) (hstep : ∀ sys c, P sys → P (step s calls sys c)) :
    ∀ (trace : List CallId) {sys : Sys}, P sys → P (run s calls sys trace)
  | [], _, h => h
  | c :: trace, _, h => run_induction P hstep trace (hstep _ c h)

/-- A step only adds to the history. -/
theorem history_prefix_step (sys : Sys) (c : CallId) :
    sys.history <+: (step s calls sys c).history := by
  by_cases h : sys.crashed
  · simp [step_of_crashed h]
  · simp [step_history (Bool.eq_false_iff.mpr h)]

end Step

end Vouch.Attester

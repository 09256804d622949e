import Vouch.Basic
import Mathlib.Logic.Function.Basic

/-!
# The attested map

`Service.attested` is a Go map from epochs to inner maps, each inner map the set of validators
recorded in its epoch (`map[phase0.ValidatorIndex]struct{}`). Here it is a function from epochs
to an optional finite set: `none` where the outer map has no entry.

`Attest` touches it in three places, each under `attestedMu`: it creates the inner map of its
epoch when missing (`AttestedMap.ensure`), it checks and records each validator of its duty
(`AttestedMap.contains`, `AttestedMap.insert`), and after a success it deletes the entry two
epochs back (`AttestedMap.delete`). Reading a missing inner map finds nothing, as reading a nil
map does in Go; writing into one panics, and `AttestedMap.insert` is `none` there.

## Main definitions

* `Vouch.Attester.AttestedMap`, `Vouch.Attester.AttestedMap.empty`.
* `Vouch.Attester.AttestedMap.contains`, `Vouch.Attester.AttestedMap.ensure`,
  `Vouch.Attester.AttestedMap.insert`, `Vouch.Attester.AttestedMap.delete`.

## References

* `src/services/attester/standard/service.go`, lines 51, 95, 116–137 and 215–220.
-/

namespace Vouch.Attester

/-- `Service.attested`: for each epoch with an inner map, the validators recorded in it. -/
abbrev AttestedMap := ℕ → Option (Finset ℕ)

namespace AttestedMap

variable (m : AttestedMap) (epoch e : ℕ) (index v : ℕ)

/-- `make(map[phase0.Epoch]map[phase0.ValidatorIndex]struct{})`, as `New` creates it. -/
def empty : AttestedMap := fun _ => none

/-- `_, exists := s.attested[epoch][index]`: a missing inner map reads as an empty one. -/
def contains : Prop := index ∈ (m epoch).getD ∅

instance : Decidable (m.contains epoch index) := inferInstanceAs (Decidable (_ ∈ _))

/-- Lines 119–121: create the inner map of `epoch` when it is missing. -/
def ensure : AttestedMap :=
  if (m epoch).isSome then m else Function.update m epoch (some ∅)

/-- Line 134, `s.attested[epoch][index] = struct{}{}`. It is `none` when the inner map is
missing: Go panics on a write into a nil map. -/
def insert : Option AttestedMap :=
  (m epoch).map fun s => Function.update m epoch (some (Insert.insert index s))

/-- Line 218, `delete(s.attested, epoch)`. -/
def delete : AttestedMap := Function.update m epoch none

variable {m epoch e index v}

@[simp] theorem not_contains_empty : ¬ empty.contains e v := by
  simp [contains, empty]

@[simp] theorem ensure_self : m.ensure epoch epoch = some ((m epoch).getD ∅) := by
  unfold ensure
  cases h : m epoch <;> simp [h]

theorem ensure_of_ne (h : e ≠ epoch) : m.ensure epoch e = m e := by
  unfold ensure
  split <;> simp [Function.update_noteq h]

@[simp] theorem isSome_ensure : (m.ensure epoch e).isSome ↔ e = epoch ∨ (m e).isSome := by
  rcases eq_or_ne e epoch with rfl | h
  · simp
  · simp [ensure_of_ne h, h]

@[simp] theorem contains_ensure : (m.ensure epoch).contains e v ↔ m.contains e v := by
  rcases eq_or_ne e epoch with rfl | h
  · simp [contains]
  · simp [contains, ensure_of_ne h]

theorem insert_isSome : (m.insert epoch index).isSome ↔ (m epoch).isSome := by
  simp [insert]

theorem insert_eq_none : m.insert epoch index = none ↔ m epoch = none := by
  simp [insert]

/-- A successful insert keeps every entry of the outer map. -/
theorem isSome_of_insert {m' : AttestedMap} (h : m.insert epoch index = some m') (e : ℕ) :
    (m' e).isSome = (m e).isSome := by
  obtain ⟨s, hs, rfl⟩ := Option.map_eq_some'.mp h
  rcases eq_or_ne e epoch with rfl | h
  · simp [hs]
  · simp [Function.update_noteq h]

/-- A successful insert records exactly one more pair. -/
theorem contains_of_insert {m' : AttestedMap} (h : m.insert epoch index = some m') :
    m'.contains e v ↔ m.contains e v ∨ (e = epoch ∧ v = index) := by
  obtain ⟨s, hs, rfl⟩ := Option.map_eq_some'.mp h
  rcases eq_or_ne e epoch with rfl | h
  · simp [contains, hs, or_comm]
  · simp [contains, Function.update_noteq h, h]

@[simp] theorem delete_self : m.delete epoch epoch = none := by
  simp [delete]

theorem delete_of_ne (h : e ≠ epoch) : m.delete epoch e = m e :=
  Function.update_noteq h _ _

@[simp] theorem contains_delete : (m.delete epoch).contains e v ↔ e ≠ epoch ∧ m.contains e v := by
  rcases eq_or_ne e epoch with rfl | h
  · simp [contains]
  · simp [contains, delete_of_ne h, h]

end AttestedMap

end Vouch.Attester

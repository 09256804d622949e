import Mathlib.Data.List.Basic
import Mathlib.Data.Finset.Basic

/-!
# Go values shared by the services

The services of the validator client exchange consensus-layer scalars, fixed-size byte arrays
and Go maps. This file fixes one Lean type for each of them.

Slots, epochs, validator indices and committee indices (`phase0.Slot`, `phase0.Epoch`,
`phase0.ValidatorIndex`, `phase0.CommitteeIndex`) are `uint64` in the source; they are `ℕ` here,
named by the fields and variables that hold them. No modelled function adds to them: the only
subtraction, `epoch - 2` in `Attest`, is guarded by `epoch > 1`, so no wrap-around is lost.
A fixed-size array `[n]byte` is `Bytes n`, a list of `n` bytes, and Go's `copy` into it is
`Bytes.copy`. A Go map that the code iterates is a `GoMap`: its entries in one
iteration order, each key once; Go fixes no order, so a statement over every `GoMap` is a
statement over every iteration order.

## Main definitions

* `Vouch.Bytes`, `Vouch.Bytes.zero`, `Vouch.Bytes.copy`.
* `Vouch.GoMap`, `Vouch.GoMap.keys`, `Vouch.GoMap.values`, `Vouch.GoMap.lookup`.
* `Vouch.Account`: a wallet account by the public keys it provides.

## References

* `src/services/attester/standard/service.go`.
* `src/services/blockrelay/standard/submitvalidatorregistrations.go`.
-/

namespace Vouch

/-- Equality of results of collaborators, so that outcomes can be evaluated. -/
instance decEqExcept {ε α : Type} [DecidableEq ε] [DecidableEq α] : DecidableEq (Except ε α)
  | .error a, .error b => decidable_of_iff (a = b) ⟨congrArg _, Except.error.inj⟩
  | .ok a, .ok b => decidable_of_iff (a = b) ⟨congrArg _, Except.ok.inj⟩
  | .error _, .ok _ => isFalse fun h => Except.noConfusion h
  | .ok _, .error _ => isFalse fun h => Except.noConfusion h

/-! ### Fixed-size byte arrays -/

/-- A Go array `[n]byte`. -/
structure Bytes (n : ℕ) where
  data : List UInt8
  length_data : data.length = n
deriving DecidableEq, Repr

namespace Bytes

variable {n : ℕ}

@[ext] theorem ext {a b : Bytes n} (h : a.data = b.data) : a = b := by
  cases a; cases b; cases h; rfl

/-- The zero value of `[n]byte`. -/
def zero (n : ℕ) : Bytes n := ⟨List.replicate n 0, List.length_replicate n 0⟩

/-- `copy(dst[:], src)`: the first `min n (len src)` bytes of `dst` are overwritten by those of
`src`, and the rest of `dst` is left as it was. -/
def copy (dst : Bytes n) (src : List UInt8) : Bytes n where
  data := src.take n ++ dst.data.drop src.length
  length_data := by simp only [List.length_append, List.length_take, List.length_drop,
    dst.length_data]; omega

/-- A source of the array's full length overwrites all of it. -/
theorem copy_of_length_eq (dst : Bytes n) {src : List UInt8} (h : src.length = n) :
    (dst.copy src).data = src := by
  simp [copy, ← h, dst.length_data]

/-- A shorter source leaves the tail of the old contents in place. -/
theorem copy_of_length_le (dst : Bytes n) {src : List UInt8} (h : src.length ≤ n) :
    (dst.copy src).data = src ++ dst.data.drop src.length := by
  simp [copy, List.take_of_length_le h]

end Bytes

/-- `phase0.Root`. -/
abbrev Root := Bytes 32

/-- `phase0.BLSPubKey`. -/
abbrev BLSPubKey := Bytes 48

/-- `phase0.BLSSignature`. -/
abbrev BLSSignature := Bytes 96

/-- `bellatrix.ExecutionAddress`. -/
abbrev ExecutionAddress := Bytes 20

/-! ### Go maps -/

/-- A Go map that the code iterates, listed in one iteration order: each key once. -/
structure GoMap (κ ν : Type) where
  entries : List (κ × ν)
  nodup_keys : (entries.map Prod.fst).Nodup

namespace GoMap

variable {κ ν : Type}

/-- The keys, in iteration order. -/
def keys (m : GoMap κ ν) : List κ := m.entries.map Prod.fst

/-- The values, in iteration order. -/
def values (m : GoMap κ ν) : List ν := m.entries.map Prod.snd

/-- `v, exists := m[k]`. -/
def lookup [DecidableEq κ] (m : GoMap κ ν) (k : κ) : Option ν := m.entries.lookup k

theorem keys_nodup (m : GoMap κ ν) : m.keys.Nodup := m.nodup_keys

/-- The map of each of `keys` to its value under `f`, in the order of `keys`. -/
def ofKeys [DecidableEq κ] (keys : List κ) (f : κ → ν) : GoMap κ ν :=
  ⟨keys.dedup.map fun k => (k, f k), by
    simpa [List.map_map, Function.comp_def] using List.nodup_dedup keys⟩

@[simp] theorem mem_keys_ofKeys [DecidableEq κ] {keys : List κ} {f : κ → ν} {k : κ} :
    k ∈ (ofKeys keys f).keys ↔ k ∈ keys := by
  simp [ofKeys, GoMap.keys, List.map_map]

@[simp] theorem length_keys (m : GoMap κ ν) : m.keys.length = m.entries.length :=
  List.length_map _ _

@[simp] theorem length_values (m : GoMap κ ν) : m.values.length = m.entries.length :=
  List.length_map _ _

end GoMap

/-! ### Loops that may panic -/

/-- A loop in `Option` whose every pass succeeds succeeds. -/
theorem isSome_mapM {α β : Type} {f : α → Option β} :
    ∀ {l : List α}, (∀ a ∈ l, (f a).isSome) → (l.mapM f).isSome
  | [], _ => rfl
  | a :: l, h => by
    obtain ⟨b, hb⟩ := Option.isSome_iff_exists.mp (h a (List.mem_cons_self a l))
    obtain ⟨bs, hbs⟩ := Option.isSome_iff_exists.mp
      (isSome_mapM fun b hb => h b (List.mem_cons_of_mem a hb))
    rw [List.mapM_cons, hb, hbs]
    rfl

/-- An element of the right list of a `List.Forall₂` is related to one of the left list. -/
theorem exists_mem_of_forall₂ {α β : Type} {R : α → β → Prop} {b : β} :
    ∀ {l₁ : List α} {l₂ : List β}, List.Forall₂ R l₁ l₂ → b ∈ l₂ → ∃ a ∈ l₁, R a b
  | _, _, .nil, hb => absurd hb (List.not_mem_nil b)
  | _, _, .cons hab hall, hb => by
    rcases List.mem_cons.mp hb with rfl | hb
    · exact ⟨_, List.mem_cons_self _ _, hab⟩
    · obtain ⟨a, ha, h⟩ := exists_mem_of_forall₂ hall hb
      exact ⟨a, List.mem_cons_of_mem _ ha, h⟩

/-- A loop in `Option` that succeeds returns one value per pass. -/
theorem length_of_mapM_eq_some {α β : Type} {f : α → Option β} :
    ∀ {l : List α} {l' : List β}, l.mapM f = some l' → l'.length = l.length
  | [], l', h => by cases h; rfl
  | a :: l, l', h => by
    rw [List.mapM_cons] at h
    simp only [Option.pure_def, Option.bind_eq_bind, Option.bind_eq_some,
      Option.some.injEq] at h
    obtain ⟨b, -, bs, hbs, rfl⟩ := h
    simp [length_of_mapM_eq_some hbs]

/-- What a successful loop in `Option` returns, read through `proj`, pass by pass. -/
theorem map_of_mapM_eq_some {α β γ : Type} {f : α → Option β} {proj : β → γ} {g : α → γ}
    (hf : ∀ a b, f a = some b → proj b = g a) :
    ∀ {l : List α} {l' : List β}, l.mapM f = some l' → l'.map proj = l.map g
  | [], l', h => by cases h; rfl
  | a :: l, l', h => by
    rw [List.mapM_cons] at h
    simp only [Option.pure_def, Option.bind_eq_bind, Option.bind_eq_some,
      Option.some.injEq] at h
    obtain ⟨b, hb, bs, hbs, rfl⟩ := h
    simp [hf a b hb, map_of_mapM_eq_some hf hbs]

/-- A successful loop in `Option` returns, at each position, what the pass there returned. -/
theorem getElem?_of_mapM_eq_some {α β : Type} {f : α → Option β} :
    ∀ {l : List α} {l' : List β}, l.mapM f = some l' → ∀ i : ℕ, l'[i]? = l[i]?.bind f
  | [], l', h, i => by cases h; rfl
  | a :: l, l', h, i => by
    rw [List.mapM_cons] at h
    simp only [Option.pure_def, Option.bind_eq_bind, Option.bind_eq_some,
      Option.some.injEq] at h
    obtain ⟨b, hb, bs, hbs, rfl⟩ := h
    cases i with
    | zero => simp [hb]
    | succ i => simpa using getElem?_of_mapM_eq_some hbs i

/-- What a successful loop in `Option` returns comes from one of its passes. -/
theorem exists_of_mem_mapM {α β : Type} {f : α → Option β} {l : List α} {l' : List β}
    (h : l.mapM f = some l') {b : β} (hb : b ∈ l') : ∃ a ∈ l, f a = some b := by
  obtain ⟨i, hi⟩ := List.getElem?_of_mem hb
  rw [getElem?_of_mapM_eq_some h, Option.bind_eq_some] at hi
  obtain ⟨a, ha, hfa⟩ := hi
  exact ⟨a, List.getElem?_mem ha, hfa⟩

/-! ### Accounts -/

/-- A wallet account (`e2wtypes.Account`), by the public keys it provides, each given by the
bytes of its `Marshal()`: `compositePublicKey` when the account is an
`AccountCompositePublicKeyProvider`, `publicKey` when it is an `AccountPublicKeyProvider`. -/
structure Account where
  compositePublicKey : Option (List UInt8)
  publicKey : Option (List UInt8)
deriving DecidableEq, Repr

end Vouch

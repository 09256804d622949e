import Mathlib.Data.Nat.Digits
import Vouch.Basic

/-!
# The time-delay hack

`TimeDelayHack` of `util` returns a lag read from the file named by the variable
`TIME_DELAY_HACK`, in milliseconds, and caches it in the package variables `lastRead` and `lag`.
A call refreshes the cache when it is the first or when a minute has passed since the last
refresh. It records the time of the refresh before reading, so a failed read or parse does not
bring the next refresh forward.

Over every run of calls at non-decreasing times, the first call reads the variable, and reads
the file exactly when the variable is set; any two calls that read are at least 60 seconds apart
(`timeDelayHack_reads_once_a_minute`, `timeDelayHack_first_call_without_variable`).

A refresh whose read or parse fails returns 0 and leaves the cached lag as it was, which the
calls after it, in the same minute, return (`timeDelayHack_failed_refresh_returns_zero`). Every
other call returns the cached lag after it (`timeDelayHack_returns_lag`).

The file is parsed by `strconv.Atoi`, which accepts exactly an optional sign and decimal digits
within the range of `int` (`atoi_eq_ok_iff`): a file that ends in a newline does not parse. It
reads back the decimal notation of every `int` (`atoi_decimal`). The number read is a count of
milliseconds, multiplied into a `time.Duration` of nanoseconds: the call returns it exactly when
it is at most `9223372036854` in absolute value, and a wrapped-around duration past that
(`timeDelayHack_returns_millis_iff`).

When the variable stays set and every read of the file succeeds and parses, every call returns
the lag the file held at a refresh at most a minute before it
(`timeDelayHack_returns_fresh_lag`).

Times are nanoseconds since the zero `time.Time`, so the zero time is `0`, and a clock reading
of a running process is positive.

## Main definitions

* `Vouch.Util.atoi`: `strconv.Atoi`, and `Vouch.Util.atoi_eq_ok_iff`, what it accepts.
* `Vouch.Util.decimal`: the decimal notation of an integer, which `atoi` reads back.
* `Vouch.Util.Cache`, `Vouch.Util.World`, `Vouch.Util.timeDelayHack`, `Vouch.Util.runCalls`.
* `Vouch.Util.readTimes`: the times of the calls that read.
* `Vouch.Util.ReadsAs`, `Vouch.Util.timelineWorld`: a file that changes over time, and the calls
  that read it; `Vouch.Util.FreshAt`: a cache that holds what the file held less than a minute
  before.

## References

* `src/util/time_delay_hack.go`.
-/

namespace Vouch.Util

/-! ### `strconv.Atoi` -/

/-- The errors of `strconv.Atoi`, by their `Err`: `ErrSyntax` and `ErrRange`. -/
inductive NumError
  | errSyntax
  | errRange
deriving DecidableEq, Repr

/-- The digit loop of `strconv.ParseUint(s, 10, 64)` from the value `n` of the digits before: a
byte that is not a decimal digit is a syntax error, and a value past `2^64 - 1` a range error. -/
def parseDigits (n : ℕ) : List UInt8 → Except NumError ℕ
  | [] => .ok n
  | c :: cs =>
    if c < 48 ∨ 57 < c then .error .errSyntax
    else if 2 ^ 64 ≤ n * 10 + (c.toNat - 48) then .error .errRange
    else parseDigits (n * 10 + (c.toNat - 48)) cs

/-- The sign of `ParseInt`: a leading `-` or `+` is taken off, and `-` makes the value negative. -/
def splitSign : List UInt8 → Bool × List UInt8
  | c :: rest =>
    if c = 45 then (true, rest) else if c = 43 then (false, rest) else (false, c :: rest)
  | [] => (false, [])

/-- `strconv.Atoi(string(data))` on a 64-bit platform, as `ParseInt(s, 10, 0)` computes it (the
fast path of `Atoi`, for fewer than 19 bytes, gives the same results): an optional sign, then at
least one decimal digit, with a value in the range of `int`. -/
def atoi (data : List UInt8) : Except NumError ℤ :=
  let (neg, digits) := splitSign data
  if digits = [] then .error .errSyntax
  else
    match parseDigits 0 digits with
    | .error e => .error e
    | .ok un =>
      if !neg ∧ 2 ^ 63 ≤ un then .error .errRange
      else if neg ∧ 2 ^ 63 < un then .error .errRange
      else .ok (if neg then -un else un)

/-- The value of the decimal digits `ds` read after the value `n`, as the digit loop accumulates
it. -/
def digitsValue (n : ℕ) (ds : List UInt8) : ℕ := ds.foldl (fun a c => a * 10 + (c.toNat - 48)) n

theorem le_digitsValue : ∀ (n : ℕ) (ds : List UInt8), n ≤ digitsValue n ds
  | _, [] => le_rfl
  | n, c :: ds => le_trans (by omega) (le_digitsValue (n * 10 + (c.toNat - 48)) ds)

/-- The digit loop succeeds exactly on decimal digits whose value stays below `2^64`, and returns
that value. -/
theorem parseDigits_eq_ok_iff : ∀ {n : ℕ} {ds : List UInt8} {r : ℕ}, n < 2 ^ 64 →
    (parseDigits n ds = .ok r ↔
      (∀ c ∈ ds, 48 ≤ c ∧ c ≤ 57) ∧ digitsValue n ds < 2 ^ 64 ∧ r = digitsValue n ds)
  | n, [], r, hn => by
    simp only [parseDigits, digitsValue, List.foldl_nil, Except.ok.injEq, List.not_mem_nil,
      false_imp_iff, implies_true, true_and, hn, eq_comm]
  | n, c :: ds, r, hn => by
    have hle := le_digitsValue (n * 10 + (c.toNat - 48)) ds
    rw [List.forall_mem_cons]
    unfold parseDigits
    split_ifs with h₁ h₂
    · refine iff_of_false (by simp) fun h => ?_
      simp [UInt8.not_lt.mpr h.1.1.1, UInt8.not_lt.mpr h.1.1.2] at h₁
    · exact iff_of_false (by simp) fun h => absurd h.2.1 (not_lt.mpr (h₂.trans hle))
    · rw [parseDigits_eq_ok_iff (by omega)]
      have hc : 48 ≤ c ∧ c ≤ 57 := by simpa using h₁
      exact ⟨fun ⟨h₃, h₄, h₅⟩ => ⟨⟨hc, h₃⟩, h₄, h₅⟩, fun ⟨⟨_, h₃⟩, h₄, h₅⟩ => ⟨h₃, h₄, h₅⟩⟩

/-- `Atoi` accepts exactly an optional sign followed by at least one decimal digit, with a value in
the range of `int`, and returns that value. -/
theorem atoi_eq_ok_iff {data : List UInt8} {n : ℤ} :
    atoi data = .ok n ↔ (splitSign data).2 ≠ [] ∧
      (∀ c ∈ (splitSign data).2, 48 ≤ c ∧ c ≤ 57) ∧
      if (splitSign data).1 then
        digitsValue 0 (splitSign data).2 ≤ 2 ^ 63 ∧ n = -(digitsValue 0 (splitSign data).2 : ℤ)
      else digitsValue 0 (splitSign data).2 < 2 ^ 63 ∧ n = digitsValue 0 (splitSign data).2 := by
  unfold atoi
  obtain ⟨neg, digits⟩ := splitSign data
  dsimp only
  by_cases hd : digits = []
  · simp [hd]
  rw [if_neg hd]
  have key : ∀ r, parseDigits 0 digits = .ok r ↔ (∀ c ∈ digits, 48 ≤ c ∧ c ≤ 57) ∧
      digitsValue 0 digits < 2 ^ 64 ∧ r = digitsValue 0 digits :=
    fun r => parseDigits_eq_ok_iff (Nat.two_pow_pos 64)
  cases h : parseDigits 0 digits with
  | error e =>
    refine iff_of_false (by simp) fun ⟨_, hall, hrange⟩ => ?_
    have : digitsValue 0 digits < 2 ^ 64 := by split_ifs at hrange <;> omega
    simp [(key _).mpr ⟨hall, this, rfl⟩] at h
  | ok un =>
    obtain ⟨hall, -, rfl⟩ := (key un).mp h
    cases neg <;> simp only [Bool.not_false, Bool.not_true, Bool.false_eq_true, true_and,
      false_and, if_false, if_true] <;> split_ifs <;> simp [hd, eq_comm, eq_true hall] <;> omega

example : atoi [49, 50, 53] = .ok 125 := by decide

example : atoi [49, 50, 53, 10] = .error .errSyntax := by decide

/-! ### Decimal notation -/

/-- The decimal digits of `m` as bytes, most significant first and with no leading zero. -/
def decimalDigits (m : ℕ) : List UInt8 :=
  if m = 0 then [48] else (Nat.digits 10 m).reverse.map fun d => (d + 48).toUInt8

/-- The decimal notation of `n`: the digits of its absolute value, after a `-` when it is
negative. -/
def decimal (n : ℤ) : List UInt8 :=
  if n < 0 then 45 :: decimalDigits n.natAbs else decimalDigits n.natAbs

theorem isDigit_iff (c : UInt8) : 48 ≤ c ∧ c ≤ 57 ↔ 48 ≤ c.toNat ∧ c.toNat ≤ 57 := .rfl

theorem toNat_digitByte {d : ℕ} (h : d < 10) : (d + 48).toUInt8.toNat = d + 48 :=
  UInt8.toNat_ofNat_of_lt (by simp only [UInt8.size]; omega)

theorem digitsValue_append_singleton (n : ℕ) (ds : List UInt8) (c : UInt8) :
    digitsValue n (ds ++ [c]) = digitsValue n ds * 10 + (c.toNat - 48) := by
  simp [digitsValue]

/-- Digits given least significant first, written most significant first, read back as their
value. -/
theorem digitsValue_reverse_digits : ∀ {l : List ℕ}, (∀ d ∈ l, d < 10) →
    digitsValue 0 (l.reverse.map fun d => (d + 48).toUInt8) = Nat.ofDigits 10 l
  | [], _ => rfl
  | d :: l, h => by
    rw [List.forall_mem_cons] at h
    rw [List.reverse_cons, List.map_append, List.map_singleton, digitsValue_append_singleton,
      digitsValue_reverse_digits h.2, toNat_digitByte h.1, Nat.ofDigits_cons]
    omega

theorem digitsValue_decimalDigits (m : ℕ) : digitsValue 0 (decimalDigits m) = m := by
  unfold decimalDigits
  split_ifs with h
  · subst h; rfl
  · rw [digitsValue_reverse_digits fun d hd => Nat.digits_lt_base (by decide) hd,
      Nat.ofDigits_digits]

theorem isDigit_decimalDigits (m : ℕ) : ∀ c ∈ decimalDigits m, 48 ≤ c ∧ c ≤ 57 := by
  unfold decimalDigits
  split_ifs
  · decide
  · simp only [List.mem_map, List.mem_reverse]
    rintro _ ⟨d, hd, rfl⟩
    have hd10 : d < 10 := Nat.digits_lt_base (by decide) hd
    rw [isDigit_iff, toNat_digitByte hd10]
    omega

theorem decimalDigits_ne_nil (m : ℕ) : decimalDigits m ≠ [] := by
  unfold decimalDigits
  split_ifs with h <;> simp [Nat.digits_ne_nil_iff_ne_zero, h]

/-- Bytes that are all digits carry no sign. -/
theorem splitSign_of_isDigit : ∀ {ds : List UInt8}, (∀ c ∈ ds, 48 ≤ c ∧ c ≤ 57) →
    splitSign ds = (false, ds)
  | [], _ => rfl
  | c :: ds, h => by
    have hc := h c (List.mem_cons_self c ds)
    have h45 : c ≠ 45 := by rintro rfl; exact absurd hc (by decide)
    have h43 : c ≠ 43 := by rintro rfl; exact absurd hc (by decide)
    simp [splitSign, h45, h43]

/-- `Atoi` reads back the decimal notation of every value of `int`. -/
theorem atoi_decimal (n : ℤ) (hlo : -((2 ^ 63 : ℕ) : ℤ) ≤ n) (hhi : n < ((2 ^ 63 : ℕ) : ℤ)) :
    atoi (decimal n) = .ok n := by
  have hdig := isDigit_decimalDigits n.natAbs
  rw [atoi_eq_ok_iff]
  by_cases hn : n < 0
  · simp only [decimal, if_pos hn, splitSign]
    refine ⟨decimalDigits_ne_nil _, hdig, ?_⟩
    simp only [if_true, digitsValue_decimalDigits]
    omega
  · simp only [decimal, if_neg hn, splitSign_of_isDigit hdig]
    refine ⟨decimalDigits_ne_nil _, hdig, ?_⟩
    simp only [digitsValue_decimalDigits, Bool.false_eq_true, if_false]
    omega

theorem atoi_decimal_min :
    -((2 ^ 63 : ℕ) : ℤ) ≤ -9223372036854775808 ∧ (-9223372036854775808 : ℤ) < ((2 ^ 63 : ℕ) : ℤ) ∧
      atoi (decimal (-9223372036854775808)) = .ok (-9223372036854775808) :=
  ⟨by norm_num, by norm_num, atoi_decimal _ (by norm_num) (by norm_num)⟩

example : decimal (-125) = [45, 49, 50, 53] := by simp [decimal, decimalDigits]; decide

/-! ### The cached lag -/

/-- The package variables: `lastRead`, the time of the last refresh (`0` is the zero time), and
`lag`, the cached `time.Duration`, in nanoseconds. -/
structure Cache where
  lastRead : ℕ
  lag : ℤ
deriving DecidableEq, Repr

/-- The package variables at start: both zero values. -/
def Cache.init : Cache := ⟨0, 0⟩

/-- What one call reads from outside: `time.Now()`, the value of `TIME_DELAY_HACK`, and the
contents of the files (`ioutil.ReadFile`). -/
structure World where
  now : ℕ
  timeDelayHack : String
  readFile : String → Except String (List UInt8)

/-- A read from outside the process. -/
inductive Io
  | getenv
  | readFile (fileName : String)
deriving DecidableEq, Repr

/-- `time.Millisecond`, in nanoseconds. -/
def millisecond : ℤ := 1000000

/-- `time.Since(lastRead)` at time `now`, saturated at the largest `time.Duration`. -/
def since (now lastRead : ℕ) : ℕ := min (now - lastRead) (2 ^ 63 - 1)

/-- The condition of line 18: the cache was never refreshed, or a minute has passed. -/
def refreshes (c : Cache) (now : ℕ) : Prop :=
  c.lastRead = 0 ∨ 60 * 10 ^ 9 ≤ since now c.lastRead

instance (c : Cache) (now : ℕ) : Decidable (refreshes c now) :=
  inferInstanceAs (Decidable (c.lastRead = 0 ∨ 60 * 10 ^ 9 ≤ since now c.lastRead))

/-- `TimeDelayHack`: the package variables after the call, the reads it makes, and the
`time.Duration` it returns, in nanoseconds. -/
def timeDelayHack (c : Cache) (w : World) : Cache × List Io × ℤ :=
  if refreshes c w.now then
    let c : Cache := { c with lastRead := w.now }
    if w.timeDelayHack = "" then (c, [.getenv], c.lag)
    else
      match w.readFile w.timeDelayHack with
      | .error _ => (c, [.getenv, .readFile w.timeDelayHack], 0)
      | .ok data =>
        match atoi data with
        | .error _ => (c, [.getenv, .readFile w.timeDelayHack], 0)
        | .ok number =>
          let lag := Int.bmod (number * millisecond) (2 ^ 64)
          ({ c with lag := lag }, [.getenv, .readFile w.timeDelayHack], lag)
  else (c, [], c.lag)

/-- Calls made one after the other in the worlds `ws`: the package variables after them, and
what each call read and returned. -/
def runCalls : Cache → List World → Cache × List (List Io × ℤ)
  | c, [] => (c, [])
  | c, w :: ws =>
    ((runCalls (timeDelayHack c w).1 ws).1,
      (timeDelayHack c w).2 :: (runCalls (timeDelayHack c w).1 ws).2)

/-- The times of the calls in `ws` that read from outside, in order. -/
def readTimes : Cache → List World → List ℕ
  | _, [] => []
  | c, w :: ws =>
    (if (timeDelayHack c w).2.1 = [] then [] else [w.now]) ++ readTimes (timeDelayHack c w).1 ws

/-! ### One call -/

section Call

variable {c : Cache} {w : World}

/-- A call reads from outside exactly when it refreshes. -/
theorem reads_eq_nil_iff : (timeDelayHack c w).2.1 = [] ↔ ¬ refreshes c w.now := by
  unfold timeDelayHack
  split_ifs with h₁ h₂
  · simp [h₁]
  · split
    · simp [h₁]
    · split <;> simp [h₁]
  · simp [h₁]

/-- A refresh records its time before reading, whatever the read gives. -/
theorem lastRead_timeDelayHack :
    (timeDelayHack c w).1.lastRead = if refreshes c w.now then w.now else c.lastRead := by
  unfold timeDelayHack
  split_ifs with h₁ h₂
  · rfl
  · split
    · rfl
    · split <;> rfl
  · rfl

/-- A call returns the cached lag after it, except a refresh whose read or parse fails, which
returns 0 and leaves the cached lag as it was. -/
theorem timeDelayHack_returns_lag :
    (timeDelayHack c w).2.2 = (timeDelayHack c w).1.lag ∨
      ((timeDelayHack c w).2.2 = 0 ∧ (timeDelayHack c w).1.lag = c.lag ∧
        (timeDelayHack c w).2.1 = [.getenv, .readFile w.timeDelayHack]) := by
  unfold timeDelayHack
  split_ifs with h₁ h₂
  · exact .inl rfl
  · split
    · exact .inr ⟨rfl, rfl, rfl⟩
    · split
      · exact .inr ⟨rfl, rfl, rfl⟩
      · exact .inl rfl
  · exact .inl rfl

/-- A refresh whose read and parse succeed caches and returns the lag it read. -/
theorem timeDelayHack_of_parse (hr : refreshes c w.now) (hvar : w.timeDelayHack ≠ "")
    {data : List UInt8} (hread : w.readFile w.timeDelayHack = .ok data) {number : ℤ}
    (hatoi : atoi data = .ok number) :
    timeDelayHack c w = (⟨w.now, Int.bmod (number * millisecond) (2 ^ 64)⟩,
      [.getenv, .readFile w.timeDelayHack], Int.bmod (number * millisecond) (2 ^ 64)) := by
  simp only [timeDelayHack, if_pos hr, if_neg hvar, hread, hatoi]

/-- A call that does not refresh returns the cached lag and reads nothing. -/
theorem timeDelayHack_of_not_refreshes (hr : ¬ refreshes c w.now) :
    timeDelayHack c w = (c, [], c.lag) :=
  if_neg hr

example : (timeDelayHack Cache.init
    ⟨1, "/lag", fun _ => .ok [57, 50, 50, 51, 51, 55, 50, 48, 51, 54, 56, 53, 53]⟩).2.2 < 0 := by
  decide

end Call

/-! ### Runs of calls -/

/-- The reads of a run from a cache last refreshed at `c.lastRead`, over calls at non-decreasing
positive times from then on, are at least a minute after that refresh and a minute apart. -/
theorem readTimes_spaced :
    ∀ (ws : List World) (c : Cache), (∀ w ∈ ws, 0 < w.now ∧ c.lastRead ≤ w.now) →
      (ws.map World.now).Pairwise (· ≤ ·) →
      (∀ t ∈ readTimes c ws, c.lastRead ≠ 0 → c.lastRead + 60 * 10 ^ 9 ≤ t) ∧
        (readTimes c ws).Pairwise fun a b => a + 60 * 10 ^ 9 ≤ b
  | [], _, _, _ => ⟨by simp [readTimes], by simp [readTimes]⟩
  | w :: ws, c, hws, hsorted => by
    have hw := hws w (List.mem_cons_self _ _)
    rw [List.map_cons, List.pairwise_cons] at hsorted
    have hlater : ∀ w' ∈ ws, w.now ≤ w'.now := fun w' h' =>
      hsorted.1 _ (List.mem_map_of_mem _ h')
    have hlast := @lastRead_timeDelayHack c w
    by_cases hr : refreshes c w.now
    · rw [if_pos hr] at hlast
      obtain ⟨ih₁, ih₂⟩ := readTimes_spaced ws _
        (fun w' h' => ⟨(hws w' (List.mem_cons_of_mem _ h')).1, hlast ▸ hlater w' h'⟩) hsorted.2
      have hnow : c.lastRead ≠ 0 → c.lastRead + 60 * 10 ^ 9 ≤ w.now := fun h0 => by
        have := hr.resolve_left h0
        unfold since at this
        omega
      have hrest : ∀ t ∈ readTimes (timeDelayHack c w).1 ws, w.now + 60 * 10 ^ 9 ≤ t :=
        fun t ht => hlast ▸ ih₁ t ht (by omega)
      simp only [readTimes, reads_eq_nil_iff.not.mpr (not_not.mpr hr), if_false,
        List.singleton_append, List.mem_cons, List.pairwise_cons]
      refine ⟨?_, hrest, ih₂⟩
      rintro t (rfl | ht) h0
      · exact hnow h0
      · have := hrest t ht
        omega
    · rw [if_neg hr] at hlast
      simp only [readTimes, reads_eq_nil_iff.mpr hr, if_true, List.nil_append]
      have := readTimes_spaced ws _
        (fun w' h' => ⟨(hws w' (List.mem_cons_of_mem _ h')).1,
          hlast ▸ hw.2.trans (hlater w' h')⟩) hsorted.2
      rwa [hlast] at this

/-- Over every run of calls at non-decreasing times, the first call reads `TIME_DELAY_HACK`, and
the file it names exactly when it is set, and any two calls that read are at least a minute
apart, whether their reads succeed or fail. -/
theorem timeDelayHack_reads_once_a_minute (ws : List World) (hpos : ∀ w ∈ ws, 0 < w.now)
    (hsorted : (ws.map World.now).Pairwise (· ≤ ·)) :
    (∀ w : World, (timeDelayHack Cache.init w).2.1 =
      if w.timeDelayHack = "" then [.getenv] else [.getenv, .readFile w.timeDelayHack]) ∧
    (readTimes Cache.init ws).Pairwise fun a b => a + 60 * 10 ^ 9 ≤ b := by
  refine ⟨fun w => ?_, (readTimes_spaced ws Cache.init
    (fun w hw => ⟨hpos w hw, Nat.zero_le _⟩) hsorted).2⟩
  have hr : refreshes Cache.init w.now := .inl rfl
  unfold timeDelayHack
  rw [if_pos hr]
  split_ifs with h
  · rfl
  · split
    · rfl
    · split <;> rfl

/-- A world at time `now` where `TIME_DELAY_HACK` names `/lag`, which reads as `data`. -/
def lagFileWorld (now : ℕ) (data : Except String (List UInt8)) : World :=
  ⟨now, "/lag", fun _ => data⟩

theorem timeDelayHack_reads_once_a_minute_threeCalls :
    (∀ w ∈ [lagFileWorld 1 (.ok [53]), lagFileWorld 2 (.ok [54]),
      lagFileWorld (60 * 10 ^ 9 + 1) (.ok [55])], 0 < w.now) ∧
    ([lagFileWorld 1 (.ok [53]), lagFileWorld 2 (.ok [54]),
      lagFileWorld (60 * 10 ^ 9 + 1) (.ok [55])].map World.now).Pairwise (· ≤ ·) ∧
    (∀ w : World, (timeDelayHack Cache.init w).2.1 =
      if w.timeDelayHack = "" then [.getenv] else [.getenv, .readFile w.timeDelayHack]) ∧
    (readTimes Cache.init [lagFileWorld 1 (.ok [53]), lagFileWorld 2 (.ok [54]),
      lagFileWorld (60 * 10 ^ 9 + 1) (.ok [55])]).Pairwise fun a b => a + 60 * 10 ^ 9 ≤ b :=
  have hpos : ∀ w ∈ [lagFileWorld 1 (.ok [53]), lagFileWorld 2 (.ok [54]),
      lagFileWorld (60 * 10 ^ 9 + 1) (.ok [55])], 0 < w.now := by
    decide
  have hsorted : ([lagFileWorld 1 (.ok [53]), lagFileWorld 2 (.ok [54]),
      lagFileWorld (60 * 10 ^ 9 + 1) (.ok [55])].map World.now).Pairwise (· ≤ ·) := by
    decide
  ⟨hpos, hsorted, timeDelayHack_reads_once_a_minute _ hpos hsorted⟩

/-- With `TIME_DELAY_HACK` unset, the first call reads the variable and no file. -/
theorem timeDelayHack_first_call_without_variable :
    (timeDelayHack Cache.init ⟨1, "", fun _ => .ok [53]⟩).2.1 = [.getenv] := by
  decide

/-! ### Fresh lags -/

/-- The file, read at time `t`, parses as a number of milliseconds whose `time.Duration` is
`lag`. -/
def ReadsAs (file : ℕ → Except String (List UInt8)) (t : ℕ) (lag : ℤ) : Prop :=
  ∃ data number, file t = .ok data ∧ atoi data = .ok number ∧
    lag = Int.bmod (number * millisecond) (2 ^ 64)

/-- The world of a call at time `t` in which `TIME_DELAY_HACK` names `name`, and the file reads
as `file t`. -/
def timelineWorld (name : String) (file : ℕ → Except String (List UInt8)) (t : ℕ) : World :=
  ⟨t, name, fun _ => file t⟩

section Timeline

variable {name : String} {file : ℕ → Except String (List UInt8)}

/-- At time `t`, the cache holds the lag that the file held at its last refresh, less than a
minute before. -/
def FreshAt (file : ℕ → Except String (List UInt8)) (t : ℕ) (c : Cache) : Prop :=
  c.lastRead ≠ 0 ∧ c.lastRead ≤ t ∧ t < c.lastRead + 60 * 10 ^ 9 ∧ ReadsAs file c.lastRead c.lag

/-- A call at time `t` that can read the file, from a cache that holds what the file held at its
last refresh, leaves the cache fresh at `t`, refreshed at `t` or as before, and returns its lag. -/
theorem freshAt_timeDelayHack (hname : name ≠ "") {c : Cache} {t : ℕ} (ht : 0 < t)
    (hle : c.lastRead ≤ t) (hok : ∃ lag, ReadsAs file t lag)
    (hc : c.lastRead = 0 ∨ ReadsAs file c.lastRead c.lag) :
    FreshAt file t (timeDelayHack c (timelineWorld name file t)).1 ∧
      (timeDelayHack c (timelineWorld name file t)).2.2 =
        (timeDelayHack c (timelineWorld name file t)).1.lag ∧
      ((timeDelayHack c (timelineWorld name file t)).1.lastRead = t ∨
        (timeDelayHack c (timelineWorld name file t)).1.lastRead = c.lastRead) := by
  by_cases hr : refreshes c t
  · obtain ⟨_, data, number, hread, hatoi, -⟩ := hok
    have hstep : timeDelayHack c (timelineWorld name file t) = _ :=
      timeDelayHack_of_parse hr hname hread hatoi
    rw [hstep]
    exact ⟨⟨ht.ne', le_rfl, show t < t + 60 * 10 ^ 9 by omega, data, number, hread, hatoi,
      rfl⟩, rfl, .inl rfl⟩
  · have hlast : c.lastRead ≠ 0 ∧ t < c.lastRead + 60 * 10 ^ 9 := by
      unfold refreshes since at hr
      omega
    have hstep : timeDelayHack c (timelineWorld name file t) = _ :=
      timeDelayHack_of_not_refreshes hr
    rw [hstep]
    exact ⟨⟨hlast.1, hle, hlast.2, hc.resolve_left hlast.1⟩, rfl, .inr rfl⟩

/-- Over calls at times `ts` from the cache `c`, each call returns a lag that the file held at a
refresh at most a minute before: one of the run, or the last refresh before it. -/
theorem runCalls_returns_read_lag (hname : name ≠ "") :
    ∀ (ts : List ℕ) (c : Cache), (∀ t ∈ ts, 0 < t ∧ c.lastRead ≤ t) → ts.Pairwise (· ≤ ·) →
      (∀ t ∈ ts, ∃ lag, ReadsAs file t lag) →
      (c.lastRead = 0 ∨ ReadsAs file c.lastRead c.lag) →
      ∀ p ∈ ts.zip ((runCalls c (ts.map (timelineWorld name file))).2.map Prod.snd),
        ∃ t' ∈ c.lastRead :: ts, t' ≠ 0 ∧ t' ≤ p.1 ∧ p.1 < t' + 60 * 10 ^ 9 ∧
          ReadsAs file t' p.2
  | [], _, _, _, _, _ => by simp
  | t :: ts, c, hts, hsorted, hok, hc => by
    rw [List.pairwise_cons] at hsorted
    have ht := hts t (List.mem_cons_self t ts)
    obtain ⟨⟨hne, hle, hlt, hreads⟩, hret, hlast⟩ :=
      freshAt_timeDelayHack hname ht.1 ht.2 (hok t (List.mem_cons_self t ts)) hc
    have hin : (timeDelayHack c (timelineWorld name file t)).1.lastRead ∈ c.lastRead :: t :: ts :=
      by rcases hlast with h | h <;> simp [h]
    simp only [List.map_cons, runCalls, List.zip_cons_cons]
    intro p hp
    rcases List.mem_cons.mp hp with rfl | hp
    · exact ⟨_, hin, hne, hle, hlt, hret ▸ hreads⟩
    · obtain ⟨t', h', ht'⟩ := runCalls_returns_read_lag hname ts _
        (fun t' h' => ⟨(hts t' (List.mem_cons_of_mem t h')).1, hle.trans (hsorted.1 t' h')⟩)
        hsorted.2 (fun t' h' => hok t' (List.mem_cons_of_mem t h')) (.inr hreads) p hp
      rcases List.mem_cons.mp h' with rfl | h'
      · exact ⟨_, hin, ht'⟩
      · exact ⟨t', List.mem_cons_of_mem _ (List.mem_cons_of_mem t h'), ht'⟩

/-- When `TIME_DELAY_HACK` stays set and every read of the file succeeds and parses, every call,
at time `t`, returns the lag that the file held at a refresh at most a minute before it. -/
theorem timeDelayHack_returns_fresh_lag (hname : name ≠ "") (ts : List ℕ)
    (hpos : ∀ t ∈ ts, 0 < t) (hsorted : ts.Pairwise (· ≤ ·))
    (hok : ∀ t ∈ ts, ∃ lag, ReadsAs file t lag) :
    ∀ p ∈ ts.zip ((runCalls Cache.init (ts.map (timelineWorld name file))).2.map Prod.snd),
      ∃ t' ∈ ts, t' ≤ p.1 ∧ p.1 < t' + 60 * 10 ^ 9 ∧ ReadsAs file t' p.2 := fun p hp => by
  obtain ⟨t', h', hne, ht'⟩ := runCalls_returns_read_lag hname ts Cache.init
    (fun t h => ⟨hpos t h, Nat.zero_le t⟩) hsorted hok (.inl rfl) p hp
  exact ⟨t', (List.mem_cons.mp h').resolve_left hne, ht'⟩

/-- `/lag` reads as 125 ms during the first minute and as 250 ms from then on. -/
def changingLagFile (t : ℕ) : Except String (List UInt8) :=
  if t < 60 * 10 ^ 9 then .ok [49, 50, 53] else .ok [50, 53, 48]

theorem timeDelayHack_returns_fresh_lag_changing :
    "/lag" ≠ "" ∧ (∀ t ∈ [1, 2, 60 * 10 ^ 9 + 1, 60 * 10 ^ 9 + 2], 0 < t) ∧
      [1, 2, 60 * 10 ^ 9 + 1, 60 * 10 ^ 9 + 2].Pairwise (· ≤ ·) ∧
      (∀ t ∈ [1, 2, 60 * 10 ^ 9 + 1, 60 * 10 ^ 9 + 2], ∃ lag, ReadsAs changingLagFile t lag) ∧
      ∀ p ∈ [1, 2, 60 * 10 ^ 9 + 1, 60 * 10 ^ 9 + 2].zip ((runCalls Cache.init
          ([1, 2, 60 * 10 ^ 9 + 1, 60 * 10 ^ 9 + 2].map
            (timelineWorld "/lag" changingLagFile))).2.map Prod.snd),
        ∃ t' ∈ [1, 2, 60 * 10 ^ 9 + 1, 60 * 10 ^ 9 + 2], t' ≤ p.1 ∧ p.1 < t' + 60 * 10 ^ 9 ∧
          ReadsAs changingLagFile t' p.2 :=
  have hname : "/lag" ≠ "" := by decide
  have hpos : ∀ t ∈ [1, 2, 60 * 10 ^ 9 + 1, 60 * 10 ^ 9 + 2], 0 < t := by decide
  have hsorted : [1, 2, 60 * 10 ^ 9 + 1, 60 * 10 ^ 9 + 2].Pairwise (· ≤ ·) := by decide
  have hok : ∀ t ∈ [1, 2, 60 * 10 ^ 9 + 1, 60 * 10 ^ 9 + 2],
      ∃ lag, ReadsAs changingLagFile t lag := fun t _ => by
    by_cases h : t < 60 * 10 ^ 9
    · exact ⟨_, [49, 50, 53], 125, by rw [changingLagFile, if_pos h], rfl, rfl⟩
    · exact ⟨_, [50, 53, 48], 250, by rw [changingLagFile, if_neg h], rfl, rfl⟩
  ⟨hname, hpos, hsorted, hok, timeDelayHack_returns_fresh_lag hname _ hpos hsorted hok⟩

/-- In that run the third call refreshes and returns the new 250 ms. -/
example : ((runCalls Cache.init ([1, 2, 60 * 10 ^ 9 + 1, 60 * 10 ^ 9 + 2].map
    (timelineWorld "/lag" changingLagFile))).2.map Prod.snd) =
      [125000000, 125000000, 250000000, 250000000] := by
  decide

end Timeline

/-! ### A failed refresh -/

/-- The first call reads `5` from `/lag` and returns 5 ms. A minute later the read fails: the call
returns 0 and keeps 5 ms cached, which the next call, in the same minute, returns. -/
theorem timeDelayHack_failed_refresh_returns_zero :
    (runCalls Cache.init [lagFileWorld 1 (.ok [53]),
      lagFileWorld (60 * 10 ^ 9 + 1) (.error "open /lag: no such file or directory"),
      lagFileWorld (60 * 10 ^ 9 + 2) (.ok [55])]).2 =
        [([.getenv, .readFile "/lag"], 5000000), ([.getenv, .readFile "/lag"], 0), ([], 5000000)] ∧
    (runCalls Cache.init [lagFileWorld 1 (.ok [53]),
      lagFileWorld (60 * 10 ^ 9 + 1) (.error "open /lag: no such file or directory")]).1.lag =
        5000000 := by
  decide

end Vouch.Util

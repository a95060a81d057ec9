import Mathlib.Algebra.Order.Ring.Int
import ProxyForward.Runs

namespace ProxyForward.Link
set_option autoImplicit true

/-- The state of the reconnect delays; durations are in nanoseconds. -/
structure Backoff where
  Base : Int
  Max : Int
  StableAfter : Int
  attempt : Nat
  deriving DecidableEq, Repr

inductive Call
  /-- `Next`, with the draw of `rand.Int64N`. -/
  | next (r : Int)
  | connectionEnded (lifetime : Int)
  | reset
  deriving DecidableEq, Repr

namespace Backoff

def defaults (b : Backoff) : Backoff where
  Base := if b.Base ≤ 0 then 1000000000 else b.Base
  Max := if b.Max ≤ 0 then 60000000000 else b.Max
  StableAfter := if b.StableAfter ≤ 0 then 60000000000 else b.StableAfter
  attempt := b.attempt

/-- `b.Base << b.attempt` on 64 bits, under the cap. -/
def ceil (b : Backoff) : Int :=
  let ceil := (b.Base * 2 ^ b.attempt).bmod 18446744073709551616
  if b.Max < ceil ∨ ceil ≤ 0 then b.Max else ceil

/-- The delay for one draw, if it is one that `rand.Int64N` can give. -/
def Next (b : Backoff) (r : Int) : Option (Int × Backoff) :=
  let b := b.defaults
  if 0 ≤ r ∧ r < b.ceil then
    some (r + 1, { b with attempt := if b.attempt < 30 then b.attempt + 1 else b.attempt })
  else none

def ConnectionEnded (b : Backoff) (lifetime : Int) : Backoff :=
  let b := b.defaults
  if b.StableAfter ≤ lifetime then { b with attempt := 0 } else b

def Reset (b : Backoff) : Backoff := { b with attempt := 0 }

def step (b : Backoff) : Call → Option Backoff
  | .next r => (b.Next r).map Prod.snd
  | .connectionEnded lifetime => some (b.ConnectionEnded lifetime)
  | .reset => some b.Reset

/-- How long a connection must last to count as stable. -/
def stable (b : Backoff) : Int := b.defaults.StableAfter

end Backoff

/-- The count of delays since the last reset, after one more call. -/
def counted (stable : Int) (n : Nat) : Call → Nat
  | .next _ => n + 1
  | .connectionEnded lifetime => if stable ≤ lifetime then 0 else n
  | .reset => 0

/-- How many delays were asked for since the last call that reset the sequence. -/
def sinceReset (stable : Int) (calls : List Call) : Nat :=
  calls.foldl (counted stable) 0

/-- The doubling ceiling after `n` delays, multiplied exactly. -/
def doubled (base cap : Int) (n : Nat) : Int := min cap (base * 2 ^ min 30 n)

/-- At every `Next` of the run just the delays up to the doubling ceiling can be drawn, and from one
to the next without a reset the ceiling does not shrink. -/
structure Bounded (b₀ : Backoff) (calls : List Call) : Prop where
  drawn : ∀ pre r post b, calls = pre ++ .next r :: post → Runs.Reaches Backoff.step b₀ pre b →
    ∀ d, (∃ r, (b.Next r).map Prod.fst = some d) ↔
      1 ≤ d ∧ d ≤ doubled b₀.Base b₀.Max (sinceReset b₀.stable pre)
  grows : ∀ pre r mid r' post b b', calls = pre ++ .next r :: (mid ++ .next r' :: post) →
    (∀ c ∈ mid, ∃ lifetime, c = .connectionEnded lifetime ∧ lifetime < b₀.stable) →
    Runs.Reaches Backoff.step b₀ pre b → Runs.Reaches Backoff.step b (.next r :: mid) b' →
      b.defaults.ceil ≤ b'.defaults.ceil

/-- The product fits in 64 bits, or what is left of it is a value that the guard catches. -/
def ShiftCaught (cap x : Int) : Prop :=
  x < 9223372036854775808 ∨ x % 18446744073709551616 = 0 ∨ cap ≤ x % 18446744073709551616

theorem ceil_eq_iff {b : Backoff} (hbase : 0 < b.Base) (hle : b.Base ≤ b.Max)
    (hmax : b.Max < 9223372036854775808) :
    b.ceil = min b.Max (b.Base * 2 ^ b.attempt) ↔ ShiftCaught b.Max (b.Base * 2 ^ b.attempt) := by
  have hpos : 0 < b.Base * 2 ^ b.attempt := Int.mul_pos hbase (Int.pow_pos (by decide))
  unfold Backoff.ceil ShiftCaught
  generalize b.Base * 2 ^ b.attempt = x at hpos ⊢
  simp only [Int.bmod_def]
  have hlow := Int.emod_nonneg x (show (18446744073709551616 : Int) ≠ 0 by decide)
  have hsmall : x < 9223372036854775808 → x % 18446744073709551616 = x :=
    fun h => Int.emod_eq_of_lt hpos.le (by omega)
  split
  · split
    · omega
    · omega
  · split
    · omega
    · omega

/-- After `n` delays since the last reset. -/
structure Tracks (b₀ : Backoff) (n : Nat) (b : Backoff) : Prop where
  base : b.Base = b₀.Base
  max : b.Max = b₀.Max
  stable : b.stable = b₀.stable
  attempt : b.attempt = min 30 n

section Runs

variable {b₀ b b' : Backoff} (hbase : 0 < b₀.Base) (hle : b₀.Base ≤ b₀.Max)

include hbase hle in
theorem Tracks.defaults (h : Tracks b₀ n b) :
    b.defaults = ⟨b₀.Base, b₀.Max, b₀.stable, min 30 n⟩ := by
  have hstable := h.stable
  unfold Backoff.stable at hstable ⊢
  rw [← hstable]
  unfold Backoff.defaults
  rw [h.base, h.max, h.attempt, if_neg (by omega), if_neg (by omega)]

theorem stable_defaults (b : Backoff) : 0 < b.stable := by
  unfold Backoff.stable Backoff.defaults
  simp only
  split
  · decide
  · omega

theorem stable_of_positive {base max stable : Int} (h : 0 < stable) (attempt : Nat) :
    (Backoff.mk base max stable attempt).stable = stable :=
  if_neg (by simp only; omega)

include hbase hle in
theorem Tracks.step (h : Tracks b₀ n b) (hs : b.step c = some b') :
    Tracks b₀ (counted b₀.stable n c) b' := by
  have hdefaults := h.defaults hbase hle
  have hstable := stable_defaults b₀
  cases c with
  | next r =>
    simp only [Backoff.step, Backoff.Next, hdefaults] at hs
    split at hs
    · cases hs
      refine ⟨rfl, rfl, stable_of_positive hstable _, ?_⟩
      simp only [counted]
      split
      · omega
      · omega
    · cases hs
  | connectionEnded lifetime =>
    simp only [Backoff.step, Backoff.ConnectionEnded, hdefaults, Option.some.injEq] at hs
    split at hs
    · rename_i hlong
      rw [counted, if_pos hlong]
      cases hs
      exact ⟨rfl, rfl, stable_of_positive hstable _, rfl⟩
    · rename_i hshort
      rw [counted, if_neg hshort]
      cases hs
      exact ⟨rfl, rfl, stable_of_positive hstable _, rfl⟩
  | reset =>
    cases hs
    exact ⟨h.base, h.max, h.stable, rfl⟩

include hbase hle in
theorem Tracks.run (h : Tracks b₀ n b) (hr : Runs.Reaches Backoff.step b cs b') :
    Tracks b₀ (cs.foldl (counted b₀.stable) n) b' := by
  induction hr generalizing n with
  | nil s => exact h
  | cons hs hr ih => exact ih (h.step hbase hle hs)

include hbase hle in
theorem tracks_of_reaches (hfresh : b₀.attempt = 0) (hr : Runs.Reaches Backoff.step b₀ cs b) :
    Tracks b₀ (sinceReset b₀.stable cs) b :=
  Tracks.run hbase hle ⟨rfl, rfl, rfl, by rw [hfresh]; rfl⟩ hr

theorem next_draws (b : Backoff) (d : Int) :
    (∃ r, (b.Next r).map Prod.fst = some d) ↔ 1 ≤ d ∧ d ≤ b.defaults.ceil := by
  unfold Backoff.Next
  constructor
  · intro hd
    obtain ⟨r, hd⟩ := hd
    simp only at hd
    split at hd
    · cases hd
      omega
    · cases hd
  · intro hd
    refine ⟨d - 1, ?_⟩
    simp only
    rw [if_pos (by omega), Option.map_some, Int.sub_add_cancel]

include hbase hle in
theorem Tracks.ceil_iff (h : Tracks b₀ n b) (hmax : b₀.Max < 9223372036854775808) :
    b.defaults.ceil = doubled b₀.Base b₀.Max n ↔
      ShiftCaught b₀.Max (b₀.Base * 2 ^ min 30 n) := by
  rw [h.defaults hbase hle]
  exact ceil_eq_iff hbase hle hmax

theorem doubled_pos {base cap : Int} (hbase : 0 < base) (hle : base ≤ cap) (n : Nat) :
    1 ≤ doubled base cap n := by
  have hpos : 0 < base * 2 ^ min 30 n := Int.mul_pos hbase (Int.pow_pos (by decide))
  unfold doubled
  omega

theorem doubled_mono {base : Int} (hbase : 0 < base) (cap : Int) (h : n ≤ m) :
    doubled base cap n ≤ doubled base cap m := by
  have hpow : (2 : Int) ^ min 30 n ≤ 2 ^ min 30 m := by
    exact_mod_cast Nat.pow_le_pow_right (by decide : 0 < 2) (by omega : min 30 n ≤ min 30 m)
  have hmul := Int.mul_le_mul_of_nonneg_left hpow hbase.le
  unfold doubled
  omega

theorem foldl_counted {stable : Int} {mid : List Call}
    (h : ∀ c ∈ mid, ∃ lifetime, c = .connectionEnded lifetime ∧ lifetime < stable) (n : Nat) :
    mid.foldl (counted stable) n = n := by
  induction mid with
  | nil => rfl
  | cons c mid ih =>
    obtain ⟨lifetime, rfl, hshort⟩ := h c List.mem_cons_self
    rw [List.foldl_cons, counted, if_neg (Int.not_le.2 hshort)]
    exact ih fun c hc => h c (List.mem_cons_of_mem _ hc)

/-- The delays of a run are bounded by the doubling ceiling exactly when, at each `Next`, the guard
catches the shift's overflow if there is one. -/
theorem delays_bounded_iff (b₀ : Backoff) (calls : List Call) (hbase : 0 < b₀.Base)
    (hle : b₀.Base ≤ b₀.Max) (hmax : b₀.Max < 9223372036854775808) (hfresh : b₀.attempt = 0)
    (hr : Runs.Reaches Backoff.step b₀ calls b) :
    Bounded b₀ calls ↔ ∀ pre r post, calls = pre ++ .next r :: post →
      ShiftCaught b₀.Max (b₀.Base * 2 ^ min 30 (sinceReset b₀.stable pre)) := by
  constructor
  · intro h pre r post hcalls
    obtain ⟨b', hpre, -⟩ := Runs.Reaches.split (hcalls ▸ hr)
    have htracks := tracks_of_reaches hbase hle hfresh hpre
    have hsame (d : Int) := (next_draws b' d).symm.trans (h.drawn pre r post b' hcalls hpre d)
    have hpos := doubled_pos hbase hle (sinceReset b₀.stable pre)
    have hlow := (hsame _).2 ⟨hpos, Int.le_refl _⟩
    have hhigh := (hsame b'.defaults.ceil).1 ⟨by omega, Int.le_refl _⟩
    exact (htracks.ceil_iff hbase hle hmax).1 (by omega)
  · intro h
    refine ⟨?_, ?_⟩
    · intro pre r post b' hcalls hpre d
      have htracks := tracks_of_reaches hbase hle hfresh hpre
      rw [next_draws, (htracks.ceil_iff hbase hle hmax).2 (h pre r post hcalls)]
    · intro pre r mid r' post b₁ b₂ hcalls hmid hpre hnext
      have htracks := tracks_of_reaches hbase hle hfresh hpre
      have hall := hpre.append hnext
      have htracks' := tracks_of_reaches hbase hle hfresh hall
      have hcount : sinceReset b₀.stable (pre ++ .next r :: mid) =
          sinceReset b₀.stable pre + 1 := by
        rw [sinceReset, List.foldl_append, List.foldl_cons, foldl_counted hmid]
        rfl
      rw [(htracks.ceil_iff hbase hle hmax).2 (h pre r _ hcalls),
        (htracks'.ceil_iff hbase hle hmax).2 (h _ r' post (by
          rw [hcalls, List.append_assoc, List.cons_append]))]
      exact doubled_mono hbase b₀.Max (by omega)

theorem shiftCaught_of_small {base : Int} (hbase : 0 < base) (hsmall : base < 8589934592)
    (cap : Int) (n : Nat) : ShiftCaught cap (base * 2 ^ min 30 n) := by
  have hpow : (2 : Int) ^ min 30 n ≤ 2 ^ 30 := by
    exact_mod_cast Nat.pow_le_pow_right (by decide : 0 < 2) (by omega : min 30 n ≤ 30)
  have hmul := Int.mul_le_mul_of_nonneg_left hpow hbase.le
  refine .inl ?_
  omega

theorem delays_bounded_seconds :
    Bounded ⟨1000000000, 30000000000, 60000000000, 0⟩
      [.next 5, .connectionEnded 2000000000, .next 1999999999, .connectionEnded 60000000000,
        .next 0] := by
  refine (delays_bounded_iff _ _ (by decide) (by decide) (by decide) rfl
    (Runs.reaches_of_final rfl)).2 ?_
  intro pre r post hcalls
  exact shiftCaught_of_small (by decide) (by decide) _ _

/-- A base one nanosecond over 2^34 wraps to about a second at the thirtieth doubling. -/
theorem wrapped_ceiling_shrinks :
    ¬Bounded ⟨17179869185, 60000000000, 60000000000, 0⟩ (List.replicate 31 (.next 0)) := by
  intro h
  have hpre : Runs.Reaches Backoff.step ⟨17179869185, 60000000000, 60000000000, 0⟩
      (List.replicate 30 (.next 0)) ⟨17179869185, 60000000000, 60000000000, 30⟩ :=
    Runs.reaches_of_final (by decide +kernel)
  obtain ⟨r, hdraw⟩ := (h.drawn _ 0 [] _ rfl hpre 60000000000).2 ⟨by decide, by decide +kernel⟩
  unfold Backoff.Next at hdraw
  simp only at hdraw
  split at hdraw
  · rename_i hr
    have hceil : (Backoff.defaults ⟨17179869185, 60000000000, 60000000000, 30⟩).ceil =
        1073741824 := by
      decide +kernel
    rw [hceil] at hr
    have hdelay : r + 1 = 60000000000 := Option.some.inj hdraw
    omega
  · cases hdraw

end Runs

end ProxyForward.Link

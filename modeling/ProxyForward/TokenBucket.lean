import Mathlib.Data.Rat.Floor
import Mathlib.Tactic.Linarith
import Mathlib.Tactic.Ring
import ProxyForward.Runs

namespace ProxyForward
set_option autoImplicit true

/-- The nanoseconds of a second. -/
def nanosPerSecond : Int := 1000000000

/-- How a bucket fills, in tokens a second up to a burst, and the sleep that takes the place of one
of no length. -/
structure Rates where
  rate : Rat
  burst : Rat
  idle : Int
  pos : 0 < rate
  one_le : 1 ≤ burst
  idle_nonneg : 0 ≤ idle

/-- What comes in over some nanoseconds: seconds times the rate. -/
def Rates.gain (r : Rates) (d : Int) : Rat := d / nanosPerSecond * r.rate

/-- A bucket of tokens, and when it was last filled. The source counts in `float64`, this in exact
fractions of a token. -/
structure Bucket where
  tokens : Rat
  last : Option Int
  deriving DecidableEq, Repr

namespace Bucket

def fill (r : Rates) (b : Bucket) (now : Int) : Bucket where
  tokens := min r.burst (b.tokens + match b.last with
    | none => 0
    | some last => r.gain (now - last))
  last := some now

/-- One round of a waiter's loop under the lock: it takes a token or is told how long to sleep. -/
def attempt (r : Rates) (b : Bucket) (now : Int) : Option Int × Bucket :=
  let b := b.fill r now
  if 1 ≤ b.tokens then (none, { b with tokens := b.tokens - 1 })
  else
    let wait := ⌊(1 - b.tokens) / r.rate * nanosPerSecond⌋
    (some (if wait ≤ 0 then r.idle else wait), b)

end Bucket

inductive Waiter
  | ready
  | asleep (till : Int)
  | granted
  | canceled
  deriving DecidableEq, Repr

/-- Waiters at a bucket, with the times at which tokens were handed out. -/
structure Throttle where
  bucket : Bucket
  clock : Int
  waiters : List Waiter
  grants : List Int
  deriving DecidableEq, Repr

inductive ThrottleStep
  | tick (now : Int)
  | arrive
  | attempt (i : Nat)
  | cancel (i : Nat)
  deriving DecidableEq, Repr

namespace Throttle

def start (r : Rates) (clock : Int) : Throttle := ⟨⟨r.burst, none⟩, clock, [], []⟩

/-- A waiter's next round. -/
def attempts (r : Rates) (s : Throttle) (i : Nat) : Throttle :=
  match s.bucket.attempt r s.clock with
  | (none, bucket) =>
    { s with bucket, waiters := s.waiters.set i .granted, grants := s.grants ++ [s.clock] }
  | (some wait, bucket) =>
    { s with bucket, waiters := s.waiters.set i (.asleep (s.clock + wait)) }

def step (r : Rates) (s : Throttle) : ThrottleStep → Option Throttle
  | .tick now => if s.clock ≤ now then some { s with clock := now } else none
  | .arrive => some { s with waiters := s.waiters ++ [.ready] }
  | .attempt i =>
    match s.waiters[i]? with
    | some .ready => some (s.attempts r i)
    | some (.asleep till) => if till ≤ s.clock then some (s.attempts r i) else none
    | _ => none
  | .cancel i =>
    match s.waiters[i]? with
    | some (.asleep _) => some { s with waiters := s.waiters.set i .canceled }
    | _ => none

/-- How many tokens were handed out from `a` on for `d` nanoseconds. -/
def grantsIn (s : Throttle) (a : Int) (d : Nat) : Nat :=
  s.grants.countP fun t => a ≤ t ∧ t ≤ a + d

end Throttle

/-- The resolver's limiter: one request a second, three at once, a millisecond at the least. -/
def resolverRates : Rates := ⟨1, 3, 1000000, by decide, by decide, by decide⟩

/-- The session server's bucket: one profile a second, three at once. -/
def sessionServerRates : Rates := ⟨1, 3, 0, by decide, by decide, by decide⟩

/-- A round of the resolver's `wait`. -/
def limiterWait (b : Bucket) (now : Int) : Option Int × Bucket := b.attempt resolverRates now

def takeToken (b : Bucket) (now : Int) : Option Int × Bucket := b.attempt sessionServerRates now

namespace Rates

variable (r : Rates)

@[simp] theorem gain_zero : r.gain 0 = 0 := by simp [gain]

theorem gain_add (d e : Int) : r.gain (d + e) = r.gain d + r.gain e := by
  unfold gain
  push_cast
  ring

theorem gain_nonneg {d : Int} (h : 0 ≤ d) : 0 ≤ r.gain d :=
  mul_nonneg (div_nonneg (Int.cast_nonneg h) (by decide)) r.pos.le

theorem gain_mono {d e : Int} (h : d ≤ e) : r.gain d ≤ r.gain e := by
  have hrest := r.gain_nonneg (Int.sub_nonneg_of_le h)
  have hsum := r.gain_add d (e - d)
  rw [add_sub_cancel] at hsum
  linarith

theorem le_gain {lack : Rat} {d : Int} (h : ⌊lack / r.rate * nanosPerSecond⌋ + 1 ≤ d) :
    lack ≤ r.gain d := by
  have hfloor : lack / r.rate * nanosPerSecond < (⌊lack / r.rate * nanosPerSecond⌋ + 1 : Int) := by
    push_cast
    exact Int.lt_floor_add_one _
  have hd : lack / r.rate * nanosPerSecond < d := hfloor.trans_le (Int.cast_le.2 h)
  have hsecond : (0 : Rat) < nanosPerSecond := by decide
  rw [← lt_div_iff₀ hsecond, div_lt_iff₀ r.pos] at hd
  exact hd.le

end Rates

namespace Bucket

variable {r : Rates} {b : Bucket}

/-- What a bucket holds lies between nothing and the burst, and it was filled before now. -/
structure Within (r : Rates) (clock : Int) (b : Bucket) : Prop where
  nonneg : 0 ≤ b.tokens
  le_burst : b.tokens ≤ r.burst
  past : ∀ last ∈ b.last, last ≤ clock

/-- From `a` on, `n` tokens at the most have left the bucket. -/
def Gave (r : Rates) (a : Int) (n : Nat) (b : Bucket) : Prop :=
  n = 0 ∨ ∃ last, b.last = some last ∧ a ≤ last ∧ n + b.tokens ≤ r.burst + r.gain (last - a)

theorem Within.fill (h : b.Within r clock) : (b.fill r clock).Within r clock := by
  refine ⟨?_, min_le_left .., fun last hlast => (Option.some.inj hlast).ge⟩
  refine le_min (zero_le_one.trans r.one_le) (add_nonneg h.nonneg ?_)
  split
  · exact le_rfl
  · rename_i last hlast
    exact r.gain_nonneg (Int.sub_nonneg_of_le (h.past last hlast))

theorem Within.attempt (h : b.Within r clock) : (b.attempt r clock).2.Within r clock := by
  have hfill := h.fill
  unfold Bucket.attempt
  simp only
  split
  · rename_i hone
    refine ⟨sub_nonneg.2 hone, ?_, hfill.past⟩
    change (b.fill r clock).tokens - 1 ≤ r.burst
    linarith [hfill.le_burst]
  · exact hfill

theorem Gave.fill (h : b.Gave r a n) (hin : b.Within r clock) (ha : a ≤ clock) :
    n + (b.fill r clock).tokens ≤ r.burst + r.gain (clock - a) := by
  have hgain := r.gain_nonneg (Int.sub_nonneg_of_le ha)
  rcases h with rfl | ⟨last, hlast, -, hleft⟩
  · have hfull := hin.fill.le_burst
    rw [Nat.cast_zero]
    linarith
  · have hsum := r.gain_add (clock - last) (last - a)
    rw [sub_add_sub_cancel] at hsum
    have hfull : (b.fill r clock).tokens ≤ b.tokens + r.gain (clock - last) := by
      rw [Bucket.fill, hlast]
      exact min_le_right ..
    linarith

theorem attempt_granted (h : b.attempt r now = (none, b')) :
    1 ≤ (b.fill r now).tokens ∧ b'.tokens = (b.fill r now).tokens - 1 ∧ b'.last = some now := by
  unfold attempt at h
  simp only at h
  split at h
  · rename_i hone
    obtain ⟨-, rfl⟩ := Prod.mk.inj h
    exact ⟨hone, rfl, rfl⟩
  · cases (Prod.mk.inj h).1

theorem attempt_refused (h : b.attempt r now = (some wait, b')) :
    (b.fill r now).tokens < 1 ∧ b' = b.fill r now ∧ 0 ≤ wait ∧
      ⌊(1 - (b.fill r now).tokens) / r.rate * nanosPerSecond⌋ ≤ wait := by
  unfold attempt at h
  simp only at h
  split at h
  · cases (Prod.mk.inj h).1
  · rename_i hless
    obtain ⟨hwait, rfl⟩ := Prod.mk.inj h
    obtain rfl := Option.some.inj hwait
    refine ⟨lt_of_not_ge hless, rfl, ?_⟩
    split
    · rename_i hnone
      exact ⟨r.idle_nonneg, hnone.trans r.idle_nonneg⟩
    · rename_i hsome
      exact ⟨(lt_of_not_ge hsome).le, le_rfl⟩

theorem attempt_sleep_le (h : b.Within r clock) (hr : b.attempt r clock = (some wait, b')) :
    wait ≤ max r.idle ⌊1 / r.rate * nanosPerSecond⌋ := by
  have hfill := h.fill.nonneg
  unfold attempt at hr
  simp only at hr
  split at hr
  · cases (Prod.mk.inj hr).1
  · obtain rfl := Option.some.inj (Prod.mk.inj hr).1
    split
    · exact le_max_left ..
    · refine (Int.floor_le_floor ?_).trans (le_max_right ..)
      have hsecond : (0 : Rat) ≤ nanosPerSecond := by decide
      exact mul_le_mul_of_nonneg_right (div_le_div_of_nonneg_right (by linarith) r.pos.le) hsecond

theorem fill_of_refused {last : Int} (hlast : b.last = some last)
    (hless : (b.fill r now).tokens < 1) :
    (b.fill r now).tokens = b.tokens + r.gain (now - last) := by
  rw [fill, hlast] at hless ⊢
  have hroom := (min_lt_iff.1 hless).resolve_left r.one_le.not_gt
  exact min_eq_right (hroom.le.trans r.one_le)

theorem limiterWait_sleep (h : b.Within resolverRates clock)
    (hr : limiterWait b clock = (some wait, b')) : 0 < wait ∧ wait ≤ nanosPerSecond := by
  refine ⟨?_, (attempt_sleep_le h hr).trans (by decide +kernel)⟩
  unfold limiterWait attempt at hr
  simp only at hr
  split at hr
  · cases (Prod.mk.inj hr).1
  · obtain rfl := Option.some.inj (Prod.mk.inj hr).1
    split
    · decide
    · exact lt_of_not_ge ‹_›

theorem takeToken_sleep (h : b.Within sessionServerRates clock)
    (hr : takeToken b clock = (some wait, b')) : 0 ≤ wait ∧ wait ≤ nanosPerSecond :=
  ⟨(attempt_refused hr).2.2.1, (attempt_sleep_le h hr).trans (by decide +kernel)⟩

end Bucket

namespace Throttle

variable {r : Rates} {s t : Throttle}

theorem grantsIn_append (s : Throttle) (bucket : Bucket) (waiters : List Waiter) (g : Int) :
    grantsIn ⟨bucket, s.clock, waiters, s.grants ++ [g]⟩ a d =
      s.grantsIn a d + if a ≤ g ∧ g ≤ a + d then 1 else 0 := by
  simp only [grantsIn, List.countP_append, List.countP_singleton, decide_eq_true_eq]

theorem step_attempt (hs : s.step r (.attempt i) = some t) : t = s.attempts r i := by
  simp only [step] at hs
  split at hs
  · exact (Option.some.inj hs).symm
  · exact (Option.some.inj (Option.ite_none_right_eq_some.1 hs).2).symm
  · cases hs

theorem step_cases (hs : s.step r l = some t) :
    (∃ i, l = .attempt i ∧ t = s.attempts r i) ∨
      (t.bucket = s.bucket ∧ t.grants = s.grants ∧ s.clock ≤ t.clock) := by
  cases l with
  | tick now =>
    obtain ⟨hnow, hs⟩ := Option.ite_none_right_eq_some.1 hs
    obtain rfl := Option.some.inj hs
    exact .inr ⟨rfl, rfl, hnow⟩
  | arrive =>
    obtain rfl := Option.some.inj hs
    exact .inr ⟨rfl, rfl, le_rfl⟩
  | attempt i => exact .inl ⟨i, rfl, step_attempt hs⟩
  | cancel i =>
    simp only [step] at hs
    split at hs
    · obtain rfl := Option.some.inj hs
      exact .inr ⟨rfl, rfl, le_rfl⟩
    · cases hs

/-- From `a` on for `d` nanoseconds no more was handed out than the burst and what came in. -/
structure Spaced (r : Rates) (a : Int) (d : Nat) (s : Throttle) : Prop where
  within : s.bucket.Within r s.clock
  bound : (s.grantsIn a d : Rat) ≤ r.burst + r.gain d
  gave : (∀ last ∈ s.bucket.last, last ≤ a + d) → s.bucket.Gave r a (s.grantsIn a d)

theorem Spaced.start (r : Rates) (clock a : Int) (d : Nat) : (start r clock).Spaced r a d where
  within := ⟨zero_le_one.trans r.one_le, le_rfl, nofun⟩
  bound := add_nonneg (zero_le_one.trans r.one_le) (r.gain_nonneg (Int.natCast_nonneg d))
  gave _ := .inl rfl

theorem Spaced.filled (h : s.Spaced r a d) (ha : a ≤ s.clock) (hd : s.clock ≤ a + d) :
    s.grantsIn a d + (s.bucket.fill r s.clock).tokens ≤ r.burst + r.gain (s.clock - a) :=
  (h.gave fun last hlast => (h.within.past last hlast).trans hd).fill h.within ha

theorem Spaced.none_before (h : s.Spaced r a d) (ha : s.clock < a) : s.grantsIn a d = 0 := by
  have hearly (last : Int) (hlast : last ∈ s.bucket.last) : last < a :=
    (h.within.past last hlast).trans_lt ha
  have hgave := h.gave fun last hlast => (hearly last hlast).le.trans (by omega)
  rcases hgave with hnone | ⟨last, hlast, hle, -⟩
  · exact hnone
  · exact absurd hle (hearly last hlast).not_ge

theorem Spaced.attempts (h : s.Spaced r a d) (i : Nat) : (s.attempts r i).Spaced r a d := by
  have hwithin := h.within.attempt
  unfold Throttle.attempts
  split
  · rename_i b' hround
    rw [hround] at hwithin
    obtain ⟨hone, htokens, hlast⟩ := Bucket.attempt_granted hround
    have hcount := s.grantsIn_append (a := a) (d := d) b' (s.waiters.set i .granted) s.clock
    refine ⟨hwithin, ?_, ?_⟩
    · rw [hcount]
      split
      · rename_i hin
        have hfilled := h.filled hin.1 hin.2
        have hgain := r.gain_mono (d := s.clock - a) (e := d) (by omega)
        push_cast
        linarith
      · exact h.bound
    · intro hd
      have hd : s.clock ≤ a + d := hd _ hlast
      rw [hcount]
      by_cases ha : a ≤ s.clock
      · have hfilled := h.filled ha hd
        refine .inr ⟨s.clock, hlast, ha, ?_⟩
        rw [if_pos ⟨ha, hd⟩]
        simp only [htokens]
        push_cast
        linarith
      · rw [if_neg fun hin => ha hin.1, h.none_before (lt_of_not_ge ha)]
        exact .inl rfl
  · rename_i wait b' hround
    rw [hround] at hwithin
    obtain ⟨-, rfl, -, -⟩ := Bucket.attempt_refused hround
    refine ⟨hwithin, h.bound, fun hd => ?_⟩
    by_cases ha : a ≤ s.clock
    · exact .inr ⟨s.clock, rfl, ha, h.filled ha (hd _ rfl)⟩
    · exact .inl (h.none_before (lt_of_not_ge ha))

theorem Spaced.step (h : s.Spaced r a d) (hs : s.step r l = some t) : t.Spaced r a d := by
  rcases step_cases hs with ⟨i, -, rfl⟩ | ⟨hbucket, hgrants, hclock⟩
  · exact h.attempts i
  · have hcount : t.grantsIn a d = s.grantsIn a d := by rw [grantsIn, hgrants, grantsIn]
    refine ⟨⟨?_, ?_, ?_⟩, ?_, ?_⟩
    · exact hbucket ▸ h.within.nonneg
    · exact hbucket ▸ h.within.le_burst
    · exact fun last hlast => (h.within.past last (hbucket ▸ hlast)).trans hclock
    · exact hcount ▸ h.bound
    · rw [hcount, hbucket]
      exact h.gave

/-- However many wait, and in whatever order they come. -/
theorem grantsIn_le {clock : Int} (hr : Runs.Reaches (step r) (start r clock) ls s) (a : Int)
    (d : Nat) : (s.grantsIn a d : Rat) ≤ r.burst + r.gain d :=
  (hr.invariant (fun _ _ _ h hs => Spaced.step h hs) (Spaced.start r clock a d)).bound

/-- Three at once, and another a second later. -/
def fourWaiters : Throttle where
  bucket := ⟨0, some 1000000000⟩
  clock := 1000000000
  waiters := [.granted, .granted, .granted, .granted]
  grants := [0, 0, 0, 1000000000]

theorem grantsIn_le_four : (fourWaiters.grantsIn 0 1000000000 : Rat) ≤
    3 + resolverRates.gain (1000000000 : Nat) := by
  have hrun : Runs.final (step resolverRates) (start resolverRates 0)
      [.arrive, .arrive, .arrive, .arrive, .attempt 0, .attempt 1, .attempt 2,
        .tick 1000000000, .attempt 3] = some fourWaiters := by
    decide +kernel
  exact grantsIn_le (Runs.reaches_of_final hrun) 0 1000000000

/-- Unless another token was handed out since `since`, the bucket holds what it held then and all
that came in. -/
def Saves (r : Rates) (since : Int) (held : Rat) (n : Nat) (s : Throttle) : Prop :=
  n < s.grants.length ∨ s.grants.length = n ∧ ∃ last, s.bucket.last = some last ∧
    s.bucket.tokens = held + r.gain (last - since)

theorem Saves.attempts (h : s.Saves r since held n) (i : Nat) :
    n < (s.attempts r i).grants.length ∨ (s.attempts r i).Saves r since held n ∧
      held + r.gain (s.clock - since) < 1 := by
  unfold Throttle.attempts
  split
  · refine .inl ?_
    rw [List.length_append, List.length_singleton]
    rcases h with hmore | ⟨hsame, -⟩ <;> omega
  · rename_i wait b' hround
    obtain ⟨hless, rfl, -⟩ := Bucket.attempt_refused hround
    rcases h with hmore | ⟨hsame, last, hlast, hheld⟩
    · exact .inl hmore
    · have hfill := Bucket.fill_of_refused hlast hless
      have hsum := r.gain_add (s.clock - last) (last - since)
      rw [sub_add_sub_cancel] at hsum
      have hnow : (s.bucket.fill r s.clock).tokens = held + r.gain (s.clock - since) := by
        linarith
      exact .inr ⟨.inr ⟨hsame, s.clock, rfl, hnow⟩, hnow ▸ hless⟩

theorem Saves.step (h : s.Saves r since held n) (hs : s.step r l = some t) :
    t.Saves r since held n := by
  rcases step_cases hs with ⟨i, -, rfl⟩ | ⟨hbucket, hgrants, -⟩
  · rcases h.attempts i with hmore | ⟨hsaves, -⟩
    · exact .inl hmore
    · exact hsaves
  · rw [Saves, hbucket, hgrants]
    exact h

/-- A nanosecond after a sleep is over, the next round of any waiter finds a token, unless one was
handed out meanwhile. -/
theorem granted_after_sleep (hs : s.step r (.attempt i) = some t)
    (hsleep : t.waiters[i]? = some (.asleep till)) (hr : Runs.Reaches (step r) t ls u)
    (hlate : till < u.clock) (hround : u.step r (.attempt j) = some v) :
    t.grants.length < v.grants.length := by
  obtain rfl := step_attempt hs
  obtain rfl := step_attempt hround
  have hsaves : ∃ held, (s.attempts r i).Saves r s.clock held (s.attempts r i).grants.length ∧
      1 ≤ held + r.gain (u.clock - s.clock) := by
    unfold Throttle.attempts at hsleep ⊢
    split at hsleep
    · rename_i b' hturn
      obtain ⟨hi, -⟩ := List.getElem?_eq_some_iff.1 hsleep
      rw [List.length_set] at hi
      simp only [List.getElem?_set_self hi] at hsleep
      cases hsleep
    · rename_i wait b' hturn
      obtain ⟨hless, rfl, -, hwait⟩ := Bucket.attempt_refused hturn
      obtain ⟨hi, -⟩ := List.getElem?_eq_some_iff.1 hsleep
      rw [List.length_set] at hi
      simp only [List.getElem?_set_self hi, Option.some.injEq, Waiter.asleep.injEq] at hsleep
      refine ⟨(s.bucket.fill r s.clock).tokens, .inr ⟨rfl, s.clock, rfl, ?_⟩, ?_⟩
      · rw [sub_self, r.gain_zero, add_zero]
      · have hgain : 1 - (s.bucket.fill r s.clock).tokens ≤ r.gain (u.clock - s.clock) :=
          r.le_gain (by omega)
        linarith
  obtain ⟨held, hsaves, henough⟩ := hsaves
  have hend := hr.invariant (fun _ _ _ h hs => Saves.step h hs) hsaves
  rcases hend.attempts j with hmore | ⟨-, hless⟩
  · exact hmore
  · exact absurd henough hless.not_ge

/-- A bucket that has just given its last token, and a waiter who has come late. -/
def lateWaiter : Throttle := ⟨⟨0, some 0⟩, 0, [.ready], [0, 0, 0]⟩

theorem granted_after_a_second :
    ∃ t v : Throttle, lateWaiter.step sessionServerRates (.attempt 0) = some t ∧
    t.waiters[0]? = some (.asleep 1000000000) ∧ t.grants.length < v.grants.length := by
  have hasleep : lateWaiter.step sessionServerRates (.attempt 0) =
      some { lateWaiter with waiters := [.asleep 1000000000] } := by
    decide +kernel
  have hround : ({ lateWaiter with waiters := [.asleep 1000000000], clock := 1000000001 } :
      Throttle).step sessionServerRates (.attempt 0) =
        some ⟨⟨1 / 1000000000, some 1000000001⟩, 1000000001, [.granted],
          [0, 0, 0, 1000000001]⟩ := by
    decide +kernel
  exact ⟨_, _, hasleep, rfl, granted_after_sleep hasleep rfl
    (Runs.reaches_of_final (by rfl : Runs.final _ _ [.tick 1000000001] = _)) (by decide) hround⟩

end Throttle

end ProxyForward

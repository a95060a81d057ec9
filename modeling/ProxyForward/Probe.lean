import Mathlib.Data.List.Nodup
import Mathlib.Tactic.Linarith
import ProxyForward.Runs

namespace ProxyForward
set_option autoImplicit true

/-- A sum or difference of `int64` nanoseconds. -/
def Duration.wrap (x : Int) : Int := x.bmod (2 ^ 64)

/-- The difference of two times as `Time.Sub` gives it. -/
def Duration.saturate (x : Int) : Int := max (-2 ^ 63) (min (2 ^ 63 - 1) x)

/-- Times are in nanoseconds. -/
structure Pong where
  seq : Nat
  sentUnixNano : Int
  recvUnixNano : Int
  deriving DecidableEq, Repr

/-- `oneWay` is the way up and the way down, where the peer told when it received the ping. -/
structure ProbeSample where
  rtt : Int
  oneWay : Option (Int × Int)
  deriving DecidableEq, Repr

/-- `OneWay` is set where `HaveOneWay` is. -/
structure ProbeResult where
  Samples : Nat
  RTTAvg : Int
  RTTMin : Int
  RTTMax : Int
  Jitter : Int
  OneWay : Option (Int × Int)
  deriving DecidableEq, Repr

/-- A sample is kept with the seq of its pong; `closes` counts how often `full` was closed. -/
structure ProbeCollector where
  expect : Nat
  want : List Nat
  samples : List (Nat × ProbeSample)
  done : Bool
  closes : Nat
  /-- The seqs that were marked so far. -/
  marked : List Nat
  deriving DecidableEq, Repr

def NewProbeCollector (expect : Nat) : ProbeCollector := ⟨expect, [], [], false, 0, []⟩

def sampleOf (pong : Pong) (now : Int) : ProbeSample where
  rtt := Duration.saturate (now - pong.sentUnixNano)
  oneWay :=
    if 0 < pong.recvUnixNano then
      some (Duration.wrap (pong.recvUnixNano - pong.sentUnixNano),
        Duration.saturate (now - pong.recvUnixNano))
    else none

namespace ProbeCollector

def Mark (pc : ProbeCollector) (seq : Nat) : ProbeCollector :=
  { pc with want := pc.want.insert seq, marked := pc.marked ++ [seq] }

def Record (pc : ProbeCollector) (pong : Pong) (now : Int) : ProbeCollector :=
  if pong.seq ∉ pc.want then pc
  else
    let samples := pc.samples ++ [(pong.seq, sampleOf pong now)]
    let full := pc.expect ≤ samples.length ∧ pc.done = false
    { pc with
      want := pc.want.erase pong.seq
      samples
      done := pc.done || decide full
      closes := pc.closes + if full then 1 else 0 }

end ProbeCollector

/-- The running values of `Summarize`, with the round trip before. -/
structure Tally where
  sum : Int
  min : Int
  max : Int
  jitterSum : Int
  last : Int
  upSum : Int
  downSum : Int
  oneWayN : Nat
  deriving DecidableEq, Repr

def Tally.oneWay (t : Tally) (s : ProbeSample) : Tally :=
  match s.oneWay with
  | none => t
  | some (up, down) =>
    { t with
      upSum := Duration.wrap (t.upSum + up)
      downSum := Duration.wrap (t.downSum + down)
      oneWayN := t.oneWayN + 1 }

def Tally.first (s : ProbeSample) : Tally :=
  oneWay ⟨Duration.wrap s.rtt, s.rtt, s.rtt, 0, s.rtt, 0, 0, 0⟩ s

/-- The distance of two round trips; that of `-2 ^ 63` is itself. -/
def Tally.step (t : Tally) (s : ProbeSample) : Int :=
  let d := Duration.wrap (s.rtt - t.last)
  if d < 0 then Duration.wrap (-d) else d

def Tally.time (t : Tally) (s : ProbeSample) : Tally :=
  { t with
    sum := Duration.wrap (t.sum + s.rtt)
    min := if s.rtt < t.min then s.rtt else t.min
    max := if t.max < s.rtt then s.rtt else t.max
    jitterSum := Duration.wrap (t.jitterSum + t.step s)
    last := s.rtt }

def Tally.add (t : Tally) (s : ProbeSample) : Tally := (t.time s).oneWay s

/-- Go's division, which truncates. -/
def Summarize (samples : List ProbeSample) : ProbeResult :=
  match samples with
  | [] => ⟨0, 0, 0, 0, 0, none⟩
  | s :: rest =>
    let t := rest.foldl Tally.add (Tally.first s)
    let n : Int := samples.length
    { Samples := samples.length
      RTTAvg := t.sum.tdiv n
      RTTMin := t.min
      RTTMax := t.max
      Jitter := if 1 < n then t.jitterSum.tdiv (n - 1) else 0
      OneWay := if 0 < t.oneWayN then
          some (t.upSum.tdiv t.oneWayN, t.downSum.tdiv t.oneWayN)
        else none }

/-- A session's pings and probes. `reader` is between loading the probe and recording the pong;
`received` holds the pongs that came. -/
structure Probing where
  pingSeq : Nat
  probe : Option Nat
  collectors : List ProbeCollector
  reader : Option (Nat × Pong × Int)
  received : List (Pong × Int)
  deriving DecidableEq, Repr

inductive ProbeStep
  | ping
  | begin (count : Int)
  | mark
  | load (pong : Pong) (now : Int)
  | record
  | finish
  deriving DecidableEq, Repr

namespace Probing

def start : Probing := ⟨0, none, [], none, []⟩

/-- A pong may come with any seq and any times, and at any moment. -/
def step (s : Probing) : ProbeStep → Option Probing
  | .ping => some { s with pingSeq := s.pingSeq + 1 }
  | .begin count =>
    match s.probe with
    | some _ => none
    | none => some { s with
        probe := some s.collectors.length
        collectors := s.collectors ++ [NewProbeCollector (if count ≤ 0 then 10 else count.toNat)] }
  | .mark =>
    match s.probe with
    | none => none
    | some k =>
      match s.collectors[k]? with
      | none => none
      | some pc =>
        if pc.marked.length < pc.expect then
          some { s with
            pingSeq := s.pingSeq + 1
            collectors := s.collectors.set k (pc.Mark (s.pingSeq + 1)) }
        else none
  | .load pong now =>
    match s.reader, s.probe with
    | none, some k => some { s with
        reader := some (k, pong, now)
        received := s.received ++ [(pong, now)] }
    | none, none => some { s with received := s.received ++ [(pong, now)] }
    | some _, _ => none
  | .record =>
    match s.reader with
    | none => none
    | some (k, pong, now) =>
      some { s with
        reader := none
        collectors := s.collectors.modify k fun pc => pc.Record pong now }
  | .finish => some { s with probe := none }

/-- A probe counts every pong of its own pings once and no other, and signals once, when all have
come. -/
structure Counts (s : Probing) : Prop where
  once : ∀ pc ∈ s.collectors, (pc.samples.map (·.1)).Nodup ∧
    ∀ x ∈ pc.samples, x.1 ∈ pc.marked ∧
      ∃ y ∈ s.received, y.1.seq = x.1 ∧ x.2 = sampleOf y.1 y.2
  apart : ∀ (k k' : Nat) (pc pc' : ProbeCollector), s.collectors[k]? = some pc →
    s.collectors[k']? = some pc' → k ≠ k' →
    ∀ q ∈ pc.marked, q ∉ pc'.marked
  signal : ∀ pc ∈ s.collectors, pc.samples.length ≤ pc.expect ∧
    pc.closes = if pc.samples.length = pc.expect then 1 else 0

end Probing

namespace ProbeCollector

/-- Every marked seq is still wanted or was counted. -/
structure Inv (received : List (Pong × Int)) (n : Nat) (pc : ProbeCollector) : Prop where
  shared : pc.marked.Perm (pc.want ++ pc.samples.map (·.1))
  nodup : pc.marked.Nodup
  issued : ∀ q ∈ pc.marked, q ≤ n
  few : pc.marked.length ≤ pc.expect ∧ 0 < pc.expect
  done : pc.done = true ↔ pc.expect ≤ pc.samples.length
  closes : pc.closes = if pc.done = true then 1 else 0
  came : ∀ x ∈ pc.samples, ∃ y ∈ received, y.1.seq = x.1 ∧ x.2 = sampleOf y.1 y.2

variable {pc : ProbeCollector} {received : List (Pong × Int)}

theorem Inv.new {expect : Nat} (h : 0 < expect) : (NewProbeCollector expect).Inv received n where
  shared := .refl _
  nodup := List.nodup_nil
  issued := nofun
  few := ⟨h.le, h⟩
  done := ⟨nofun, fun hnone => absurd h hnone.not_gt⟩
  closes := rfl
  came := nofun

theorem Inv.later (h : pc.Inv received n) (hn : n ≤ n') (hmore : received ⊆ received') :
    pc.Inv received' n' :=
  ⟨h.shared, h.nodup, fun q hq => (h.issued q hq).trans hn, h.few, h.done, h.closes,
    fun x hx => (h.came x hx).imp fun _ hy => hy.imp_left fun hin => hmore hin⟩

theorem Inv.Mark (h : pc.Inv received n) (hroom : pc.marked.length < pc.expect) :
    (pc.Mark (n + 1)).Inv received (n + 1) := by
  have hnew : n + 1 ∉ pc.marked := fun hin => absurd (h.issued _ hin) (Nat.not_succ_le_self n)
  have hwant : n + 1 ∉ pc.want := fun hin =>
    hnew (h.shared.mem_iff.2 (List.mem_append_left _ hin))
  refine ⟨?_, ?_, ?_, ⟨?_, h.few.2⟩, h.done, h.closes, h.came⟩
  · rw [ProbeCollector.Mark, List.insert_of_not_mem hwant]
    exact (List.perm_append_singleton ..).trans (h.shared.cons _)
  · exact List.nodup_append.2 ⟨h.nodup, List.nodup_singleton _,
      fun q hq q' hq' heq => hnew (List.mem_singleton.1 hq' ▸ heq ▸ hq)⟩
  · intro q hq
    rcases List.mem_append.1 hq with hq | hq
    · exact (h.issued q hq).trans (Nat.le_succ n)
    · exact (List.mem_singleton.1 hq).le
  · rw [ProbeCollector.Mark, List.length_append, List.length_singleton]
    exact hroom

theorem Inv.Record (h : pc.Inv received n) (hin : (pong, now) ∈ received) :
    (pc.Record pong now).Inv received n := by
  unfold ProbeCollector.Record
  split
  · exact h
  · rename_i hwant
    have hwant := not_not.1 hwant
    have hdone := h.done
    refine ⟨?_, h.nodup, h.issued, h.few, ?_, ?_, ?_⟩
    · rw [List.map_append, List.map_singleton]
      refine h.shared.trans (((List.perm_cons_erase hwant).append_right _).trans ?_)
      rw [← List.append_assoc]
      exact (List.perm_append_singleton ..).symm
    · simp only [Bool.or_eq_true, decide_eq_true_eq, List.length_append, List.length_singleton]
      cases hd : pc.done with
      | true =>
        have hfull := hdone.1 hd
        simp only [true_or, true_iff]
        omega
      | false =>
        simp only [Bool.false_eq_true, false_or, and_true]
    · have hcloses := h.closes
      cases hd : pc.done with
      | true =>
        rw [hd] at hcloses
        simpa [hd] using hcloses
      | false =>
        rw [hd] at hcloses
        simpa [hd] using hcloses
    · intro x hx
      rcases List.mem_append.1 hx with hx | hx
      · exact h.came x hx
      · obtain rfl := List.mem_singleton.1 hx
        exact ⟨_, hin, rfl, rfl⟩

end ProbeCollector

namespace Probing

variable {s t : Probing}

structure Inv (s : Probing) : Prop where
  each : ∀ pc ∈ s.collectors, pc.Inv s.received s.pingSeq
  apart : ∀ (k k' : Nat) (pc pc' : ProbeCollector), s.collectors[k]? = some pc →
    s.collectors[k']? = some pc' → k ≠ k' → ∀ q ∈ pc.marked, q ∉ pc'.marked
  reader : ∀ x ∈ s.reader, (x.2.1, x.2.2) ∈ s.received

theorem Inv.start : start.Inv := ⟨nofun, nofun, nofun⟩

theorem Inv.counts (h : s.Inv) : s.Counts where
  once pc hpc := by
    have hinv := h.each pc hpc
    have hnodup := hinv.shared.nodup_iff.1 hinv.nodup
    refine ⟨(List.nodup_append.1 hnodup).2.1, fun x hx => ⟨?_, hinv.came x hx⟩⟩
    exact hinv.shared.mem_iff.2 (List.mem_append_right _ (List.mem_map_of_mem hx))
  apart := h.apart
  signal pc hpc := by
    have hinv := h.each pc hpc
    have hlength := hinv.shared.length_eq
    rw [List.length_append, List.length_map] at hlength
    have hfew := hinv.few.1
    have hle : pc.samples.length ≤ pc.expect := by omega
    refine ⟨hle, hinv.closes.trans ?_⟩
    have hdone : pc.done = true ↔ pc.samples.length = pc.expect :=
      hinv.done.trans ⟨fun hfull => le_antisymm hle hfull, fun heq => heq.ge⟩
    simp only [hdone]

theorem Inv.of_marks (h : s.Inv) (heach : ∀ pc ∈ t.collectors, pc.Inv t.received t.pingSeq)
    (hmarks : ∀ (k : Nat) (pc : ProbeCollector), t.collectors[k]? = some pc →
      pc.marked = [] ∨ ∃ pc', s.collectors[k]? = some pc' ∧ pc.marked = pc'.marked)
    (hreader : ∀ x ∈ t.reader, (x.2.1, x.2.2) ∈ t.received) : t.Inv where
  each := heach
  apart k k' pc pc' hk hk' hne q hq hq' := by
    rcases hmarks k pc hk with hnone | ⟨old, hold, hsame⟩
    · exact absurd hq (hnone ▸ List.not_mem_nil)
    · rcases hmarks k' pc' hk' with hnone | ⟨old', hold', hsame'⟩
      · exact absurd hq' (hnone ▸ List.not_mem_nil)
      · exact h.apart k k' old old' hold hold' hne q (hsame ▸ hq) (hsame' ▸ hq')
  reader := hreader

theorem Inv.mark (h : s.Inv) (hpc : s.collectors[k]? = some pc)
    (hroom : pc.marked.length < pc.expect) :
    Inv { s with
      pingSeq := s.pingSeq + 1
      collectors := s.collectors.set k (pc.Mark (s.pingSeq + 1)) } := by
  have hinv := h.each pc (List.mem_of_getElem? hpc)
  -- the seq is new to every collector
  have hnew (i : Nat) (old : ProbeCollector) (hi : s.collectors[i]? = some old) :
      s.pingSeq + 1 ∉ old.marked := fun hin =>
    absurd ((h.each old (List.mem_of_getElem? hi)).issued _ hin) (Nat.not_succ_le_self _)
  have hmarks (i : Nat) (now : ProbeCollector)
      (hi : (s.collectors.set k (pc.Mark (s.pingSeq + 1)))[i]? = some now) :
      ∃ old, s.collectors[i]? = some old ∧
        (now.marked = old.marked ∨ i = k ∧ now.marked = old.marked ++ [s.pingSeq + 1]) := by
    by_cases hik : k = i
    · subst hik
      obtain ⟨hlt, -⟩ := List.getElem?_eq_some_iff.1 hpc
      rw [List.getElem?_set_self hlt] at hi
      obtain rfl := Option.some.inj hi
      exact ⟨pc, hpc, .inr ⟨rfl, rfl⟩⟩
    · rw [List.getElem?_set_ne hik] at hi
      exact ⟨now, hi, .inl rfl⟩
  refine ⟨fun now hnow => ?_, fun i i' a a' hi hi' hne q hq hq' => ?_, h.reader⟩
  · rcases List.mem_or_eq_of_mem_set hnow with hnow | rfl
    · exact (h.each now hnow).later (Nat.le_succ _) (List.Subset.refl _)
    · exact hinv.Mark hroom
  · obtain ⟨old, hold, hmarked⟩ := hmarks i a hi
    obtain ⟨old', hold', hmarked'⟩ := hmarks i' a' hi'
    have hapart := h.apart i i' old old' hold hold' hne q
    have hfresh := hnew i old hold
    have hfresh' := hnew i' old' hold'
    rcases hmarked with hsame | ⟨rfl, hmore⟩ <;>
      rcases hmarked' with hsame' | ⟨rfl, hmore'⟩
    · exact hapart (hsame ▸ hq) (hsame' ▸ hq')
    · rw [hsame] at hq
      rw [hmore', List.mem_append, List.mem_singleton] at hq'
      rcases hq' with hq' | rfl
      · exact hapart hq hq'
      · exact hfresh hq
    · rw [hsame'] at hq'
      rw [hmore, List.mem_append, List.mem_singleton] at hq
      rcases hq with hq | rfl
      · exact hapart hq hq'
      · exact hfresh' hq'
    · exact hne rfl

theorem Inv.record (h : s.Inv) (hin : (pong, now) ∈ s.received) :
    Inv { s with
      reader := none
      collectors := s.collectors.modify k fun pc => pc.Record pong now } := by
  have hmod (i : Nat) (pc : ProbeCollector)
      (hi : (s.collectors.modify k fun pc => pc.Record pong now)[i]? = some pc) :
      ∃ old, s.collectors[i]? = some old ∧ (pc = old ∨ pc = old.Record pong now) := by
    rw [List.getElem?_modify] at hi
    obtain ⟨old, hold, rfl⟩ := Option.map_eq_some_iff.1 hi
    refine ⟨old, hold, ?_⟩
    split
    · exact .inr rfl
    · exact .inl rfl
  refine h.of_marks (fun pc hpc => ?_) (fun i pc hi => ?_) nofun
  · obtain ⟨i, hi⟩ := List.mem_iff_getElem?.1 hpc
    obtain ⟨old, hold, rfl | rfl⟩ := hmod i pc hi
    · exact h.each _ (List.mem_of_getElem? hold)
    · exact (h.each old (List.mem_of_getElem? hold)).Record hin
  · obtain ⟨old, hold, rfl | rfl⟩ := hmod i pc hi
    · exact .inr ⟨_, hold, rfl⟩
    · refine .inr ⟨old, hold, ?_⟩
      unfold ProbeCollector.Record
      split <;> rfl

theorem Inv.step (h : s.Inv) (hs : s.step l = some t) : t.Inv := by
  have hkeep (k : Nat) (pc : ProbeCollector) (hk : s.collectors[k]? = some pc) :
      pc.marked = [] ∨ ∃ pc', s.collectors[k]? = some pc' ∧ pc.marked = pc'.marked :=
    .inr ⟨pc, hk, rfl⟩
  cases l with
  | ping =>
    obtain rfl := Option.some.inj hs
    exact h.of_marks (fun pc hpc => (h.each pc hpc).later (Nat.le_succ _) (List.Subset.refl _))
      hkeep h.reader
  | begin count =>
    simp only [Probing.step] at hs
    split at hs
    · cases hs
    · obtain rfl := Option.some.inj hs
      refine h.of_marks (fun pc hpc => ?_) (fun k pc hk => ?_) h.reader
      · rcases List.mem_append.1 hpc with hpc | hpc
        · exact h.each pc hpc
        · obtain rfl := List.mem_singleton.1 hpc
          refine .new ?_
          split
          · decide
          · omega
      · by_cases hlt : k < s.collectors.length
        · exact hkeep k pc ((List.getElem?_append_left hlt).symm.trans hk)
        · rw [List.getElem?_append_right (not_lt.1 hlt), List.getElem?_singleton] at hk
          split at hk
          · obtain rfl := Option.some.inj hk
            exact .inl rfl
          · cases hk
  | mark =>
    simp only [Probing.step] at hs
    split at hs
    · cases hs
    · rename_i k hprobe
      split at hs
      · cases hs
      · rename_i pc hpc
        obtain ⟨hroom, hs⟩ := Option.ite_none_right_eq_some.1 hs
        obtain rfl := Option.some.inj hs
        exact h.mark hpc hroom
  | load pong now =>
    simp only [Probing.step] at hs
    have hmore : s.received ⊆ s.received ++ [(pong, now)] := List.subset_append_left ..
    have heach (pc : ProbeCollector) (hpc : pc ∈ s.collectors) :
        pc.Inv (s.received ++ [(pong, now)]) s.pingSeq := (h.each pc hpc).later le_rfl hmore
    split at hs
    · obtain rfl := Option.some.inj hs
      refine h.of_marks heach hkeep fun x hx => ?_
      obtain rfl := Option.some.inj hx
      exact List.mem_append_right _ List.mem_cons_self
    · obtain rfl := Option.some.inj hs
      exact h.of_marks heach hkeep fun x hx => hmore (h.reader x hx)
    · cases hs
  | record =>
    simp only [Probing.step] at hs
    split at hs
    · cases hs
    · rename_i k pong now hreader
      obtain rfl := Option.some.inj hs
      exact h.record (h.reader _ hreader)
  | finish =>
    obtain rfl := Option.some.inj hs
    exact ⟨h.each, h.apart, h.reader⟩

/-- Whatever pongs come, and whenever probes begin and end. -/
theorem counts_of_reaches (hr : Runs.Reaches step Probing.start ls s) : s.Counts :=
  (hr.invariant (fun _ _ _ h hs => Inv.step h hs) .start).counts

/-- The pong of an earlier probe comes again and is not counted. -/
def lateRun : List ProbeStep :=
  [.begin 1, .ping, .mark, .load ⟨2, 10, 0⟩ 50, .record, .finish, .begin 1, .mark,
    .load ⟨2, 10, 0⟩ 60, .record, .load ⟨3, 55, 70⟩ 90, .record]

theorem counts_late : ∃ s, Runs.Reaches step Probing.start lateRun s ∧
    s.collectors.map (·.samples.length) = [1, 1] ∧ s.Counts := by
  have hrun : (Runs.final step Probing.start lateRun).map
      (fun s => s.collectors.map (·.samples.length)) = some [1, 1] := by
    decide +kernel
  obtain ⟨s, hs, hlengths⟩ := Option.map_eq_some_iff.1 hrun
  have hreaches := Runs.reaches_of_final hs
  exact ⟨s, hreaches, hlengths, counts_of_reaches hreaches⟩

end Probing

namespace Duration

theorem wrap_add_wrap (x y : Int) : wrap (wrap x + y) = wrap (x + y) := Int.bmod_add_bmod

theorem wrap_of_lt {x : Int} (h : |x| < 2 ^ 63) : wrap x = x := by
  obtain ⟨hlo, hhi⟩ := abs_lt.1 h
  exact Int.bmod_eq_of_le_mul_two (by push_cast; linarith) (by push_cast; linarith)

end Duration

namespace Tally

/-- What the running values are of the samples seen. The sums are exact but for the wrap. -/
structure Of (seen : List ProbeSample) (t : Tally) : Prop where
  bounds : ∀ s ∈ seen, t.min ≤ s.rtt ∧ s.rtt ≤ t.max
  least : ∃ s ∈ seen, s.rtt = t.min
  most : ∃ s ∈ seen, s.rtt = t.max
  last : ∃ s ∈ seen, s.rtt = t.last
  sum : t.sum = Duration.wrap (seen.map (·.rtt)).sum
  jitter : (∀ s ∈ seen, |s.rtt| < 2 ^ 62) → ∃ total, t.jitterSum = Duration.wrap total ∧
    0 ≤ total ∧ total ≤ (seen.length - 1) * (t.max - t.min)
  oneWay : 0 < t.oneWayN ↔ ∃ s ∈ seen, s.oneWay ≠ none

theorem step_eq {t : Tally} (hs : |s.rtt| < 2 ^ 62) (hlast : |t.last| < 2 ^ 62) :
    t.step s = |s.rtt - t.last| := by
  have hshort : |s.rtt - t.last| < 2 ^ 63 := by
    have := abs_sub s.rtt t.last
    linarith
  unfold step
  simp only [Duration.wrap_of_lt hshort]
  split
  · rename_i hneg
    rw [Duration.wrap_of_lt (by rwa [abs_neg]), abs_of_neg hneg]
  · exact (abs_of_nonneg (not_lt.1 ‹_›)).symm

theorem oneWay_times (t : Tally) (s : ProbeSample) : (t.oneWay s).sum = t.sum ∧
    (t.oneWay s).min = t.min ∧ (t.oneWay s).max = t.max ∧
    (t.oneWay s).jitterSum = t.jitterSum ∧ (t.oneWay s).last = t.last := by
  unfold Tally.oneWay
  split <;> exact ⟨rfl, rfl, rfl, rfl, rfl⟩

theorem oneWay_count (t : Tally) (s : ProbeSample) :
    0 < (t.oneWay s).oneWayN ↔ 0 < t.oneWayN ∨ s.oneWay ≠ none := by
  unfold Tally.oneWay
  split
  · rename_i hnone
    simp only [hnone, ne_eq, not_true, or_false]
  · rename_i hsome
    simp only [hsome, Nat.zero_lt_succ, ne_eq, reduceCtorEq, not_false_eq_true, or_true]

theorem Of.first (s : ProbeSample) : (Tally.first s).Of [s] := by
  obtain ⟨hsum, hmin, hmax, hjitter, hlast⟩ :=
    oneWay_times ⟨Duration.wrap s.rtt, s.rtt, s.rtt, 0, s.rtt, 0, 0, 0⟩ s
  have hcount := oneWay_count ⟨Duration.wrap s.rtt, s.rtt, s.rtt, 0, s.rtt, 0, 0, 0⟩ s
  refine ⟨fun s' hs' => ?_, ⟨s, List.mem_cons_self, hmin.symm⟩, ⟨s, List.mem_cons_self, hmax.symm⟩,
    ⟨s, List.mem_cons_self, hlast.symm⟩, ?_, ?_, ?_⟩
  · obtain rfl := List.mem_singleton.1 hs'
    exact ⟨hmin.le, hmax.ge⟩
  · rw [List.map_singleton, List.sum_singleton]
    exact hsum
  · intro _
    unfold Tally.first
    rw [hjitter, hmax, hmin]
    exact ⟨0, rfl, le_rfl, by simp⟩
  · simpa [Tally.first] using hcount

theorem time_least (t : Tally) (s : ProbeSample) :
    (t.time s).min ≤ t.min ∧ (t.time s).min ≤ s.rtt := by
  simp only [Tally.time]
  split <;> omega

theorem time_most (t : Tally) (s : ProbeSample) :
    t.max ≤ (t.time s).max ∧ s.rtt ≤ (t.time s).max := by
  simp only [Tally.time]
  split <;> omega

theorem Of.jitter_add {t : Tally} (h : t.Of seen) (hne : seen ≠ []) (s : ProbeSample)
    (hshort : ∀ s' ∈ seen ++ [s], |s'.rtt| < 2 ^ 62) :
    ∃ total, (t.add s).jitterSum = Duration.wrap total ∧ 0 ≤ total ∧
      total ≤ ((seen ++ [s]).length - 1) * ((t.add s).max - (t.add s).min) := by
  obtain ⟨-, hmin, hmax, hjitter, -⟩ := oneWay_times (t.time s) s
  have hlower := time_least t s
  have hupper := time_most t s
  unfold Tally.add
  obtain ⟨hseen, hthis⟩ := List.forall_mem_append.1 hshort
  obtain ⟨total, htotal, hnonneg, hbound⟩ := h.jitter hseen
  obtain ⟨prev, hprev, hprevlast⟩ := h.last
  obtain ⟨hle, hge⟩ := h.bounds prev hprev
  rw [hprevlast] at hle hge
  -- the step to this round trip is no longer than the spread
  have hstep : |s.rtt - t.last| ≤ (t.time s).max - (t.time s).min := by
    rw [abs_le]
    constructor <;> omega
  have hspread : t.max - t.min ≤ (t.time s).max - (t.time s).min := by omega
  have hlength : (1 : Int) ≤ seen.length := by
    have := List.length_pos_iff.2 hne
    omega
  have hgrow := mul_le_mul_of_nonneg_left hspread (sub_nonneg.2 hlength)
  rw [hjitter, hmin, hmax, List.length_append, List.length_singleton]
  refine ⟨total + |s.rtt - t.last|, ?_, add_nonneg hnonneg (abs_nonneg _), ?_⟩
  · rw [← Duration.wrap_add_wrap, ← htotal,
      ← step_eq (hthis s List.mem_cons_self) (hprevlast ▸ hseen prev hprev)]
    rfl
  · push_cast
    linarith

theorem Of.add {t : Tally} (h : t.Of seen) (hne : seen ≠ []) (s : ProbeSample) :
    (t.add s).Of (seen ++ [s]) := by
  obtain ⟨hsum, hmin, hmax, -, hlast⟩ := oneWay_times (t.time s) s
  have hlower := time_least t s
  have hupper := time_most t s
  have hold {P : ProbeSample → Prop} (hP : ∃ s' ∈ seen, P s') : ∃ s' ∈ seen ++ [s], P s' :=
    hP.imp fun _ hs' => hs'.imp_left (List.mem_append_left _)
  have hself : s ∈ seen ++ [s] := List.mem_append_right _ List.mem_cons_self
  unfold Tally.add
  refine ⟨fun s' hs' => ?_, ?_, ?_, ⟨s, hself, hlast.symm⟩, ?_, ?_, ?_⟩
  · rw [hmin, hmax]
    rcases List.mem_append.1 hs' with hs' | hs'
    · obtain ⟨hle, hge⟩ := h.bounds s' hs'
      exact ⟨hlower.1.trans hle, hge.trans hupper.1⟩
    · obtain rfl := List.mem_singleton.1 hs'
      exact ⟨hlower.2, hupper.2⟩
  · rw [hmin]
    simp only [Tally.time]
    split
    · exact ⟨s, hself, rfl⟩
    · exact hold h.least
  · rw [hmax]
    simp only [Tally.time]
    split
    · exact ⟨s, hself, rfl⟩
    · exact hold h.most
  · rw [hsum, List.map_append, List.sum_append, List.map_singleton, List.sum_singleton,
      ← Duration.wrap_add_wrap, ← h.sum]
    rfl
  · exact h.jitter_add hne s
  · rw [oneWay_count]
    change 0 < t.oneWayN ∨ _ ↔ _
    rw [h.oneWay]
    constructor
    · rintro (hseen | hthis)
      · exact hold hseen
      · exact ⟨s, hself, hthis⟩
    · rintro ⟨s', hs', hsome⟩
      rcases List.mem_append.1 hs' with hs' | hs'
      · exact .inl ⟨s', hs', hsome⟩
      · exact .inr (List.mem_singleton.1 hs' ▸ hsome)

theorem Of.foldl {t : Tally} (h : t.Of seen) (hne : seen ≠ []) (rest : List ProbeSample) :
    (rest.foldl Tally.add t).Of (seen ++ rest) := by
  induction rest generalizing t seen with
  | nil => rwa [List.append_nil]
  | cons s rest ih =>
    have hmore := ih (h.add hne s) (List.append_ne_nil_of_left_ne_nil hne _)
    rwa [List.append_assoc, List.singleton_append] at hmore

end Tally

theorem tdiv_bounds {sum n lo hi : Int} (hn : 0 < n) (hlo : n * lo ≤ sum) (hhi : sum ≤ n * hi) :
    lo ≤ sum.tdiv n ∧ sum.tdiv n ≤ hi := by
  have hdiv := Int.mul_tdiv_add_tmod sum n
  have hlt : sum.tmod n < n := Int.tmod_lt_of_pos sum hn
  have hgt : -n < sum.tmod n := by
    have hneg := Int.tmod_lt_of_pos (-sum) hn
    rw [Int.neg_tmod] at hneg
    omega
  constructor
  · refine Int.lt_add_one_iff.1 (lt_of_mul_lt_mul_left ?_ hn.le)
    rw [mul_add, mul_one]
    omega
  · refine Int.lt_add_one_iff.1 (lt_of_mul_lt_mul_left ?_ hn.le)
    rw [mul_add, mul_one]
    omega

theorem sum_bounds {samples : List ProbeSample} {lo hi : Int}
    (h : ∀ s ∈ samples, lo ≤ s.rtt ∧ s.rtt ≤ hi) :
    samples.length * lo ≤ (samples.map (·.rtt)).sum ∧
      (samples.map (·.rtt)).sum ≤ samples.length * hi := by
  induction samples with
  | nil => simp
  | cons s samples ih =>
    obtain ⟨hs, hrest⟩ := List.forall_mem_cons.1 h
    obtain ⟨hlo, hhi⟩ := ih hrest
    rw [List.map_cons, List.sum_cons, List.length_cons]
    push_cast
    constructor <;> linarith [hs.1, hs.2]

/-- The round trips of a burst are too short for their sums to wrap. -/
def Short (samples : List ProbeSample) : Prop :=
  ∀ s ∈ samples, 2 * samples.length * |s.rtt| < 2 ^ 63

theorem Short.lt {samples : List ProbeSample} (h : Short samples) (hs : s ∈ samples) :
    |s.rtt| < 2 ^ 62 := by
  have hlength : (1 : Int) ≤ samples.length := by
    have := List.length_pos_of_mem hs
    omega
  have hscale := mul_le_mul_of_nonneg_right hlength (abs_nonneg s.rtt)
  have := h s hs
  linarith

theorem Short.wrap_eq {samples : List ProbeSample} {a b : ProbeSample} {x : Int}
    (h : Short samples) (ha : a ∈ samples) (hb : b ∈ samples)
    (hx : |x| ≤ samples.length * |a.rtt| + samples.length * |b.rtt|) : Duration.wrap x = x := by
  have := h a ha
  have := h b hb
  exact Duration.wrap_of_lt (by linarith)

/-- The summary of a burst: the extremes are round trips of it, and unless the sums wrap the average
lies between them and the jitter is at most their distance. -/
structure Sums (samples : List ProbeSample) (r : ProbeResult) : Prop where
  count : r.Samples = samples.length
  bounds : ∀ s ∈ samples, r.RTTMin ≤ s.rtt ∧ s.rtt ≤ r.RTTMax
  least : ∃ s ∈ samples, s.rtt = r.RTTMin
  most : ∃ s ∈ samples, s.rtt = r.RTTMax
  avg : Short samples → r.RTTMin ≤ r.RTTAvg ∧ r.RTTAvg ≤ r.RTTMax
  jitter : Short samples → 0 ≤ r.Jitter ∧ r.Jitter ≤ r.RTTMax - r.RTTMin
  oneWay : r.OneWay ≠ none ↔ ∃ s ∈ samples, s.oneWay ≠ none

theorem sums_summarize {samples : List ProbeSample} (hne : samples ≠ []) :
    Sums samples (Summarize samples) := by
  cases samples with
  | nil => exact absurd rfl hne
  | cons s rest =>
    have h := (Tally.Of.first s).foldl (by simp) rest
    rw [List.singleton_append] at h
    have hlength : (0 : Int) < (s :: rest).length := by simp
    obtain ⟨lo, hlo, hmin⟩ := h.least
    obtain ⟨hi, hhi, hmax⟩ := h.most
    unfold Summarize
    refine ⟨rfl, h.bounds, h.least, h.most, fun hshort => ?_, fun hshort => ?_, ?_⟩
    · obtain ⟨hlower, hupper⟩ := sum_bounds h.bounds
      have hexact := h.sum.trans (hshort.wrap_eq hlo hhi ?_)
      · exact tdiv_bounds hlength (hexact ▸ hlower) (hexact ▸ hupper)
      · rw [← hmin, ← hmax] at *
        have hl := mul_le_mul_of_nonneg_left (neg_abs_le lo.rtt) hlength.le
        have hu := mul_le_mul_of_nonneg_left (le_abs_self hi.rtt) hlength.le
        have hl' := mul_nonneg hlength.le (abs_nonneg lo.rtt)
        have hu' := mul_nonneg hlength.le (abs_nonneg hi.rtt)
        rw [abs_le]
        constructor <;> linarith
    · have hspread := (h.bounds s List.mem_cons_self).1.trans (h.bounds s List.mem_cons_self).2
      obtain ⟨total, htotal, hnonneg, hbound⟩ := h.jitter fun s hs => hshort.lt hs
      have hexact := htotal.trans (hshort.wrap_eq hlo hhi ?_)
      · simp only
        split
        · rename_i hmore
          refine tdiv_bounds (sub_pos.2 hmore) ?_ (hexact ▸ hbound)
          rw [mul_zero]
          exact hexact ▸ hnonneg
        · exact ⟨le_rfl, sub_nonneg.2 hspread⟩
      · rw [abs_of_nonneg hnonneg]
        have hfew : ((s :: rest).length - 1 : Int) ≤ (s :: rest).length := by omega
        have hgrow := mul_le_mul_of_nonneg_right hfew (sub_nonneg.2 hspread)
        rw [← hmin, ← hmax] at *
        have hl := mul_le_mul_of_nonneg_left (neg_abs_le lo.rtt) hlength.le
        have hu := mul_le_mul_of_nonneg_left (le_abs_self hi.rtt) hlength.le
        linarith
    · simp only
      rw [← h.oneWay]
      split
      · rename_i hsome
        simp only [hsome, ne_eq, reduceCtorEq, not_false_eq_true]
      · rename_i hnone
        simp only [hnone, ne_eq, not_true]

/-- Three pongs, one without its time of receipt. -/
theorem sums_three : Short [⟨40, some (15, 25)⟩, ⟨30, none⟩, ⟨50, some (20, 30)⟩] ∧
    Sums [⟨40, some (15, 25)⟩, ⟨30, none⟩, ⟨50, some (20, 30)⟩]
      ⟨3, 40, 30, 50, 15, some (17, 27)⟩ :=
  ⟨by simp [Short], sums_summarize (by decide)⟩

/-- Two pongs with forged times: the sum wraps and the average is no average. -/
example : Summarize [sampleOf ⟨2, -2 ^ 63, 0⟩ 1, sampleOf ⟨3, -2 ^ 63, 0⟩ 1] =
    ⟨2, -1, 2 ^ 63 - 1, 2 ^ 63 - 1, 0, none⟩ := by
  decide +kernel

end ProxyForward

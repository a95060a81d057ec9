import Mathlib.Algebra.Order.Field.Rat
import Mathlib.Tactic.Linarith
import ProxyForward.SessionLog

namespace ProxyForward.SessionLog
set_option autoImplicit true
open Runs

/-- A minute's row as it is queued, with the session's columns. -/
structure Flush where
  t : Int
  bucket : RttStats
  all : RttStats
  deriving DecidableEq, Repr

/-- The writes that put RTT samples into the database: the session's row, and each minute's. -/
def Act.key : Act → Option (Option Flush)
  | .opened _ => some none
  | .rtt t bucket all => some (some ⟨t, bucket, all⟩)
  | .player _ _ | .closed _ _ _ | .traffic _ _ _ => none

/-- These writes of a connection, in turn. -/
def script (c : Nat) (ops : List Op) : List (Option Flush) :=
  (ops.filter fun op => op.conn = c).filterMap fun op => op.act.key

def flushes (c : Nat) (ops : List Op) : List Flush := (script c ops).filterMap id

/-- The statistics of a list of samples, in exact arithmetic. -/
structure RttStats.Summarizes (stats : RttStats) (values : List Rat) : Prop where
  n : stats.n = values.length
  avg : stats.avg = values.sum / values.length
  mn : stats.mn ∈ values ∧ ∀ v ∈ values, stats.mn ≤ v
  mx : stats.mx ∈ values ∧ ∀ v ∈ values, v ≤ stats.mx

namespace Conn

def values (k : Conn) : List Rat := k.samples.map fun x => x.2.2

/-- The samples arrived after the open and before the close, at times that do not decrease. -/
def Orderly (k : Conn) : Prop :=
  (∀ x ∈ k.samples, x.1 = .opened) ∧ (k.samples.map fun x => x.2.1).Pairwise (· ≤ ·)

def minute (t : Int) : Int := t - t.tmod 60000

/-- Samples in the open bucket. -/
def pending (k : Conn) : Nat :=
  match k.stage with
  | .stored | .opened => k.ls.bucketN
  | .closing | .closed => 0

end Conn

/-- The running aggregate is that of the samples. -/
structure LiveSession.All (ls : LiveSession) (values : List Rat) : Prop where
  n : ls.allN = values.length
  sum : ls.allSum = values.sum
  mn : values ≠ [] → ls.allMin ∈ values ∧ ∀ v ∈ values, ls.allMin ≤ v
  mx : values ≠ [] → ls.allMax ∈ values ∧ ∀ v ∈ values, v ≤ ls.allMax

theorem LiveSession.All.summarizes (h : LiveSession.All ls values) (hsome : values ≠ []) :
    (⟨ls.allSum / ls.allN, ls.allMin, ls.allMax, ls.allN⟩ : RttStats).Summarizes values where
  n := h.n
  avg := by rw [h.sum, h.n]
  mn := h.mn hsome
  mx := h.mx hsome

theorem first_append {values : List Rat} {r : Rat → Rat → Prop} [Std.Refl r] [IsTrans Rat r]
    {c : Prop} [Decidable c] (hc : if c then r v m' else r m' v)
    (hold : values ≠ [] → m ∈ values ∧ ∀ v ∈ values, r m v)
    (hm : m' = if values = [] then v else m) :
    (if c then v else m') ∈ values ++ [v] ∧ ∀ x ∈ values ++ [v], r (if c then v else m') x := by
  by_cases hnil : values = []
  · subst hnil hm
    rw [ite_self, List.nil_append]
    refine ⟨List.mem_singleton.mpr rfl, ?_⟩
    intro x hx
    rw [List.mem_singleton.mp hx]
    exact refl _
  · rw [if_neg hnil] at hm
    subst hm
    obtain ⟨hin, hle⟩ := hold hnil
    by_cases hchange : c
    · rw [if_pos hchange] at hc ⊢
      refine ⟨List.mem_append_right _ (List.mem_singleton.mpr rfl), ?_⟩
      intro x hx
      rcases List.mem_append.mp hx with hx | hx
      · exact Trans.trans hc (hle x hx)
      · rw [List.mem_singleton.mp hx]
        exact refl v
    · rw [if_neg hchange] at hc ⊢
      refine ⟨List.mem_append_left _ hin, ?_⟩
      intro x hx
      rcases List.mem_append.mp hx with hx | hx
      · exact hle x hx
      · rw [List.mem_singleton.mp hx]
        exact hc

theorem LiveSession.All.add (h : LiveSession.All ls values) (minute : Int) (v : Rat) :
    LiveSession.All (((ls.bucketAt minute v).addBucket v).addAll v) (values ++ [v]) := by
  have hempty : ls.allN = 0 ↔ values = [] := by rw [h.n, List.length_eq_zero_iff]
  have hsame : ∀ ls' : LiveSession, ls'.allN = ls.allN → ls'.allSum = ls.allSum →
      ls'.allMin = ls.allMin → ls'.allMax = ls.allMax →
        LiveSession.All (ls'.addAll v) (values ++ [v]) := by
    intro ls' hn hsum hmin hmax
    refine ⟨?_, ?_, fun _ => ?_, fun _ => ?_⟩
    · simp only [addAll, hn, h.n, List.length_append, List.length_singleton]
    · simp only [addAll, hsum, h.sum, List.sum_append, List.sum_singleton]
    · have hleast : ∀ m : Rat, if v < m then v ≤ m else m ≤ v := by
        intro m
        split
        next hlt => exact le_of_lt hlt
        next hge => exact not_lt.mp hge
      exact first_append (hleast _) h.mn (by simp only [hn, hmin, hempty])
    · have hmost : ∀ m : Rat, if m < v then m ≤ v else v ≤ m := by
        intro m
        split
        next hlt => exact le_of_lt hlt
        next hge => exact not_lt.mp hge
      exact first_append (r := (· ≥ ·)) (hmost _) h.mx (by simp only [hn, hmax, hempty])
  unfold bucketAt addBucket
  split <;> exact hsame _ rfl rfl rfl rfl

namespace Conn

/-- What the flushes queued and the live session have counted of the samples. -/
structure Tally (k : Conn) (fs : List Flush) : Prop where
  all : LiveSession.All k.ls k.values
  total : (fs.map fun f => f.bucket.n).sum + k.pending = k.samples.length
  bucket : k.samples ≠ [] → 0 < k.ls.bucketN
  early : k.stage = .stored → k.samples = []
  empty : k.samples = [] → fs = []
  bucketMinute : k.samples ≠ [] → ∃ x ∈ k.samples, minute x.2.1 = k.ls.bucketMinute
  rising : (fs.map Flush.t).Pairwise (· < ·)
  below : k.pending ≠ 0 → ∀ f ∈ fs, f.t < k.ls.bucketMinute
  last : k.pending = 0 → k.samples ≠ [] →
    ∃ f, fs.getLast? = some f ∧ f.all.Summarizes k.values

theorem minute_mono (h : t ≤ t') : minute t ≤ minute t' := by
  have hquot := Int.tdiv_le_tdiv (c := 60000) (by decide) h
  rw [minute, minute, Int.tmod_def, Int.tmod_def]
  omega

def flushOf (ls : LiveSession) : Flush :=
  ⟨ls.bucketMinute, ⟨ls.bucketSum / ls.bucketN, ls.bucketMin, ls.bucketMax, ls.bucketN⟩,
    ⟨ls.allSum / ls.allN, ls.allMin, ls.allMax, ls.allN⟩⟩

theorem rising_append (h : (fs.map Flush.t).Pairwise (· < ·)) (hf : ∀ f' ∈ fs, f'.t < f.t) :
    ((fs ++ [f]).map Flush.t).Pairwise (· < ·) := by
  rw [List.map_append, List.map_singleton]
  refine List.pairwise_append.mpr ⟨h, List.pairwise_singleton _ _, ?_⟩
  intro t ht t' ht'
  obtain ⟨f', hf', rfl⟩ := List.mem_map.mp ht
  rw [List.mem_singleton.mp ht']
  exact hf f' hf'

theorem Tally.close (h : Tally k fs) (hstage : k.stage = .opened) (hsome : 0 < k.ls.bucketN) :
    Tally { k with stage := .closing } (fs ++ [flushOf k.ls]) := by
  have hpending : k.pending = k.ls.bucketN := by simp only [pending, hstage]
  have htotal := h.total
  rw [hpending] at htotal
  have hne : k.samples ≠ [] := by
    intro hnil
    have hfs := h.empty hnil
    rw [hfs, hnil, List.map_nil, List.sum_nil, List.length_nil] at htotal
    omega
  have hbelow : ∀ f ∈ fs, f.t < (flushOf k.ls).t := h.below (by rw [hpending]; exact hsome.ne')
  refine ⟨h.all, ?_, h.bucket, fun hst => (nomatch hst), fun hnil => absurd hnil hne,
    h.bucketMinute, ?_, ?_, ?_⟩
  · simp only [List.map_append, List.map_singleton, List.sum_append, List.sum_singleton, pending,
      flushOf]
    exact htotal
  · exact rising_append h.rising hbelow
  · exact fun hpend => absurd rfl hpend
  · intro _ _
    refine ⟨flushOf k.ls, List.getLast?_concat .., h.all.summarizes ?_⟩
    intro hnil
    exact hne (List.map_eq_nil_iff.mp hnil)

theorem Tally.shut (h : Tally k fs) (hstage : k.stage = .opened) (hnone : ¬0 < k.ls.bucketN) :
    Tally { k with stage := .closing } fs := by
  have hnil : k.samples = [] := by
    by_contra hne
    exact hnone (h.bucket hne)
  have hfs := h.empty hnil
  have htotal := h.total
  simp only [pending, hstage] at htotal
  refine ⟨h.all, ?_, h.bucket, fun hst => (nomatch hst), h.empty, h.bucketMinute, h.rising,
    fun hpend => absurd rfl hpend, fun _ hne => absurd hnil hne⟩
  simp only [pending]
  omega

theorem bucketMinute_recordRTT (ls : LiveSession) (now : Int) (v : Rat) :
    (ls.recordRTT now v).1.bucketMinute = minute now := by
  simp only [LiveSession.recordRTT, LiveSession.addAll, LiveSession.addBucket, LiveSession.bucketAt]
  split
  · rfl
  · rename_i hsame
    exact not_not.mp hsame

theorem bucketN_recordRTT (ls : LiveSession) (now : Int) (v : Rat) :
    (ls.recordRTT now v).1.bucketN =
      (if ls.bucketMinute ≠ minute now then 0 else ls.bucketN) + 1 := by
  have hadd : (ls.recordRTT now v).1.bucketN = (ls.bucketAt (minute now) v).bucketN + 1 := rfl
  rw [hadd, LiveSession.bucketAt]
  by_cases hturn : ls.bucketMinute ≠ minute now
  · rw [if_pos hturn, if_pos hturn]
  · rw [if_neg hturn, if_neg hturn]

/-- The flush of a full minute. -/
def rolled (ls : LiveSession) (now : Int) : List Flush :=
  if ls.bucketMinute ≠ minute now ∧ 0 < ls.bucketN then [flushOf ls] else []

theorem rolled_total (ls : LiveSession) (now : Int) (v : Rat) :
    ((rolled ls now).map fun f => f.bucket.n).sum + (ls.recordRTT now v).1.bucketN =
      ls.bucketN + 1 := by
  rw [bucketN_recordRTT]
  unfold rolled
  by_cases hturn : ls.bucketMinute ≠ minute now
  · by_cases hsome : 0 < ls.bucketN
    · rw [if_pos ⟨hturn, hsome⟩, if_pos hturn, List.map_singleton, List.sum_singleton]
      rfl
    · rw [if_neg (fun h => hsome h.2), if_pos hturn, List.map_nil, List.sum_nil]
      omega
  · rw [if_neg (fun h => hturn h.1), if_neg hturn, List.map_nil, List.sum_nil]
    omega

theorem Tally.sample (h : Tally k fs) (hstage : k.stage = .opened)
    (hlate : ∀ x ∈ k.samples, x.2.1 ≤ now) (v : Rat) :
    Tally { k with
      ls := (k.ls.recordRTT now v).1
      samples := k.samples ++ [(k.stage, now, v)] } (fs ++ rolled k.ls now) := by
  have htotal := h.total
  have hpending : k.pending = k.ls.bucketN := by simp only [pending, hstage]
  rw [hpending] at htotal
  have hnew := rolled_total k.ls now v
  have hsome : k.samples ++ [(k.stage, now, v)] ≠ [] := List.append_ne_nil_of_right_ne_nil _ nofun
  -- The open bucket's minute is that of an earlier sample, so it is not after this one's.
  have hminute : k.samples ≠ [] → k.ls.bucketMinute ≤ minute now := by
    intro hne
    obtain ⟨x, hx, heq⟩ := h.bucketMinute hne
    rw [← heq]
    exact minute_mono (hlate x hx)
  have hold : ∀ f ∈ fs, f.t < k.ls.bucketMinute ∧ f.t < minute now := by
    intro f hf
    have hne : k.samples ≠ [] := by
      intro hnil
      rw [h.empty hnil] at hf
      exact absurd hf List.not_mem_nil
    have hbelow := h.below (by rw [hpending]; exact (h.bucket hne).ne') f hf
    exact ⟨hbelow, lt_of_lt_of_le hbelow (hminute hne)⟩
  have hflush : ∀ f ∈ rolled k.ls now, f = flushOf k.ls ∧ k.ls.bucketMinute < minute now := by
    intro f hf
    unfold rolled at hf
    split at hf
    next hturn =>
      refine ⟨List.mem_singleton.mp hf, lt_of_le_of_ne (hminute ?_) hturn.1⟩
      intro hnil
      rw [h.empty hnil, hnil, List.map_nil, List.sum_nil, List.length_nil] at htotal
      omega
    next => exact absurd hf List.not_mem_nil
  refine ⟨?_, ?_, ?_, ?_, fun hnil => absurd hnil hsome, ?_, ?_, ?_, ?_⟩
  · have hvalues : values { k with
        ls := (k.ls.recordRTT now v).1
        samples := k.samples ++ [(k.stage, now, v)] } = k.values ++ [v] := by
      simp only [values, List.map_append, List.map_singleton]
    rw [hvalues]
    exact h.all.add _ v
  · simp only [pending, hstage, List.map_append, List.sum_append, List.length_append,
      List.length_singleton]
    omega
  · intro _
    rw [bucketN_recordRTT]
    exact Nat.succ_pos _
  · intro hstored
    rw [hstage] at hstored
    cases hstored
  · intro _
    refine ⟨(k.stage, now, v), List.mem_append_right _ (List.mem_singleton.mpr rfl), ?_⟩
    exact (bucketMinute_recordRTT ..).symm
  · rw [List.map_append]
    refine List.pairwise_append.mpr ⟨h.rising, ?_, ?_⟩
    · unfold rolled
      split
      · exact List.pairwise_singleton _ _
      · exact List.Pairwise.nil
    · intro t ht t' ht'
      obtain ⟨f, hf, rfl⟩ := List.mem_map.mp ht
      obtain ⟨f', hf', rfl⟩ := List.mem_map.mp ht'
      rw [(hflush f' hf').1]
      exact (hold f hf).1
  · intro _ f hf
    rw [bucketMinute_recordRTT]
    rcases List.mem_append.mp hf with hf | hf
    · exact (hold f hf).2
    · rw [(hflush f hf).1]
      exact (hflush f hf).2
  · intro hpend
    simp only [pending, hstage, bucketN_recordRTT] at hpend
    exact absurd hpend (Nat.succ_ne_zero _)

/-- The writes that an orderly connection has queued: its row, then a flush of each minute. -/
def keys (k : Conn) (fs : List Flush) : List (Option Flush) :=
  (if k.stage = .stored then [] else [none]) ++ fs.map some

theorem keys_recordRTT (ls : LiveSession) (now : Int) (v : Rat) :
    (ls.recordRTT now v).2.filterMap Act.key = (rolled ls now).map some := by
  have hacts : (ls.recordRTT now v).2 =
      if ls.bucketMinute ≠ minute now ∧ 0 < ls.bucketN then [ls.flushRTTBucket] else [] := rfl
  rw [hacts, rolled]
  split <;> rfl

theorem keys_sampleLive (ls : LiveSession) (now bytesIn bytesOut : Int) :
    (ls.sampleLive now bytesIn bytesOut).2.filterMap Act.key = [] := by
  have hacts : ∃ din dout : Int, (ls.sampleLive now bytesIn bytesOut).2 =
      if din = 0 ∧ dout = 0 then [] else [.traffic now din dout] := ⟨_, _, rfl⟩
  obtain ⟨din, dout, hacts⟩ := hacts
  rw [hacts]
  split <;> rfl

theorem Tally.opened (h : Tally k fs) (hstage : k.stage = .stored) :
    Tally { k with stage := .opened } fs := by
  have hnil := h.early hstage
  have htotal := h.total
  have hbelow := h.below
  simp only [pending, hstage] at htotal hbelow
  refine ⟨h.all, htotal, h.bucket, fun hst => (nomatch hst), h.empty, h.bucketMinute, h.rising,
    hbelow, fun _ hne => absurd hnil hne⟩

theorem Tally.closed (h : Tally k fs) (hstage : k.stage = .closing) :
    Tally { k with stage := .closed } fs := by
  have htotal := h.total
  have hlast := h.last
  simp only [pending, hstage] at htotal hlast
  exact ⟨h.all, htotal, h.bucket, fun hst => (nomatch hst), h.empty, h.bucketMinute, h.rising,
    fun hpend => absurd rfl hpend, fun _ => hlast trivial⟩

theorem Orderly.before {k k' : Conn} (h : k'.Orderly) (hgrow : k.samples <+: k'.samples) :
    k.Orderly := by
  obtain ⟨more, hmore⟩ := hgrow
  unfold Orderly at h
  rw [← hmore, List.map_append] at h
  exact ⟨fun x hx => h.1 x (List.mem_append_left _ hx), (List.pairwise_append.mp h.2).1⟩

theorem Tally.step (h : Tally k fs) (hstep : Conn.step k e = some (k', acts))
    (horder : k'.Orderly) :
    ∃ fs', k.keys fs ++ acts.filterMap Act.key = k'.keys fs' ∧ Tally k' fs' := by
  cases e with
  | opened startedMs =>
    simp only [Conn.step] at hstep
    split at hstep
    next hstage =>
      cases hstep
      refine ⟨fs, ?_, h.opened hstage⟩
      rw [h.empty (h.early hstage), keys, keys, if_pos hstage]
      rfl
    next => cases hstep
  | player name protocol =>
    cases hstep
    exact ⟨fs, List.append_nil _, h⟩
  | rtt now rttMs =>
    simp only [Conn.step] at hstep
    split at hstep
    · cases hstep
      exact ⟨fs, List.append_nil _, h⟩
    · cases hstep
      have hstage : k.stage = .opened :=
        horder.1 (k.stage, now, rttMs) (List.mem_append_right _ (List.mem_singleton.mpr rfl))
      have hlate : ∀ x ∈ k.samples, x.2.1 ≤ now := by
        intro x hx
        have hpairs := horder.2
        rw [List.map_append, List.pairwise_append] at hpairs
        exact hpairs.2.2 _ (List.mem_map_of_mem hx) _ (List.mem_singleton.mpr rfl)
      refine ⟨fs ++ rolled k.ls now, ?_, h.sample hstage hlate rttMs⟩
      rw [keys_recordRTT, keys, keys, List.map_append, List.append_assoc]
  | traffic now bytesIn bytesOut =>
    cases hstep
    refine ⟨fs, ?_, ⟨⟨h.all.n, h.all.sum, h.all.mn, h.all.mx⟩, h.total, h.bucket, h.early, h.empty,
      h.bucketMinute, h.rising, h.below, h.last⟩⟩
    rw [keys_sampleLive, List.append_nil]
    rfl
  | close =>
    simp only [Conn.step] at hstep
    split at hstep
    next hstage =>
      cases hstep
      by_cases hsome : 0 < k.ls.bucketN
      · refine ⟨fs ++ [flushOf k.ls], ?_, h.close hstage hsome⟩
        rw [if_pos hsome, keys, keys, hstage, List.map_append, ← List.append_assoc]
        rfl
      · refine ⟨fs, ?_, h.shut hstage hsome⟩
        rw [if_neg hsome, keys, keys, hstage]
        exact List.append_nil _
    next => cases hstep
  | closed endedMs bytesIn bytesOut =>
    simp only [Conn.step] at hstep
    split at hstep
    next hstage =>
      cases hstep
      refine ⟨fs, ?_, h.closed hstage⟩
      rw [keys, keys, hstage]
      exact List.append_nil _
    next => cases hstep

theorem tally_fresh (i : Nat) : Tally ⟨.fresh i, .stored, []⟩ [] where
  all := ⟨rfl, rfl, fun hne => absurd rfl hne, fun hne => absurd rfl hne⟩
  total := rfl
  bucket hne := absurd rfl hne
  early _ := rfl
  empty _ := rfl
  bucketMinute hne := absurd rfl hne
  rising := List.Pairwise.nil
  below hpend := absurd rfl hpend
  last _ hne := absurd rfl hne

end Conn

/-- The operations of a connection. -/
def ofConn (c : Nat) (ops : List Op) : List Op := ops.filter fun op => op.conn = c

theorem ofConn_append (c : Nat) (ops more : List Op) :
    ofConn c (ops ++ more) = ofConn c ops ++ ofConn c more := List.filter_append ..

theorem script_append (c : Nat) (ops more : List Op) :
    script c (ops ++ more) = script c ops ++ script c more := by
  simp only [script, List.filter_append, List.filterMap_append]

theorem flushes_append (c : Nat) (ops more : List Op) :
    flushes c (ops ++ more) = flushes c ops ++ flushes c more := by
  simp only [flushes, script_append, List.filterMap_append]

theorem ofConn_own (c : Nat) (i : Nat) (acts : List Act) :
    ofConn c (acts.map fun act => ⟨c, i, act⟩) = acts.map fun act => ⟨c, i, act⟩ := by
  refine List.filter_eq_self.mpr ?_
  intro op hop
  obtain ⟨act, -, rfl⟩ := List.mem_map.mp hop
  exact decide_eq_true rfl

theorem ofConn_other (h : ∀ op ∈ ops, op.conn ≠ c) : ofConn c ops = [] := by
  refine List.filter_eq_nil_iff.mpr ?_
  intro op hop heq
  exact h op hop (of_decide_eq_true heq)

theorem script_own (c : Nat) (i : Nat) (acts : List Act) :
    script c (acts.map fun act => ⟨c, i, act⟩) = acts.filterMap Act.key := by
  have hown := ofConn_own c i acts
  unfold ofConn at hown
  rw [script, hown, List.filterMap_map]
  rfl

theorem script_other (h : ∀ op ∈ ops, op.conn ≠ c) : script c ops = [] := by
  have hnil := ofConn_other h
  unfold ofConn at hnil
  rw [script, hnil, List.filterMap_nil]

theorem flushes_keys (k : Conn) (fs : List Flush) (h : script c ops = k.keys fs) :
    flushes c ops = fs := by
  have hself : (fs.map some).filterMap id = fs := by
    rw [List.filterMap_map]
    exact List.filterMap_some
  rw [flushes, h, Conn.keys, List.filterMap_append, hself]
  split <;> rfl

theorem ofConn_eraseIdx (h : ops[i]? = some op) (hne : op.conn ≠ c) :
    ofConn c (ops.eraseIdx i) = ofConn c ops := by
  induction ops generalizing i with
  | nil => cases h
  | cons first ops ih =>
    cases i with
    | zero =>
      cases h
      exact (List.filter_cons_of_neg (by simpa using hne)).symm
    | succ i =>
      have hrest := ih h
      unfold ofConn at hrest ⊢
      rw [List.eraseIdx_cons_succ, List.filter_cons, List.filter_cons, hrest]

namespace Recorder

/-- None of the connection's operations has been lost. -/
def Intact (s : Recorder) (c : Nat) : Prop := ∀ op ∈ s.lost, op.conn ≠ c

/-- The minutes' rows, in the order they were written. -/
def rttRows (s : Recorder) (c : Nat) : List RttRow := s.db.rtt.filter fun row => row.conn = c

/-- The rows that a connection's flushes leave. -/
def toRows (i c : Nat) (fs : List Flush) : List RttRow := fs.map fun f => ⟨i, c, f.t, f.bucket⟩

structure Told (s : Recorder) : Prop where
  conn : ∀ op ∈ s.sent, op.conn < s.conns.length
  order : ∀ c, s.Intact c → ofConn c s.sent = ofConn c s.landed ++ ofConn c s.queue
  tally : ∀ (c : Nat) (k : Conn), s.conns[c]? = some k → k.Orderly →
    ∃ fs, script c s.sent = k.keys fs ∧ k.Tally fs
  rowID : ∀ row ∈ s.db.sessions, ∃ k, s.conns[row.conn]? = some k ∧ k.ls.id = row.id
  rtt : ∀ row ∈ s.db.rtt, flushes row.conn s.landed ≠ []
  /-- While a connection's session is there, so is what has landed. -/
  told : ∀ (c : Nat) (k : Conn), s.conns[c]? = some k → k.Orderly → s.Intact c →
    ∀ row ∈ s.db.sessions, row.conn = c →
      s.rttRows c = toRows row.id c (flushes c s.landed) ∧
        row.rtt = (flushes c s.landed).getLast?.map Flush.all

theorem told_fresh : fresh.Told where
  conn _ h := absurd h List.not_mem_nil
  order _ _ := rfl
  tally _ _ h := nomatch h
  rowID _ h := absurd h List.not_mem_nil
  rtt _ h := absurd h List.not_mem_nil
  told _ _ h := nomatch h

theorem Told.restart {s t : Recorder} (h : s.Told) (ht : s.step .restart = some t) : t.Told := by
  cases ht
  have hintact : ∀ c, (∀ op ∈ s.lost ++ s.queue, op.conn ≠ c) → s.Intact c :=
    fun c hc op hop => hc op (List.mem_append_left _ hop)
  refine ⟨h.conn, ?_, h.tally, h.rowID, h.rtt, ?_⟩
  · intro c hc
    have hqueue : ofConn c s.queue = [] :=
      ofConn_other fun op hop => hc op (List.mem_append_right _ hop)
    have hold := h.order c (hintact c hc)
    rw [hqueue] at hold
    exact hold
  · exact fun c k hk horder hc => h.told c k hk horder (hintact c hc)

theorem Told.newRecorder {s t : Recorder} (h : s.Told) (ht : s.step .newRecorder = some t) :
    t.Told := by
  simp only [step] at ht
  split at ht <;> cases ht
  exact ⟨h.conn, h.order, h.tally, h.rowID, h.rtt, h.told⟩

theorem Told.prune {s t : Recorder} (h : s.Told) (ht : s.step (.prune cutoff) = some t) :
    t.Told := by
  cases ht
  refine ⟨h.conn, h.order, h.tally, fun row hrow => h.rowID row (s.db.prune_rows hrow),
    fun row hrow => h.rtt row (List.mem_of_mem_filter hrow), ?_⟩
  intro c k hk horder hc row hrow hconn
  obtain ⟨hrtt, hall⟩ := h.told c k hk horder hc row (s.db.prune_rows hrow) hconn
  refine ⟨?_, hall⟩
  rw [← hrtt]
  have hkeep : ∀ sample ∈ s.rttRows c,
      sample.sessionID ∈ (s.db.prune cutoff).sessions.map SessionRow.id := by
    intro sample hsample
    rw [hrtt] at hsample
    obtain ⟨f, -, rfl⟩ := List.mem_map.mp hsample
    exact List.mem_map_of_mem hrow
  have hcomm : rttRows { s with
        db := s.db.prune cutoff
        writing := true
        prunes := s.prunes ++ [(cutoff, s.landed)] } c =
      (s.rttRows c).filter fun sample =>
        sample.sessionID ∈ (s.db.prune cutoff).sessions.map SessionRow.id :=
    List.filter_comm ..
  rw [hcomm]
  exact List.filter_eq_self.mpr fun sample hsample => decide_eq_true (hkeep sample hsample)

theorem Told.register {s t : Recorder} (h : s.Told) (ht : s.step .register = some t) :
    t.Told := by
  simp only [step] at ht
  split at ht <;> cases ht
  refine ⟨?_, h.order, ?_, ?_, h.rtt, ?_⟩
  · intro op hop
    rw [List.length_append]
    exact Nat.lt_of_lt_of_le (h.conn op hop) (Nat.le_add_right ..)
  · intro c k hk horder
    rcases Nat.lt_or_ge c s.conns.length with hlt | hge
    · rw [List.getElem?_append_left hlt] at hk
      exact h.tally c k hk horder
    · have hnone : script c s.sent = [] :=
        script_other fun op hop => Nat.ne_of_lt (Nat.lt_of_lt_of_le (h.conn op hop) hge)
      rw [List.getElem?_append_right hge, List.getElem?_singleton] at hk
      split at hk <;> cases hk
      exact ⟨[], hnone, Conn.tally_fresh _⟩
  · intro row hrow
    obtain ⟨k, hk, hid⟩ := h.rowID row hrow
    obtain ⟨hlt, -⟩ := List.getElem?_eq_some_iff.mp hk
    exact ⟨k, (List.getElem?_append_left hlt).trans hk, hid⟩
  · intro c k hk horder hc row hrow hconn
    obtain ⟨k', hk', -⟩ := h.rowID row hrow
    obtain ⟨hlt, -⟩ := List.getElem?_eq_some_iff.mp hk'
    rw [hconn] at hlt
    rw [List.getElem?_append_left hlt] at hk
    exact h.told c k hk horder hc row hrow hconn

theorem Told.lose {s t : Recorder} (h : s.Told) (ht : s.step (.lose i) = some t) : t.Told := by
  obtain ⟨op, hop, rfl⟩ := lose_eq ht
  have hintact : ∀ c, (∀ op' ∈ s.lost ++ [op], op'.conn ≠ c) → s.Intact c ∧ op.conn ≠ c :=
    fun c hc => ⟨fun op' hop' => hc op' (List.mem_append_left _ hop'),
      hc op (List.mem_append_right _ (List.mem_singleton.mpr rfl))⟩
  refine ⟨h.conn, ?_, h.tally, h.rowID, h.rtt, ?_⟩
  · intro c hc
    obtain ⟨hold, hne⟩ := hintact c hc
    rw [h.order c hold]
    exact congrArg _ (ofConn_eraseIdx hop hne).symm
  · exact fun c k hk horder hc => h.told c k hk horder (hintact c hc).1

theorem Told.call {s t : Recorder} (h : s.Told) (ht : s.step (.call c e) = some t) : t.Told := by
  obtain ⟨k, k', acts, hk, hstep, rfl⟩ := call_eq ht
  have hconns : s.conns[c]? = some k := by
    unfold current at hk
    split at hk
    · exact hk
    · cases hk
  obtain ⟨hlt, -⟩ := List.getElem?_eq_some_iff.mp hconns
  -- A connection after the call was there before, and was orderly if it is now.
  have hbefore : ∀ (c' : Nat) (k₁ : Conn), (s.conns.set c k')[c']? = some k₁ → k₁.Orderly →
      ∃ k₀, s.conns[c']? = some k₀ ∧ k₀.Orderly := by
    intro c' k₁ hk₁ horder
    by_cases heq : c' = c
    · subst heq
      rw [List.getElem?_set_self hlt] at hk₁
      cases hk₁
      exact ⟨k, hconns, horder.before (Conn.step_keeps hstep).2⟩
    · rw [List.getElem?_set_ne (Ne.symm heq)] at hk₁
      exact ⟨k₁, hk₁, horder⟩
  refine ⟨?_, ?_, ?_, ?_, h.rtt, ?_⟩
  · intro op hop
    rw [List.length_set]
    rcases List.mem_append.mp hop with hold | hnew
    · exact h.conn op hold
    · obtain ⟨act, -, rfl⟩ := List.mem_map.mp hnew
      exact hlt
  · intro c' hc'
    have hold := h.order c' hc'
    unfold ofConn at hold ⊢
    rw [List.filter_append, hold, List.filter_append, List.append_assoc]
  · intro c' k₁ hk₁ horder
    rw [script_append]
    by_cases heq : c' = c
    · subst heq
      rw [List.getElem?_set_self hlt] at hk₁
      cases hk₁
      obtain ⟨fs, hscript, htally⟩ :=
        h.tally c' k hconns (horder.before (Conn.step_keeps hstep).2)
      obtain ⟨fs', hkeys, htally'⟩ := htally.step hstep horder
      refine ⟨fs', ?_, htally'⟩
      rw [script_own, hscript, hkeys]
    · rw [List.getElem?_set_ne (Ne.symm heq)] at hk₁
      have hnone : script c' (acts.map fun act => ⟨c, k.ls.id, act⟩) = [] := by
        refine script_other ?_
        intro op hop
        obtain ⟨act, -, rfl⟩ := List.mem_map.mp hop
        exact Ne.symm heq
      rw [hnone, List.append_nil]
      exact h.tally c' k₁ hk₁ horder
  · intro row hrow
    obtain ⟨k₀, hk₀, hid⟩ := h.rowID row hrow
    by_cases heq : row.conn = c
    · rw [heq] at hk₀ ⊢
      obtain rfl := Option.some.inj (hconns.symm.trans hk₀)
      exact ⟨k', List.getElem?_set_self hlt, (Conn.step_keeps hstep).1.trans hid⟩
    · exact ⟨k₀, (List.getElem?_set_ne (Ne.symm heq)).trans hk₀, hid⟩
  · intro c' k₁ hk₁ horder hc' row hrow hconn
    obtain ⟨k₀, hk₀, horder₀⟩ := hbefore c' k₁ hk₁ horder
    exact h.told c' k₀ hk₀ horder₀ hc' row hrow hconn

end Recorder

theorem DB.update_rtt (db : DB) (hid : ∀ row, (f row).id = row.id)
    (hconn : ∀ row, (f row).conn = row.conn) (hrow : row' ∈ (db.update i f).sessions) :
    ∃ row ∈ db.sessions, row'.id = row.id ∧ row'.conn = row.conn ∧
      row'.rtt = if row.id = i then (f row).rtt else row.rtt := by
  obtain ⟨row, hin, rfl⟩ := List.mem_map.mp hrow
  refine ⟨row, hin, ?_⟩
  split
  · exact ⟨hid row, hconn row, rfl⟩
  · exact ⟨rfl, rfl, rfl⟩

theorem DB.update_keeps (db : DB) (hid : ∀ row, (f row).id = row.id)
    (hconn : ∀ row, (f row).conn = row.conn) (hrtt : ∀ row, (f row).rtt = row.rtt)
    (hrow : row' ∈ (db.update i f).sessions) :
    ∃ row ∈ db.sessions, row'.id = row.id ∧ row'.conn = row.conn ∧ row'.rtt = row.rtt := by
  obtain ⟨row, hin, hrowid, hrowconn, hrowrtt⟩ := db.update_rtt hid hconn hrow
  rw [hrtt row, ite_self] at hrowrtt
  exact ⟨row, hin, hrowid, hrowconn, hrowrtt⟩

theorem DB.land_rtt (db : DB) (op : Op) :
    (op.act.key = none ∧ (db.land op).rtt = db.rtt ∧
      ∀ row' ∈ (db.land op).sessions, ∃ row ∈ db.sessions,
        row'.id = row.id ∧ row'.conn = row.conn ∧ row'.rtt = row.rtt) ∨
    (op.act.key = some none ∧ (db.land op).rtt = db.rtt ∧
      ∀ row' ∈ (db.land op).sessions,
        row' ∈ db.sessions ∨ (row'.conn = op.conn ∧ row'.rtt = none)) ∨
    ∃ f, op.act.key = some (some f) ∧
      (db.land op).rtt = (db.rtt.filter fun row => !(row.sessionID = op.id && row.t = f.t)) ++
        [⟨op.id, op.conn, f.t, f.bucket⟩] ∧
      ∀ row' ∈ (db.land op).sessions, ∃ row ∈ db.sessions,
        row'.id = row.id ∧ row'.conn = row.conn ∧
          row'.rtt = if row.id = op.id then some f.all else row.rtt := by
  unfold land
  split
  next startedMs hact =>
    refine Or.inr (Or.inl ⟨by rw [hact]; rfl, ?_⟩)
    split
    · exact ⟨rfl, fun row' hrow' => Or.inl hrow'⟩
    · refine ⟨rfl, ?_⟩
      intro row' hrow'
      rcases List.mem_append.mp hrow' with hold | hnew
      · exact Or.inl hold
      · rw [List.mem_singleton.mp hnew]
        exact Or.inr ⟨rfl, rfl⟩
  next name protocol hact =>
    refine Or.inl ⟨by rw [hact]; rfl, rfl, ?_⟩
    intro row' hrow'
    exact db.update_keeps (by intro row; rfl) (by intro row; rfl) (by intro row; rfl) hrow'
  next endedMs bytesIn bytesOut hact =>
    refine Or.inl ⟨by rw [hact]; rfl, rfl, ?_⟩
    intro row' hrow'
    exact db.update_keeps (by intro row; rfl) (by intro row; rfl) (by intro row; rfl) hrow'
  next t bucket all hact =>
    refine Or.inr (Or.inr ⟨⟨t, bucket, all⟩, by rw [hact]; rfl, rfl, ?_⟩)
    intro row' hrow'
    exact update_rtt _ (by intro row; rfl) (by intro row; rfl) hrow'
  next t inb outb hact =>
    refine Or.inl ⟨by rw [hact]; rfl, rfl, ?_⟩
    exact fun row' hrow' => ⟨row', hrow', rfl, rfl, rfl⟩

theorem Conn.keys_none {k : Conn} (h : k.keys fs = ops ++ none :: more) : ops = [] := by
  have hnone : (none : Option Flush) ∉ fs.map some := by
    intro hin
    obtain ⟨f, -, hf⟩ := List.mem_map.mp hin
    cases hf
  cases ops with
  | nil => rfl
  | cons key ops =>
    exfalso
    apply hnone
    unfold keys at h
    split at h
    · rw [List.nil_append] at h
      rw [h]
      exact List.mem_append_right _ List.mem_cons_self
    · have htail : fs.map some = ops ++ none :: more := (List.cons.inj h).2
      rw [htail]
      exact List.mem_append_right _ List.mem_cons_self

theorem script_single (op : Op) (c : Nat) :
    script c [op] = if op.conn = c then op.act.key.toList else [] := by
  by_cases heq : op.conn = c
  · rw [if_pos heq, script, List.filter_cons_of_pos (by simpa using heq), List.filter_nil]
    cases hkey : op.act.key with
    | none => simp only [List.filterMap_cons, List.filterMap_nil, hkey, Option.toList_none]
    | some key => simp only [List.filterMap_cons, List.filterMap_nil, hkey, Option.toList_some]
  · rw [if_neg heq]
    exact script_other fun op' hop' => by rw [List.mem_singleton.mp hop']; exact heq

theorem flushes_single (op : Op) (c : Nat) :
    flushes c [op] = if op.conn = c then op.act.key.toList.filterMap id else [] := by
  rw [flushes, script_single]
  split <;> rfl

namespace Recorder

theorem Ids.holder {s : Recorder} (h : s.Ids) (hop : op ∈ s.queue)
    (hrow : row ∈ s.db.sessions) (hid : row.id = op.id) : row.conn = op.conn := by
  have hmine := h.queue op hop
  have hbase : s.base ≠ none := fun hnone => not_mine_of_idle (h.idle hnone).1 hmine
  obtain ⟨b, hb⟩ := Option.ne_none_iff_exists'.mp hbase
  rcases h.rows b hb row hrow with hold | hrowmine
  · exact absurd ((h.above b hb).2 _ _ hmine).1 (by omega)
  · rw [hid] at hrowmine
    exact h.inj _ _ _ hrowmine hmine

theorem Told.next {s : Recorder} (h : s.Told) (hq : s.queue = op :: rest) (hc : s.Intact c) :
    script c s.sent = script c s.landed ++ (script c [op] ++ script c rest) := by
  have hsplit : script c s.sent = script c s.landed ++ script c s.queue := by
    have hkeys := congrArg (List.filterMap fun op => op.act.key) (h.order c hc)
    rw [List.filterMap_append] at hkeys
    exact hkeys
  rw [hsplit, hq, ← script_append c [op] rest]
  rfl

theorem Told.opens {s : Recorder} (h : s.Told) (hq : s.queue = op :: rest)
    (hkey : op.act.key = some none) (hk : s.conns[op.conn]? = some k) (horder : k.Orderly)
    (hc : s.Intact op.conn) : flushes op.conn s.landed = [] := by
  obtain ⟨fs, hscript, -⟩ := h.tally op.conn k hk horder
  rw [h.next hq hc, script_single, if_pos rfl, hkey] at hscript
  rw [flushes, Conn.keys_none hscript.symm, List.filterMap_nil]

theorem Told.rises {s : Recorder} (h : s.Told) (hq : s.queue = op :: rest)
    (hkey : op.act.key = some (some f)) (hk : s.conns[op.conn]? = some k) (horder : k.Orderly)
    (hc : s.Intact op.conn) : ∀ f' ∈ flushes op.conn s.landed, f'.t < f.t := by
  obtain ⟨fs, hscript, htally⟩ := h.tally op.conn k hk horder
  have hfs : flushes op.conn s.landed ++ f :: flushes op.conn rest = fs := by
    rw [← flushes_keys k fs hscript, flushes, flushes, flushes, h.next hq hc, script_single,
      if_pos rfl, hkey, List.filterMap_append]
    rfl
  have hrising := htally.rising
  rw [← hfs, List.map_append, List.pairwise_append] at hrising
  intro f' hf'
  exact hrising.2.2 _ (List.mem_map_of_mem hf') _ List.mem_cons_self

theorem Ids.owner {s : Recorder} (h : s.Ids) (hop : op ∈ s.queue) :
    ∃ k, s.conns[op.conn]? = some k ∧ k.ls.id = op.id := by
  obtain ⟨k, hk, hid⟩ := h.queue op hop
  unfold current at hk
  split at hk
  · exact ⟨k, hk, hid⟩
  · cases hk

theorem rttRows_replace {s : Recorder} {op : Op} (hrows : s.rttRows c = toRows i c fs)
    (hother : ∀ f' ∈ fs, i = op.id → f'.t ≠ t) :
    ((s.db.rtt.filter fun row => !(row.sessionID = op.id && row.t = t)).filter
      fun row => row.conn = c) = toRows i c fs := by
  rw [List.filter_comm, ← hrows]
  refine List.filter_eq_self.mpr ?_
  intro sample hsample
  change sample ∈ s.rttRows c at hsample
  rw [hrows] at hsample
  obtain ⟨f', hf', rfl⟩ := List.mem_map.mp hsample
  simpa using not_or_of_imp (hother f' hf')

theorem Told.flush {s : Recorder} (h : s.Told) (hids : s.Ids) (hq : s.queue = op :: rest)
    (hkey : op.act.key = some (some f)) (hk : s.conns[c]? = some k) (horder : k.Orderly)
    (hc : s.Intact c) (hin : row ∈ s.db.sessions) (hconn : row.conn = c) :
    (((s.db.rtt.filter fun row => !(row.sessionID = op.id && row.t = f.t)) ++
        [(⟨op.id, op.conn, f.t, f.bucket⟩ : RttRow)]).filter fun row => row.conn = c) =
      toRows row.id c (flushes c s.landed ++ flushes c [op]) ∧
    (if row.id = op.id then some f.all else row.rtt) =
      (flushes c s.landed ++ flushes c [op]).getLast?.map Flush.all := by
  have hop : op ∈ s.queue := by rw [hq]; exact List.mem_cons_self
  obtain ⟨hrows, hall⟩ := h.told c k hk horder hc row hin hconn
  rw [List.filter_append]
  by_cases heq : op.conn = c
  · subst heq
    have hf : flushes op.conn [op] = [f] := by
      rw [flushes_single, if_pos rfl, hkey]
      rfl
    have hsame : row.id = op.id := by
      obtain ⟨k', hk', hid'⟩ := h.rowID row hin
      obtain ⟨kop, hkop, hidop⟩ := hids.owner hop
      rw [hconn, hkop] at hk'
      rw [← hid', ← hidop, Option.some.inj hk']
    have hrise := h.rises hq hkey hk horder hc
    rw [hf, rttRows_replace hrows fun f' hf' _ => ne_of_lt (hrise f' hf'), if_pos hsame,
      List.getLast?_concat, List.filter_cons_of_pos (by simp), toRows, toRows, List.map_append,
      List.filter_nil, ← hsame]
    exact ⟨rfl, rfl⟩
  · have hf : flushes c [op] = [] := by rw [flushes_single, if_neg heq]
    have hdiff : row.id ≠ op.id := fun hsame =>
      heq ((hids.holder hop hin hsame).symm.trans hconn)
    rw [hf, rttRows_replace hrows fun _ _ hsame => absurd hsame hdiff, if_neg hdiff,
      List.append_nil, List.filter_cons_of_neg (by simpa using heq), List.filter_nil,
      List.append_nil]
    exact ⟨rfl, hall⟩

theorem Told.rtt_land {s : Recorder} (h : s.Told) (hsample : sample ∈ (s.db.land op).rtt) :
    flushes sample.conn (s.landed ++ [op]) ≠ [] := by
  rw [flushes_append]
  have hold : sample ∈ s.db.rtt →
      flushes sample.conn s.landed ++ flushes sample.conn [op] ≠ [] :=
    fun hin => List.append_ne_nil_of_left_ne_nil (h.rtt sample hin) _
  rcases s.db.land_rtt op with ⟨-, hrtt, -⟩ | ⟨-, hrtt, -⟩ | ⟨f, hkey, hrtt, -⟩
  · exact hold (hrtt ▸ hsample)
  · exact hold (hrtt ▸ hsample)
  · rw [hrtt] at hsample
    rcases List.mem_append.mp hsample with hin | hnew
    · exact hold (List.mem_of_mem_filter hin)
    · rw [List.mem_singleton.mp hnew, flushes_single, if_pos rfl, hkey]
      exact List.append_ne_nil_of_right_ne_nil _ nofun

theorem Told.land {s t : Recorder} (h : s.Told) (hids : s.Ids) (ht : s.step .land = some t) :
    t.Told := by
  obtain ⟨op, rest, -, hq, rfl⟩ := land_eq ht
  refine ⟨h.conn, ?_, h.tally, ?_, fun sample hsample => h.rtt_land hsample, ?_⟩
  · intro c hc
    rw [h.order c hc, hq, ← ofConn_append, ← ofConn_append, ← List.append_cons]
  · intro row' hrow'
    rcases s.db.land_rows op hrow' with ⟨row, hin, hid, hconn⟩ | ⟨hid, hconn, -⟩
    · rw [← hid, ← hconn]
      exact h.rowID row hin
    · rw [hid, hconn]
      exact hids.owner (by rw [hq]; exact List.mem_cons_self)
  · intro c k hk horder hc row' hrow' hconn'
    rw [flushes_append]
    rcases s.db.land_rtt op with ⟨hkey, hrtt, hrows⟩ | ⟨hkey, hrtt, hrows⟩ | ⟨f, hkey, hrtt, hrows⟩
    · -- The operation is not about RTT samples.
      obtain ⟨row, hin, hid, hconn, hrowrtt⟩ := hrows row' hrow'
      have hnone : flushes c [op] = [] := by
        rw [flushes_single, hkey]
        exact ite_self _
      rw [hnone, List.append_nil, hid, hrowrtt, rttRows, hrtt]
      exact h.told c k hk horder hc row hin (hconn.symm.trans hconn')
    · have hnone : flushes c [op] = [] := by
        rw [flushes_single, hkey]
        exact ite_self _
      rw [hnone, List.append_nil, rttRows, hrtt]
      rcases hrows row' hrow' with hin | ⟨hconn, hrownone⟩
      · exact h.told c k hk horder hc row' hin hconn'
      · obtain rfl : op.conn = c := hconn.symm.trans hconn'
        have hempty := h.opens hq hkey hk horder hc
        rw [hempty]
        refine ⟨List.filter_eq_nil_iff.mpr ?_, hrownone⟩
        intro sample hsample heq
        have hsome := h.rtt sample hsample
        rw [of_decide_eq_true heq] at hsome
        exact hsome hempty
    · obtain ⟨row, hin, hid, hconn, hrowrtt⟩ := hrows row' hrow'
      rw [rttRows, hrtt, hid, hrowrtt]
      exact h.flush hids hq hkey hk horder hc hin (hconn.symm.trans hconn')

theorem Told.step {s t : Recorder} (h : s.Told) (hids : s.Ids) (ht : s.step l = some t) :
    t.Told := by
  cases l with
  | restart => exact h.restart ht
  | newRecorder => exact h.newRecorder ht
  | prune cutoff => exact h.prune ht
  | register => exact h.register ht
  | call c e => exact h.call ht
  | lose i => exact h.lose ht
  | land => exact h.land hids ht

end Recorder

end ProxyForward.SessionLog

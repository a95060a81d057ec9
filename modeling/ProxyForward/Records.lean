import ProxyForward.Candles
import ProxyForward.FirstBest
import ProxyForward.Rollup

namespace ProxyForward
open FirstBest Runs Stats
set_option autoImplicit true

/-- The peaks of an hour or a day of a series; agent `""` is gateway-wide. -/
structure PeakRow where
  time : Int
  agentID : String
  inBps : Rat
  outBps : Rat
  players : Rat
  deriving DecidableEq, Repr

def PeakRow.key (row : PeakRow) : Int × String := (row.time, row.agentID)

/-- A row of which no reading is stored. -/
def PeakRow.blank (k : Int × String) : PeakRow := ⟨k.1, k.2, 0, 0, -1⟩

/-- `COALESCE(MAX(..), d)`. -/
def maxOr (d : Rat) (xs : List Rat) : Rat := xs.max?.getD d

def upsertPeaks (t : List PeakRow) (row : PeakRow) : List PeakRow :=
  t.filter (fun old => old.key ≠ row.key) ++ [row]

def hourKey (row : RrdRow) : Int × String := (bucketStart hourMillis row.bucket.T, row.agentID)

/-- The peaks of a group of 15 s buckets. -/
def peaksOf (k : Int × String) (bs : List Bucket) : PeakRow where
  time := k.1
  agentID := k.2
  inBps := maxOr 0 (bs.map fun b => b.inRate.h)
  outBps := maxOr 0 (bs.map fun b => b.outRate.h)
  players := maxOr (-1) ((bs.filter fun b => 0 ≤ b.players.c).map fun b => b.players.h)

/-- Hourly peaks from the 15 s buckets, per agent. -/
def hourlyPeaks (rrd : List RrdRow) (lo hi : Int) (t : List PeakRow) : List PeakRow :=
  let rows := rrd.filter fun row => row.tier = 2 ∧ lo ≤ row.bucket.T ∧ row.bucket.T < hi
  (rows.map hourKey).dedup.foldl
    (fun t k => upsertPeaks t (peaksOf k ((rows.filter fun row => hourKey row = k).map
      RrdRow.bucket))) t

/-- The peaks of a group of hours. -/
def peaksOfHours (k : Int × String) (hours : List PeakRow) : PeakRow where
  time := k.1
  agentID := k.2
  inBps := maxOr 0 (hours.map PeakRow.inBps)
  outBps := maxOr 0 (hours.map PeakRow.outBps)
  players := maxOr (-1) ((hours.filter fun row => 0 ≤ row.players).map PeakRow.players)

def dayKey (row : PeakRow) : Int × String := (bucketStart dayMillis row.time, row.agentID)

/-- Daily peaks from the hourly rows, per agent. -/
def dailyPeaks (hourly : List PeakRow) (lo hi : Int) (t : List PeakRow) : List PeakRow :=
  let rows := hourly.filter fun row => lo ≤ row.time ∧ row.time < hi
  (rows.map dayKey).dedup.foldl
    (fun t k => upsertPeaks t (peaksOfHours k (rows.filter fun row => dayKey row = k))) t

/-- The session counts of a bucket may make its row. -/
def countedKeys (sessions : List SessionRow) (width lo hi : Int) (t : List PeakRow) :
    List PeakRow :=
  (sessions.filter fun s => lo ≤ s.startedMs ∧ s.startedMs < hi).foldl
    (fun t s =>
      let bucket := bucketStart width s.startedMs
      [(bucket, s.agentID), (bucket, "")].foldl
        (fun t k => if t.any fun row => row.key = k then t else t ++ [PeakRow.blank k]) t) t

/-- An all-time record: a high of the 15 s buckets, where its guard knows a reading. -/
structure PeakSpec where
  key : String
  col : Bucket → Rat
  guard : Bucket → Bool

def peakSpecs : List PeakSpec :=
  [⟨"in_bps", fun b => b.inRate.h, fun _ => true⟩, ⟨"out_bps", fun b => b.outRate.h, fun _ => true⟩,
    ⟨"conns", fun b => b.conns.h, fun b => 0 ≤ b.conns.c⟩,
    ⟨"players", fun b => b.players.h, fun b => 0 ≤ b.players.c⟩]

/-- Greater values first, and of equal ones the earlier. -/
def Ranks (x y : Rat × Int) : Prop := y.1 < x.1 ∨ x.1 = y.1 ∧ x.2 ≤ y.2

instance : DecidableRel Ranks := fun _ _ => inferInstanceAs (Decidable (_ ∨ _))

/-- The values of a record and their times in the gateway-wide series. -/
def PeakSpec.rows (ps : PeakSpec) (rrd : List RrdRow) : List (Rat × Int) :=
  (rrd.filter fun row => row.tier = 2 ∧ row.agentID = "" ∧ ps.guard row.bucket).map fun row =>
    (ps.col row.bucket, (row.bucket.T : Int))

/-- The `peaks` table. -/
abbrev RecordTable := String → Option (Rat × Int)

def rollupPeaks (rrd : List RrdRow) (records : RecordTable) : RecordTable :=
  peakSpecs.foldl
    (fun records ps => Function.update records ps.key
      (challenge Prod.fst (records ps.key) (best Ranks (ps.rows rrd)))) records

structure Peaks where
  hourly : List PeakRow
  daily : List PeakRow
  records : RecordTable

namespace Peaks

/-- What `runRollup` does to the peaks. -/
def runRollup (p : Peaks) (rrd : List RrdRow) (sessions : List SessionRow) (nowMs : Int) : Peaks :=
  let curHour := bucketStart hourMillis nowMs
  let curHourEnd := curHour + hourMillis
  let lo := rollFrom rrd nowMs
  let dayFrom := bucketStart dayMillis lo
  let dayEnd := (curHour.tdiv dayMillis + 1) * dayMillis
  let hourly := countedKeys sessions hourMillis lo curHourEnd
    (hourlyPeaks rrd lo curHourEnd p.hourly)
  { hourly
    daily := countedKeys sessions dayMillis dayFrom dayEnd
      (dailyPeaks hourly dayFrom dayEnd p.daily)
    records := rollupPeaks rrd p.records }

/-- What `prune` does to the peaks. -/
def prune (p : Peaks) (nowMs : Int) : Peaks :=
  { p with hourly := p.hourly.filter fun row => nowMs - rollupHourlyRetention ≤ row.time }

end Peaks

/-- The peaks and records of the summary. -/
structure Summary where
  PeakPlayers : Rat
  PeakPlayersAt : Int
  PeakInBps : Rat
  PeakInAt : Int
  PeakOutBps : Rat
  PeakOutAt : Int
  RecInBps : Rat
  RecInAt : Int
  RecOutBps : Rat
  RecOutAt : Int
  RecPlayers : Rat
  RecPlayersAt : Int
  RecConns : Rat
  RecConnsAt : Int

def peakAt (t : List PeakRow) (sinceBucket : Int) (col : PeakRow → Rat) (guard : PeakRow → Bool) :
    Rat × Int :=
  (best Ranks ((t.filter fun row => sinceBucket ≤ row.time ∧ row.agentID = "" ∧ guard row).map
    fun row => (col row, row.time))).getD (0, 0)

/-- `Summary` from the table that its range reads. -/
def Peaks.Summary (p : Peaks) (sinceMs nowMs : Int) : Summary :=
  let long := sinceMs ≤ 0 ∨ nowMs - sinceMs > 8 * dayMillis
  let t := if long then p.daily else p.hourly
  let sinceBucket := bucketStart (if long then dayMillis else hourMillis) sinceMs
  let peakIn := peakAt t sinceBucket PeakRow.inBps fun _ => true
  let peakOut := peakAt t sinceBucket PeakRow.outBps fun _ => true
  let peakPlayers := peakAt t sinceBucket PeakRow.players fun row => 0 ≤ row.players
  let peakPlayers := if peakPlayers.2 ≠ 0 then peakPlayers else (-1, 0)
  let recIn := (p.records "in_bps").getD (0, 0)
  let recOut := (p.records "out_bps").getD (0, 0)
  let recPlayers := (p.records "players").getD (-1, 0)
  let recConns := (p.records "conns").getD (-1, 0)
  { PeakPlayers := peakPlayers.1
    PeakPlayersAt := peakPlayers.2
    PeakInBps := peakIn.1
    PeakInAt := peakIn.2
    PeakOutBps := peakOut.1
    PeakOutAt := peakOut.2
    RecInBps := recIn.1
    RecInAt := recIn.2
    RecOutBps := recOut.1
    RecOutAt := recOut.2
    RecPlayers := recPlayers.1
    RecPlayersAt := recPlayers.2
    RecConns := recConns.1
    RecConnsAt := recConns.2 }

/-- The store and its rollups with the peaks; `rolled` has the stored buckets of each rollup. -/
structure Recording where
  rolling : Rolling
  peaks : Peaks
  rolled : List (List RrdRow)

namespace Recording

def init : Recording := ⟨.init, ⟨[], [], fun _ => none⟩, []⟩

def step (s : Recording) (l : RollStep) : Option Recording :=
  (s.rolling.step l).map fun rolling =>
    match l with
    | .stats _ => { s with rolling }
    | .rollup nowMs sessions =>
      let rrd := s.rolling.stats.disk.rrd
      ⟨rolling, s.peaks.runRollup rrd sessions nowMs, s.rolled ++ [rrd]⟩
    | .prune nowMs => { s with rolling, peaks := s.peaks.prune nowMs }

end Recording

instance : Std.Total Ranks where
  total x y := by
    obtain hlt | heq | hlt := lt_trichotomy x.1 y.1
    · exact .inr (.inl hlt)
    · obtain hle | hle := le_total x.2 y.2
      · exact .inl (.inr ⟨heq, hle⟩)
      · exact .inr (.inr ⟨heq.symm, hle⟩)
    · exact .inl (.inl hlt)

instance : IsTrans (Rat × Int) Ranks where
  trans x y z hxy hyz := by
    obtain hxy | ⟨hxy, hxy'⟩ := hxy
    · obtain hyz | ⟨hyz, -⟩ := hyz
      · exact .inl (hyz.trans hxy)
      · exact .inl (hyz ▸ hxy)
    · obtain hyz | ⟨hyz, hyz'⟩ := hyz
      · exact .inl (hxy ▸ hyz)
      · exact .inr ⟨hxy.trans hyz, hxy'.trans hyz'⟩

theorem Ranks.value {x y : Rat × Int} (h : Ranks x y) : y.1 ≤ x.1 := by
  obtain hlt | ⟨heq, -⟩ := h
  · exact hlt.le
  · exact heq.symm.le

theorem rollupPeaks_apply (rrd : List RrdRow) (records : RecordTable) (hps : ps ∈ peakSpecs) :
    rollupPeaks rrd records ps.key =
      challenge Prod.fst (records ps.key) (best Ranks (ps.rows rrd)) := by
  simp only [peakSpecs, List.mem_cons, List.not_mem_nil, or_false] at hps
  obtain rfl | rfl | rfl | rfl := hps
  all_goals
    simp only [rollupPeaks, peakSpecs, List.foldl_cons, List.foldl_nil]
    simp

namespace Recording

/-- Every record is the highest of what the rollups have seen, from the rollup that saw it first and
the earliest bucket there. -/
def Recorded (s : Recording) : Prop :=
  ∀ ps ∈ peakSpecs, Holds Ranks Prod.fst (s.rolled.map ps.rows) (s.peaks.records ps.key)

theorem Recorded.step {s t : Recording} (h : s.Recorded) (hs : s.step l = some t) :
    t.Recorded := by
  obtain ⟨rolling, -, rfl⟩ := Option.map_eq_some_iff.1 hs
  cases l with
  | stats l => exact h
  | prune nowMs => exact h
  | rollup nowMs sessions =>
    intro ps hps
    have hvalue : ∀ x y : Rat × Int, Ranks x y → y.1 ≤ x.1 := fun x y hxy => hxy.value
    have hnext := (h ps hps).challenge hvalue (ps.rows s.rolling.stats.disk.rrd)
    rw [← rollupPeaks_apply _ _ hps] at hnext
    rw [List.map_append, List.map_singleton]
    exact hnext

/-- In every run: an all-time record is the highest value of its series in any rollup, with the time
of the bucket that had it first, and there is none only if no rollup has seen a reading. -/
theorem recorded_of_reaches (hr : Reaches step init ls s) : s.Recorded :=
  hr.invariant (fun _ _ _ h hs => h.step hs) fun _ _ => holds_nil

end Recording

/-- The value of a record, or what the summary shows for none. -/
def RecordTable.value (records : RecordTable) (key : String) (none : Rat) : Rat :=
  ((records key).map Prod.fst).getD none

/-- No peak of the row is above its record. -/
structure PeakRow.Under (records : RecordTable) (row : PeakRow) : Prop where
  inBps : row.inBps ≤ records.value "in_bps" 0
  outBps : row.outBps ≤ records.value "out_bps" 0
  players : row.players ≤ records.value "players" (-1)

theorem maxOr_le (hd : d ≤ top) {xs : List Rat} (h : ∀ x ∈ xs, x ≤ top) : maxOr d xs ≤ top := by
  unfold maxOr
  cases hmax : xs.max? with
  | none => exact hd
  | some m => exact h m (List.max?_mem hmax)

theorem peakSpec_known {b : Bucket} (h : b.Sound) (hps : ps ∈ peakSpecs)
    (hguard : ps.guard b = true) :
    0 ≤ ps.col b := by
  have hhigh {x : OHLC} (hx : x.Candle) : 0 ≤ x.h := hx.low.trans (hx.opened.1.trans hx.opened.2)
  simp only [peakSpecs, List.mem_cons, List.not_mem_nil, or_false] at hps
  obtain rfl | rfl | rfl | rfl := hps
  · exact hhigh h.rates.1
  · exact hhigh h.rates.2
  · exact hhigh (h.gauges.1.candle (of_decide_eq_true hguard))
  · exact hhigh (h.gauges.2.2.1.candle (of_decide_eq_true hguard))

theorem rows_known {rrd : List RrdRow} (h : ∀ row ∈ rrd, row.bucket.Sound) (hps : ps ∈ peakSpecs) :
    ∀ x ∈ ps.rows rrd, 0 ≤ x.1 := by
  intro x hx
  obtain ⟨row, hrow, rfl⟩ := List.mem_map.1 hx
  obtain ⟨hin, hcond⟩ := List.mem_filter.1 hrow
  obtain ⟨-, -, hguard⟩ := of_decide_eq_true hcond
  exact peakSpec_known (h row hin) hps hguard

theorem value_rollupPeaks {rrd : List RrdRow} (h : ∀ row ∈ rrd, row.bucket.Sound)
    (records : RecordTable) (hps : ps ∈ peakSpecs) (hd : d ≤ 0) :
    records.value ps.key d ≤ (rollupPeaks rrd records).value ps.key d ∧
      ∀ x ∈ ps.rows rrd, x.1 ≤ (rollupPeaks rrd records).value ps.key d := by
  have hknown := rows_known h hps
  simp only [RecordTable.value, rollupPeaks_apply rrd records hps]
  cases hbest : best Ranks (ps.rows rrd) with
  | none =>
    rw [best_none hbest]
    refine ⟨?_, fun x hx => absurd hx List.not_mem_nil⟩
    cases records ps.key <;> exact le_rfl
  | some b =>
    obtain ⟨hb, hfirst⟩ := best_some hbest
    cases records ps.key with
    | none => exact ⟨hd.trans (hknown b hb), fun x hx => (hfirst x hx).value⟩
    | some a =>
      simp only [challenge]
      by_cases hlt : a.1 < b.1
      · rw [if_pos hlt]
        exact ⟨hlt.le, fun x hx => (hfirst x hx).value⟩
      · rw [if_neg hlt]
        exact ⟨le_rfl, fun x hx => (hfirst x hx).value.trans (not_lt.1 hlt)⟩

/-- The gateway-wide rows are under the records. -/
def Topped (records : RecordTable) (t : List PeakRow) : Prop :=
  ∀ row ∈ t, row.agentID = "" → row.Under records

theorem Topped.upserts {make : Int × String → PeakRow} {ks : List (Int × String)}
    (ht : Topped records t)
    (hk : ∀ k ∈ ks, (make k).agentID = "" → (make k).Under records) :
    Topped records (ks.foldl (fun t k => upsertPeaks t (make k)) t) := by
  induction ks generalizing t with
  | nil => exact ht
  | cons k ks ih =>
    obtain ⟨hfirst, hrest⟩ := List.forall_mem_cons.1 hk
    refine ih (fun row hrow => ?_) hrest
    obtain hold | hnew := List.mem_append.1 hrow
    · exact ht row (List.mem_of_mem_filter hold)
    · rw [List.mem_singleton.1 hnew]
      exact hfirst

/-- The records are none of them below what the summary shows for none. -/
structure Floored (records : RecordTable) : Prop where
  inBps : 0 ≤ records.value "in_bps" 0
  outBps : 0 ≤ records.value "out_bps" 0
  players : -1 ≤ records.value "players" (-1)

theorem Topped.counted (hf : Floored records) (ht : Topped records t) (sessions : List SessionRow)
    (width lo hi : Int) : Topped records (countedKeys sessions width lo hi t) := by
  unfold countedKeys
  generalize sessions.filter _ = started
  have hblank (t : List PeakRow) (ht : Topped records t) (ks : List (Int × String)) :
      Topped records (ks.foldl
        (fun t k => if t.any fun row => row.key = k then t else t ++ [PeakRow.blank k]) t) := by
    induction ks generalizing t with
    | nil => exact ht
    | cons k ks ih =>
      refine ih _ ?_
      dsimp only
      split
      · exact ht
      · intro row hrow
        obtain hold | hnew := List.mem_append.1 hrow
        · exact ht row hold
        · rw [List.mem_singleton.1 hnew]
          exact fun _ => ⟨hf.inBps, hf.outBps, hf.players⟩
  induction started generalizing t with
  | nil => exact ht
  | cons s started ih => exact ih (hblank t ht _)

theorem mem_rows {rrd : List RrdRow} {row : RrdRow} (hin : row ∈ rrd) (htier : row.tier = 2)
    (hid : row.agentID = "") {ps : PeakSpec} (hguard : ps.guard row.bucket = true) :
    (ps.col row.bucket, (row.bucket.T : Int)) ∈ ps.rows rrd :=
  List.mem_map_of_mem (List.mem_filter.2 ⟨hin, decide_eq_true ⟨htier, hid, hguard⟩⟩)

theorem Topped.hourly {rrd : List RrdRow} (hf : Floored records) (ht : Topped records t)
    (hrows : ∀ ps ∈ peakSpecs, ∀ d ≤ 0, ∀ x ∈ ps.rows rrd, x.1 ≤ records.value ps.key d)
    (lo hi : Int) : Topped records (hourlyPeaks rrd lo hi t) := by
  refine Topped.upserts ht fun k _ hid => ?_
  -- Only the gateway-wide buckets of the hour are in its group.
  have hgroup (ps : PeakSpec) (hps : ps ∈ peakSpecs) (b : Bucket)
      (hb : b ∈ ((rrd.filter fun row => row.tier = 2 ∧ lo ≤ row.bucket.T ∧ row.bucket.T < hi).filter
        fun row => hourKey row = k).map RrdRow.bucket) (hguard : ps.guard b = true) (d : Rat)
      (hd : d ≤ 0) : ps.col b ≤ records.value ps.key d := by
    obtain ⟨row, hrow, rfl⟩ := List.mem_map.1 hb
    obtain ⟨hrow, hkey⟩ := List.mem_filter.1 hrow
    obtain ⟨hin, hcond⟩ := List.mem_filter.1 hrow
    have hagent : row.agentID = "" := by
      have hkey : hourKey row = k := of_decide_eq_true hkey
      exact (congrArg Prod.snd hkey).trans hid
    exact hrows ps hps d hd _ (mem_rows hin (of_decide_eq_true hcond).1 hagent hguard)
  constructor
  · refine maxOr_le hf.inBps fun x hx => ?_
    obtain ⟨b, hb, rfl⟩ := List.mem_map.1 hx
    exact hgroup _ (List.mem_cons_self) b hb rfl 0 le_rfl
  · refine maxOr_le hf.outBps fun x hx => ?_
    obtain ⟨b, hb, rfl⟩ := List.mem_map.1 hx
    exact hgroup _ (List.mem_cons_of_mem _ List.mem_cons_self) b hb rfl 0 le_rfl
  · refine maxOr_le hf.players fun x hx => ?_
    obtain ⟨b, hb, rfl⟩ := List.mem_map.1 hx
    obtain ⟨hb, hguard⟩ := List.mem_filter.1 hb
    exact hgroup ⟨"players", fun b => b.players.h, fun b => 0 ≤ b.players.c⟩
      (List.mem_of_mem_getLast? rfl) b hb hguard (-1) (by decide)

theorem Topped.daily {hourly : List PeakRow} (hf : Floored records) (hh : Topped records hourly)
    (ht : Topped records t)
    (lo hi : Int) : Topped records (dailyPeaks hourly lo hi t) := by
  refine Topped.upserts ht fun k _ hid => ?_
  have hgroup (row : PeakRow) (hrow : row ∈ (hourly.filter fun row => lo ≤ row.time ∧
      row.time < hi).filter fun row => dayKey row = k) : row.Under records := by
    obtain ⟨hrow, hkey⟩ := List.mem_filter.1 hrow
    have hkey : dayKey row = k := of_decide_eq_true hkey
    exact hh row (List.mem_of_mem_filter hrow) ((congrArg Prod.snd hkey).trans hid)
  constructor
  · refine maxOr_le hf.inBps fun x hx => ?_
    obtain ⟨row, hrow, rfl⟩ := List.mem_map.1 hx
    exact (hgroup row hrow).inBps
  · refine maxOr_le hf.outBps fun x hx => ?_
    obtain ⟨row, hrow, rfl⟩ := List.mem_map.1 hx
    exact (hgroup row hrow).outBps
  · refine maxOr_le hf.players fun x hx => ?_
    obtain ⟨row, hrow, rfl⟩ := List.mem_map.1 hx
    exact (hgroup row (List.mem_of_mem_filter hrow)).players

theorem rollup_topped {p : Peaks} {rrd : List RrdRow} (hsound : ∀ row ∈ rrd, row.bucket.Sound)
    (hf : Floored p.records) (hh : Topped p.records p.hourly) (hd : Topped p.records p.daily)
    (sessions : List SessionRow) (nowMs : Int) :
    Floored (p.runRollup rrd sessions nowMs).records ∧
      Topped (p.runRollup rrd sessions nowMs).records (p.runRollup rrd sessions nowMs).hourly ∧
        Topped (p.runRollup rrd sessions nowMs).records (p.runRollup rrd sessions nowMs).daily := by
  have hvalue (ps : PeakSpec) (hps : ps ∈ peakSpecs) (d : Rat) (hd : d ≤ 0) :=
    value_rollupPeaks hsound p.records hps hd
  have hin := (hvalue _ List.mem_cons_self 0 le_rfl).1
  have hout := (hvalue _ (List.mem_cons_of_mem _ List.mem_cons_self) 0 le_rfl).1
  have hplayers := (hvalue ⟨"players", fun b => b.players.h, fun b => 0 ≤ b.players.c⟩
    (List.mem_of_mem_getLast? rfl) (-1) (by decide)).1
  have hfloored : Floored (rollupPeaks rrd p.records) :=
    ⟨hf.inBps.trans hin, hf.outBps.trans hout, hf.players.trans hplayers⟩
  have hraised {t : List PeakRow} (ht : Topped p.records t) :
      Topped (rollupPeaks rrd p.records) t := by
    intro row hrow hid
    have hunder := ht row hrow hid
    exact ⟨hunder.inBps.trans hin, hunder.outBps.trans hout, hunder.players.trans hplayers⟩
  unfold Peaks.runRollup
  simp only
  have hhourly := (Topped.hourly hfloored (hraised hh) (fun ps hps d hd => (hvalue ps hps d hd).2)
    (rollFrom rrd nowMs) (bucketStart hourMillis nowMs + hourMillis)).counted hfloored sessions
      hourMillis (rollFrom rrd nowMs) (bucketStart hourMillis nowMs + hourMillis)
  exact ⟨hfloored, hhourly,
    (Topped.daily hfloored hhourly (hraised hd) _ _).counted hfloored sessions dayMillis _ _⟩

namespace Recording

/-- What holds in every run: the buckets have candles, and no peak is above its record. -/
structure Inv (s : Recording) : Prop where
  buckets : s.rolling.stats.All Measures.Sound
  floored : Floored s.peaks.records
  hourly : Topped s.peaks.records s.peaks.hourly
  daily : Topped s.peaks.records s.peaks.daily

theorem Inv.step {s t : Recording} (h : s.Inv) (hs : s.step l = some t) : t.Inv := by
  obtain ⟨rolling, hrolling, rfl⟩ := Option.map_eq_some_iff.1 hs
  unfold Rolling.step at hrolling
  cases l with
  | stats l =>
    obtain ⟨-, hl⟩ := Option.ite_none_right_eq_some.1 hrolling
    obtain ⟨stats, hstats, rfl⟩ := Option.map_eq_some_iff.1 hl
    exact ⟨h.buckets.step sound_closed hstats, h.floored, h.hourly, h.daily⟩
  | rollup nowMs sessions =>
    obtain ⟨-, hl⟩ := Option.ite_none_right_eq_some.1 hrolling
    obtain rfl := Option.some.inj hl
    obtain ⟨hfloored, hhourly, hdaily⟩ :=
      rollup_topped h.buckets.disk h.floored h.hourly h.daily sessions nowMs
    exact ⟨h.buckets, hfloored, hhourly, hdaily⟩
  | prune nowMs =>
    obtain ⟨-, hl⟩ := Option.ite_none_right_eq_some.1 hrolling
    obtain rfl := Option.some.inj hl
    exact ⟨h.buckets, h.floored, fun row hrow => h.hourly row (List.mem_of_mem_filter hrow),
      h.daily⟩

theorem Inv.init : Inv init where
  buckets := Persistence.all_init sound_closed
  floored := ⟨le_rfl, le_rfl, le_rfl⟩
  hourly := nofun
  daily := nofun

theorem peakAt_cases (t : List PeakRow) (since : Int) (col : PeakRow → Rat)
    (guard : PeakRow → Bool) : peakAt t since col guard = (0, 0) ∨
      ∃ row ∈ t, row.agentID = "" ∧ peakAt t since col guard = (col row, row.time) := by
  unfold peakAt
  cases hbest : best Ranks _ with
  | none => exact .inl rfl
  | some x =>
    obtain ⟨row, hrow, rfl⟩ := List.mem_map.1 (best_some hbest).1
    obtain ⟨hin, hcond⟩ := List.mem_filter.1 hrow
    exact .inr ⟨row, hin, (of_decide_eq_true hcond).2.1, rfl⟩

theorem peakAt_le {records : RecordTable} (ht : Topped records t) (h0 : 0 ≤ top)
    {col : PeakRow → Rat} (hcol : ∀ row, row.Under records → col row ≤ top) (since : Int)
    (guard : PeakRow → Bool) : (peakAt t since col guard).1 ≤ top := by
  obtain hnone | ⟨row, hrow, hid, hsome⟩ := peakAt_cases t since col guard
  · rw [hnone]
    exact h0
  · rw [hsome]
    exact hcol row (ht row hrow hid)

theorem players_le {records : RecordTable} (ht : Topped records t) (hf : Floored records)
    (since : Int) (guard : PeakRow → Bool) :
    (if (peakAt t since PeakRow.players guard).2 ≠ 0 then peakAt t since PeakRow.players guard
      else (-1, 0)).1 ≤ records.value "players" (-1) := by
  obtain hnone | ⟨row, hrow, hid, hsome⟩ := peakAt_cases t since PeakRow.players guard
  · rw [hnone]
    exact hf.players
  · rw [hsome]
    split
    · exact (ht row hrow hid).players
    · exact hf.players

theorem record_value (records : RecordTable) (key : String) (d : Rat) :
    ((records key).getD (d, 0)).1 = records.value key d := by
  unfold RecordTable.value
  cases records key <;> rfl

/-- In every run and for every range: no peak of the summary is above the all-time record. -/
theorem peaks_le_records (hr : Reaches step Recording.init ls s) (sinceMs nowMs : Int) :
    (s.peaks.Summary sinceMs nowMs).PeakInBps ≤ (s.peaks.Summary sinceMs nowMs).RecInBps ∧
      (s.peaks.Summary sinceMs nowMs).PeakOutBps ≤ (s.peaks.Summary sinceMs nowMs).RecOutBps ∧
        (s.peaks.Summary sinceMs nowMs).PeakPlayers ≤
          (s.peaks.Summary sinceMs nowMs).RecPlayers := by
  have h : s.Inv := hr.invariant (fun _ _ _ h hs => h.step hs) Inv.init
  have htable (long : Prop) [Decidable long] :
      Topped s.peaks.records (if long then s.peaks.daily else s.peaks.hourly) := by
    split
    · exact h.daily
    · exact h.hourly
  unfold Peaks.Summary
  simp only [record_value]
  exact ⟨peakAt_le (htable _) h.floored.inBps (fun _ hrow => hrow.inBps) _ _,
    peakAt_le (htable _) h.floored.outBps (fun _ hrow => hrow.outBps) _ _,
    players_le (htable _) h.floored _ _⟩

/-- Four readings, a flush and a rollup. -/
def recordRun : List RollStep :=
  Persistence.flushedRun.map .stats ++ [.rollup 1750000003000 []]

theorem recordRun_reaches : ∃ s, Reaches step Recording.init recordRun s ∧
    s.peaks.records "in_bps" = some (500, 1749999990000) ∧
      (s.peaks.Summary 0 1750000003000).PeakInBps = 500 := by
  have hrun : ∃ s, final step Recording.init recordRun = some s ∧
      s.peaks.records "in_bps" = some (500, 1749999990000) ∧
        (s.peaks.Summary 0 1750000003000).PeakInBps = 500 := by
    decide +kernel
  obtain ⟨s, hs, hrecord, hpeak⟩ := hrun
  exact ⟨s, reaches_of_final hs, hrecord, hpeak⟩

theorem recorded_recordRun : ∃ s, Reaches step Recording.init recordRun s ∧
    s.peaks.records "in_bps" = some (500, 1749999990000) ∧ s.Recorded := by
  obtain ⟨s, hr, hrecord, -⟩ := recordRun_reaches
  exact ⟨s, hr, hrecord, recorded_of_reaches hr⟩

theorem peaks_recordRun : ∃ s, Reaches step Recording.init recordRun s ∧
    500 ≤ (s.peaks.Summary 0 1750000003000).RecInBps := by
  obtain ⟨s, hr, -, hpeak⟩ := recordRun_reaches
  exact ⟨s, hr, hpeak ▸ (peaks_le_records hr 0 1750000003000).1⟩

end Recording

end ProxyForward

import ProxyForward.Persist
import ProxyForward.Runs
import ProxyForward.SessionRollups

namespace ProxyForward
set_option autoImplicit true

open Stats

/-- `MIN(t)` of the 15 s tier, over all series. -/
def oldestRrd (rrd : List RrdRow) : Option Nat :=
  ((rrd.filter fun row => row.tier = 2).map fun row => row.bucket.T).min?

/-- The first hour that a rollup rolls. -/
def rollFrom (rrd : List RrdRow) (nowMs : Int) : Int :=
  let curHour := bucketStart hourMillis nowMs
  match oldestRrd rrd with
  | none => curHour
  | some minT => min (bucketStart hourMillis (minT + hourMillis - 1)) curHour

/-- The upsert of a group's byte sums; there is no group without rows. -/
def RollupRow.summed (old : Option RollupRow) (bytes : List (Int × Int)) : Option RollupRow :=
  if bytes.isEmpty then old
  else
    some { old.getD zero with
      bytesIn := (bytes.map Prod.fst).sum
      bytesOut := (bytes.map Prod.snd).sum }

/-- The 15 s buckets of a series in an hour, of those from `lo` on and before `hi`. -/
def bucketsIn (rrd : List RrdRow) (lo hi : Int) (k : Int × String) : List Bucket :=
  (rrd.filter fun row => row.tier = 2 ∧ row.agentID = k.2 ∧ lo ≤ row.bucket.T ∧ row.bucket.T < hi ∧
    bucketStart hourMillis row.bucket.T = k.1).map RrdRow.bucket

/-- Hourly bytes from the 15 s buckets, per agent. -/
def hourlyRrd (rrd : List RrdRow) (lo hi : Int) (t : RollupTable) : RollupTable :=
  fun k => RollupRow.summed (t k) ((bucketsIn rrd lo hi k).map fun b => (b.In, b.Out))

def hoursOf (day : Int) : List Int := (List.range 24).map fun i : Nat => day + i * hourMillis

/-- Daily bytes from the hourly rows, whose keys are starts of hours. -/
def dailyHourly (hourly : RollupTable) (lo hi : Int) (t : RollupTable) : RollupTable :=
  fun k =>
    if lo ≤ k.1 ∧ k.1 < hi ∧ bucketStart dayMillis k.1 = k.1 then
      RollupRow.summed (t k) (((hoursOf k.1).filterMap fun h => hourly (h, k.2)).map fun row =>
        (row.bytesIn, row.bytesOut))
    else t k

def Rollups.runRollup (r : Rollups) (rrd : List RrdRow) (sessions : List SessionRow) (nowMs : Int) :
    Rollups :=
  let curHour := bucketStart hourMillis nowMs
  let curHourEnd := curHour + hourMillis
  let lo := rollFrom rrd nowMs
  let dayFrom := bucketStart dayMillis lo
  let dayEnd := (curHour.tdiv dayMillis + 1) * dayMillis
  let hourly := sessionLegs sessions hourMillis lo curHourEnd (hourlyRrd rrd lo curHourEnd r.hourly)
  { hourly
    daily := sessionLegs sessions dayMillis dayFrom dayEnd
      (dailyHourly hourly dayFrom dayEnd r.daily) }

/-- What the ring of the 15 s tier spans. -/
def lapMs : Nat := 108000000

def rollupHourlyRetention : Int := 90 * dayMillis

/-- What `prune` does to the rollups. -/
def Rollups.prune (r : Rollups) (nowMs : Int) : Rollups :=
  { r with hourly := fun k => if k.1 < nowMs - rollupHourlyRetention then none else r.hourly k }

/-- The bytes that a row counts; no row counts none. -/
def bytesOf (row : Option RollupRow) : Int × Int :=
  ((row.getD .zero).bytesIn, (row.getD .zero).bytesOut)

/-- The stats store and the rollups over one database, with what the rollups have shown. -/
structure Rolling where
  stats : Persistence
  rollups : Rollups
  clock : Nat
  /-- The most bytes in and out that an hour of a series has had. -/
  had : Int × String → Int × Int
  /-- The bytes of an hour of a series when it was first rolled with all its buckets. -/
  finalized : Int × String → Option (Int × Int)
  /-- No hour from this time on has been pruned. -/
  pruned : Int

inductive RollStep
  | stats (l : PersistStep)
  | rollup (nowMs : Nat) (sessions : List SessionRow)
  | prune (nowMs : Nat)

/-- A later bucket of the series is stored, so that those of the hour are complete. -/
def hourComplete (rrd : List RrdRow) (k : Int × String) : Bool :=
  rrd.any fun row => row.tier = 2 ∧ row.agentID = k.2 ∧ k.1 + hourMillis ≤ row.bucket.T

namespace Rolling

def init : Rolling where
  stats := .init
  rollups := ⟨fun _ => none, fun _ => none⟩
  clock := 0
  had := fun _ => (0, 0)
  finalized := fun _ => none
  pruned := 0

/-- The time of a step of the stats store, if it has one. -/
def timeOf (s : Rolling) : PersistStep → Nat
  | .sample r _ _ => r.t
  | .sampleAgent _ r _ => r.t
  | _ => s.clock

/-- What a rollup at a time shows. -/
def observe (s : Rolling) (rollups : Rollups) (nowMs : Int) : Rolling :=
  let rrd := s.stats.disk.rrd
  let bytes k := bytesOf (rollups.hourly k)
  let rolled k := bucketsIn rrd (rollFrom rrd nowMs) (bucketStart hourMillis nowMs + hourMillis) k
  { s with
    rollups
    had := fun k => (max (s.had k).1 (bytes k).1, max (s.had k).2 (bytes k).2)
    finalized := fun k =>
      (s.finalized k).or (if (rolled k).isEmpty = false ∧ hourComplete rrd k then some (bytes k)
        else none) }

def step (s : Rolling) : RollStep → Option Rolling
  | .stats l =>
    if s.clock ≤ s.timeOf l then
      (s.stats.step l).map fun stats => { s with stats, clock := s.timeOf l }
    else none
  | .rollup nowMs sessions =>
    if s.clock ≤ nowMs then
      some { s.observe (s.rollups.runRollup s.stats.disk.rrd sessions nowMs) nowMs
        with clock := nowMs }
    else none
  | .prune nowMs =>
    if s.clock ≤ nowMs then
      some { s with
        rollups := s.rollups.prune nowMs
        clock := nowMs
        pruned := max s.pruned (nowMs - rollupHourlyRetention) }
    else none

/-- An hour that was rolled with all its buckets keeps its bytes, and no day has fewer bytes than
its hours have had. -/
def Final (s : Rolling) : Prop :=
  (∀ k bytes, s.finalized k = some bytes → ∀ row, s.rollups.hourly k = some row →
    (row.bytesIn, row.bytesOut) = bytes) ∧
  ∀ day id, bucketStart dayMillis day = day →
    ((hoursOf day).map fun h => (s.had (h, id)).1).sum ≤ (bytesOf (s.rollups.daily (day, id))).1 ∧
    ((hoursOf day).map fun h => (s.had (h, id)).2).sum ≤ (bytesOf (s.rollups.daily (day, id))).2

end Rolling

end ProxyForward

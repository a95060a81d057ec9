import Mathlib.Data.List.Dedup
import ProxyForward.Tables

namespace ProxyForward
set_option autoImplicit true

def hourMillis : Int := 3600000

def dayMillis : Int := 86400000

structure SessionRow where
  id : Int
  agentID : String
  startedMs : Int
  playerUUID : Option String
  playerName : Option String
  deriving DecidableEq, Repr

/-- An hourly or daily aggregate; a new one has zeros. -/
structure RollupRow where
  bytesIn : Int
  bytesOut : Int
  sessions : Nat
  uniquePlayers : Nat
  deriving DecidableEq, Repr

def RollupRow.zero : RollupRow := ⟨0, 0, 0, 0⟩

/-- Rows by bucket start and agent; agent `""` is gateway-wide. -/
abbrev RollupTable := Table (Int × String) RollupRow

def bucketStart (width t : Int) : Int := t.tdiv width * width

/-- `COUNT(DISTINCT player_uuid)`. -/
def distinctPlayers (rows : List SessionRow) : Nat :=
    (rows.filterMap SessionRow.playerUUID).dedup.length

/-- The upsert of a group's counts; there is no group without rows. -/
def RollupRow.counted (old : Option RollupRow) (rows : List SessionRow) : Option RollupRow :=
  if rows.isEmpty then old
  else some { old.getD zero with sessions := rows.length, uniquePlayers := distinctPlayers rows }

/-- The sessions that start in a bucket, of those from `lo` on and before `hi`. -/
def startedIn (sessions : List SessionRow) (width lo hi bucket : Int) : List SessionRow :=
  sessions.filter fun s =>
    lo ≤ s.startedMs && s.startedMs < hi && bucketStart width s.startedMs = bucket

/-- A leg's counts by agent. -/
def sessionsPerAgent (sessions : List SessionRow) (width lo hi : Int)
    (t : RollupTable) : RollupTable :=
  fun k => RollupRow.counted (t k) ((startedIn sessions width lo hi k.1).filter fun s =>
    s.agentID = k.2)

/-- A leg's counts across all agents. -/
def sessionsGlobal (sessions : List SessionRow) (width lo hi : Int)
    (t : RollupTable) : RollupTable :=
  fun k => if k.2 = "" then RollupRow.counted (t k) (startedIn sessions width lo hi k.1) else t k

/-- The sessions legs of a rollup. -/
def sessionLegs (sessions : List SessionRow) (width lo hi : Int) (t : RollupTable) : RollupTable :=
  sessionsGlobal sessions width lo hi (sessionsPerAgent sessions width lo hi t)

structure Rollups where
  hourly : RollupTable
  daily : RollupTable

def Rollups.rerollSessionRollups (r : Rollups) (retentionDays : Int) (sessions : List SessionRow)
    (fromMs toMs nowMs : Int) : Rollups :=
  let floor := nowMs - retentionDays * dayMillis
  let fromMs := if fromMs < floor then floor else fromMs
  if toMs < fromMs then r
  else
    { hourly := sessionLegs sessions hourMillis (bucketStart hourMillis fromMs)
        (bucketStart hourMillis toMs + hourMillis) r.hourly
      daily := sessionLegs sessions dayMillis (bucketStart dayMillis fromMs)
        (bucketStart dayMillis toMs + dayMillis) r.daily }

theorem counted_counted (old : Option RollupRow) (rows rows' : List SessionRow) :
    RollupRow.counted (RollupRow.counted (RollupRow.counted (RollupRow.counted old rows) rows')
      rows) rows' =
      RollupRow.counted (RollupRow.counted old rows) rows' := by
  unfold RollupRow.counted
  cases rows.isEmpty <;> cases rows'.isEmpty <;> rfl

theorem counted_idem (old : Option RollupRow) (rows : List SessionRow) :
    RollupRow.counted (RollupRow.counted old rows) rows = RollupRow.counted old rows := by
  unfold RollupRow.counted
  cases rows.isEmpty <;> rfl

theorem sessionLegs_idem (sessions : List SessionRow) (width lo hi : Int) (t : RollupTable) :
    sessionLegs sessions width lo hi (sessionLegs sessions width lo hi t) =
      sessionLegs sessions width lo hi t := by
  funext k
  simp only [sessionLegs, sessionsGlobal, sessionsPerAgent]
  by_cases hglobal : k.2 = ""
  · simp only [if_pos hglobal]
    exact counted_counted _ _ _
  · simp only [if_neg hglobal]
    exact counted_idem _ _

theorem reroll_idem (r : Rollups) (retentionDays : Int) (sessions : List SessionRow)
    (fromMs toMs nowMs : Int) :
    (r.rerollSessionRollups retentionDays sessions fromMs toMs nowMs).rerollSessionRollups
        retentionDays sessions fromMs toMs nowMs =
      r.rerollSessionRollups retentionDays sessions fromMs toMs nowMs := by
  simp only [Rollups.rerollSessionRollups]
  generalize (if fromMs < nowMs - retentionDays * dayMillis then nowMs - retentionDays * dayMillis
    else fromMs) = lo
  by_cases hrange : toMs < lo
  · simp only [if_pos hrange]
  · simp only [if_neg hrange, sessionLegs_idem]

end ProxyForward

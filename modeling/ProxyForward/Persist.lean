import Mathlib.Data.Finset.Erase
import Mathlib.Data.Finset.SDiff
import Mathlib.Data.List.Sort
import ProxyForward.History

namespace ProxyForward.Stats
set_option autoImplicit true

/-- A stored bucket; agent `""` is gateway-wide. -/
structure RrdRow where
  agentID : String
  tier : Nat
  bucket : Bucket
  deriving DecidableEq, Repr

/-- The persisted tables that the histories use. -/
structure Disk where
  lifetime : Option Lifetime
  rrd : List RrdRow

def Disk.empty : Disk := ⟨none, []⟩

structure TierSnapshot where
  agentID : String
  tier : Nat
  dirtyFromT : Nat
  floorT : Nat
  buckets : List Bucket

structure SnapshotData where
  lifetime : Lifetime
  tiers : List TierSnapshot
  deleteAgents : Finset String

/-- The valid buckets, oldest first. -/
def Ring.image (r : Ring) : List Bucket :=
  match r.cur with
  | none => []
  | some cur =>
    let floorIdx := cur + 1 - r.slots
    ((List.range' floorIdx (cur + 1 - floorIdx)).filter r.valid).map fun i => r.buf (r.pos i)

def Ring.snapshot (r : Ring) (agentID : String) (tier dirtyFromT : Nat) : Option TierSnapshot :=
  r.cur.map fun cur => ⟨agentID, tier, dirtyFromT, (cur + 1 - r.slots) * r.resMs, r.image⟩

def History.appendTiers (h : History) (agentID : String) : List TierSnapshot :=
  tierSpecs.zipIdx.filterMap fun (spec, ti) =>
    if spec.persist then h.tiers[ti]?.bind fun r => r.snapshot agentID ti (h.lastCurT ti) else none

namespace Store

def snapshot (s : Store) : SnapshotData where
  lifetime := s.life
  tiers := s.global.appendTiers "" ++ s.agents.entries.flatMap fun e => e.2.appendTiers e.1
  deleteAgents := s.evicted

/-- The history of an agent, if it is tracked; the gateway-wide one always is. -/
def historyFor (s : Store) (agentID : String) : Option History :=
  if agentID = "" then some s.global else s.agents.lookup agentID

def setHistory (s : Store) (agentID : String) (h : History) : Store :=
  if agentID = "" then { s with global := h } else { s with agents := s.agents.insert agentID h }

/-- The watermark of a saved tier moves to its newest bucket. -/
def advance (s : Store) (ts : TierSnapshot) : Store :=
  match ts.buckets.getLast?, s.historyFor ts.agentID with
  | some b, some h =>
    s.setHistory ts.agentID { h with lastCurT := Function.update h.lastCurT ts.tier b.T }
  | _, _ => s

/-- What `Flush` does once the save has landed. -/
def saved (s : Store) (snap : SnapshotData) : Store :=
  let s := snap.tiers.foldl advance s
  { s with evicted := s.evicted \ snap.deleteAgents }

def maxAgentHistories : Nat := 32

/-- No agent's last sample is older; of several such agents the map's order decides. -/
def isOldest (s : Store) (victim : String) : Bool :=
  (s.agents.lookup victim).any fun h => s.agents.entries.all fun e => h.touched ≤ e.2.touched

def isFull (s : Store) : Bool := maxAgentHistories ≤ s.agents.keys.length

def evictAgentIfFull (s : Store) (victim : String) : Store :=
  if s.isFull && victim ≠ "" then
    { s with agents := s.agents.erase victim, evicted := insert victim s.evicted }
  else s

def SampleAgent (s : Store) (agentID : String) (r : Reading) (victim : String) : Store :=
  if agentID = "" then s
  else
    match s.agents.lookup agentID with
    | some h => { s with agents := s.agents.insert agentID (h.sample r).2 }
    | none =>
      let s := s.evictAgentIfFull victim
      { s with
        agents := s.agents.insert agentID (newHistory.sample r).2
        evicted := s.evicted.erase agentID }

end Store

/-- An entry that is not misaligned. -/
def Ring.accepts (r : Ring) (b : Bucket) : Bool := 0 < b.T && b.T % r.resMs = 0

/-- Places persisted buckets back; those that are older than a lap are dropped. -/
def restoreTier (r : Ring) (buckets : List Bucket) : Ring :=
  match ((buckets.filter r.accepts).map fun b => b.T / r.resMs).max? with
  | none => r
  | some newest =>
    { r with
      buf := ((buckets.filter r.accepts).filter fun b => newest + 1 - r.slots ≤ b.T / r.resMs).foldl
        (fun buf b => Function.update buf (r.pos (b.T / r.resMs)) b) r.buf
      cur := some newest
      curEmpty := false }

namespace Disk

/-- A tier's buckets, oldest first. -/
def buckets (d : Disk) (agentID : String) (tier : Nat) : List Bucket :=
  ((d.rrd.filter fun row => row.agentID = agentID ∧ row.tier = tier).map
    RrdRow.bucket).insertionSort
    fun b b' => b.T ≤ b'.T

/-- The persisted image; a database without counters holds nothing yet. -/
def LoadStats (d : Disk) : Option SnapshotData :=
  d.lifetime.map fun lifetime =>
    { lifetime
      tiers := (d.rrd.map fun row => (row.agentID, row.tier)).dedup.map fun (agentID, tier) =>
        ⟨agentID, tier, 0, 0, d.buckets agentID tier⟩
      deleteAgents := ∅ }

def saveBucket (agentID : String) (tier : Nat) (rrd : List RrdRow) (b : Bucket) : List RrdRow :=
  (rrd.filter fun row => ¬(row.agentID = agentID ∧ row.tier = tier ∧ row.bucket.T = b.T)) ++
    [⟨agentID, tier, b⟩]

/-- Expires a tier's lapped buckets and writes those from the watermark on. -/
def saveTier (rrd : List RrdRow) (ts : TierSnapshot) : List RrdRow :=
  (ts.buckets.filter fun b => ts.dirtyFromT ≤ b.T).foldl (saveBucket ts.agentID ts.tier)
    (rrd.filter fun row =>
      ¬(row.agentID = ts.agentID ∧ row.tier = ts.tier ∧ row.bucket.T < ts.floorT))

def SaveStats (d : Disk) (snap : SnapshotData) : Disk where
  lifetime := some snap.lifetime
  rrd := snap.tiers.foldl saveTier (d.rrd.filter fun row => row.agentID ∉ snap.deleteAgents)

end Disk

namespace Store

def historyForLoad (s : Store) (agentID : String) : History :=
  (s.historyFor agentID).getD newHistory

def loadTier (s : Store) (ts : TierSnapshot) : Store :=
  let h := s.historyForLoad ts.agentID
  s.setHistory ts.agentID { h with tiers := h.tiers.modify ts.tier (restoreTier · ts.buckets) }

/-- `Open` on a database. -/
def load (d : Disk) : Store :=
  match d.LoadStats with
  | none => .new
  | some snap => snap.tiers.foldl loadTier { Store.new with life := snap.lifetime }

end Store

/-- A flush whose snapshot is taken. -/
structure Saving where
  snap : SnapshotData
  landed : Bool

structure Persistence where
  store : Store
  disk : Disk
  saving : Option Saving

def Persistence.init : Persistence := ⟨Store.load .empty, .empty, none⟩

inductive PersistStep
  | sample (r : Reading) (linkIn linkOut : Int)
  | sampleAgent (agentID : String) (r : Reading) (victim : String)
  | beginFlush
  | saveOk
  /-- A failed save changes nothing on disk, and the flush returns. -/
  | saveFail
  | endFlush
  /-- The process stops, at any point, and opens the same database. -/
  | restart

def Persistence.step (s : Persistence) : PersistStep → Option Persistence
  | .sample r linkIn linkOut => some { s with store := s.store.Sample r linkIn linkOut }
  | .sampleAgent agentID r victim =>
    if agentID = "" ∨ (s.store.agents.lookup agentID).isSome ∨ s.store.isFull = false ∨
        s.store.isOldest victim then
      some { s with store := s.store.SampleAgent agentID r victim }
    else none
  | .beginFlush =>
    match s.saving with
    | none => some { s with saving := some ⟨s.store.snapshot, false⟩ }
    | some _ => none
  | .saveOk =>
    match s.saving with
    | some ⟨snap, false⟩ =>
      some { s with disk := s.disk.SaveStats snap, saving := some ⟨snap, true⟩ }
    | _ => none
  | .saveFail =>
    match s.saving with
    | some ⟨_, false⟩ => some { s with saving := none }
    | _ => none
  | .endFlush =>
    match s.saving with
    | some ⟨snap, true⟩ => some { s with store := s.store.saved snap, saving := none }
    | _ => none
  | .restart => some ⟨Store.load s.disk, s.disk, none⟩

end ProxyForward.Stats

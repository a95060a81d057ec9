import Mathlib.Data.Int.Init
import ProxyForward.Grouping
import ProxyForward.Persist

namespace ProxyForward.Stats
set_option autoImplicit true

def maxHistoryBuckets : Int := 300

/-- The buckets of a window, oldest first. -/
structure HistoryResult where
  windowMs : Int
  bucketMs : Int
  buckets : List Bucket
  deriving DecidableEq, Repr

/-- A 64-bit sum. -/
def wrap64 (x : Int) : Int := Int.bmod x (2 ^ 64)

namespace Ring

/-- Whether an absolute index holds real data. The slot of a negative one is no index. -/
def validAt (r : Ring) (i : Int) : Option Bool :=
  match r.cur with
  | none => some false
  | some cur =>
    if (cur : Int) < i ∨ i ≤ cur - r.slots then some false
    else if i < 0 then none
    else some (decide ((r.buf (r.pos i.toNat)).T = i.toNat * r.resMs))

/-- The oldest index with data, or else the newest one. -/
def oldest (r : Ring) (cur : Nat) : Nat :=
  ((List.range' (cur + 1 - r.slots) (cur - (cur + 1 - r.slots))).find? r.valid).getD cur

end Ring

/-- The tier that serves a window, and the indices of the window in it. -/
structure Chosen where
  ring : Ring
  startIdx : Int
  endIdx : Int
  windowMs : Int

namespace History

/-- The finest tier that holds the window, or the daily one from its oldest data. -/
def choose (h : History) (nowMs : Nat) (windowMs : Int) : Option Chosen :=
  if windowMs ≤ 0 then
    h.tiers.getLast?.bind fun r => r.cur.map fun cur =>
      ⟨r, r.oldest cur, cur, max (nowMs - r.oldest cur * r.resMs) r.resMs⟩
  else
    ((h.tiers.find? fun t => windowMs ≤ t.resMs * t.slots).or h.tiers.getLast?).map fun r =>
      let n := (wrap64 (windowMs + r.resMs - 1)).tdiv r.resMs
      let endIdx : Int := nowMs / r.resMs
      ⟨r, endIdx - n + 1, endIdx, windowMs⟩

end History

/-- The state of the grouping loop. -/
structure Rendering where
  out : List Bucket
  groupIdx : Int
  first : Bool

namespace Rendering

def start : Rendering := ⟨[], -1, true⟩

/-- One turn of the loop; an index outside the ring and a division by zero end it. -/
def turn (r : Ring) (k : Int) (s : Rendering) (i : Int) : Option Rendering :=
  match r.validAt i with
  | none => none
  | some false => some s
  | some true =>
    if k = 0 then none
    else
      let b := r.buf (r.pos i.toNat)
      let grp := i.tdiv k
      if s.first ∨ grp ≠ s.groupIdx then
        some ⟨s.out ++ [⟨b.toMeasures, (grp * k * r.resMs).toNat⟩], grp, false⟩
      else
        some { s with out := s.out.modifyLast fun dst => ⟨dst.merge b.toMeasures, dst.T⟩ }

end Rendering

/-- The cap that a request's `maxBuckets` comes down to. -/
def clampBuckets (maxBuckets : Int) : Int :=
  if maxBuckets ≤ 0 ∨ maxHistoryBuckets < maxBuckets then maxHistoryBuckets else maxBuckets

namespace Chosen

/-- How many buckets of the ring make one of the result. -/
def groupWidth (c : Chosen) (maxBuckets : Int) : Int :=
  (c.endIdx - c.startIdx + 1 + maxBuckets - 1).tdiv maxBuckets

def indices (c : Chosen) : List Int :=
  (List.range (c.endIdx + 1 - c.startIdx).toNat).map fun j : Nat => c.startIdx + j

def render (c : Chosen) (maxBuckets : Int) : Option HistoryResult :=
  (c.indices.foldlM (Rendering.turn c.ring (c.groupWidth maxBuckets)) Rendering.start).map
    fun s => ⟨c.windowMs, c.groupWidth maxBuckets * c.ring.resMs, s.out⟩

end Chosen

/-- The rendered window, if the loop over it gets through. -/
def History.historyAt (h : History) (nowMs : Nat) (windowMs maxBuckets : Int) :
    Option HistoryResult :=
  match h.choose nowMs windowMs with
  | none => some ⟨0, 0, []⟩
  | some c => c.render (clampBuckets maxBuckets)

end ProxyForward.Stats

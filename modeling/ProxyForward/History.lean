import Mathlib.Algebra.Order.Field.Rat
import Mathlib.Data.Finset.Insert
import Mathlib.Data.List.AList
import Mathlib.Logic.Function.Basic

namespace ProxyForward.Stats
set_option autoImplicit true

/-- Open, high, low and close. -/
structure OHLC where
  o : Rat
  h : Rat
  l : Rat
  c : Rat
  deriving DecidableEq, Repr

def OHLC.flat (x : Rat) : OHLC := ⟨x, x, x, x⟩

/-- What a bucket has measured: bytes, their rates, and gauges, which are -1 for unknown. -/
structure Measures where
  In : Int
  Out : Int
  inRate : OHLC
  outRate : OHLC
  conns : OHLC
  rtt : OHLC
  players : OHLC
  loss : OHLC
  deriving DecidableEq, Repr

/-- One time slot of one tier, or one point folded into it. -/
structure Bucket extends Measures where
  T : Nat
  deriving DecidableEq, Repr

def Measures.zero : Measures := ⟨0, 0, .flat 0, .flat 0, .flat 0, .flat 0, .flat 0, .flat 0⟩

structure Ring where
  resMs : Nat
  slots : Nat
  buf : Nat → Bucket
  /-- The index of the newest bucket. -/
  cur : Option Nat
  curEmpty : Bool

def mergeRate (dst b : OHLC) : OHLC := ⟨dst.o, max dst.h b.h, min dst.l b.l, b.c⟩

def mergeGauge (dst b : OHLC) : OHLC :=
  if b.c < 0 then dst
  else if dst.c < 0 then b
  else ⟨dst.o, max dst.h b.h, min dst.l b.l, b.c⟩

/-- Folding a point into a bucket that has some. -/
def Measures.merge (dst b : Measures) : Measures where
  In := dst.In + b.In
  Out := dst.Out + b.Out
  inRate := mergeRate dst.inRate b.inRate
  outRate := mergeRate dst.outRate b.outRate
  conns := mergeGauge dst.conns b.conns
  rtt := mergeGauge dst.rtt b.rtt
  players := mergeGauge dst.players b.players
  loss := mergeGauge dst.loss b.loss

def newRing (resMs slots : Nat) : Ring := ⟨resMs, slots, fun _ => ⟨.zero, 0⟩, none, false⟩

namespace Ring

def pos (r : Ring) (i : Nat) : Nat := i % r.slots

def start (r : Ring) (idx : Nat) : Ring :=
  { r with
    cur := some idx
    buf := Function.update r.buf (r.pos idx) ⟨.zero, idx * r.resMs⟩
    curEmpty := true }

def mergeCur (r : Ring) (b : Bucket) : Ring :=
  match r.cur with
  | none => r
  | some cur =>
    let dst := r.buf (r.pos cur)
    let merged : Measures :=
      if r.curEmpty then { b.toMeasures with In := dst.In + b.In, Out := dst.Out + b.Out }
      else dst.toMeasures.merge b.toMeasures
    { r with buf := Function.update r.buf (r.pos cur) ⟨merged, dst.T⟩, curEmpty := false }

/-- The absolute index holds real data, not a stale lap. -/
def valid (r : Ring) (i : Nat) : Bool :=
  match r.cur with
  | none => false
  | some cur => i ≤ cur && cur < i + r.slots && (r.buf (r.pos i)).T = i * r.resMs

end Ring

/-- Folds a point into the first of some tiers; a bucket that this completes goes to the next. -/
def add : List Ring → Bucket → List Ring
  | [], _ => []
  | r :: rs, b =>
    let idx := b.T / r.resMs
    match r.cur with
    | none => (r.start idx).mergeCur b :: rs
    | some cur =>
      if cur < idx then (r.start idx).mergeCur b :: add rs (r.buf (r.pos cur))
      else if idx < cur then r :: rs
      else r.mergeCur b :: rs

structure TierSpec where
  resMs : Nat
  slots : Nat
  persist : Bool
  deriving DecidableEq, Repr

def tierSpecs : List TierSpec :=
  [⟨100, 1200, false⟩, ⟨1000, 1800, false⟩, ⟨15000, 7200, true⟩, ⟨600000, 5760, true⟩,
    ⟨86400000, 1100, true⟩]

structure History where
  tiers : List Ring
  /-- By tier, the start of the current bucket at the last successful save. -/
  lastCurT : Nat → Nat
  baselined : Bool
  lastT : Nat
  lastIn : Int
  lastOut : Int
  touched : Nat

def newHistory : History where
  tiers := tierSpecs.map fun ts => newRing ts.resMs ts.slots
  lastCurT := fun _ => 0
  baselined := false
  lastT := 0
  lastIn := 0
  lastOut := 0
  touched := 0

/-- One reading of the byte totals and gauges. -/
structure Reading where
  t : Nat
  appIn : Int
  appOut : Int
  conns : Nat
  players : Int
  rttMs : Rat
  lossPct : Rat
  deriving DecidableEq, Repr

def monotonicDelta (cur prev : Int) : Int := if 0 < cur - prev then cur - prev else 0

/-- The point that a reading makes after one at `lastT` with totals `lastIn` and `lastOut`. -/
def Reading.point (r : Reading) (lastT : Nat) (lastIn lastOut : Int) : Bucket :=
  let dIn := monotonicDelta r.appIn lastIn
  let dOut := monotonicDelta r.appOut lastOut
  let dt : Rat := (r.t : Rat) - lastT
  { T := r.t
    In := dIn
    Out := dOut
    inRate := .flat (dIn * 1000 / dt)
    outRate := .flat (dOut * 1000 / dt)
    conns := .flat r.conns
    rtt := .flat (if 0 < r.rttMs then r.rttMs else -1)
    players := .flat (if 0 ≤ r.players then r.players else -1)
    loss := .flat (if 0 ≤ r.lossPct then r.lossPct else -1) }

/-- The byte deltas, if the clock advanced, and the history after the reading. -/
def History.sample (h : History) (r : Reading) : Option (Int × Int) × History :=
  let h := { h with touched := r.t }
  if h.baselined = false then
    (none, { h with baselined := true, lastT := r.t, lastIn := r.appIn, lastOut := r.appOut })
  else if r.t ≤ h.lastT then (none, h)
  else
    let p := r.point h.lastT h.lastIn h.lastOut
    (some (p.In, p.Out),
      { h with lastT := r.t, lastIn := r.appIn, lastOut := r.appOut, tiers := add h.tiers p })

structure Lifetime where
  bytesIn : Int
  bytesOut : Int
  linkBytesIn : Int
  linkBytesOut : Int
  deriving DecidableEq, Repr

structure Store where
  global : History
  agents : AList fun _ : String => History
  evicted : Finset String
  life : Lifetime
  linkBaselined : Bool
  lastLinkIn : Int
  lastLinkOut : Int

def Store.new : Store := ⟨newHistory, ∅, ∅, ⟨0, 0, 0, 0⟩, false, 0, 0⟩

def Store.Sample (s : Store) (r : Reading) (linkIn linkOut : Int) : Store :=
  let (advanced, global) := s.global.sample r
  let s := { s with global }
  let s := if s.linkBaselined then s
    else { s with linkBaselined := true, lastLinkIn := linkIn, lastLinkOut := linkOut }
  match advanced with
  | none => s
  | some (dIn, dOut) =>
    { s with
      life :=
        { bytesIn := s.life.bytesIn + dIn
          bytesOut := s.life.bytesOut + dOut
          linkBytesIn := s.life.linkBytesIn + monotonicDelta linkIn s.lastLinkIn
          linkBytesOut := s.life.linkBytesOut + monotonicDelta linkOut s.lastLinkOut }
      lastLinkIn := linkIn
      lastLinkOut := linkOut }

end ProxyForward.Stats

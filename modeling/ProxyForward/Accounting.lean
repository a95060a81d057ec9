import ProxyForward.RingTiers

namespace ProxyForward.Stats
set_option autoImplicit true

open Cascade

/-- A run of `Sample` calls, each with a reading and the link totals. -/
def run (xs : List (Reading × Int × Int)) : Store :=
  xs.foldl (fun s x => s.Sample x.1 x.2.1 x.2.2) Store.new

/-- The times and byte deltas of the readings after a first one. -/
def deltasFrom (prev : Reading) : List Reading → List (Nat × Int × Int)
  | [] => []
  | r :: rs =>
    (r.t, monotonicDelta r.appIn prev.appIn, monotonicDelta r.appOut prev.appOut) :: deltasFrom r rs

def deltas : List Reading → List (Nat × Int × Int)
  | [] => []
  | r :: rs => deltasFrom r rs

def pointsFrom (prev : Reading) : List Reading → List Bucket
  | [] => []
  | r :: rs => r.point prev.t prev.appIn prev.appOut :: pointsFrom r rs

/-- The points that a run folds in: one for each reading but the first. -/
def points : List Reading → List Bucket
  | [] => []
  | r :: rs => pointsFrom r rs

/-- Open, high, low and close of the known readings, -1 if there are none. -/
def gaugeFold (known : List Rat) : OHLC :=
  ⟨known.head?.getD (-1), known.max?.getD (-1), known.min?.getD (-1), known.getLast?.getD (-1)⟩

namespace Reading

def knownConns (r : Reading) : Option Rat := some r.conns
def knownRtt (r : Reading) : Option Rat := if 0 < r.rttMs then some r.rttMs else none
def knownPlayers (r : Reading) : Option Rat := if 0 ≤ r.players then some r.players else none
def knownLoss (r : Reading) : Option Rat := if 0 ≤ r.lossPct then some r.lossPct else none

end Reading

/-- A bucket of a tier holds the deltas of its span, and the gauges of the readings `gauged` in
it. -/
structure Exact (gauged rs : List Reading) (resMs : Nat) (b : Bucket) : Prop where
  bytesIn : b.In =
    (((deltas rs).filter fun d => b.T ≤ d.1 ∧ d.1 < b.T + resMs).map fun d => d.2.1).sum
  bytesOut : b.Out =
    (((deltas rs).filter fun d => b.T ≤ d.1 ∧ d.1 < b.T + resMs).map fun d => d.2.2).sum
  conns : b.conns = gaugeFold
    ((gauged.filter fun r => b.T ≤ r.t ∧ r.t < b.T + resMs).filterMap Reading.knownConns)
  rtt : b.rtt = gaugeFold
    ((gauged.filter fun r => b.T ≤ r.t ∧ r.t < b.T + resMs).filterMap Reading.knownRtt)
  players : b.players = gaugeFold
    ((gauged.filter fun r => b.T ≤ r.t ∧ r.t < b.T + resMs).filterMap Reading.knownPlayers)
  loss : b.loss = gaugeFold
    ((gauged.filter fun r => b.T ≤ r.t ∧ r.t < b.T + resMs).filterMap Reading.knownLoss)

/-- A quantity in the bucket that a ring is filling. -/
def Ring.filling (f : Measures → Int) (r : Ring) : Int :=
  match r.cur with
  | none => 0
  | some cur => f (r.buf (r.pos cur)).toMeasures

/-- A tier accounts for every byte once: `completed` are the buckets it has ever completed, and
`finer` the rings up to its own. -/
structure Accounts (gauged rs : List Reading) (life : Lifetime) (ts : TierSpec) (r : Ring)
    (completed : List Bucket) (finer : List Ring) : Prop where
  /-- A completed bucket that is not overwritten is there, and exact. -/
  kept : ∀ b ∈ completed, (∃ cur, r.cur = some cur ∧ cur < b.T / ts.resMs + ts.slots) →
    r.valid (b.T / ts.resMs) = true ∧ r.buf (r.pos (b.T / ts.resMs)) = b ∧
      Exact gauged rs ts.resMs b
  /-- What is there besides the bucket being filled was completed, or is a slot that nothing was
  ever written to. -/
  only : ∀ i, r.valid i = true → r.cur ≠ some i → r.buf (r.pos i) ∈ completed ∨
    r.buf (r.pos i) = ⟨.zero, 0⟩ ∧
      ∀ d ∈ deltas rs, ¬(i * ts.resMs ≤ d.1 ∧ d.1 < i * ts.resMs + ts.resMs)
  bytesIn : (completed.map fun b => b.In).sum + (finer.map (Ring.filling Measures.In)).sum =
    ((deltas rs).map fun d => d.2.1).sum
  bytesOut : (completed.map fun b => b.Out).sum + (finer.map (Ring.filling Measures.Out)).sum =
    ((deltas rs).map fun d => d.2.2).sum
  lifetime : life.bytesIn = ((deltas rs).map fun d => d.2.1).sum ∧
    life.bytesOut = ((deltas rs).map fun d => d.2.2).sum

/-- After a run every tier accounts for it. -/
def RunAccounts (gauged : List Reading → List Reading) (xs : List (Reading × Int × Int)) : Prop :=
  ∀ k ts r completed, tierSpecs[k]? = some ts → (run xs).global.tiers[k]? = some r →
    (completedTiers newHistory.tiers (points (xs.map Prod.fst)))[k]? = some completed →
    Accounts (gauged (xs.map Prod.fst)) (xs.map Prod.fst) (run xs).life ts r completed
      ((run xs).global.tiers.take (k + 1))

/-- The clock advances with every reading. -/
def Advancing (xs : List (Reading × Int × Int)) : Prop := xs.Pairwise fun x x' => x.1.t < x'.1.t

theorem sample_advances {s : Store} (hbase : s.global.baselined = true) (ht : s.global.lastT < r.t)
    (linkIn linkOut : Int) :
    (s.Sample r linkIn linkOut).global =
        { s.global with
          touched := r.t
          lastT := r.t
          lastIn := r.appIn
          lastOut := r.appOut
          tiers := add s.global.tiers (r.point s.global.lastT s.global.lastIn s.global.lastOut) } ∧
      (s.Sample r linkIn linkOut).life.bytesIn =
        s.life.bytesIn + monotonicDelta r.appIn s.global.lastIn ∧
      (s.Sample r linkIn linkOut).life.bytesOut =
        s.life.bytesOut + monotonicDelta r.appOut s.global.lastOut := by
  have hsample : s.global.sample r =
      (some (monotonicDelta r.appIn s.global.lastIn, monotonicDelta r.appOut s.global.lastOut),
        { s.global with
          touched := r.t
          lastT := r.t
          lastIn := r.appIn
          lastOut := r.appOut
          tiers := add s.global.tiers (r.point s.global.lastT s.global.lastIn s.global.lastOut)
            }) := by
    simp only [History.sample, hbase, Bool.true_eq_false, if_false, if_neg (not_le.2 ht)]
    rfl
  unfold Store.Sample
  rw [hsample]
  cases s.linkBaselined <;> exact ⟨rfl, rfl, rfl⟩

theorem foldl_sample {s : Store} (prev : Reading) (hbase : s.global.baselined = true)
    (hT : s.global.lastT = prev.t) (hIn : s.global.lastIn = prev.appIn)
    (hOut : s.global.lastOut = prev.appOut)
    (xs : List (Reading × Int × Int)) (hprev : ∀ x ∈ xs, prev.t < x.1.t) (hxs : Advancing xs) :
    let t := xs.foldl (fun s x => s.Sample x.1 x.2.1 x.2.2) s
    t.global.tiers = (pointsFrom prev (xs.map Prod.fst)).foldl add s.global.tiers ∧
      t.life.bytesIn =
        s.life.bytesIn + ((deltasFrom prev (xs.map Prod.fst)).map fun d => d.2.1).sum ∧
      t.life.bytesOut =
        s.life.bytesOut + ((deltasFrom prev (xs.map Prod.fst)).map fun d => d.2.2).sum := by
  induction xs generalizing s prev with
  | nil => exact ⟨rfl, (Int.add_zero _).symm, (Int.add_zero _).symm⟩
  | cons x xs ih =>
    obtain ⟨hnext, hxs⟩ := List.pairwise_cons.1 hxs
    obtain ⟨hglobal, hbytesIn, hbytesOut⟩ :=
      sample_advances hbase (hT ▸ hprev x List.mem_cons_self) x.2.1 x.2.2
    obtain ⟨htiers, hlifeIn, hlifeOut⟩ := ih (s := s.Sample x.1 x.2.1 x.2.2) x.1
      (by rw [hglobal]; exact hbase) (by rw [hglobal]) (by rw [hglobal]) (by rw [hglobal]) hnext hxs
    rw [hIn] at hbytesIn
    rw [hOut] at hbytesOut
    rw [hglobal, hT, hIn, hOut] at htiers
    rw [hbytesIn] at hlifeIn
    rw [hbytesOut] at hlifeOut
    refine ⟨htiers, hlifeIn.trans ?_, hlifeOut.trans ?_⟩
    · simp only [List.map_cons, deltasFrom, List.sum_cons, Int.add_assoc]
    · simp only [List.map_cons, deltasFrom, List.sum_cons, Int.add_assoc]

theorem run_eq (xs : List (Reading × Int × Int)) (hxs : Advancing xs) :
    (run xs).global.tiers = (points (xs.map Prod.fst)).foldl add newHistory.tiers ∧
      (run xs).life.bytesIn = ((deltas (xs.map Prod.fst)).map fun d => d.2.1).sum ∧
      (run xs).life.bytesOut = ((deltas (xs.map Prod.fst)).map fun d => d.2.2).sum := by
  cases xs with
  | nil => exact ⟨rfl, rfl, rfl⟩
  | cons x xs =>
    obtain ⟨hnext, hxs⟩ := List.pairwise_cons.1 hxs
    have h := foldl_sample (s := Store.new.Sample x.1 x.2.1 x.2.2) x.1 rfl rfl rfl rfl xs hnext hxs
    simp only at h
    refine ⟨h.1, h.2.1.trans ?_, h.2.2.trans ?_⟩
    · exact Int.zero_add _
    · exact Int.zero_add _

theorem pointsFrom_map (φ : Bucket → β) (ψ : Reading → β)
    (h : ∀ r lastT lastIn lastOut, φ (r.point lastT lastIn lastOut) = ψ r) (prev : Reading)
    (rs : List Reading) : (pointsFrom prev rs).map φ = rs.map ψ := by
  induction rs generalizing prev with
  | nil => rfl
  | cons r rs ih => rw [pointsFrom, List.map_cons, h, ih, List.map_cons]

theorem points_map (φ : Bucket → β) (ψ : Reading → β)
    (h : ∀ r lastT lastIn lastOut, φ (r.point lastT lastIn lastOut) = ψ r) (rs : List Reading) :
    (points rs).map φ = rs.tail.map ψ := by
  cases rs with
  | nil => rfl
  | cons r rs => exact pointsFrom_map φ ψ h r rs

theorem points_deltas (rs : List Reading) :
    (points rs).map (fun b => (b.T, b.In, b.Out)) = deltas rs := by
  have hfrom (prev : Reading) (rs : List Reading) :
      (pointsFrom prev rs).map (fun b => (b.T, b.In, b.Out)) = deltasFrom prev rs := by
    induction rs generalizing prev with
    | nil => rfl
    | cons r rs ih => rw [pointsFrom, List.map_cons, ih, deltasFrom]; rfl
  cases rs with
  | nil => rfl
  | cons r rs => exact hfrom r rs

theorem points_timed (xs : List (Reading × Int × Int)) (hxs : Advancing xs) :
    Timed ((points (xs.map Prod.fst)).map Bucket.point) := by
  have htimes : ((points (xs.map Prod.fst)).map Bucket.point).map Prod.fst =
      ((xs.map Prod.fst).tail).map Reading.t := by
    rw [List.map_map]
    exact points_map _ _ (fun _ _ _ _ => rfl) _
  rw [Timed, htimes]
  cases xs with
  | nil => exact List.Pairwise.nil
  | cons x xs =>
    rw [List.map_cons, List.tail_cons, List.map_map, List.pairwise_map]
    exact (List.pairwise_cons.1 hxs).2

theorem spanMerged_points {op' : β → β → β} {φ : Measures → β}
    (hφ : ∀ m m', φ (m.merge m') = op' (φ m) (φ m')) (a b : Nat) (bs : List Bucket) :
    (spanMerged Measures.merge a b (bs.map Bucket.point)).map φ =
      merged op' ((bs.filter fun p => a ≤ p.T ∧ p.T < b).map fun p => φ p.toMeasures) := by
  rw [spanMerged, merged_map _ hφ, List.filter_map, List.map_map, List.map_map]
  rfl

theorem gaugeFold_concat (k : Rat) (ks : List Rat) (x : Rat) :
    gaugeFold (k :: ks ++ [x]) =
      ⟨(gaugeFold (k :: ks)).o, max (gaugeFold (k :: ks)).h x,
        min (gaugeFold (k :: ks)).l x, x⟩ := by
  have hlast : (k :: ks ++ [x]).getLast? = some x := List.getLast?_concat
  rw [gaugeFold, hlast]
  simp [gaugeFold, List.max?, List.min?, List.foldl_append]

theorem mergeGauge_fold {known : List Rat} (hknown : ∀ x ∈ known, 0 ≤ x) (hx : 0 ≤ x) :
    mergeGauge (gaugeFold known) (.flat x) = gaugeFold (known ++ [x]) := by
  rw [mergeGauge, if_neg (show ¬(OHLC.flat x).c < 0 from not_lt.2 hx)]
  cases known with
  | nil => exact if_pos (by decide)
  | cons k ks =>
    have hclose : 0 ≤ (gaugeFold (k :: ks)).c := by
      have hlast := List.getLast?_eq_some_getLast (List.cons_ne_nil k ks)
      rw [gaugeFold, hlast]
      exact hknown _ (List.getLast_mem _)
    rw [if_neg (not_lt.2 hclose), gaugeFold_concat]
    rfl

theorem merged_gauge (known : Reading → Option Rat) (hknown : ∀ r, ∀ x ∈ known r, 0 ≤ x)
    (rs : List Reading) (hne : rs ≠ []) :
    merged mergeGauge (rs.map fun r => .flat ((known r).getD (-1))) =
      some (gaugeFold (rs.filterMap known)) := by
  induction rs using List.reverseRecOn with
  | nil => exact absurd rfl hne
  | append_singleton rs r ih =>
    have hall : ∀ x ∈ rs.filterMap known, 0 ≤ x := by
      intro x hx
      obtain ⟨r, -, hr⟩ := List.mem_filterMap.1 hx
      exact hknown r x hr
    have hmerged : merged mergeGauge (rs.map fun r => OHLC.flat ((known r).getD (-1))) =
        if rs = [] then none else some (gaugeFold (rs.filterMap known)) := by
      split
      · rename_i h
        rw [h]
        rfl
      · rename_i h
        exact ih h
    rw [merged, List.map_append, List.foldl_append, ← merged, hmerged, List.filterMap_append]
    rw [List.map_singleton, List.foldl_cons, List.foldl_nil]
    cases hr : known r with
    | none =>
      have hskip (dst : OHLC) : mergeGauge dst (.flat (-1)) = dst := if_pos (by decide)
      rw [Option.getD_none, List.filterMap_cons_none hr, List.filterMap_nil, List.append_nil]
      split
      · rename_i h
        rw [h]
        rfl
      · rw [Option.merge_some_some, hskip]
    | some x =>
      have hx := hknown r x hr
      rw [Option.getD_some, List.filterMap_cons_some hr, List.filterMap_nil]
      split
      · rename_i h
        rw [h]
        rfl
      · rw [Option.merge_some_some, mergeGauge_fold hall hx]

theorem filter_points (φ : Bucket → β) (ψ : Reading → β)
    (h : ∀ r lastT lastIn lastOut, φ (r.point lastT lastIn lastOut) = ψ r) (a b : Nat)
    (rs : List Reading) :
    ((points rs).filter fun p => a ≤ p.T ∧ p.T < b).map φ =
      (rs.tail.filter fun r => a ≤ r.t ∧ r.t < b).map ψ := by
  have hpairs := points_map (fun p => (p.T, φ p)) (fun r => (r.t, ψ r))
    (fun r lastT lastIn lastOut => Prod.ext rfl (h r lastT lastIn lastOut)) rs
  have hfilter := congrArg (fun l => (l.filter fun p => a ≤ p.1 ∧ p.1 < b).map Prod.snd) hpairs
  simp only [List.filter_map, List.map_map] at hfilter
  exact hfilter

theorem filter_deltas (g : Int × Int → Int) (a b : Nat) (rs : List Reading) :
    ((points rs).filter fun p => a ≤ p.T ∧ p.T < b).map (fun p => g (p.In, p.Out)) =
      ((deltas rs).filter fun d => a ≤ d.1 ∧ d.1 < b).map fun d => g d.2 := by
  rw [← points_deltas, List.filter_map, List.map_map]
  rfl

theorem getD_known (c : Prop) [Decidable c] (x : Rat) :
    (if c then x else -1) = (if c then some x else none).getD (-1) := by
  split <;> rfl

theorem mem_known {c : Prop} [Decidable c] {x y : Rat} (h : y ∈ if c then some x else none) :
    c ∧ x = y := by
  split at h
  · exact ⟨‹c›, Option.some.inj h⟩
  · cases h

theorem exact_of_span
    (h : spanMerged Measures.merge b.T (b.T + resMs) ((points rs).map Bucket.point) =
    some b.toMeasures) : Exact rs.tail rs resMs b := by
  have hbytes (g : Int × Int → Int) (hg : ∀ x y : Int × Int, g (x.1 + y.1, x.2 + y.2) = g x + g y) :
      g (b.In, b.Out) =
        (((deltas rs).filter fun d => b.T ≤ d.1 ∧ d.1 < b.T + resMs).map fun d => g d.2).sum := by
    have hspan := spanMerged_points (φ := fun m => g (m.In, m.Out))
      (fun m m' => hg (m.In, m.Out) (m'.In, m'.Out))
      b.T (b.T + resMs) (points rs)
    rw [h, filter_deltas] at hspan
    rw [← merged_add, ← hspan]
    rfl
  have hgauge (φ : Measures → OHLC) (known : Reading → Option Rat)
      (hφ : ∀ m m', φ (m.merge m') = mergeGauge (φ m) (φ m'))
      (hpoint : ∀ r lastT lastIn lastOut,
        φ (r.point lastT lastIn lastOut).toMeasures = .flat ((known r).getD (-1)))
      (hknown : ∀ r, ∀ x ∈ known r, 0 ≤ x) : φ b.toMeasures =
        gaugeFold ((rs.tail.filter fun r => b.T ≤ r.t ∧ r.t < b.T + resMs).filterMap known) := by
    have hspan := spanMerged_points hφ b.T (b.T + resMs) (points rs)
    rw [h, filter_points (fun p => φ p.toMeasures) _ hpoint] at hspan
    have hne : (rs.tail.filter fun r => decide (b.T ≤ r.t ∧ r.t < b.T + resMs)) ≠ [] := by
      intro hnil
      rw [hnil] at hspan
      cases hspan
    rw [merged_gauge known hknown _ hne] at hspan
    exact Option.some.inj hspan
  constructor
  · exact hbytes Prod.fst fun _ _ => rfl
  · exact hbytes Prod.snd fun _ _ => rfl
  · refine hgauge Measures.conns Reading.knownConns (fun _ _ => rfl) (fun _ _ _ _ => rfl)
      fun r x hx => ?_
    obtain rfl := Option.some.inj hx
    exact Nat.cast_nonneg _
  · refine hgauge Measures.rtt Reading.knownRtt (fun _ _ => rfl) (fun r _ _ _ => ?_)
      fun r x hx => ?_
    · exact congrArg OHLC.flat (getD_known _ _)
    · exact (mem_known hx).1.le.trans_eq (mem_known hx).2
  · refine hgauge Measures.players Reading.knownPlayers (fun _ _ => rfl) (fun r _ _ _ => ?_)
      fun r x hx => ?_
    · exact congrArg OHLC.flat (getD_known _ _)
    · exact (Rat.intCast_nonneg.2 (mem_known hx).1).trans_eq (mem_known hx).2
  · refine hgauge Measures.loss Reading.knownLoss (fun _ _ => rfl) (fun r _ _ _ => ?_)
      fun r x hx => ?_
    · exact congrArg OHLC.flat (getD_known _ _)
    · exact (mem_known hx).1.trans_eq (mem_known hx).2

theorem filling_of_mirrors {r : Ring} (f : Measures → Int) (h : r.Mirrors tier) :
    r.filling f = amount f tier.filling := by
  unfold Ring.filling Tier.filling
  rw [h.cur]
  cases hlast : tier.last with
  | none => rfl
  | some last =>
    simp only [Option.map_some, (h.filling last.1 last.2 hlast).2]
    rfl

section

variable {r : Ring} {ts : TierSpec} {tier : Tier Measures} {completed : List Bucket}
    {rs : List Reading}

theorem kept_of_mirrors (hres : 0 < ts.resMs) (hr : r.resMs = ts.resMs ∧ r.slots = ts.slots)
    (hmirrors : r.Mirrors tier) (hclosed : completed.map Bucket.point = tier.closed)
    (hreps : Represents Measures.merge ts.resMs cut ((points rs).map Bucket.point) tier.closed)
    (hb : b ∈ completed) (hcur : r.cur = some cur) (hnear : cur < b.T / ts.resMs + ts.slots) :
    r.valid (b.T / ts.resMs) = true ∧ r.buf (r.pos (b.T / ts.resMs)) = b ∧
      Exact rs.tail rs ts.resMs b := by
  have hb : b.point ∈ tier.closed := hclosed ▸ List.mem_map_of_mem hb
  obtain ⟨i, m, hlast, hlt, halign⟩ := hmirrors.starts _ hb
  have hi : i = cur := by
    have h := hmirrors.cur
    rw [hlast, hcur] at h
    exact (Option.some.inj h).symm
  subst hi
  have hbuf := hmirrors.kept _ hb i m hlast (by rw [hr.1, hr.2]; exact hnear)
  rw [hr.1] at hlt halign hbuf
  have hbuf : r.buf (r.pos (b.T / ts.resMs)) = b := hbuf
  refine ⟨?_, hbuf, exact_of_span (hreps.mem _ hres hb)⟩
  have hlt : b.T / ts.resMs < i := hlt
  have halign : b.T / ts.resMs * ts.resMs = b.T := halign
  simp only [Ring.valid, hcur, hbuf, hr.1, hr.2, halign, Bool.and_eq_true, decide_eq_true_eq]
  exact ⟨⟨hlt.le, hnear⟩, trivial⟩

theorem only_of_mirrors (hres : 0 < ts.resMs) (hr : r.resMs = ts.resMs ∧ r.slots = ts.slots)
    (hmirrors : r.Mirrors tier) (hclosed : completed.map Bucket.point = tier.closed)
    (hreps : Represents Measures.merge ts.resMs cut ((points rs).map Bucket.point) tier.closed)
    (hcut : ∀ i m, tier.last = some (i, m) → cut = i * ts.resMs)
    (hi : r.valid i = true) (hne : r.cur ≠ some i) : r.buf (r.pos i) ∈ completed ∨
      r.buf (r.pos i) = ⟨.zero, 0⟩ ∧
        ∀ d ∈ deltas rs, ¬(i * ts.resMs ≤ d.1 ∧ d.1 < i * ts.resMs + ts.resMs) := by
  have hcompleted : ∀ c ∈ tier.closed, r.buf (r.pos i) = ⟨c.2, c.1⟩ →
    r.buf (r.pos i) ∈ completed := by
    intro c hc hbuf
    obtain ⟨b, hb, rfl⟩ := List.mem_map.1 (hclosed.symm ▸ hc)
    rw [hbuf]
    exact hb
  unfold Ring.valid at hi
  cases hcur : r.cur with
  | none =>
    rw [hcur] at hi
    cases hi
  | some cur =>
    rw [hcur] at hi hne
    simp only [Bool.and_eq_true, decide_eq_true_eq] at hi
    obtain ⟨⟨hle, hnear⟩, hT⟩ := hi
    have hlt : i < cur := lt_of_le_of_ne hle fun heq => hne (congrArg some heq.symm)
    obtain ⟨m, hlast⟩ : ∃ m, tier.last = some (cur, m) := by
      obtain ⟨⟨j, m⟩, hlast, rfl⟩ := Option.map_eq_some_iff.1 (hmirrors.cur.symm.trans hcur)
      exact ⟨m, hlast⟩
    obtain hzero | ⟨c, hc, hbuf⟩ | ⟨j, m', hlast', hpos⟩ := hmirrors.written (r.pos i)
    · -- a slot that was not written to can only be the one of the first bucket there is
      obtain rfl : i = 0 := by
        rw [hzero, hr.1] at hT
        exact (Nat.mul_eq_zero.1 hT.symm).resolve_right hres.ne'
      by_cases hfirst : ∃ c ∈ tier.closed, c.1 = 0
      · obtain ⟨c, hc, hstart⟩ := hfirst
        have hindex : c.1 / r.resMs = 0 := by rw [hstart, Nat.zero_div]
        have hbuf := hmirrors.kept c hc cur m hlast (by rw [hindex]; exact hnear)
        rw [hindex] at hbuf
        exact .inl (hcompleted c hc hbuf)
      · refine .inr ⟨hzero, fun d hd => ?_⟩
        rw [← points_deltas] at hd
        obtain ⟨p, hp, rfl⟩ := List.mem_map.1 hd
        refine not_within_of_spanMerged Measures.merge ?_
          (List.mem_map_of_mem (f := Bucket.point) hp)
        have hle : 0 * ts.resMs + ts.resMs ≤ cut := by
          rw [hcut cur m hlast, Nat.zero_mul, Nat.zero_add]
          exact Nat.le_mul_of_pos_left _ hlt
        rw [← hreps.spans _ _ (Dvd.intro_left 0 rfl)
          (Nat.dvd_add (Dvd.intro_left 0 rfl) dvd_rfl) hle]
        refine spanMerged_eq_none _ fun c hc hspan => hfirst ⟨c, hc, ?_⟩
        have hlt : c.1 < ts.resMs := by omega
        exact Nat.eq_zero_of_dvd_of_lt (hreps.starts c hc).1 hlt
    · exact .inl (hcompleted c hc hbuf)
    · obtain ⟨rfl, -⟩ := Prod.mk.inj (Option.some.inj (hlast.symm.trans hlast'))
      exact absurd hpos (Ring.pos_ne hlt hnear)

end

theorem add_specs (rs : List Ring) (b : Bucket) :
    (add rs b).map (fun r => (r.resMs, r.slots)) = rs.map fun r => (r.resMs, r.slots) := by
  induction rs generalizing b with
  | nil => rfl
  | cons r rs ih =>
    rw [add_cons, List.map_cons, List.map_cons, (r.put_resMs b).1, (r.put_resMs b).2]
    cases r.completed b with
    | none => rfl
    | some c => exact congrArg _ (ih c)

theorem foldl_add_specs (rs : List Ring) (bs : List Bucket) :
    (bs.foldl add rs).map (fun r => (r.resMs, r.slots)) = rs.map fun r => (r.resMs, r.slots) := by
  induction bs generalizing rs with
  | nil => rfl
  | cons b bs ih => rw [List.foldl_cons, ih, add_specs]

theorem forall₂_getElem? {R : α → β → Prop} {l : List α} {l' : List β} {k : Nat}
    (h : List.Forall₂ R l l') (ha : l[k]? = some a) : ∃ b, l'[k]? = some b ∧ R a b := by
  induction h generalizing k with
  | nil => cases ha
  | cons hab _ ih =>
    cases k with
    | zero =>
      obtain rfl := Option.some.inj ha
      exact ⟨_, rfl, hab⟩
    | succ k => exact ih ha

theorem tierSpecs_widths :
    (∀ ts ∈ tierSpecs, 0 < ts.resMs) ∧
    List.IsChain (· ∣ ·) (1 :: tierSpecs.map TierSpec.resMs) := by
  decide

/-- The ladder that the points of some readings make. -/
def runLadder (rs : List Reading) : List (Tier Measures) :=
  ladder Measures.merge (tierSpecs.map TierSpec.resMs) ((points rs).map Bucket.point)

theorem mirrors_runLadder (rs : List Reading) :
    List.Forall₂ Ring.Mirrors ((points rs).foldl add newHistory.tiers) (runLadder rs) ∧
      (completedTiers newHistory.tiers (points rs)).map (List.map Bucket.point) =
        (runLadder rs).map Tier.closed :=
  mirrors_ladder tierSpecs tierSpecs_widths.1 (points rs)

theorem map_filling (f : Measures → Int) (h : List.Forall₂ Ring.Mirrors rs tiers) :
    rs.map (Ring.filling f) = tiers.map fun tier => amount f tier.filling := by
  induction h with
  | nil => rfl
  | cons hmirrors _ ih => rw [List.map_cons, List.map_cons, filling_of_mirrors f hmirrors, ih]

theorem exists_after (ps : List (Nat × M)) : ∃ last, ∀ p ∈ ps, p.1 < last := by
  induction ps with
  | nil => exact ⟨0, fun p hp => absurd hp List.not_mem_nil⟩
  | cons q ps ih =>
    obtain ⟨last, hlast⟩ := ih
    refine ⟨max last (q.1 + 1), fun p hp => ?_⟩
    obtain rfl | hp := List.mem_cons.1 hp
    · omega
    · have := hlast p hp
      omega

/-- Every tier accounts for every byte once, and for the gauges of all readings but the first. -/
theorem runAccounts (xs : List (Reading × Int × Int)) (hxs : Advancing xs) :
    RunAccounts List.tail xs := by
  intro k ts r completed hts hr hcompleted
  obtain ⟨htiers, hlifeIn, hlifeOut⟩ := run_eq xs hxs
  have htimed := points_timed xs hxs
  generalize xs.map Prod.fst = rs at htiers hlifeIn hlifeOut htimed hcompleted ⊢
  obtain ⟨hpos, hchain⟩ := tierSpecs_widths
  have hwidths : ∀ w ∈ tierSpecs.map TierSpec.resMs, 0 < w := by
    intro w hw
    obtain ⟨ts, hts, rfl⟩ := List.mem_map.1 hw
    exact hpos ts hts
  obtain ⟨hmirrors, hclosed⟩ := mirrors_runLadder rs
  rw [htiers] at hr ⊢
  obtain ⟨tier, htier, hr'⟩ := forall₂_getElem? hmirrors hr
  have hspec : r.resMs = ts.resMs ∧ r.slots = ts.slots := by
    have h := congrArg (·[k]?) (foldl_add_specs newHistory.tiers (points rs))
    simp only [List.getElem?_map, hr, Option.map_some] at h
    rw [newHistory, List.getElem?_map, hts] at h
    exact Prod.mk.inj (Option.some.inj h)
  have hclosed' : completed.map Bucket.point = tier.closed := by
    have h := congrArg (·[k]?) hclosed
    simp only [List.getElem?_map, htier, hcompleted] at h
    exact Option.some.inj h
  obtain ⟨last, hlast⟩ := exists_after ((points rs).map Bucket.point)
  obtain ⟨cut, hreps, hcut⟩ := ladder_represents Measures.merge hwidths hchain
    (Represents.refl Measures.merge htimed hlast) htier (by rw [List.getElem?_map, hts]; rfl)
  have htotal (f : Measures → Int) (hf : ∀ m m' : Measures, f (m.merge m') = f m + f m') :
      (completed.map fun b => f b.toMeasures).sum +
          ((((points rs).foldl add newHistory.tiers).take (k + 1)).map (Ring.filling f)).sum =
        ((points rs).map fun b => f b.toMeasures).sum := by
    have h := ladder_total Measures.merge hf hwidths htimed htier
    rw [← runLadder, List.map_take, ← map_filling f hmirrors, ← List.map_take, ← hclosed',
      total, total, List.map_map, List.map_map] at h
    exact h
  have hres := hpos ts (List.mem_of_getElem? hts)
  constructor
  · rintro b hb ⟨cur, hcur, hnear⟩
    exact kept_of_mirrors hres hspec hr' hclosed' hreps hb hcur hnear
  · intro i hi hne
    exact only_of_mirrors hres hspec hr' hclosed' hreps hcut hi hne
  · refine (htotal Measures.In fun _ _ => rfl).trans ?_
    rw [← points_deltas, List.map_map]
    rfl
  · refine (htotal Measures.Out fun _ _ => rfl).trans ?_
    rw [← points_deltas, List.map_map]
    rfl
  · exact ⟨hlifeIn, hlifeOut⟩

def reading (t conns : Nat) : Reading × Int × Int := (⟨t, 0, 0, conns, -1, 0, -1⟩, 0, 0)

/-- Two readings in a tier's first bucket, and one after it. -/
def threeReadings : List (Reading × Int × Int) := [reading 1000 5, reading 1050 3, reading 1150 3]

theorem runAccounts_three : RunAccounts List.tail threeReadings :=
  runAccounts threeReadings (by simp [Advancing, threeReadings, reading])

/-- The first reading is in the span of a bucket, but not in its gauges. -/
theorem first_reading_not_gauged : ¬RunAccounts (fun rs => rs) threeReadings := by
  intro h
  obtain ⟨r, hr, hcur⟩ : ∃ r, (run threeReadings).global.tiers[0]? = some r ∧ r.cur = some 11 :=
    ⟨_, rfl, rfl⟩
  obtain ⟨b, hb, hT, hconns⟩ : ∃ b,
      (completedTiers newHistory.tiers (points (threeReadings.map Prod.fst)))[0]? = some [b] ∧
        b.T = 1000 ∧ b.conns = .flat 3 :=
    ⟨_, rfl, rfl, rfl⟩
  have hexact := ((h 0 ⟨100, 1200, false⟩ r [b] rfl hr hb).kept b List.mem_cons_self
    ⟨11, hcur, by rw [hT]; decide⟩).2.2.conns
  rw [hconns, hT] at hexact
  exact absurd hexact (by decide)

end ProxyForward.Stats

import Mathlib.Algebra.Order.Ring.Cast
import ProxyForward.HistoryQueries
import ProxyForward.PersistImage
import ProxyForward.RingTiers

namespace ProxyForward.Stats
open Runs
set_option autoImplicit true

/-- The open and the close are between the low and the high, and none is negative. -/
structure OHLC.Candle (x : OHLC) : Prop where
  low : 0 ≤ x.l
  opened : x.l ≤ x.o ∧ x.o ≤ x.h
  closed : x.l ≤ x.c ∧ x.c ≤ x.h

/-- A gauge is a candle, or -1 throughout where it is unknown. -/
def OHLC.Gauge (x : OHLC) : Prop := x.Candle ∨ x = .flat (-1)

structure Measures.Sound (m : Measures) : Prop where
  bytes : 0 ≤ m.In ∧ 0 ≤ m.Out
  rates : m.inRate.Candle ∧ m.outRate.Candle
  gauges : m.conns.Gauge ∧ m.rtt.Gauge ∧ m.players.Gauge ∧ m.loss.Gauge

/-- A property that the points have and that folding keeps. -/
structure Closed (P : Measures → Prop) : Prop where
  zero : P .zero
  point : ∀ (r : Reading) lastT lastIn lastOut, lastT < r.t →
    P (r.point lastT lastIn lastOut).toMeasures
  first : ∀ dst b, P dst → P b → P { b with In := dst.In + b.In, Out := dst.Out + b.Out }
  merge : ∀ dst b, P dst → P b → P (dst.merge b)

variable {P : Measures → Prop}

def Ring.All (P : Measures → Prop) (r : Ring) : Prop := ∀ i, P (r.buf i).toMeasures

def History.All (P : Measures → Prop) (h : History) : Prop := ∀ r ∈ h.tiers, r.All P

structure Store.All (P : Measures → Prop) (s : Store) : Prop where
  global : s.global.All P
  agents : ∀ id h, s.agents.lookup id = some h → h.All P

def Disk.All (P : Measures → Prop) (d : Disk) : Prop := ∀ row ∈ d.rrd, P row.bucket.toMeasures

def SnapshotData.All (P : Measures → Prop) (snap : SnapshotData) : Prop :=
  ∀ ts ∈ snap.tiers, ∀ b ∈ ts.buckets, P b.toMeasures

/-- Every bucket in memory, on disk and on its way there has the property. -/
structure Persistence.All (P : Measures → Prop) (s : Persistence) : Prop where
  store : s.store.All P
  disk : s.disk.All P
  saving : ∀ saving, s.saving = some saving → saving.snap.All P

namespace OHLC

theorem Candle.flat (h : 0 ≤ x) : (OHLC.flat x).Candle :=
  ⟨h, ⟨le_rfl, le_rfl⟩, ⟨le_rfl, le_rfl⟩⟩

theorem Gauge.flat (h : 0 ≤ x) : (OHLC.flat x).Gauge := .inl (.flat h)

theorem Gauge.unknown : (OHLC.flat (-1)).Gauge := .inr rfl

theorem Gauge.candle {x : OHLC} (h : x.Gauge) (hc : 0 ≤ x.c) : x.Candle := by
  obtain hcandle | rfl := h
  · exact hcandle
  · exact absurd hc (by decide)

theorem Candle.merge {dst b : OHLC} (hdst : dst.Candle) (hb : b.Candle) :
    (⟨dst.o, max dst.h b.h, min dst.l b.l, b.c⟩ : OHLC).Candle where
  low := le_min hdst.low hb.low
  opened := ⟨(min_le_left _ _).trans hdst.opened.1, hdst.opened.2.trans (le_max_left _ _)⟩
  closed := ⟨(min_le_right _ _).trans hb.closed.1, hb.closed.2.trans (le_max_right _ _)⟩

theorem Gauge.merge {dst b : OHLC} (hdst : dst.Gauge) (hb : b.Gauge) :
    (mergeGauge dst b).Gauge := by
  unfold mergeGauge
  by_cases hbc : b.c < 0
  · rw [if_pos hbc]
    exact hdst
  rw [if_neg hbc]
  by_cases hdc : dst.c < 0
  · rw [if_pos hdc]
    exact hb
  rw [if_neg hdc]
  exact .inl ((hdst.candle (not_lt.1 hdc)).merge (hb.candle (not_lt.1 hbc)))

end OHLC

theorem monotonicDelta_nonneg (cur prev : Int) : 0 ≤ monotonicDelta cur prev := by
  unfold monotonicDelta
  split
  · exact le_of_lt ‹_›
  · exact le_rfl

theorem rate_nonneg {d : Int} (hd : 0 ≤ d) (hlt : lastT < t) :
    0 ≤ (d : Rat) * 1000 / ((t : Nat) - (lastT : Nat)) := by
  have hpos : (0 : Rat) < t - lastT := sub_pos.2 (Nat.cast_lt.2 hlt)
  exact div_nonneg (mul_nonneg (Int.cast_nonneg hd) (by decide)) hpos.le

theorem sound_point (r : Reading) (lastIn lastOut : Int) (hlt : lastT < r.t) :
    (r.point lastT lastIn lastOut).Sound where
  bytes := ⟨monotonicDelta_nonneg _ _, monotonicDelta_nonneg _ _⟩
  rates := ⟨.flat (rate_nonneg (monotonicDelta_nonneg _ _) hlt),
    .flat (rate_nonneg (monotonicDelta_nonneg _ _) hlt)⟩
  gauges := by
    refine ⟨.flat (Nat.cast_nonneg _), ?_, ?_, ?_⟩
    all_goals
      simp only [Reading.point]
      split
    · exact .flat (le_of_lt ‹_›)
    · exact .unknown
    · exact .flat (Int.cast_nonneg ‹_›)
    · exact .unknown
    · exact .flat ‹_›
    · exact .unknown

theorem sound_closed : Closed Measures.Sound where
  zero := ⟨⟨le_rfl, le_rfl⟩, ⟨.flat le_rfl, .flat le_rfl⟩,
    ⟨.flat le_rfl, .flat le_rfl, .flat le_rfl, .flat le_rfl⟩⟩
  point := fun r _ lastIn lastOut hlt => sound_point r lastIn lastOut hlt
  first := fun _ _ hdst hb => ⟨⟨add_nonneg hdst.bytes.1 hb.bytes.1,
    add_nonneg hdst.bytes.2 hb.bytes.2⟩, hb.rates, hb.gauges⟩
  merge := by
    intro dst b hdst hb
    obtain ⟨hconns, hrtt, hplayers, hloss⟩ := hdst.gauges
    obtain ⟨hconns', hrtt', hplayers', hloss'⟩ := hb.gauges
    exact ⟨⟨add_nonneg hdst.bytes.1 hb.bytes.1, add_nonneg hdst.bytes.2 hb.bytes.2⟩,
      ⟨hdst.rates.1.merge hb.rates.1, hdst.rates.2.merge hb.rates.2⟩,
      ⟨hconns.merge hconns', hrtt.merge hrtt', hplayers.merge hplayers', hloss.merge hloss'⟩⟩

namespace Ring

theorem All.update {r : Ring} (h : r.All P) (hb : P b.toMeasures) :
    ∀ i, P (Function.update r.buf p b i).toMeasures := by
  intro i
  by_cases hi : i = p
  · rw [hi, Function.update_self]
    exact hb
  · rw [Function.update_of_ne hi]
    exact h i

theorem All.put {r : Ring} (h : r.All P) (hb : P b.toMeasures) (idx : Nat) :
    ((r.start idx).mergeCur b).All P := by
  rw [start_mergeCur]
  exact h.update (b := ⟨b.toMeasures, _⟩) hb

theorem All.mergeCur {r : Ring} (hP : Closed P) (h : r.All P) (hb : P b.toMeasures) :
    (r.mergeCur b).All P := by
  unfold Ring.mergeCur
  split
  · exact h
  · rename_i cur _
    apply h.update
    split
    · exact hP.first _ _ (h _) hb
    · exact hP.merge _ _ (h _) hb

end Ring

theorem all_add (hP : Closed P) {rs : List Ring} (h : ∀ r ∈ rs, r.All P) (hb : P b.toMeasures) :
    ∀ r ∈ add rs b, r.All P := by
  induction rs generalizing b with
  | nil => exact h
  | cons r rs ih =>
    obtain ⟨hr, hrs⟩ := List.forall_mem_cons.1 h
    unfold add
    simp only
    split
    · exact List.forall_mem_cons.2 ⟨hr.put hb _, hrs⟩
    · split
      · exact List.forall_mem_cons.2 ⟨hr.put hb _, ih hrs (hr _)⟩
      · split
        · exact h
        · exact List.forall_mem_cons.2 ⟨hr.mergeCur hP hb, hrs⟩

theorem History.all_new (hP : Closed P) : newHistory.All P := by
  intro r hr i
  obtain ⟨spec, -, rfl⟩ := List.mem_map.1 hr
  exact hP.zero

theorem History.All.sample {h : History} (hP : Closed P) (hall : h.All P) (r : Reading) :
    (h.sample r).2.All P := by
  unfold History.sample
  simp only
  split
  · exact hall
  · split
    · exact hall
    · rename_i hlt
      exact all_add hP hall (hP.point r _ _ _ (not_le.1 hlt))

namespace Store

theorem All.historyFor {s : Store} {id : String} (hs : s.All P) (hh : s.historyFor id = some h) :
    h.All P := by
  unfold Store.historyFor at hh
  split at hh
  · cases hh
    exact hs.global
  · exact hs.agents id h hh

theorem All.insert {s : Store} (hs : s.All P) (hh : h.All P) (id : String)
    (evicted : Finset String) :
    ({ s with agents := s.agents.insert id h, evicted } : Store).All P := by
  refine ⟨hs.global, fun id' h' hid => ?_⟩
  by_cases heq : id' = id
  · subst heq
    rw [AList.lookup_insert] at hid
    cases hid
    exact hh
  · rw [AList.lookup_insert_ne heq] at hid
    exact hs.agents id' h' hid

theorem All.setHistory {s : Store} (hs : s.All P) (hh : h.All P) (id : String) :
    (s.setHistory id h).All P := by
  unfold Store.setHistory
  split
  · exact ⟨hh, hs.agents⟩
  · exact hs.insert hh id s.evicted

theorem all_new (hP : Closed P) (life : Lifetime) : ({ Store.new with life } : Store).All P :=
  ⟨History.all_new hP, fun _ _ h => nomatch h⟩

theorem All.sample {s : Store} (hP : Closed P) (hs : s.All P) (r : Reading) (linkIn linkOut : Int) :
    (s.Sample r linkIn linkOut).All P := by
  obtain ⟨hagents, -, hfor⟩ := s.Sample_histories r linkIn linkOut
  refine ⟨?_, hagents ▸ hs.agents⟩
  have hglobal := hfor ""
  rw [if_pos rfl, Store.historyFor, if_pos rfl] at hglobal
  exact Option.some_inj.1 hglobal ▸ hs.global.sample hP r

theorem All.sampleAgent {s : Store} (hP : Closed P) (hs : s.All P) (id : String) (r : Reading)
    (victim : String) : (s.SampleAgent id r victim).All P := by
  unfold Store.SampleAgent
  split
  · exact hs
  · split
    · rename_i h hh
      exact hs.insert ((hs.agents id h hh).sample hP r) id s.evicted
    · have hkept : (s.evictAgentIfFull victim).All P := by
        unfold Store.evictAgentIfFull
        split
        · refine ⟨hs.global, fun id' h' hid => ?_⟩
          by_cases heq : id' = victim
          · rw [heq, AList.lookup_erase] at hid
            cases hid
          · rw [AList.lookup_erase_ne heq] at hid
            exact hs.agents id' h' hid
        · exact hs
      exact hkept.insert ((History.all_new hP).sample hP r) id _

theorem All.saved {s : Store} (hs : s.All P) (snap : SnapshotData) : (s.saved snap).All P := by
  have hfold : (snap.tiers.foldl Store.advance s).All P := by
    generalize snap.tiers = tiers
    induction tiers generalizing s with
    | nil => exact hs
    | cons ts tiers ih =>
      apply ih
      unfold Store.advance
      split
      · rename_i hh
        have hall := hs.historyFor hh
        refine hs.setHistory ?_ ts.agentID
        exact hall
      · exact hs
  exact ⟨hfold.global, hfold.agents⟩

theorem mem_image {r : Ring} (h : r.All P) : ∀ b ∈ r.image, P b.toMeasures := by
  intro b hb
  unfold Ring.image at hb
  split at hb
  · cases hb
  · obtain ⟨i, -, rfl⟩ := List.mem_map.1 hb
    exact h _

theorem mem_appendTiers {h : History} {id : String} (hh : h.All P) :
    ∀ ts ∈ h.appendTiers id, ∀ b ∈ ts.buckets, P b.toMeasures := by
  intro ts hts
  obtain ⟨⟨spec, ti⟩, -, hti⟩ := List.mem_filterMap.1 hts
  simp only at hti
  split at hti
  · obtain ⟨r, hr, hsnap⟩ := Option.bind_eq_some_iff.1 hti
    obtain ⟨cur, -, rfl⟩ := Option.map_eq_some_iff.1 hsnap
    exact mem_image (hh r (List.mem_of_getElem? hr))
  · cases hti

theorem All.snapshot {s : Store} (hs : s.All P) : s.snapshot.All P := by
  intro ts hts
  obtain hglobal | hagent := List.mem_append.1 hts
  · exact mem_appendTiers hs.global ts hglobal
  · obtain ⟨⟨id, h⟩, hentry, hts⟩ := List.mem_flatMap.1 hagent
    exact mem_appendTiers (hs.agents id h (AList.mem_lookup_iff.2 hentry)) ts hts

end Store

namespace Disk

theorem All.saveTier {rrd : List RrdRow} (h : ∀ row ∈ rrd, P row.bucket.toMeasures)
    {ts : TierSnapshot} (hts : ∀ b ∈ ts.buckets, P b.toMeasures) :
    ∀ row ∈ Disk.saveTier rrd ts, P row.bucket.toMeasures := by
  have hfold (bs : List Bucket) (hbs : ∀ b ∈ bs, P b.toMeasures) (rrd : List RrdRow)
      (h : ∀ row ∈ rrd, P row.bucket.toMeasures) :
      ∀ row ∈ bs.foldl (saveBucket ts.agentID ts.tier) rrd, P row.bucket.toMeasures := by
    induction bs generalizing rrd with
    | nil => exact h
    | cons b bs ih =>
      obtain ⟨hb, hrest⟩ := List.forall_mem_cons.1 hbs
      refine ih hrest _ fun row hrow => ?_
      obtain hold | hnew := List.mem_append.1 hrow
      · exact h row (List.mem_of_mem_filter hold)
      · rw [List.mem_singleton.1 hnew]
        exact hb
  exact hfold _ (fun b hb => hts b (List.mem_of_mem_filter hb)) _
    fun row hrow => h row (List.mem_of_mem_filter hrow)

theorem All.save {d : Disk} (hd : d.All P) {snap : SnapshotData} (hsnap : snap.All P) :
    (d.SaveStats snap).All P := by
  have hfold (tiers : List TierSnapshot) (htiers : ∀ ts ∈ tiers, ∀ b ∈ ts.buckets, P b.toMeasures)
      (rrd : List RrdRow) (h : ∀ row ∈ rrd, P row.bucket.toMeasures) :
      ∀ row ∈ tiers.foldl Disk.saveTier rrd, P row.bucket.toMeasures := by
    induction tiers generalizing rrd with
    | nil => exact h
    | cons ts tiers ih =>
      obtain ⟨hts, hrest⟩ := List.forall_mem_cons.1 htiers
      exact ih hrest _ (All.saveTier h hts)
  exact hfold _ hsnap _ fun row hrow => hd row (List.mem_of_mem_filter hrow)

theorem All.buckets {d : Disk} (hd : d.All P) (id : String) (tier : Nat) :
    ∀ b ∈ d.buckets id tier, P b.toMeasures := by
  intro b hb
  rw [Disk.buckets, List.mem_insertionSort] at hb
  obtain ⟨row, hrow, rfl⟩ := List.mem_map.1 hb
  exact hd row (List.mem_of_mem_filter hrow)

end Disk

theorem Ring.All.restoreTier {r : Ring} (hr : r.All P) {bs : List Bucket}
    (hbs : ∀ b ∈ bs, P b.toMeasures) : (restoreTier r bs).All P := by
  have hfold (bs : List Bucket) (hbs : ∀ b ∈ bs, P b.toMeasures) (pos : Bucket → Nat)
      (buf : Nat → Bucket) (h : ∀ i, P (buf i).toMeasures) (i : Nat) :
      P (bs.foldl (fun buf b => Function.update buf (pos b) b) buf i).toMeasures := by
    induction bs generalizing buf with
    | nil => exact h i
    | cons b bs ih =>
      obtain ⟨hb, hrest⟩ := List.forall_mem_cons.1 hbs
      exact ih hrest _ (Ring.All.update (r := { r with buf }) h hb)
  unfold Stats.restoreTier
  split
  · exact hr
  · exact hfold _ (fun b hb => hbs b (List.mem_of_mem_filter (List.mem_of_mem_filter hb))) _ _ hr

namespace Store

theorem All.loadTier {s : Store} (hP : Closed P) (hs : s.All P) {ts : TierSnapshot}
    (hts : ∀ b ∈ ts.buckets, P b.toMeasures) : (s.loadTier ts).All P := by
  have hload : (s.historyForLoad ts.agentID).All P := by
    unfold Store.historyForLoad
    cases hh : s.historyFor ts.agentID with
    | none => exact History.all_new hP
    | some h => exact hs.historyFor hh
  refine hs.setHistory (fun r hr => ?_) ts.agentID
  obtain ⟨i, hi⟩ := List.mem_iff_getElem?.1 hr
  rw [List.getElem?_modify] at hi
  obtain ⟨r', hr', heq⟩ := Option.map_eq_some_iff.1 hi
  have hall := hload r' (List.mem_of_getElem? hr')
  split at heq
  · rw [← heq]
    exact hall.restoreTier hts
  · rw [← heq]
    exact hall

theorem all_load {d : Disk} (hP : Closed P) (hd : d.All P) : (Store.load d).All P := by
  have hfold (tiers : List TierSnapshot) (htiers : ∀ ts ∈ tiers, ∀ b ∈ ts.buckets, P b.toMeasures)
      (s : Store) (hs : s.All P) : (tiers.foldl Store.loadTier s).All P := by
    induction tiers generalizing s with
    | nil => exact hs
    | cons ts tiers ih =>
      obtain ⟨hts, hrest⟩ := List.forall_mem_cons.1 htiers
      exact ih hrest _ (hs.loadTier hP hts)
  unfold Store.load
  split
  · exact all_new hP _
  · rename_i snap hsnap
    obtain ⟨life, -, rfl⟩ := Option.map_eq_some_iff.1 hsnap
    refine hfold _ (fun ts hts => ?_) _ (all_new hP _)
    obtain ⟨k, -, rfl⟩ := List.mem_map.1 hts
    exact hd.buckets k.1 k.2

end Store

namespace Persistence

theorem All.step {s t : Persistence} (hP : Closed P) (h : s.All P) (hs : s.step l = some t) :
    t.All P := by
  unfold Persistence.step at hs
  cases l with
  | sample r linkIn linkOut =>
    cases hs
    exact ⟨h.store.sample hP r linkIn linkOut, h.disk, h.saving⟩
  | sampleAgent id r victim =>
    simp only at hs
    split at hs
    · cases hs
      exact ⟨h.store.sampleAgent hP id r victim, h.disk, h.saving⟩
    · cases hs
  | beginFlush =>
    simp only at hs
    split at hs
    · cases hs
      refine ⟨h.store, h.disk, fun saving heq => ?_⟩
      cases heq
      exact h.store.snapshot
    · cases hs
  | saveOk =>
    simp only at hs
    split at hs
    · rename_i snap hsaving
      cases hs
      have hsnap := h.saving _ hsaving
      refine ⟨h.store, h.disk.save hsnap, fun saving heq => ?_⟩
      cases heq
      exact hsnap
    · cases hs
  | saveFail =>
    simp only at hs
    split at hs
    · cases hs
      exact ⟨h.store, h.disk, nofun⟩
    · cases hs
  | endFlush =>
    simp only at hs
    split at hs
    · cases hs
      exact ⟨h.store.saved _, h.disk, nofun⟩
    · cases hs
  | restart =>
    cases hs
    exact ⟨Store.all_load hP h.disk, h.disk, nofun⟩

theorem all_init (hP : Closed P) : Persistence.init.All P := by
  have hdisk : Disk.empty.All P := fun _ h => absurd h List.not_mem_nil
  exact ⟨Store.all_load hP hdisk, hdisk, fun _ h => nomatch h⟩

theorem all_of_reaches (hP : Closed P) (hr : Reaches step init ls s) : s.All P :=
  hr.invariant (fun _ _ _ h hs => h.step hP hs) (all_init hP)

end Persistence

theorem Rendering.all_turn (hP : Closed P) {r : Ring} (hr : r.All P) {s t : Rendering}
    (h : ∀ b ∈ s.out, P b.toMeasures) (ht : s.turn r k i = some t) :
    ∀ b ∈ t.out, P b.toMeasures := by
  unfold Rendering.turn at ht
  split at ht
  · cases ht
  · obtain rfl := Option.some.inj ht
    exact h
  · split at ht
    · cases ht
    · simp only at ht
      split at ht
      · obtain rfl := Option.some.inj ht
        intro b hb
        obtain hold | hnew := List.mem_append.1 hb
        · exact h b hold
        · rw [List.mem_singleton.1 hnew]
          exact hr _
      · obtain rfl := Option.some.inj ht
        intro b hb
        obtain hnil | ⟨out, dst, hout⟩ := List.eq_nil_or_concat s.out
        · rw [hnil] at hb
          exact absurd hb List.not_mem_nil
        · rw [hout, List.concat_eq_append] at h
          rw [hout, List.concat_eq_append, List.modifyLast_concat] at hb
          obtain hold | hnew := List.mem_append.1 hb
          · exact h b (List.mem_append_left _ hold)
          · rw [List.mem_singleton.1 hnew]
            exact hP.merge _ _ (h dst (List.mem_append_right _ List.mem_cons_self)) (hr _)

theorem History.All.rendered {h : History} (hP : Closed P) (hh : h.All P)
    (hres : h.historyAt nowMs windowMs maxBuckets = some res) :
    ∀ b ∈ res.buckets, P b.toMeasures := by
  unfold History.historyAt at hres
  split at hres
  · obtain rfl := Option.some.inj hres
    exact fun b hb => absurd hb List.not_mem_nil
  · rename_i c hc
    have hring : c.ring.All P := hh c.ring (choose_ring hc)
    obtain ⟨s, hs, rfl⟩ := Option.map_eq_some_iff.1 hres
    have hfold (l : List Int) (s t : Rendering) (h : ∀ b ∈ s.out, P b.toMeasures)
        (ht : l.foldlM (Rendering.turn c.ring (c.groupWidth (clampBuckets maxBuckets)))
          s = some t) :
        ∀ b ∈ t.out, P b.toMeasures := by
      induction l generalizing s with
      | nil =>
        obtain rfl := Option.some.inj ht
        exact h
      | cons i l ih =>
        rw [List.foldlM_cons] at ht
        obtain ⟨u, hu, ht⟩ := Option.bind_eq_some_iff.1 ht
        exact ih u (Rendering.all_turn hP hring h hu) ht
    exact hfold _ _ s (fun b hb => absurd hb List.not_mem_nil) hs

namespace Persistence

/-- In every run, with restarts and failed saves: each bucket on disk has candles and counts that
are not negative, and so has each bucket of a chart, of whatever series and window. -/
theorem candles_of_reaches (hr : Reaches step init ls s) :
    (∀ row ∈ s.disk.rrd, row.bucket.Sound) ∧
      ∀ id h nowMs windowMs maxBuckets res, s.store.historyFor id = some h →
        h.historyAt nowMs windowMs maxBuckets = some res → ∀ b ∈ res.buckets, b.Sound := by
  have hall := all_of_reaches sound_closed hr
  exact ⟨hall.disk, fun id h nowMs windowMs maxBuckets res hh hres =>
    (hall.store.historyFor hh).rendered sound_closed hres⟩

/-- Four readings, a second apart, and a flush. -/
def flushedRun : List PersistStep :=
  [.sample ⟨1750000000000, 0, 0, 0, 0, 0, 0⟩ 0 0,
    .sample ⟨1750000001000, 500, 100, 1, 2, 30, -1⟩ 0 0,
    .sample ⟨1750000002000, 900, 100, 1, 2, 30, -1⟩ 0 0,
    .sample ⟨1750000003000, 900, 100, 1, 2, 30, -1⟩ 0 0, .beginFlush, .saveOk]

theorem candles_flushedRun : ∃ s, Reaches step init flushedRun s ∧
    s.disk.rrd.map (fun row => (row.bucket.T, row.bucket.inRate.h)) = [(1749999990000, 500)] ∧
      ∀ row ∈ s.disk.rrd, row.bucket.Sound := by
  have hrun : ∃ s, final step init flushedRun = some s ∧
      s.disk.rrd.map (fun row => (row.bucket.T, row.bucket.inRate.h)) = [(1749999990000, 500)] := by
    decide +kernel
  obtain ⟨s, hs, hrows⟩ := hrun
  have hr := reaches_of_final hs
  exact ⟨s, hr, hrows, (candles_of_reaches hr).1⟩

end Persistence

end ProxyForward.Stats

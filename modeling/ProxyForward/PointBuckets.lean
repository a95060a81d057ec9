import Mathlib.Algebra.Order.Field.Rat
import Mathlib.Algebra.Order.Ring.Int
import Mathlib.Data.Int.Interval
import Mathlib.Order.Bounds.Basic
import Mathlib.Tactic.Linarith
import ProxyForward.Grouping

namespace ProxyForward.Analytics
set_option autoImplicit true
open Grouping Cascade

/-- The most points that a reply of samples holds. -/
def maxHistoryPoints : Int := 300

/-- One sample of traffic, or one time bucket of it. -/
structure TrafficPoint where
  T : Int
  In : Int
  Out : Int
  deriving DecidableEq, Repr

structure LatencyPoint where
  T : Int
  avg : Rat
  min : Rat
  max : Rat
  deriving DecidableEq, Repr

/-- The samples of one minute, with their number as the weight of their average. -/
structure RttSample where
  t : Int
  avg : Rat
  mn : Rat
  mx : Rat
  n : Int
  deriving DecidableEq, Repr

/-- The span to cover: up to now from the first sample, if none is given. -/
def spanOf (span nowMs first : Int) : Int := if span ≤ 0 then nowMs - first else span

def bucketWidth (span floor : Int) : Int :=
  let bucketMs := span.tdiv (maxHistoryPoints - 1) + 1
  if bucketMs < floor then floor else bucketMs

/-- The sample cadence. -/
def trafficFloorMs : Int := 15000

/-- `session_rtt` is per minute. -/
def latencyFloorMs : Int := 60000

structure TrafficLoop where
  out : List TrafficPoint
  cur : TrafficPoint
  curBucket : Int

namespace TrafficLoop

def start : TrafficLoop := ⟨[], ⟨0, 0, 0⟩, -1⟩

def turn (w : Int) (st : TrafficLoop) (s : TrafficPoint) : TrafficLoop :=
  let b := s.T.tdiv w
  let st :=
    if b ≠ st.curBucket then
      { out := if 0 ≤ st.curBucket then st.out ++ [st.cur] else st.out
        cur := ⟨b * w, 0, 0⟩
        curBucket := b }
    else st
  { st with cur := { st.cur with In := st.cur.In + s.In, Out := st.cur.Out + s.Out } }

end TrafficLoop

def bucketTraffic (samples : List TrafficPoint) (span nowMs : Int) : List TrafficPoint :=
  match samples with
  | [] => []
  | first :: _ =>
    let w := bucketWidth (spanOf span nowMs first.T) trafficFloorMs
    let st := samples.foldl (TrafficLoop.turn w) .start
    st.out ++ [st.cur]

/-- What a bucket of round trips has gathered. -/
structure Gathered where
  wsum : Rat
  wn : Int
  mn : Rat
  mx : Rat
  deriving DecidableEq, Repr

structure LatencyLoop where
  out : List LatencyPoint
  curBucket : Int
  cur : Gathered
  t : Int

namespace LatencyLoop

def start : LatencyLoop := ⟨[], -1, ⟨0, 0, 0, 0⟩, 0⟩

def flush (st : LatencyLoop) : List LatencyPoint :=
  if st.cur.wn = 0 then st.out
  else st.out ++ [⟨st.t, st.cur.wsum / st.cur.wn, st.cur.mn, st.cur.mx⟩]

def turn (w : Int) (st : LatencyLoop) (s : RttSample) : LatencyLoop :=
  let b := s.t.tdiv w
  let st :=
    if b ≠ st.curBucket then
      { out := st.flush, curBucket := b, t := b * w, cur := ⟨0, 0, s.mn, s.mx⟩ }
    else st
  { st with
    cur :=
      { wsum := st.cur.wsum + s.avg * s.n
        wn := st.cur.wn + s.n
        mn := if s.mn < st.cur.mn then s.mn else st.cur.mn
        mx := if s.mx > st.cur.mx then s.mx else st.cur.mx } }

end LatencyLoop

def bucketLatency (samples : List RttSample) (span nowMs : Int) : List LatencyPoint :=
  match samples with
  | [] => []
  | first :: _ =>
    let w := bucketWidth (spanOf span nowMs first.t) latencyFloorMs
    (samples.foldl (LatencyLoop.turn w) .start).flush

/-- The start of a query's window, zero for all time, and the span it asks for. -/
def windowFrom (windowMs nowMs : Int) : Int := if 0 < windowMs then nowMs - windowMs else 0

def windowSpan (windowMs nowMs : Int) : Int :=
  if windowFrom windowMs nowMs = 0 then windowMs else nowMs - windowFrom windowMs nowMs

/-- `rows` are the traffic samples of the player's sessions in the order of their times. -/
def playerHistory (rows : List TrafficPoint) (windowMs nowMs : Int) : List TrafficPoint :=
  bucketTraffic (rows.filter fun p => windowFrom windowMs nowMs ≤ p.T)
    (windowSpan windowMs nowMs) nowMs

def playerLatency (rows : List RttSample) (windowMs nowMs : Int) : List LatencyPoint :=
  bucketLatency (rows.filter fun s => windowFrom windowMs nowMs ≤ s.t)
    (windowSpan windowMs nowMs) nowMs

theorem bucketWidth_pos (span : Int) {floor : Int} (hf : 0 < floor) :
    0 < bucketWidth span floor := by
  unfold bucketWidth
  simp only
  split
  · exact hf
  · omega

theorem bucketWidth_span (span floor : Int) (hs : 0 ≤ span) :
    span < bucketWidth span floor * (maxHistoryPoints - 1) := by
  have hle : span.tdiv (maxHistoryPoints - 1) + 1 ≤ bucketWidth span floor := by
    unfold bucketWidth
    simp only
    split <;> omega
  rw [Int.tdiv_eq_ediv_of_nonneg hs] at hle
  simp only [maxHistoryPoints] at hle ⊢
  omega

theorem length_le_of_pairwise_lt {l : List Int} (h : l.Pairwise (· < ·)) {a b : Int}
    (hl : ∀ x ∈ l, a ≤ x ∧ x ≤ b) : (l.length : Int) ≤ (b + 1 - a).toNat := by
  have hnodup : l.Nodup := h.imp fun h => h.ne
  have hsub : l.toFinset ⊆ Finset.Icc a b := by
    intro x hx
    exact Finset.mem_Icc.2 (hl x (List.mem_toFinset.1 hx))
  have hcard := Finset.card_le_card hsub
  rw [List.toFinset_card_of_nodup hnodup, Int.card_Icc] at hcard
  exact_mod_cast hcard

section

variable {ι M : Type} {op : M → M → M} {time : ι → Int} {val : ι → M}

theorem groups_length {l : List ι} {lo span floor : Int} (hf : 0 < floor) (h0 : 0 ≤ lo)
    (hs : 0 ≤ span)
    (hin : ∀ s ∈ l, lo ≤ time s ∧ time s ≤ lo + span)
    (hg : Grouped op (fun s => (time s).tdiv (bucketWidth span floor)) val l gs) :
    (gs.length : Int) ≤ maxHistoryPoints := by
  have hw := bucketWidth_pos span hf
  have hlt := bucketWidth_span span floor hs
  generalize bucketWidth span floor = w at hw hlt hg
  have hkeys : ∀ k ∈ gs.map Prod.fst, lo / w ≤ k ∧ k ≤ (lo + span) / w := by
    intro k hk
    obtain ⟨s, hm, rfl⟩ := (hg.keys k).1 hk
    obtain ⟨h1, h2⟩ := hin s hm
    rw [Int.tdiv_eq_ediv_of_nonneg (le_trans h0 h1)]
    exact ⟨Int.ediv_le_ediv hw h1, Int.ediv_le_ediv hw h2⟩
  have hlen := length_le_of_pairwise_lt hg.increasing hkeys
  rw [List.length_map] at hlen
  have hspan : (lo + span) / w ≤ lo / w + 299 := by
    have h1 := Int.lt_ediv_add_one_mul_self lo hw
    have h2 : lo + span < (lo / w + 300) * w := by
      simp only [maxHistoryPoints] at hlt
      linarith
    have h3 := Int.ediv_lt_of_lt_mul hw h2
    omega
  simp only [maxHistoryPoints]
  omega

end

/-- The bucket of width `w` that starts at `T`. -/
def Covers (w T t : Int) : Prop := T ≤ t ∧ t < T + w

instance (w T t : Int) : Decidable (Covers w T t) := inferInstanceAs (Decidable (_ ∧ _))

/-- The samples of a list that lie in that bucket. -/
def inBucket (time : ι → Int) (w T : Int) (l : List ι) : List ι :=
  l.filter fun s => Covers w T (time s)

theorem covers_iff {w t : Int} (hw : 0 < w) (ht : 0 ≤ t) (k : Int) :
    Covers w (k * w) t ↔ t.tdiv w = k := by
  rw [Int.tdiv_eq_ediv_of_nonneg ht, Covers, Int.ediv_eq_iff_of_pos hw]

section

variable {ι M π : Type} {op : M → M → M} {time : ι → Int} {val : ι → M} {l : List ι}
  {gs : List (Int × M)} {w : Int}

theorem inBucket_key (hw : 0 < w) (h0 : ∀ s ∈ l, 0 ≤ time s) (k : Int) :
    inBucket time w (k * w) l = l.filter fun s => (time s).tdiv w = k := by
  apply List.filter_congr
  intro s hs
  exact decide_eq_decide.2 (covers_iff hw (h0 s hs) k)

theorem points_of_groups (hw : 0 < w) (h0 : ∀ s ∈ l, 0 ≤ time s)
    (hg : Grouped op (fun s => (time s).tdiv w) val l gs) (keep : Int × M → Bool)
    {T : π → Int} (point : Int × M → π) (hT : ∀ g, T (point g) = g.1 * w) :
    ((((gs.filter keep).map point).map T).Pairwise (· < ·)) ∧
      (∀ p ∈ (gs.filter keep).map point, ∃ g ∈ gs, keep g = true ∧ p = point g ∧
        merged op ((inBucket time w (T p) l).map val) = some g.2) ∧
      ∀ s ∈ l, ∃ g ∈ gs, Covers w (g.1 * w) (time s) ∧
        (∀ p ∈ (gs.filter keep).map point, Covers w (T p) (time s) → p = point g) ∧
        (keep g = true ↔ point g ∈ (gs.filter keep).map point) := by
  have hinj : ∀ g ∈ gs, ∀ g' ∈ gs, g.1 = g'.1 → g = g' := by
    intro g hm g' hm' he
    have hv := hg.values g hm
    rw [he, hg.values g' hm'] at hv
    exact Prod.ext he (Option.some.inj hv).symm
  have hpoint : ∀ p ∈ (gs.filter keep).map point, ∃ g ∈ gs, keep g = true ∧ p = point g := by
    intro p hp
    obtain ⟨g, hm, rfl⟩ := List.mem_map.1 hp
    obtain ⟨hm, hk⟩ := List.mem_filter.1 hm
    exact ⟨g, hm, hk, rfl⟩
  refine ⟨?_, ?_, ?_⟩
  · have hkeys := hg.increasing
    rw [List.pairwise_map] at hkeys
    rw [List.pairwise_map, List.pairwise_map]
    apply (hkeys.filter keep).imp
    intro g g' hlt
    rw [hT, hT]
    exact Int.mul_lt_mul_of_pos_right hlt hw
  · intro p hp
    obtain ⟨g, hm, hk, rfl⟩ := hpoint p hp
    refine ⟨g, hm, hk, rfl, ?_⟩
    rw [hT, inBucket_key hw h0]
    exact hg.values g hm
  · intro s hs
    obtain ⟨g, hm, he⟩ := List.mem_map.1 ((hg.keys _).2 ⟨s, hs, rfl⟩)
    refine ⟨g, hm, (covers_iff hw (h0 s hs) g.1).2 he.symm, ?_, ?_, ?_⟩
    · intro p hp hc
      obtain ⟨g', hm', -, rfl⟩ := hpoint p hp
      rw [hT, covers_iff hw (h0 s hs)] at hc
      rw [hinj g' hm' g hm (hc.symm.trans he.symm)]
    · intro hk
      exact List.mem_map_of_mem (List.mem_filter.2 ⟨hm, hk⟩)
    · intro hp
      obtain ⟨g', hm', hk, hpg⟩ := hpoint _ hp
      have hT' := congrArg T hpg
      rw [hT, hT] at hT'
      rw [hinj g hm g' hm' (Int.eq_of_mul_eq_mul_right hw.ne' hT')]
      exact hk

end

namespace TrafficLoop

def bytes (s : TrafficPoint) : Int × Int := (s.In, s.Out)

def point (w : Int) (g : Int × Int × Int) : TrafficPoint := ⟨g.1 * w, g.2.1, g.2.2⟩

theorem foldl_turn {w : Int} {l : List TrafficPoint} (h0 : ∀ s ∈ l, 0 ≤ s.T.tdiv w) :
    l = [] ∨ ∃ gs g, groups (· + ·) (fun s => s.T.tdiv w) bytes l = gs ++ [g] ∧ 0 ≤ g.1 ∧
      l.foldl (turn w) start = ⟨gs.map (point w), point w g, g.1⟩ := by
  induction l using List.reverseRecOn with
  | nil => exact .inl rfl
  | append_singleton l s ih =>
    have hs := h0 s (List.mem_append_right _ List.mem_cons_self)
    specialize ih fun s hs => h0 s (List.mem_append_left _ hs)
    simp only [groups, List.foldl_append, List.foldl_cons, List.foldl_nil] at ih ⊢
    right
    obtain rfl | ⟨gs, g, hg, hg0, hst⟩ := ih
    · have hne : s.T.tdiv w ≠ -1 := by omega
      refine ⟨[], (s.T.tdiv w, bytes s), rfl, hs, ?_⟩
      simp only [turn, start, List.foldl_nil, hne, ne_eq, not_false_eq_true, if_true, point,
        bytes, List.map_nil, Int.zero_add]
      rfl
    · rw [hg, hst]
      by_cases hk : g.1 = s.T.tdiv w
      · refine ⟨gs, (g.1, g.2 + bytes s), turn_same hk, hg0, ?_⟩
        simp only [turn, hk, ne_eq, not_true_eq_false, if_false, point, bytes, Prod.fst_add,
          Prod.snd_add]
      · refine ⟨gs ++ [g], (s.T.tdiv w, bytes s), turn_next hk, hs, ?_⟩
        simp only [turn, Ne.symm hk, ne_eq, not_false_eq_true, if_true, hg0, point, bytes,
          List.map_append, List.map_cons, List.map_nil, Int.zero_add]

end TrafficLoop

theorem bucketTraffic_eq {first : TrafficPoint} {rest : List TrafficPoint}
    (hw : w = bucketWidth (spanOf span nowMs first.T) trafficFloorMs)
    (h0 : ∀ s ∈ first :: rest, 0 ≤ s.T.tdiv w) :
    bucketTraffic (first :: rest) span nowMs =
      (groups (· + ·) (fun s => s.T.tdiv w) TrafficLoop.bytes (first :: rest)).map
        (TrafficLoop.point w) := by
  unfold bucketTraffic
  simp only [← hw]
  obtain h | ⟨gs, g, hg, -, hst⟩ := TrafficLoop.foldl_turn h0
  · cases h
  · rw [hg, hst, List.map_append]
    rfl

theorem merged_bytes {ms : List (Int × Int)} (h : merged (· + ·) ms = some m) :
    m = ((ms.map Prod.fst).sum, (ms.map Prod.snd).sum) := by
  induction ms using List.reverseRecOn generalizing m with
  | nil => cases h
  | append_singleton ms b ih =>
    rw [merged_concat] at h
    simp only [List.map_append, List.sum_append, List.map_singleton, List.sum_singleton]
    cases hm : merged (· + ·) ms with
    | none =>
      rw [merged_eq_none] at hm
      rw [hm] at h ⊢
      cases h
      simp only [List.map_nil, List.sum_nil, Int.zero_add]
    | some m' =>
      rw [hm] at h
      cases h
      rw [ih hm]
      rfl

namespace Gathered

def gather (a b : Gathered) : Gathered :=
  { wsum := a.wsum + b.wsum
    wn := a.wn + b.wn
    mn := if b.mn < a.mn then b.mn else a.mn
    mx := if b.mx > a.mx then b.mx else a.mx }

def of (s : RttSample) : Gathered := ⟨s.avg * s.n, s.n, s.mn, s.mx⟩

/-- What gathering samples amounts to. -/
structure Sums (l : List RttSample) (m : Gathered) : Prop where
  wsum : m.wsum = (l.map fun s => s.avg * (s.n : Rat)).sum
  wn : m.wn = (l.map RttSample.n).sum
  mn : IsLeast {x | ∃ s ∈ l, s.mn = x} m.mn
  mx : IsGreatest {x | ∃ s ∈ l, s.mx = x} m.mx

theorem sums_singleton (s : RttSample) : Sums [s] (of s) where
  wsum := (List.sum_singleton).symm
  wn := (List.sum_singleton).symm
  mn := by
    refine ⟨⟨s, List.mem_singleton_self s, rfl⟩, ?_⟩
    rintro x ⟨s', hs, rfl⟩
    rw [List.mem_singleton.1 hs]
    exact le_refl _
  mx := by
    refine ⟨⟨s, List.mem_singleton_self s, rfl⟩, ?_⟩
    rintro x ⟨s', hs, rfl⟩
    rw [List.mem_singleton.1 hs]
    exact le_refl _

theorem Sums.gather {l : List RttSample} {m : Gathered} (h : Sums l m) (s : RttSample) :
    Sums (l ++ [s]) (m.gather (of s)) where
  wsum := by
    rw [List.map_append, List.sum_append, ← h.wsum, List.map_singleton, List.sum_singleton]
    rfl
  wn := by
    rw [List.map_append, List.sum_append, ← h.wn, List.map_singleton, List.sum_singleton]
    rfl
  mn := by
    have hm : (m.gather (of s)).mn = min s.mn m.mn := by
      rw [min_def_lt]
      rfl
    rw [hm]
    constructor
    · obtain ⟨s', hs', he⟩ := h.mn.1
      rcases min_choice s.mn m.mn with hc | hc
      · rw [hc]
        exact ⟨s, List.mem_append_right _ List.mem_cons_self, rfl⟩
      · rw [hc]
        exact ⟨s', List.mem_append_left _ hs', he⟩
    · rintro x ⟨s', hs', rfl⟩
      obtain hs' | hs' := List.mem_append.1 hs'
      · exact le_trans (min_le_right _ _) (h.mn.2 ⟨s', hs', rfl⟩)
      · rw [List.mem_singleton.1 hs']
        exact min_le_left _ _
  mx := by
    have hm : (m.gather (of s)).mx = max m.mx s.mx := by
      rw [max_def_lt]
      rfl
    rw [hm]
    constructor
    · obtain ⟨s', hs', he⟩ := h.mx.1
      rcases max_choice m.mx s.mx with hc | hc
      · rw [hc]
        exact ⟨s', List.mem_append_left _ hs', he⟩
      · rw [hc]
        exact ⟨s, List.mem_append_right _ List.mem_cons_self, rfl⟩
    · rintro x ⟨s', hs', rfl⟩
      obtain hs' | hs' := List.mem_append.1 hs'
      · exact le_trans (h.mx.2 ⟨s', hs', rfl⟩) (le_max_left _ _)
      · rw [List.mem_singleton.1 hs']
        exact le_max_right _ _

theorem merged_sums {l : List RttSample} (h : merged gather (l.map of) = some m) : Sums l m := by
  induction l using List.reverseRecOn generalizing m with
  | nil => cases h
  | append_singleton l s ih =>
    rw [List.map_append, List.map_singleton, merged_concat] at h
    cases hm : merged gather (l.map of) with
    | none =>
      rw [merged_eq_none, List.map_eq_nil_iff] at hm
      rw [hm] at h ⊢
      cases h
      exact sums_singleton s
    | some m' =>
      rw [hm] at h
      cases h
      exact (ih hm).gather s

end Gathered

namespace LatencyLoop

open Gathered

def point (w : Int) (g : Int × Gathered) : LatencyPoint :=
  ⟨g.1 * w, g.2.wsum / g.2.wn, g.2.mn, g.2.mx⟩

def counted (g : Int × Gathered) : Bool := g.2.wn ≠ 0

theorem flush_eq (w : Int) (gs : List (Int × Gathered)) (g : Int × Gathered) :
    flush ⟨(gs.filter counted).map (point w), g.1, g.2, g.1 * w⟩ =
      ((gs ++ [g]).filter counted).map (point w) := by
  unfold flush
  rw [List.filter_append, List.map_append]
  by_cases hn : g.2.wn = 0
  · rw [if_pos hn, List.filter_cons_of_neg (by simp only [counted, hn]; decide), List.filter_nil,
      List.map_nil, List.append_nil]
  · rw [if_neg hn, List.filter_cons_of_pos (by simp only [counted, ne_eq, hn]; decide),
      List.filter_nil, List.map_singleton]
    rfl

theorem gather_of (m : Gathered) (s : RttSample) :
    (⟨m.wsum + s.avg * s.n, m.wn + s.n, if s.mn < m.mn then s.mn else m.mn,
      if s.mx > m.mx then s.mx else m.mx⟩ : Gathered) = m.gather (of s) := rfl

theorem gather_first (s : RttSample) : (⟨0, 0, s.mn, s.mx⟩ : Gathered).gather (of s) = of s := by
  simp only [gather, of, Rat.zero_add, Int.zero_add, gt_iff_lt, lt_irrefl, if_false]

theorem foldl_turn {w : Int} {l : List RttSample} (h0 : ∀ s ∈ l, 0 ≤ s.t.tdiv w) :
    l = [] ∨ ∃ gs g, groups gather (fun s => s.t.tdiv w) of l = gs ++ [g] ∧
      l.foldl (turn w) start = ⟨(gs.filter counted).map (point w), g.1, g.2, g.1 * w⟩ := by
  induction l using List.reverseRecOn with
  | nil => exact .inl rfl
  | append_singleton l s ih =>
    have hs := h0 s (List.mem_append_right _ List.mem_cons_self)
    specialize ih fun s hs => h0 s (List.mem_append_left _ hs)
    simp only [groups, List.foldl_append, List.foldl_cons, List.foldl_nil] at ih ⊢
    right
    obtain rfl | ⟨gs, g, hg, hst⟩ := ih
    · have hne : s.t.tdiv w ≠ -1 := by omega
      refine ⟨[], (s.t.tdiv w, of s), rfl, ?_⟩
      simp only [turn, start, List.foldl_nil, hne, ne_eq, not_false_eq_true, if_true]
      rw [gather_of ⟨0, 0, s.mn, s.mx⟩ s, gather_first]
      rfl
    · rw [hg, hst]
      by_cases hk : g.1 = s.t.tdiv w
      · refine ⟨gs, (g.1, g.2.gather (of s)), turn_same hk, ?_⟩
        simp only [turn, hk, ne_eq, not_true_eq_false, if_false]
        rfl
      · refine ⟨gs ++ [g], (s.t.tdiv w, of s), turn_next hk, ?_⟩
        simp only [turn, Ne.symm hk, ne_eq, not_false_eq_true, if_true]
        rw [flush_eq, gather_of ⟨0, 0, s.mn, s.mx⟩ s, gather_first]

end LatencyLoop

theorem bucketLatency_eq {first : RttSample} {rest : List RttSample}
    (hw : w = bucketWidth (spanOf span nowMs first.t) latencyFloorMs)
    (h0 : ∀ s ∈ first :: rest, 0 ≤ s.t.tdiv w) :
    bucketLatency (first :: rest) span nowMs =
      ((groups Gathered.gather (fun s => s.t.tdiv w) Gathered.of (first :: rest)).filter
        LatencyLoop.counted).map (LatencyLoop.point w) := by
  unfold bucketLatency
  simp only [← hw]
  obtain h | ⟨gs, g, hg, hst⟩ := LatencyLoop.foldl_turn h0
  · cases h
  · rw [hg, hst, LatencyLoop.flush_eq]

/-- The samples lie in the time that the query covers. -/
def InWindow (time : ι → Int) (span nowMs : Int) (l : List ι) : Prop :=
  ∀ first ∈ l.head?, ∀ s ∈ l, nowMs - spanOf span nowMs (time first) ≤ time s ∧ time s ≤ nowMs

theorem window_groups {ι M : Type} (op : M → M → M) {time : ι → Int} (val : ι → M) {first : ι}
    {rest : List ι} {span nowMs floor : Int} (hf : 0 < floor)
    (hsorted : ((first :: rest).map time).Pairwise (· ≤ ·)) (h0 : ∀ s ∈ first :: rest, 0 ≤ time s)
    (hin : InWindow time span nowMs (first :: rest))
    (hw : w = bucketWidth (spanOf span nowMs (time first)) floor) :
    let gs := groups op (fun s => (time s).tdiv w) val (first :: rest)
    Grouped op (fun s => (time s).tdiv w) val (first :: rest) gs ∧
      (gs.length : Int) ≤ maxHistoryPoints := by
  have hpos : 0 < w := hw ▸ bucketWidth_pos _ hf
  have hwin := hin first rfl
  have hkeys : ((first :: rest).map fun s => (time s).tdiv w).Pairwise (· ≤ ·) := by
    rw [List.pairwise_map] at hsorted ⊢
    apply hsorted.imp_of_mem
    intro s s' hm hm' hle
    rw [Int.tdiv_eq_ediv_of_nonneg (h0 s hm), Int.tdiv_eq_ediv_of_nonneg (h0 s' hm')]
    exact Int.ediv_le_ediv hpos hle
  have hg : Grouped op (fun s => (time s).tdiv w) val (first :: rest) _ := groups_grouped hkeys
  refine ⟨hg, ?_⟩
  have hfirst := hwin first List.mem_cons_self
  generalize spanOf span nowMs (time first) = sp at hw hwin hfirst
  subst hw
  refine groups_length hf (le_max_right (nowMs - sp) 0) (by omega) ?_ hg
  intro s hs
  obtain ⟨h1, h2⟩ := hwin s hs
  exact ⟨max_le h1 (h0 s hs), by omega⟩

/-- The points of traffic are few, in order, and share out the bytes of all samples. -/
structure BucketedTraffic (samples pts : List TrafficPoint) : Prop where
  bounded : (pts.length : Int) ≤ maxHistoryPoints
  increasing : (pts.map TrafficPoint.T).Pairwise (· < ·)
  exact : ∃ w, 0 < w ∧ (∀ s ∈ samples, ∃! p, p ∈ pts ∧ Covers w p.T s.T) ∧
    ∀ p ∈ pts,
      p.In = ((inBucket TrafficPoint.T w p.T samples).map TrafficPoint.In).sum ∧
        p.Out = ((inBucket TrafficPoint.T w p.T samples).map TrafficPoint.Out).sum

/-- The number of round trips behind the samples that share a bucket with `s`. -/
def weightAt (w : Int) (samples : List RttSample) (s : RttSample) : Int :=
  ((inBucket RttSample.t w (s.t / w * w) samples).map RttSample.n).sum

/-- The points of latency are few and in order; a bucket with any round trips has one point, with
the average over them and the extremes of its samples, and the others have none. -/
structure BucketedLatency (samples : List RttSample) (pts : List LatencyPoint) : Prop where
  bounded : (pts.length : Int) ≤ maxHistoryPoints
  increasing : (pts.map LatencyPoint.T).Pairwise (· < ·)
  exact : ∃ w, 0 < w ∧
    (∀ s ∈ samples, (weightAt w samples s ≠ 0 → ∃! p, p ∈ pts ∧ Covers w p.T s.t) ∧
      (weightAt w samples s = 0 → ∀ p ∈ pts, ¬Covers w p.T s.t)) ∧
    ∀ p ∈ pts, ∀ l, l = inBucket RttSample.t w p.T samples →
      p.avg = (l.map fun s => s.avg * (s.n : Rat)).sum / ((l.map RttSample.n).sum : Int) ∧
        IsLeast {x | ∃ s ∈ l, s.mn = x} p.min ∧ IsGreatest {x | ∃ s ∈ l, s.mx = x} p.max

theorem bucketTraffic_bucketed {samples : List TrafficPoint}
    (hsorted : (samples.map TrafficPoint.T).Pairwise (· ≤ ·)) (h0 : ∀ s ∈ samples, 0 ≤ s.T)
    (hin : InWindow TrafficPoint.T span nowMs samples) :
    BucketedTraffic samples (bucketTraffic samples span nowMs) := by
  cases samples with
  | nil =>
    have hle : (((0 : Nat) : Int)) ≤ maxHistoryPoints := by decide
    exact ⟨hle, .nil, 1, by decide, nofun, nofun⟩
  | cons first rest =>
    obtain ⟨w, hw⟩ : ∃ w, w = bucketWidth (spanOf span nowMs first.T) trafficFloorMs := ⟨_, rfl⟩
    have hpos : 0 < w := hw ▸ bucketWidth_pos _ (by decide)
    obtain ⟨hg, hlen⟩ := window_groups (· + ·) TrafficLoop.bytes (by decide) hsorted h0 hin hw
    obtain ⟨hincr, hval, hone⟩ := points_of_groups hpos h0 hg (fun _ => true)
      (T := TrafficPoint.T) (TrafficLoop.point w) fun _ => rfl
    rw [List.filter_true] at hincr hval hone
    rw [bucketTraffic_eq hw fun s hs => Int.tdiv_nonneg (h0 s hs) hpos.le]
    refine ⟨?_, hincr, w, hpos, ?_, ?_⟩
    · rw [List.length_map]
      exact hlen
    · intro s hs
      obtain ⟨g, -, hc, huniq, hk⟩ := hone s hs
      exact ⟨TrafficLoop.point w g, ⟨hk.1 rfl, hc⟩, fun p hp => huniq p hp.1 hp.2⟩
    · intro p hp
      obtain ⟨g, -, -, hpg, hm⟩ := hval p hp
      have hsum := merged_bytes hm
      rw [List.map_map, List.map_map] at hsum
      subst hpg
      exact ⟨congrArg Prod.fst hsum, congrArg Prod.snd hsum⟩

theorem bucketLatency_bucketed {samples : List RttSample}
    (hsorted : (samples.map RttSample.t).Pairwise (· ≤ ·)) (h0 : ∀ s ∈ samples, 0 ≤ s.t)
    (hin : InWindow RttSample.t span nowMs samples) :
    BucketedLatency samples (bucketLatency samples span nowMs) := by
  cases samples with
  | nil =>
    have hle : (((0 : Nat) : Int)) ≤ maxHistoryPoints := by decide
    exact ⟨hle, .nil, 1, by decide, nofun, nofun⟩
  | cons first rest =>
    obtain ⟨w, hw⟩ : ∃ w, w = bucketWidth (spanOf span nowMs first.t) latencyFloorMs := ⟨_, rfl⟩
    have hpos : 0 < w := hw ▸ bucketWidth_pos _ (by decide)
    obtain ⟨hg, hlen⟩ := window_groups Gathered.gather Gathered.of (by decide) hsorted h0 hin hw
    obtain ⟨hincr, hval, hone⟩ := points_of_groups hpos h0 hg LatencyLoop.counted
      (T := LatencyPoint.T) (LatencyLoop.point w) fun _ => rfl
    rw [bucketLatency_eq hw fun s hs => Int.tdiv_nonneg (h0 s hs) hpos.le]
    refine ⟨?_, hincr, w, hpos, ?_, ?_⟩
    · rw [List.length_map]
      have hle := List.length_filter_le LatencyLoop.counted
        (groups Gathered.gather (fun s => s.t.tdiv w) Gathered.of (first :: rest))
      omega
    · intro s hs
      obtain ⟨g, hgm, hc, huniq, hk⟩ := hone s hs
      -- The group of the sample holds the count of its bucket.
      have hweight : g.2.wn = weightAt w (first :: rest) s := by
        have hkey := (covers_iff hpos (h0 s hs) g.1).1 hc
        have hv := hg.values g hgm
        rw [← inBucket_key hpos h0] at hv
        rw [Int.tdiv_eq_ediv_of_nonneg (h0 s hs)] at hkey
        rw [weightAt, hkey]
        exact (Gathered.merged_sums hv).wn
      have hcount : LatencyLoop.counted g = true ↔ weightAt w (first :: rest) s ≠ 0 := by
        rw [← hweight, LatencyLoop.counted, decide_eq_true_eq]
      constructor
      · intro hn
        exact ⟨LatencyLoop.point w g, ⟨hk.1 (hcount.2 hn), hc⟩, fun p hp => huniq p hp.1 hp.2⟩
      · intro hn p hp hcov
        rw [huniq p hp hcov] at hp
        exact hcount.1 (hk.2 hp) hn
    · rintro p hp l rfl
      obtain ⟨g, -, -, hpg, hm⟩ := hval p hp
      have hsum := Gathered.merged_sums hm
      subst hpg
      refine ⟨?_, hsum.mn, hsum.mx⟩
      rw [← hsum.wsum, ← hsum.wn]
      rfl

theorem inWindow_query {ι : Type} {time : ι → Int} {rows : List ι} {nowMs : Int}
    (hsorted : (rows.map time).Pairwise (· ≤ ·)) (hle : ∀ s ∈ rows, time s ≤ nowMs)
    (windowMs : Int) :
    InWindow time (windowSpan windowMs nowMs) nowMs
      (rows.filter fun s => windowFrom windowMs nowMs ≤ time s) := by
  intro first hf s hs
  have hfrom := of_decide_eq_true (List.mem_filter.1 hs).2
  have hnow := hle s (List.mem_filter.1 hs).1
  refine ⟨?_, hnow⟩
  by_cases hw : 0 < windowMs
  · have hspan : windowSpan windowMs nowMs = windowMs := by
      simp only [windowSpan, windowFrom, if_pos hw]
      split <;> omega
    rw [hspan, spanOf, if_neg (by omega)]
    rwa [windowFrom, if_pos hw] at hfrom
  · have hspan : windowSpan windowMs nowMs = windowMs := by
      rw [windowSpan, windowFrom, if_neg hw, if_pos rfl]
    rw [hspan, spanOf, if_pos (by omega)]
    have hfirst : time first ≤ time s := by
      rw [List.pairwise_map] at hsorted
      obtain ⟨rest, hrest⟩ := List.head?_eq_some_iff.1 hf
      have hp := hsorted.filter fun s => windowFrom windowMs nowMs ≤ time s
      rw [hrest] at hs hp
      obtain rfl | hs := List.mem_cons.1 hs
      · exact le_refl _
      · exact List.rel_of_pairwise_cons hp hs
    omega

theorem playerHistory_bucketed {rows : List TrafficPoint} {nowMs : Int}
    (hsorted : (rows.map TrafficPoint.T).Pairwise (· ≤ ·)) (h0 : ∀ s ∈ rows, 0 ≤ s.T)
    (hle : ∀ s ∈ rows, s.T ≤ nowMs) (windowMs : Int) :
    BucketedTraffic (rows.filter fun s => windowFrom windowMs nowMs ≤ s.T)
      (playerHistory rows windowMs nowMs) := by
  apply bucketTraffic_bucketed
  · rw [List.pairwise_map] at hsorted ⊢
    exact hsorted.filter _
  · exact fun s hs => h0 s (List.mem_filter.1 hs).1
  · exact inWindow_query hsorted hle windowMs

theorem playerLatency_bucketed {rows : List RttSample} {nowMs : Int}
    (hsorted : (rows.map RttSample.t).Pairwise (· ≤ ·)) (h0 : ∀ s ∈ rows, 0 ≤ s.t)
    (hle : ∀ s ∈ rows, s.t ≤ nowMs) (windowMs : Int) :
    BucketedLatency (rows.filter fun s => windowFrom windowMs nowMs ≤ s.t)
      (playerLatency rows windowMs nowMs) := by
  apply bucketLatency_bucketed
  · rw [List.pairwise_map] at hsorted ⊢
    exact hsorted.filter _
  · exact fun s hs => h0 s (List.mem_filter.1 hs).1
  · exact inWindow_query hsorted hle windowMs

/-- Both groupings are bounded and exact, for samples at or after the epoch. -/
theorem points_bounded_exact :
    (∀ (samples : List TrafficPoint) (span nowMs : Int),
      (samples.map TrafficPoint.T).Pairwise (· ≤ ·) → (∀ s ∈ samples, 0 ≤ s.T) →
        InWindow TrafficPoint.T span nowMs samples →
          BucketedTraffic samples (bucketTraffic samples span nowMs)) ∧
      ∀ (samples : List RttSample) (span nowMs : Int),
        (samples.map RttSample.t).Pairwise (· ≤ ·) → (∀ s ∈ samples, 0 ≤ s.t) →
          InWindow RttSample.t span nowMs samples →
            BucketedLatency samples (bucketLatency samples span nowMs) :=
  ⟨fun _ _ _ => bucketTraffic_bucketed, fun _ _ _ => bucketLatency_bucketed⟩

/-- Two samples of one bucket and one of the next, and a minute without round trips. -/
theorem points_bounded_exact_samples :
    BucketedTraffic [⟨0, 1, 8⟩, ⟨14999, 2, 0⟩, ⟨15000, 4, 0⟩]
        (bucketTraffic [⟨0, 1, 8⟩, ⟨14999, 2, 0⟩, ⟨15000, 4, 0⟩] 30000 30000) ∧
      BucketedLatency [⟨0, 5, 4, 6, 3⟩, ⟨60000, 9, 9, 9, 0⟩]
        (bucketLatency [⟨0, 5, 4, 6, 3⟩, ⟨60000, 9, 9, 9, 0⟩] 0 60000) :=
  ⟨points_bounded_exact.1 _ 30000 30000 (by decide) (by decide) (by
      intro first h
      cases h
      decide),
    points_bounded_exact.2 _ 0 60000 (by decide) (by decide) (by
      intro first h
      cases h
      decide)⟩

/-- Traffic before the epoch is in no point where its bucket is the mark of none, and a sample of no
round trips is in none. -/
theorem samples_in_no_point :
    (¬∀ (samples : List TrafficPoint) (span nowMs : Int),
      (samples.map TrafficPoint.T).Pairwise (· ≤ ·) → InWindow TrafficPoint.T span nowMs samples →
        ∃ w, 0 < w ∧ ∀ s ∈ samples, ∃! p, p ∈ bucketTraffic samples span nowMs ∧
          Covers w p.T s.T) ∧
      ¬∀ (samples : List RttSample) (span nowMs : Int),
        (samples.map RttSample.t).Pairwise (· ≤ ·) → (∀ s ∈ samples, 0 ≤ s.t) →
          InWindow RttSample.t span nowMs samples →
            ∃ w, 0 < w ∧ ∀ s ∈ samples, ∃! p, p ∈ bucketLatency samples span nowMs ∧
              Covers w p.T s.t := by
  constructor
  · intro h
    obtain ⟨w, -, hs⟩ := h [⟨-15000, 7, 0⟩, ⟨0, 1, 0⟩] 15000 0 (by decide) (by
      intro first h
      cases h
      decide)
    obtain ⟨p, ⟨hp, hc⟩, -⟩ := hs ⟨-15000, 7, 0⟩ List.mem_cons_self
    have hout : bucketTraffic [⟨-15000, 7, 0⟩, ⟨0, 1, 0⟩] 15000 0 = [⟨0, 1, 0⟩] := by decide
    rw [hout, List.mem_singleton] at hp
    rw [hp] at hc
    exact absurd hc.1 (by decide)
  · intro h
    obtain ⟨w, -, hs⟩ := h [⟨0, 5, 5, 5, 0⟩] 0 60000 (by decide) (by decide) (by
      intro first h
      cases h
      decide)
    obtain ⟨p, ⟨hp, -⟩, -⟩ := hs ⟨0, 5, 5, 5, 0⟩ List.mem_cons_self
    have hout : bucketLatency [⟨0, 5, 5, 5, 0⟩] 0 60000 = [] := by decide
    rw [hout] at hp
    cases hp

end ProxyForward.Analytics

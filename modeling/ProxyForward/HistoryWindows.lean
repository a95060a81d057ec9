import Mathlib.Algebra.Order.Group.Int
import Mathlib.Data.Int.Order.Basic
import ProxyForward.Accounting
import ProxyForward.HistoryAt

namespace ProxyForward.Stats
set_option autoImplicit true

open Cascade Grouping

/-- The first open, the last close, the greatest high and the least low. -/
structure Spans (x : OHLC) (xs : List OHLC) : Prop where
  first : ∃ y, xs.head? = some y ∧ x.o = y.o
  last : ∃ y, xs.getLast? = some y ∧ x.c = y.c
  high : (∃ y ∈ xs, x.h = y.h) ∧ ∀ y ∈ xs, y.h ≤ x.h
  low : (∃ y ∈ xs, x.l = y.l) ∧ ∀ y ∈ xs, x.l ≤ y.l

def knownGauges (xs : List OHLC) : List OHLC := xs.filter fun x => 0 ≤ x.c

/-- The same of the known gauges; unknown if there are none. -/
def GaugeSpans (x : OHLC) (xs : List OHLC) : Prop :=
  if knownGauges xs = [] then x.c < 0 else Spans x (knownGauges xs)

/-- Measures that are the fold of others in order. -/
structure Folds (m : Measures) (ms : List Measures) : Prop where
  nonempty : ms ≠ []
  In : m.In = (ms.map (·.In)).sum
  Out : m.Out = (ms.map (·.Out)).sum
  inRate : Spans m.inRate (ms.map (·.inRate))
  outRate : Spans m.outRate (ms.map (·.outRate))
  conns : GaugeSpans m.conns (ms.map (·.conns))
  rtt : GaugeSpans m.rtt (ms.map (·.rtt))
  players : GaugeSpans m.players (ms.map (·.players))
  loss : GaugeSpans m.loss (ms.map (·.loss))

theorem spans_singleton (x : OHLC) : Spans x [x] where
  first := ⟨x, rfl, rfl⟩
  last := ⟨x, rfl, rfl⟩
  high := by simp
  low := by simp

theorem Spans.concat {x : OHLC} (h : Spans x xs) (y : OHLC) :
    Spans (mergeRate x y) (xs ++ [y]) where
  first := by
    obtain ⟨z, hz, ho⟩ := h.first
    exact ⟨z, by rw [List.head?_append, hz]; rfl, ho⟩
  last := ⟨y, List.getLast?_concat, rfl⟩
  high := by
    obtain ⟨⟨z, hz, hmax⟩, hle⟩ := h.high
    constructor
    · rcases max_choice x.h y.h with hc | hc
      · exact ⟨z, List.mem_append_left _ hz, hc.trans hmax⟩
      · exact ⟨y, List.mem_append_right _ List.mem_cons_self, hc⟩
    · intro w hw
      rcases List.mem_append.1 hw with hw | hw
      · exact (hle w hw).trans (le_max_left _ _)
      · rw [List.mem_singleton.1 hw]
        exact le_max_right _ _
  low := by
    obtain ⟨⟨z, hz, hmin⟩, hle⟩ := h.low
    constructor
    · rcases min_choice x.l y.l with hc | hc
      · exact ⟨z, List.mem_append_left _ hz, hc.trans hmin⟩
      · exact ⟨y, List.mem_append_right _ List.mem_cons_self, hc⟩
    · intro w hw
      rcases List.mem_append.1 hw with hw | hw
      · exact (min_le_left _ _).trans (hle w hw)
      · rw [List.mem_singleton.1 hw]
        exact min_le_right _ _

theorem gaugeSpans_singleton (x : OHLC) : GaugeSpans x [x] := by
  unfold GaugeSpans
  by_cases hx : 0 ≤ x.c
  · have hknown : knownGauges [x] = [x] := by
      rw [knownGauges, List.filter_singleton, decide_eq_true hx]
      rfl
    rw [hknown, if_neg (List.cons_ne_nil _ _)]
    exact spans_singleton x
  · have hknown : knownGauges [x] = [] := by
      rw [knownGauges, List.filter_singleton, decide_eq_false hx]
      rfl
    rw [hknown, if_pos rfl]
    exact not_le.1 hx

theorem GaugeSpans.concat {x : OHLC} (h : GaugeSpans x xs) (y : OHLC) :
    GaugeSpans (mergeGauge x y) (xs ++ [y]) := by
  unfold GaugeSpans at h ⊢
  by_cases hy : y.c < 0
  · have hknown : knownGauges (xs ++ [y]) = knownGauges xs := by
      rw [knownGauges, List.filter_append, List.filter_cons_of_neg (by simpa using hy),
        List.filter_nil, List.append_nil]
      rfl
    rw [hknown, mergeGauge, if_pos hy]
    exact h
  · have hknown : knownGauges (xs ++ [y]) = knownGauges xs ++ [y] := by
      rw [knownGauges, List.filter_append, List.filter_cons_of_pos (by simpa using hy),
        List.filter_nil]
      rfl
    rw [hknown, if_neg (by simp), mergeGauge, if_neg hy]
    split at h
    · rename_i hnil
      rw [hnil, if_pos h]
      exact spans_singleton y
    · obtain ⟨z, hz, hc⟩ := h.last
      have hz0 : 0 ≤ z.c := of_decide_eq_true (List.mem_filter.1 (List.mem_of_getLast? hz)).2
      rw [if_neg (by rw [hc]; exact not_lt.2 hz0)]
      exact h.concat y

theorem folds_singleton (m : Measures) : Folds m [m] where
  nonempty := List.cons_ne_nil _ _
  In := (List.sum_singleton).symm
  Out := (List.sum_singleton).symm
  inRate := spans_singleton _
  outRate := spans_singleton _
  conns := gaugeSpans_singleton _
  rtt := gaugeSpans_singleton _
  players := gaugeSpans_singleton _
  loss := gaugeSpans_singleton _

theorem Folds.concat {m : Measures} (h : Folds m ms) (m' : Measures) :
    Folds (m.merge m') (ms ++ [m']) := by
  constructor
  · exact List.append_ne_nil_of_right_ne_nil _ (List.cons_ne_nil _ _)
  · simp only [List.map_append, List.map_singleton, List.sum_append, List.sum_singleton, ← h.In]
    rfl
  · simp only [List.map_append, List.map_singleton, List.sum_append, List.sum_singleton, ← h.Out]
    rfl
  · rw [List.map_append]
    exact h.inRate.concat _
  · rw [List.map_append]
    exact h.outRate.concat _
  · rw [List.map_append]
    exact h.conns.concat _
  · rw [List.map_append]
    exact h.rtt.concat _
  · rw [List.map_append]
    exact h.players.concat _
  · rw [List.map_append]
    exact h.loss.concat _

theorem folds_of_merged {ms : List Measures} (h : merged Measures.merge ms = some m) :
    Folds m ms := by
  induction ms using List.reverseRecOn generalizing m with
  | nil => cases h
  | append_singleton ms m' ih =>
    rw [merged_concat] at h
    cases hms : merged Measures.merge ms with
    | none =>
      rw [hms] at h
      obtain rfl : m' = m := Option.some.inj h
      rw [merged_eq_none.1 hms]
      exact folds_singleton m'
    | some m₀ =>
      rw [hms] at h
      obtain rfl : m₀.merge m' = m := Option.some.inj h
      exact (ih hms).concat m'

namespace Ring

theorem validAt_natCast (r : Ring) (j : Nat) : r.validAt j = some (r.valid j) := by
  unfold validAt valid
  cases r.cur with
  | none => rfl
  | some cur =>
    simp only [Int.toNat_natCast]
    by_cases hout : (cur : Int) < j ∨ (j : Int) ≤ cur - r.slots
    · rw [if_pos hout]
      have hno : ¬(j ≤ cur ∧ cur < j + r.slots) := by omega
      by_cases hle : j ≤ cur
      · have hlt : ¬cur < j + r.slots := fun hc => hno ⟨hle, hc⟩
        simp only [hlt, decide_false, Bool.and_false, Bool.false_and]
      · simp only [hle, decide_false, Bool.false_and]
    · rw [if_neg hout, if_neg (by omega)]
      have hle : j ≤ cur := by omega
      have hlt : cur < j + r.slots := by omega
      simp only [hle, hlt, decide_true, Bool.true_and]

theorem validAt_negative {r : Ring} {i : Int} (hi : i < 0) :
    r.validAt i = if (r.cur.any fun cur : Nat => (cur : Int) - r.slots < i) then none
      else some false := by
  unfold validAt
  cases r.cur with
  | none => rfl
  | some cur =>
    have hcur : ¬(cur : Int) < i := by omega
    simp only [hcur, false_or, Option.any_some, decide_eq_true_eq]
    by_cases hle : i ≤ cur - r.slots
    · rw [if_pos hle, if_neg (not_lt.2 hle)]
    · rw [if_neg hle, if_pos hi, if_pos (not_le.1 hle)]

end Ring

namespace Chosen

/-- The indices of the window that have data, in time order. -/
def contributors (c : Chosen) : List Nat :=
  (c.indices.filter fun i => c.ring.validAt i = some true).map Int.toNat

theorem mem_indices {c : Chosen} : i ∈ c.indices ↔ c.startIdx ≤ i ∧ i ≤ c.endIdx := by
  simp only [indices, List.mem_map, List.mem_range]
  constructor
  · rintro ⟨j, hj, rfl⟩
    omega
  · rintro ⟨hlo, hhi⟩
    exact ⟨(i - c.startIdx).toNat, by omega, by omega⟩

theorem indices_increasing (c : Chosen) : c.indices.Pairwise (· < ·) := by
  rw [indices, List.pairwise_map]
  exact List.pairwise_lt_range.imp fun h => by omega

theorem mem_contributors {c : Chosen} {j : Nat} :
    j ∈ c.contributors ↔ c.startIdx ≤ j ∧ j ≤ c.endIdx ∧ c.ring.valid j = true := by
  simp only [contributors, List.mem_map, List.mem_filter, mem_indices, decide_eq_true_eq]
  constructor
  · rintro ⟨i, ⟨⟨hlo, hhi⟩, hv⟩, rfl⟩
    have hi : 0 ≤ i := by
      by_contra hneg
      rw [Ring.validAt_negative (not_le.1 hneg)] at hv
      split at hv <;> cases hv
    obtain ⟨j, rfl⟩ := Int.eq_ofNat_of_zero_le hi
    rw [Int.toNat_natCast]
    rw [Ring.validAt_natCast] at hv
    exact ⟨hlo, hhi, Option.some.inj hv⟩
  · rintro ⟨hlo, hhi, hv⟩
    exact ⟨j, ⟨⟨hlo, hhi⟩, by rw [Ring.validAt_natCast, hv]⟩, Int.toNat_natCast j⟩

theorem contributors_increasing (c : Chosen) : c.contributors.Pairwise (· < ·) := by
  rw [contributors, List.pairwise_map]
  have hlt := (c.indices_increasing.filter fun i => c.ring.validAt i = some true)
  refine hlt.imp_of_mem fun {i j} hi hj hij => ?_
  have hi0 : 0 ≤ i := by
    by_contra hneg
    have hv := of_decide_eq_true (List.mem_filter.1 hi).2
    rw [Ring.validAt_negative (not_le.1 hneg)] at hv
    split at hv <;> cases hv
  omega

end Chosen

/-- The groups that the loop has built, as the result shows them. -/
def shown (width : Nat) (gs : List (Nat × Measures)) : List Bucket :=
  gs.map fun g => ⟨g.2, g.1 * width⟩

/-- The loop's state after a pass of the grouping. -/
structure Rendering.Shows (s : Rendering) (width : Nat) (gs : List (Nat × Measures)) : Prop where
  out : s.out = shown width gs
  first : s.first = true ↔ gs = []
  group : ∀ g, gs.getLast? = some g → s.groupIdx = g.1

def Ring.measuresAt (r : Ring) (i : Nat) : Measures := (r.buf (r.pos i)).toMeasures

theorem Rendering.Shows.turn {s : Rendering} {r : Ring} {k j : Nat} (hk : 0 < k)
    (h : s.Shows (k * r.resMs) gs) (hv : r.valid j = true) :
    ∃ t, Rendering.turn r k s j = some t ∧
      t.Shows (k * r.resMs) (Grouping.turn Measures.merge (· / k) r.measuresAt gs j) := by
  have hgrp : (j : Int).tdiv k = ((j / k : Nat) : Int) := rfl
  have hT : (((j / k : Nat) : Int) * k * r.resMs).toNat = j / k * (k * r.resMs) := by
    rw [mul_assoc]
    exact Int.toNat_natCast _
  have hk' : ¬(k : Int) = 0 := by omega
  simp only [Rendering.turn, Ring.validAt_natCast, hv, if_neg hk', hgrp, hT, Int.toNat_natCast]
  rcases List.eq_nil_or_concat gs with rfl | ⟨gs, ⟨g, m⟩, rfl⟩
  · have hfirst : s.first = true := h.first.2 rfl
    rw [if_pos (.inl hfirst)]
    refine ⟨_, rfl, ?_, iff_of_false Bool.false_ne_true (List.cons_ne_nil _ _), ?_⟩
    · simp only [h.out]
      rfl
    · rintro g ⟨⟩
      rfl
  · rw [List.concat_eq_append] at h ⊢
    have hfirst : ¬s.first = true := fun hc => absurd (h.first.1 hc) (by simp)
    have hgroup : s.groupIdx = (g : Int) := h.group _ List.getLast?_concat
    simp only [Grouping.turn, List.getLast?_concat, Option.map_some, Option.some.injEq]
    by_cases hsame : g = j / k
    · have hjoin : ¬(s.first = true ∨ ((j / k : Nat) : Int) ≠ s.groupIdx) := by
        rintro (hc | hc)
        · exact hfirst hc
        · exact hc (by rw [hgroup, hsame])
      rw [if_neg hjoin, if_pos hsame, List.modifyLast_concat]
      refine ⟨_, rfl, ?_, iff_of_false hfirst (by simp), ?_⟩
      · simp only [h.out, shown, List.map_append, List.map_singleton, List.modifyLast_concat]
        rfl
      · intro g' hg'
        rw [List.getLast?_concat] at hg'
        cases hg'
        exact hgroup
    · have hne : ((j / k : Nat) : Int) ≠ s.groupIdx := by
        rw [hgroup]
        exact fun hc => hsame (Int.ofNat_inj.1 hc).symm
      rw [if_pos (.inr hne), if_neg hsame]
      refine ⟨_, rfl, ?_, iff_of_false Bool.false_ne_true (by simp), ?_⟩
      · simp only [h.out, shown, List.map_append, List.map_singleton]
        rfl
      · intro g' hg'
        rw [List.getLast?_concat] at hg'
        cases hg'
        rfl

/-- The loop gets through exactly when no index it looks up is outside the ring, and groups the
valid ones. -/
theorem foldlM_turn {r : Ring} {k : Nat} (hk : 0 < k) {l : List Int} {s : Rendering}
    (h : s.Shows (k * r.resMs) gs) (hl : ∀ i ∈ l, r.validAt i ≠ none) :
    ∃ t, l.foldlM (Rendering.turn r k) s = some t ∧ t.Shows (k * r.resMs)
      (((l.filter fun i => r.validAt i = some true).map Int.toNat).foldl
        (Grouping.turn Measures.merge (· / k) r.measuresAt) gs) := by
  induction l generalizing s gs with
  | nil => exact ⟨s, rfl, h⟩
  | cons i l ih =>
    have hrest : ∀ i ∈ l, r.validAt i ≠ none := fun i hi => hl i (List.mem_cons_of_mem _ hi)
    rw [List.foldlM_cons]
    cases hv : r.validAt i with
    | none => exact absurd hv (hl i List.mem_cons_self)
    | some ok =>
      cases ok with
      | false =>
        have hturn : Rendering.turn r k s i = some s := by rw [Rendering.turn, hv]
        rw [List.filter_cons, if_neg (by simp [hv]), hturn]
        exact ih h hrest
      | true =>
        obtain ⟨j, rfl⟩ : ∃ j : Nat, i = j := by
          refine Int.eq_ofNat_of_zero_le (not_lt.1 fun hneg => ?_)
          rw [Ring.validAt_negative hneg] at hv
          split at hv <;> cases hv
        obtain ⟨t, ht, hshows⟩ := h.turn hk (by
          rw [Ring.validAt_natCast] at hv
          exact Option.some.inj hv)
        rw [List.filter_cons, if_pos (decide_eq_true hv), ht]
        exact ih hshows hrest

theorem foldlM_turn_outside {r : Ring} {k : Int} {l : List Int} {s : Rendering}
    (hi : i ∈ l) (hv : r.validAt i = none) : l.foldlM (Rendering.turn r k) s = none := by
  induction l generalizing s with
  | nil => cases hi
  | cons i' l ih =>
    rw [List.foldlM_cons]
    cases ht : Rendering.turn r k s i' with
    | none => rfl
    | some t =>
      rcases List.mem_cons.1 hi with rfl | hi
      · rw [Rendering.turn, hv] at ht
        cases ht
      · exact ih hi

/-- The time of the index is in the bucket of the result. -/
def HistoryResult.Covers (res : HistoryResult) (resMs : Nat) (b : Bucket) (i : Nat) : Prop :=
  (b.T : Int) ≤ i * resMs ∧ (i * resMs : Int) < b.T + res.bucketMs

instance (res : HistoryResult) (resMs : Nat) (b : Bucket) (i : Nat) :
    Decidable (res.Covers resMs b i) := inferInstanceAs (Decidable (_ ∧ _))

/-- What a slot holds that nothing was ever written to. -/
def Bucket.blank : Bucket := ⟨.zero, 0⟩

/-- The window is rendered without loss: in aligned buckets, in order, with each index that has data
in one of them, and each of them the fold of its own. -/
structure Conserves (c : Chosen) (res : HistoryResult) : Prop where
  increasing : (res.buckets.map (·.T)).Pairwise (· < ·)
  aligned : ∀ b ∈ res.buckets, res.bucketMs ∣ b.T
  once : ∀ i : Nat, c.startIdx ≤ i → i ≤ c.endIdx → c.ring.valid i = true →
    ∃! b, b ∈ res.buckets ∧ res.Covers c.ring.resMs b i
  folds : ∀ b ∈ res.buckets, Folds b.toMeasures
    ((c.contributors.filter fun i => res.Covers c.ring.resMs b i).map c.ring.measuresAt)

theorem covers_iff {res : HistoryResult} {k resMs : Nat} (hk : 0 < k) (hres : 0 < resMs)
    (hb : res.bucketMs = (k * resMs : Nat)) (m : Measures) (g i : Nat) :
    res.Covers resMs ⟨m, g * (k * resMs)⟩ i ↔ i / k = g := by
  unfold HistoryResult.Covers
  rw [hb]
  constructor
  · rintro ⟨hlo, hhi⟩
    have hlo' : g * k * resMs ≤ i * resMs := by
      rw [Nat.mul_assoc]
      exact_mod_cast hlo
    have hhi' : i * resMs < (g + 1) * k * resMs := by
      rw [Nat.mul_assoc, Nat.succ_mul]
      exact_mod_cast hhi
    exact (Nat.div_eq_iff hk).2 ⟨Nat.le_of_mul_le_mul_right hlo' hres, by
      have hlt := Nat.lt_of_mul_lt_mul_right hhi'
      rw [Nat.succ_mul] at hlt
      omega⟩
  · rintro rfl
    have hlo : i / k * k ≤ i := Nat.div_mul_le_self i k
    have hhi : i < i / k * k + k := by
      have hmod := Nat.mod_lt i hk
      have hdiv := Nat.div_add_mod' i k
      omega
    have hlo' : i / k * (k * resMs) ≤ i * resMs := by
      rw [← Nat.mul_assoc]
      exact Nat.mul_le_mul_right _ hlo
    have hhi' : i * resMs < i / k * (k * resMs) + k * resMs := by
      rw [← Nat.mul_assoc, ← Nat.add_mul]
      exact Nat.mul_lt_mul_of_pos_right hhi hres
    exact ⟨by exact_mod_cast hlo', by exact_mod_cast hhi'⟩

namespace Chosen

variable {c : Chosen}

theorem contributors_keys (c : Chosen) (k : Nat) :
    (c.contributors.map (· / k)).Pairwise (· ≤ ·) := by
  rw [List.pairwise_map]
  exact c.contributors_increasing.imp fun h => Nat.div_le_div_right h.le

/-- The result, if the loop gets through. -/
def rendered (c : Chosen) (k : Nat) : HistoryResult where
  windowMs := c.windowMs
  bucketMs := (k * c.ring.resMs : Nat)
  buckets := shown (k * c.ring.resMs)
    (groups Measures.merge (· / k) c.ring.measuresAt c.contributors)

theorem render_eq {k : Nat} (hk : 0 < k) (hwidth : c.groupWidth maxBuckets = k)
    (hin : ∀ i ∈ c.indices, c.ring.validAt i ≠ none) :
    c.render maxBuckets = some (c.rendered k) := by
  have hstart : Rendering.start.Shows (k * c.ring.resMs) [] :=
    ⟨rfl, iff_of_true rfl rfl, fun g hg => by cases hg⟩
  obtain ⟨t, ht, hshows⟩ := foldlM_turn hk hstart hin
  rw [render, hwidth, ht, Option.map_some, hshows.out, rendered, Int.natCast_mul]
  rfl

theorem render_outside (hi : i ∈ c.indices) (hv : c.ring.validAt i = none) :
    c.render maxBuckets = none := by
  rw [render, foldlM_turn_outside hi hv]
  rfl

theorem rendered_conserves {k : Nat} (hk : 0 < k) (hres : 0 < c.ring.resMs) :
    Conserves c (c.rendered k) := by
  have hgrouped : Grouped Measures.merge (· / k) c.ring.measuresAt c.contributors
      (groups Measures.merge (· / k) c.ring.measuresAt c.contributors) :=
    groups_grouped (c.contributors_keys k)
  generalize hgs : groups Measures.merge (· / k) c.ring.measuresAt c.contributors = gs at hgrouped
  have hout : (c.rendered k).buckets = shown (k * c.ring.resMs) gs := by rw [rendered, hgs]
  have hwidth : 0 < k * c.ring.resMs := Nat.mul_pos hk hres
  have hcovers (m : Measures) (g i : Nat) :
      (c.rendered k).Covers c.ring.resMs ⟨m, g * (k * c.ring.resMs)⟩ i ↔ i / k = g :=
    covers_iff hk hres rfl m g i
  have hincreasing : ((c.rendered k).buckets.map (·.T)).Pairwise (· < ·) := by
    rw [hout, shown, List.map_map]
    have hkeys := List.pairwise_map.1 hgrouped.increasing
    exact List.pairwise_map.2 (hkeys.imp fun h => Nat.mul_lt_mul_of_pos_right h hwidth)
  refine ⟨hincreasing, ?_, ?_, ?_⟩
  · intro b hb
    rw [hout] at hb
    obtain ⟨g, -, rfl⟩ := List.mem_map.1 hb
    exact Int.natCast_dvd_natCast.2 (Nat.dvd_mul_left _ _)
  · intro i hlo hhi hv
    have hi : i ∈ c.contributors := mem_contributors.2 ⟨hlo, hhi, hv⟩
    obtain ⟨g, hg, hkey⟩ := List.mem_map.1 ((hgrouped.keys (i / k)).2 ⟨i, hi, rfl⟩)
    refine ⟨⟨g.2, g.1 * (k * c.ring.resMs)⟩, ⟨?_, (hcovers _ _ _).2 hkey.symm⟩, ?_⟩
    · rw [hout]
      exact List.mem_map_of_mem hg
    · rintro b ⟨hb, hcov⟩
      rw [hout] at hb
      obtain ⟨g', hg', rfl⟩ := List.mem_map.1 hb
      have hsame : g'.1 = g.1 := ((hcovers _ _ _).1 hcov).symm.trans hkey.symm
      have hnodup : (gs.map Prod.fst).Nodup := hgrouped.increasing.imp fun h => h.ne
      rw [List.inj_on_of_nodup_map hnodup hg' hg hsame]
  · intro b hb
    rw [hout] at hb
    obtain ⟨g, hg, rfl⟩ := List.mem_map.1 hb
    have hfilter : (c.contributors.filter fun i => (c.rendered k).Covers c.ring.resMs
        ⟨g.2, g.1 * (k * c.ring.resMs)⟩ i) = c.contributors.filter fun i => i / k = g.1 :=
      List.filter_congr fun i _ => decide_eq_decide.2 (hcovers _ _ _)
    rw [hfilter]
    exact folds_of_merged (hgrouped.values g hg)

end Chosen

end ProxyForward.Stats

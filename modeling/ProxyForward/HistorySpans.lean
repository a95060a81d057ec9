import ProxyForward.HistoryQueries

namespace ProxyForward.Stats
set_option autoImplicit true

open Cascade Grouping

/-- The first open, the greatest high, the least low and the last close. -/
def rateSpan (xs : List OHLC) : OHLC :=
  ⟨(xs.map OHLC.o).head?.getD 0, (xs.map OHLC.h).max?.getD 0, (xs.map OHLC.l).min?.getD 0,
    (xs.map OHLC.c).getLast?.getD 0⟩

/-- The same of the known gauges. If there are none, the first stands for all. -/
def gaugeSpan (xs : List OHLC) : OHLC :=
  if knownGauges xs = [] then xs.head?.getD (.flat 0) else rateSpan (knownGauges xs)

/-- The bytes of several buckets, and the spans of their rates and gauges. -/
def measureSpan (ms : List Measures) : Measures where
  In := (ms.map Measures.In).sum
  Out := (ms.map Measures.Out).sum
  inRate := rateSpan (ms.map Measures.inRate)
  outRate := rateSpan (ms.map Measures.outRate)
  conns := gaugeSpan (ms.map Measures.conns)
  rtt := gaugeSpan (ms.map Measures.rtt)
  players := gaugeSpan (ms.map Measures.players)
  loss := gaugeSpan (ms.map Measures.loss)

theorem rateSpan_concat (h : xs ≠ []) (y : OHLC) :
    rateSpan (xs ++ [y]) = mergeRate (rateSpan xs) y := by
  obtain ⟨x, xs, rfl⟩ := List.exists_cons_of_ne_nil h
  have hlast : ((x :: xs ++ [y]).map OHLC.c).getLast? = some y.c := by
    rw [List.map_append]
    exact List.getLast?_concat
  rw [rateSpan, hlast]
  simp [rateSpan, mergeRate, List.max?, List.min?, List.foldl_append]

theorem merged_rates (h : xs ≠ []) : merged mergeRate xs = some (rateSpan xs) := by
  induction xs using List.reverseRecOn with
  | nil => exact absurd rfl h
  | append_singleton xs y ih =>
    rw [merged_concat]
    by_cases hnil : xs = []
    · rw [hnil]
      rfl
    · rw [ih hnil, rateSpan_concat hnil]
      rfl

theorem knownGauges_concat (xs : List OHLC) (y : OHLC) :
    knownGauges (xs ++ [y]) = if y.c < 0 then knownGauges xs else knownGauges xs ++ [y] := by
  rw [knownGauges, List.filter_append, List.filter_singleton]
  by_cases hy : y.c < 0
  · rw [if_pos hy, decide_eq_false (not_le.2 hy)]
    exact List.append_nil _
  · rw [if_neg hy, decide_eq_true (not_lt.1 hy)]
    rfl

theorem gaugeSpan_close (h : knownGauges xs ≠ []) : 0 ≤ (gaugeSpan xs).c := by
  have hlast : ((knownGauges xs).map OHLC.c).getLast? = some ((knownGauges xs).getLast h).c := by
    rw [List.getLast?_map, List.getLast?_eq_some_getLast h]
    rfl
  rw [gaugeSpan, if_neg h, rateSpan, hlast]
  exact of_decide_eq_true (List.mem_filter.1 (List.getLast_mem h)).2

theorem gaugeSpan_unknown (hne : xs ≠ []) (h : knownGauges xs = []) : (gaugeSpan xs).c < 0 := by
  obtain ⟨x, xs, rfl⟩ := List.exists_cons_of_ne_nil hne
  rw [gaugeSpan, if_pos h]
  have hx := List.filter_eq_nil_iff.1 h x List.mem_cons_self
  exact not_le.1 fun hc => hx (decide_eq_true hc)

theorem gaugeSpan_concat (h : xs ≠ []) (y : OHLC) :
    gaugeSpan (xs ++ [y]) = mergeGauge (gaugeSpan xs) y := by
  have hhead : (xs ++ [y]).head? = xs.head? := by
    obtain ⟨x, xs, rfl⟩ := List.exists_cons_of_ne_nil h
    rfl
  rw [mergeGauge]
  by_cases hy : y.c < 0
  · rw [if_pos hy, gaugeSpan, knownGauges_concat, if_pos hy, hhead]
    rfl
  · rw [if_neg hy]
    have hknown : gaugeSpan (xs ++ [y]) = rateSpan (knownGauges xs ++ [y]) := by
      rw [gaugeSpan, knownGauges_concat, if_neg hy,
        if_neg (List.append_ne_nil_of_right_ne_nil _ (List.cons_ne_nil _ _))]
    rw [hknown]
    by_cases hnil : knownGauges xs = []
    · rw [if_pos (gaugeSpan_unknown h hnil), hnil]
      rfl
    · rw [if_neg (not_lt.2 (gaugeSpan_close hnil)), rateSpan_concat hnil, gaugeSpan, if_neg hnil]
      rfl

theorem merged_gauges (h : xs ≠ []) : merged mergeGauge xs = some (gaugeSpan xs) := by
  induction xs using List.reverseRecOn with
  | nil => exact absurd rfl h
  | append_singleton xs y ih =>
    rw [merged_concat]
    by_cases hnil : xs = []
    · rw [hnil, List.nil_append]
      have hone : gaugeSpan [y] = y := by
        rw [gaugeSpan]
        split
        · rfl
        · rename_i hknown
          have hfull := knownGauges_concat [] y
          rw [List.nil_append] at hfull
          split at hfull
          · exact absurd hfull hknown
          · rw [hfull]
            rfl
      rw [hone]
      rfl
    · rw [ih hnil, gaugeSpan_concat hnil]
      rfl

theorem measureSpan_of_merged (h : merged Measures.merge ms = some m) : m = measureSpan ms := by
  have hne : ms ≠ [] := (folds_of_merged h).nonempty
  have hin := (folds_of_merged h).In
  have hout := (folds_of_merged h).Out
  have hrate (f : Measures → OHLC) (hf : ∀ a b, f (a.merge b) = mergeRate (f a) (f b)) :
      f m = rateSpan (ms.map f) := by
    have hmap := merged_map _ hf ms
    rw [merged_rates fun hc => hne (List.map_eq_nil_iff.1 hc), h] at hmap
    exact Option.some.inj hmap
  have hgauge (f : Measures → OHLC) (hf : ∀ a b, f (a.merge b) = mergeGauge (f a) (f b)) :
      f m = gaugeSpan (ms.map f) := by
    have hmap := merged_map _ hf ms
    rw [merged_gauges fun hc => hne (List.map_eq_nil_iff.1 hc), h] at hmap
    exact Option.some.inj hmap
  have hinRate := hrate Measures.inRate fun _ _ => rfl
  have houtRate := hrate Measures.outRate fun _ _ => rfl
  have hconns := hgauge Measures.conns fun _ _ => rfl
  have hrtt := hgauge Measures.rtt fun _ _ => rfl
  have hplayers := hgauge Measures.players fun _ _ => rfl
  have hloss := hgauge Measures.loss fun _ _ => rfl
  obtain ⟨In, Out, inRate, outRate, conns, rtt, players, loss⟩ := m
  rw [measureSpan, ← hin, ← hout, ← hinRate, ← houtRate, ← hconns, ← hrtt, ← hplayers, ← hloss]

namespace Chosen

variable {c : Chosen}

/-- The groups that some index of the window with data falls in, `k` indices to each. -/
def groupKeys (c : Chosen) (k : Nat) : List Nat := (c.contributors.map (· / k)).dedup

/-- What the ring holds for the indices of a group. -/
def members (c : Chosen) (k g : Nat) : List Measures :=
  (c.contributors.filter fun i => i / k = g).map c.ring.measuresAt

/-- A group as one bucket. -/
def groupBucket (c : Chosen) (k g : Nat) : Bucket :=
  ⟨measureSpan (c.members k g), g * (k * c.ring.resMs)⟩

theorem rendered_perm (c : Chosen) (k : Nat) :
    (c.rendered k).buckets.Perm ((c.groupKeys k).map (c.groupBucket k)) := by
  have hgrouped : Grouped Measures.merge (· / k) c.ring.measuresAt c.contributors
      (groups Measures.merge (· / k) c.ring.measuresAt c.contributors) :=
    groups_grouped (c.contributors_keys k)
  have hbuckets : (c.rendered k).buckets =
      ((groups Measures.merge (· / k) c.ring.measuresAt c.contributors).map Prod.fst).map
        (c.groupBucket k) := by
    rw [rendered, shown, List.map_map]
    refine List.map_congr_left fun g hg => ?_
    rw [measureSpan_of_merged (hgrouped.values g hg)]
    rfl
  rw [hbuckets]
  refine List.Perm.map _ ((List.perm_ext_iff_of_nodup ?_ (List.nodup_dedup _)).2 fun g => ?_)
  · exact hgrouped.increasing.imp fun h => h.ne
  · exact (hgrouped.keys g).trans (List.mem_map.symm.trans List.mem_dedup.symm)

/-- The window does not go back behind the epoch, unless the ring has come round since. -/
def AfterEpoch (c : Chosen) : Prop :=
  ∀ cur ∈ c.ring.cur, 0 ≤ c.startIdx ∨ c.ring.slots ≤ cur + 1

instance (c : Chosen) : Decidable c.AfterEpoch :=
  inferInstanceAs (Decidable (∀ cur ∈ c.ring.cur, _))

theorem inside_iff (hend : 0 ≤ c.endIdx) : c.Inside ↔ c.AfterEpoch := by
  constructor
  · intro hin cur hcur
    by_contra hc
    push Not at hc
    -- the slot of the index before the epoch is looked for
    refine hin (-1) (mem_indices.2 ⟨by omega, by omega⟩)
      (validAt_none_iff.2 ⟨by omega, cur, hcur, ?_⟩)
    omega
  · intro h i hi hv
    obtain ⟨hneg, cur, hcur, hlap⟩ := validAt_none_iff.1 hv
    have hlo := (mem_indices.1 hi).1
    rcases h cur hcur with hlate | hround <;> omega

theorem render_spans {maxBuckets : Int} (hm : 0 < maxBuckets) (hin : c.Inside) :
    ∃ res, c.render maxBuckets = some res ∧ res.windowMs = c.windowMs ∧
      res.bucketMs = c.groupWidth maxBuckets * c.ring.resMs ∧
      res.buckets.Perm ((c.groupKeys (c.groupWidth maxBuckets).toNat).map
        (c.groupBucket (c.groupWidth maxBuckets).toNat)) := by
  obtain ⟨m, rfl⟩ := Int.eq_ofNat_of_zero_le hm.le
  by_cases hlen : c.startIdx ≤ c.endIdx
  · obtain ⟨k, hk, hpos, -⟩ := groupWidth_spec (Int.natCast_pos.1 hm) hlen
    refine ⟨_, render_eq hpos hk hin, rfl, ?_, ?_⟩
    · rw [hk, rendered, Int.natCast_mul]
    · rw [hk]
      exact c.rendered_perm k
  · refine ⟨⟨c.windowMs, c.groupWidth m * c.ring.resMs, []⟩, ?_, rfl, rfl, ?_⟩
    · rw [render, indices_nil hlen]
      rfl
    · rw [groupKeys, contributors, indices_nil hlen]
      exact .nil

end Chosen

end ProxyForward.Stats

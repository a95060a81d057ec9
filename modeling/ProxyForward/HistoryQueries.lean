import ProxyForward.HistoryWindows
import ProxyForward.RingImage

namespace ProxyForward.Stats
set_option autoImplicit true

open Grouping

namespace History

/-- The histories that sampling, and restoring tiers from stored buckets, lead to. -/
inductive Reached : History → Prop
  | new : Reached newHistory
  | sample (h : Reached hist) (r : Reading) : Reached (hist.sample r).2
  | restore (h : Reached hist) (tier : Nat) (buckets : List Bucket) :
      Reached { hist with tiers := hist.tiers.modify tier (restoreTier · buckets) }

def Shaped (h : History) : Prop :=
  h.tiers.map (fun r => (r.resMs, r.slots)) = tierSpecs.map fun ts => (ts.resMs, ts.slots)

theorem sample_tiers (h : History) (r : Reading) :
    (h.sample r).2.tiers = h.tiers ∨
      (h.sample r).2.tiers = add h.tiers (r.point h.lastT h.lastIn h.lastOut) := by
  unfold sample
  simp only
  split
  · exact .inl rfl
  · split
    · exact .inl rfl
    · exact .inr rfl

theorem map_modify_of_eq {f : α → β} {g : α → α} (h : ∀ a, f (g a) = f a) (l : List α)
    (n : Nat) : (l.modify n g).map f = l.map f := by
  induction l generalizing n with
  | nil => rw [List.modify_nil]
  | cons a l ih =>
    cases n with
    | zero => rw [List.modify_zero_cons, List.map_cons, List.map_cons, h]
    | succ n => rw [List.modify_succ_cons, List.map_cons, List.map_cons, ih]

theorem Reached.shaped {h : History} (hr : h.Reached) : h.Shaped := by
  induction hr with
  | new => rfl
  | sample _ r ih =>
    rename_i hist _
    unfold Shaped
    rcases sample_tiers hist r with he | he
    · rw [he]
      exact ih
    · rw [he, add_specs]
      exact ih
  | restore _ tier buckets ih =>
    exact (map_modify_of_eq (fun r => by rw [(restoreTier_shape r buckets).1,
      (restoreTier_shape r buckets).2]) _ tier).trans ih

theorem Shaped.tier {h : History} (hs : h.Shaped) (hr : r ∈ h.tiers) :
    0 < r.resMs ∧ r.resMs ≤ 86400000 ∧ 0 < r.slots := by
  have hmem : (r.resMs, r.slots) ∈ tierSpecs.map fun ts => (ts.resMs, ts.slots) := by
    rw [← hs]
    exact List.mem_map_of_mem hr
  have hall : ∀ p ∈ tierSpecs.map fun ts => (ts.resMs, ts.slots),
      0 < p.1 ∧ p.1 ≤ 86400000 ∧ 0 < p.2 := by decide
  exact hall _ hmem

theorem choose_ring {h : History} (hc : h.choose nowMs windowMs = some c) :
    c.ring ∈ h.tiers := by
  unfold choose at hc
  split at hc
  · obtain ⟨r, hr, hc⟩ := Option.bind_eq_some_iff.1 hc
    obtain ⟨cur, -, rfl⟩ := Option.map_eq_some_iff.1 hc
    exact List.mem_of_getLast? hr
  · obtain ⟨r, hr, rfl⟩ := Option.map_eq_some_iff.1 hc
    rcases Option.or_eq_some_iff.1 hr with hr | ⟨-, hr⟩
    · exact List.mem_of_find?_eq_some hr
    · exact List.mem_of_getLast? hr

theorem choose_endIdx {h : History} (hc : h.choose nowMs windowMs = some c) : 0 ≤ c.endIdx := by
  unfold choose at hc
  split at hc
  · obtain ⟨r, hr, hc⟩ := Option.bind_eq_some_iff.1 hc
    obtain ⟨cur, -, rfl⟩ := Option.map_eq_some_iff.1 hc
    exact Int.natCast_nonneg cur
  · obtain ⟨r, hr, rfl⟩ := Option.map_eq_some_iff.1 hc
    exact Int.natCast_nonneg (nowMs / r.resMs)

theorem oldest_le (r : Ring) (cur : Nat) : r.oldest cur ≤ cur := by
  unfold Ring.oldest
  cases hf : (List.range' (cur + 1 - r.slots) (cur - (cur + 1 - r.slots))).find? r.valid with
  | none => exact le_rfl
  | some i =>
    have hi := List.mem_range'_1.1 (List.mem_of_find?_eq_some hf)
    rw [Option.getD_some]
    omega

theorem choose_window {h : History} (hs : h.Shaped) (hw : windowMs < 2 ^ 53)
    (hc : h.choose nowMs windowMs = some c) : c.startIdx ≤ c.endIdx := by
  obtain ⟨hpos, hle, -⟩ := hs.tier (choose_ring hc)
  unfold choose at hc
  split at hc
  · obtain ⟨r, hr, hc⟩ := Option.bind_eq_some_iff.1 hc
    obtain ⟨cur, -, rfl⟩ := Option.map_eq_some_iff.1 hc
    exact Int.ofNat_le.2 (oldest_le r cur)
  · rename_i hwindow
    obtain ⟨r, hr, rfl⟩ := Option.map_eq_some_iff.1 hc
    have hpos : 0 < r.resMs := hpos
    have hle : r.resMs ≤ 86400000 := hle
    have hsum : wrap64 (windowMs + r.resMs - 1) = windowMs + r.resMs - 1 :=
      Int.bmod_eq_of_le_mul_two (by omega) (by omega)
    have hn : 1 ≤ (windowMs + r.resMs - 1).tdiv r.resMs := by
      rw [Int.tdiv_eq_ediv_of_nonneg (by omega)]
      exact Int.le_ediv_of_mul_le (by omega) (by omega)
    simp only [hsum]
    omega

end History

theorem clampBuckets_range (maxBuckets : Int) :
    0 < clampBuckets maxBuckets ∧ clampBuckets maxBuckets ≤ maxHistoryBuckets := by
  unfold clampBuckets maxHistoryBuckets
  split <;> omega

namespace Chosen

variable {c : Chosen}

theorem groupWidth_spec {m : Nat} (hm : 0 < m) (hlen : c.startIdx ≤ c.endIdx) :
    ∃ k : Nat, c.groupWidth m = k ∧ 0 < k ∧ c.endIdx + 1 - c.startIdx ≤ k * m := by
  obtain ⟨n, hn⟩ := Int.eq_ofNat_of_zero_le (a := c.endIdx - c.startIdx) (by omega)
  have hsum : c.endIdx - c.startIdx + 1 + (m : Int) - 1 = ((n + m : Nat) : Int) := by omega
  refine ⟨(n + m) / m, ?_, Nat.div_pos (by omega) hm, ?_⟩
  · rw [groupWidth, hsum]
    rfl
  · have hdiv := Nat.div_add_mod' (n + m) m
    have hmod := Nat.mod_lt (n + m) hm
    have hle : n + 1 ≤ (n + m) / m * m := by omega
    have hle' : ((n + 1 : Nat) : Int) ≤ ((n + m) / m * m : Nat) := Int.ofNat_le.2 hle
    push_cast at hle' ⊢
    omega

theorem indices_nil (hlen : ¬c.startIdx ≤ c.endIdx) : c.indices = [] := by
  rw [List.eq_nil_iff_forall_not_mem]
  intro i hi
  obtain ⟨hlo, hhi⟩ := mem_indices.1 hi
  exact hlen (hlo.trans hhi)

/-- The loop does not look for a slot of a negative index. -/
def Inside (c : Chosen) : Prop := ∀ i ∈ c.indices, c.ring.validAt i ≠ none

theorem render_inside (hres : 0 < c.ring.resMs) {maxBuckets : Int} (hm : 0 < maxBuckets)
    (hin : c.Inside) : ∃ res, c.render maxBuckets = some res ∧ Conserves c res := by
  obtain ⟨m, rfl⟩ := Int.eq_ofNat_of_zero_le hm.le
  by_cases hlen : c.startIdx ≤ c.endIdx
  · obtain ⟨k, hk, hpos, -⟩ := groupWidth_spec (Int.natCast_pos.1 hm) hlen
    exact ⟨_, render_eq hpos hk hin, rendered_conserves hpos hres⟩
  · refine ⟨⟨c.windowMs, c.groupWidth m * c.ring.resMs, []⟩, ?_, .nil, ?_, ?_, ?_⟩
    · rw [render, indices_nil hlen]
      rfl
    · exact fun b hb => absurd hb List.not_mem_nil
    · exact fun i hlo hhi => absurd (hlo.trans hhi) hlen
    · exact fun b hb => absurd hb List.not_mem_nil

theorem inside_of_render {maxBuckets : Int} (h : c.render maxBuckets = some res) : c.Inside := by
  intro i hi hv
  rw [render_outside hi hv] at h
  cases h

/-- No index of the window that has data is one whose slot was never written. -/
def Written (c : Chosen) : Prop :=
  ∀ i ∈ c.contributors, c.ring.buf (c.ring.pos i) ≠ Bucket.blank

/-- The window does not reach back to the epoch, the ring has come round since then, or its first
bucket is a real one and the window starts there at the earliest. -/
def PastEpoch (c : Chosen) : Prop :=
  ∀ cur ∈ c.ring.cur, 0 < c.startIdx ∨ c.ring.slots ≤ cur ∨
    c.ring.buf 0 ≠ Bucket.blank ∧ (c.startIdx = 0 ∨ c.ring.slots = cur + 1)

theorem validAt_none_iff {r : Ring} : r.validAt i = none ↔
    i < 0 ∧ ∃ cur, r.cur = some cur ∧ (cur : Int) - r.slots < i := by
  by_cases hi : i < 0
  · rw [Ring.validAt_negative hi]
    cases r.cur with
    | none => simp
    | some cur => simp [hi]
  · obtain ⟨j, rfl⟩ := Int.eq_ofNat_of_zero_le (not_lt.1 hi)
    rw [Ring.validAt_natCast]
    exact iff_of_false (Option.some_ne_none _) fun hc => hi hc.1

theorem PastEpoch.inside (h : c.PastEpoch) : c.Inside := by
  intro i hi hv
  obtain ⟨hneg, cur, hcur, hlap⟩ := validAt_none_iff.1 hv
  have hlo := (mem_indices.1 hi).1
  rcases h cur hcur with hlate | hround | ⟨-, hfirst | hfull⟩ <;> omega

theorem PastEpoch.written (hres : 0 < c.ring.resMs) (h : c.PastEpoch) : c.Written := by
  intro i hi hblank
  obtain ⟨hlo, -, hv⟩ := mem_contributors.1 hi
  obtain ⟨cur, hcur, -, hlap, hT⟩ := Ring.valid_iff.1 hv
  rw [hblank] at hT
  have hzero : i = 0 := by
    have hT' : i * c.ring.resMs = 0 := hT.symm
    exact (Nat.mul_eq_zero.1 hT').resolve_right hres.ne'
  subst hzero
  rcases h cur hcur with hlate | hround | ⟨hfirst, -⟩
  · omega
  · omega
  · exact hfirst (by rw [← hblank, Ring.pos, Nat.zero_mod])

theorem pastEpoch_of_written (hend : 0 ≤ c.endIdx) (hin : c.Inside) (hw : c.Written) :
    c.PastEpoch := by
  intro cur hcur
  by_contra hc
  push Not at hc
  obtain ⟨hlo, hlap, hblank⟩ := hc
  have hfull : c.startIdx = 0 ∨ c.ring.slots = cur + 1 := by
    by_contra hneg
    push Not at hneg
    refine hin (-1) (mem_indices.2 ⟨by omega, by omega⟩)
      (validAt_none_iff.2 ⟨by omega, cur, hcur, ?_⟩)
    omega
  have hempty : c.ring.buf 0 = Bucket.blank := by
    by_contra hne
    obtain ⟨hne0, hnefull⟩ := hblank hne
    exact hfull.elim hne0 hnefull
  have hpos : c.ring.pos 0 = 0 := by rw [Ring.pos, Nat.zero_mod]
  have hvalid : c.ring.valid 0 = true :=
    Ring.valid_iff.2 ⟨cur, hcur, Nat.zero_le _, by omega, by rw [hpos, hempty, Nat.zero_mul]; rfl⟩
  exact hw 0 (mem_contributors.2 ⟨by omega, by omega, hvalid⟩) (by rw [hpos, hempty])

end Chosen

namespace History

/-- The query returns, without loss, and no slot that was never written shows up in it. -/
def Conserving (h : History) (nowMs : Nat) (windowMs maxBuckets : Int) : Prop :=
  ∃ res, h.historyAt nowMs windowMs maxBuckets = some res ∧
    match h.choose nowMs windowMs with
    | none => res.buckets = []
    | some c => c.startIdx ≤ c.endIdx ∧ Conserves c res ∧ c.Written

end History

/-- A query conserves what the rings hold unless its window goes back to the epoch, in a tier that
has not come round since. -/
theorem historyAt_conserves_iff (h : History) (hr : h.Reached) (nowMs : Nat)
    (windowMs maxBuckets : Int) (hw : windowMs < 2 ^ 53) :
    h.Conserving nowMs windowMs maxBuckets ↔
      ∀ c, h.choose nowMs windowMs = some c → c.PastEpoch := by
  unfold History.Conserving History.historyAt
  cases hc : h.choose nowMs windowMs with
  | none => exact iff_of_true ⟨_, rfl, rfl⟩ fun c hc => by cases hc
  | some c =>
    have hres := (hr.shaped.tier (History.choose_ring hc)).1
    have hend := History.choose_endIdx hc
    simp only [Option.some.injEq, forall_eq']
    constructor
    · rintro ⟨res, hrender, -, -, hwritten⟩
      exact Chosen.pastEpoch_of_written hend (Chosen.inside_of_render hrender) hwritten
    · intro hpast
      obtain ⟨res, hrender, hconserves⟩ :=
        Chosen.render_inside hres (clampBuckets_range maxBuckets).1 hpast.inside
      exact ⟨res, hrender, History.choose_window hr.shaped hw hc, hconserves, hpast.written hres⟩

def sampled (rs : List Reading) : History := rs.foldl (fun h r => (h.sample r).2) newHistory

theorem sampled_reached (rs : List Reading) : (sampled rs).Reached := by
  have hall (h : History) (hr : h.Reached) : (rs.foldl (fun h r => (h.sample r).2) h).Reached := by
    induction rs generalizing h with
    | nil => exact hr
    | cons r rs ih => exact ih _ (hr.sample r)
  exact hall _ .new

/-- Readings of so many outgoing bytes in all. -/
def outReading (t : Nat) (out : Int) : Reading := ⟨t, 0, out, 2, -1, -1, -1⟩

/-- Rates of 1, 4, 2 and 3 kB/s in four tenths of a second. -/
def fourTenths : History :=
  sampled [outReading 1700000000100 0, outReading 1700000000200 100,
    outReading 1700000000300 500, outReading 1700000000400 700, outReading 1700000000500 1000]

theorem historyAt_conserves_iff_tenths : fourTenths.Conserving 1700000000500 500 1 := by
  refine (historyAt_conserves_iff fourTenths (sampled_reached _) 1700000000500 500 1
    (by decide)).2 ?_
  intro c hc cur hcur
  have hlate : (fourTenths.choose 1700000000500 500).all (fun c => decide (0 < c.startIdx)) =
      true := by decide +kernel
  rw [hc, Option.all_some, decide_eq_true_eq] at hlate
  exact .inl hlate

/-- Two readings in the first second after the epoch, as a machine with a dead clock takes them. -/
def firstSecond : History := sampled [outReading 0 0, outReading 1000 100]

/-- A window of 15 s looks up a slot of a negative index, and one of 1.1 s shows a bucket that was
never written. -/
theorem first_second_not_conserved :
    firstSecond.Reached ∧ firstSecond.historyAt 1000 15000 300 = none ∧
      ¬firstSecond.Conserving 1000 15000 300 ∧ ¬firstSecond.Conserving 1000 1100 300 := by
  have hnone : firstSecond.historyAt 1000 15000 300 = none := by decide +kernel
  refine ⟨sampled_reached _, hnone, ?_, ?_⟩
  · rintro ⟨res, hres, -⟩
    rw [hnone] at hres
    cases hres
  · rintro ⟨res, -, hc⟩
    have hshown : (firstSecond.choose 1000 1100).any (fun c => decide (0 ∈ c.contributors ∧
        c.ring.buf (c.ring.pos 0) = Bucket.blank)) = true := by decide +kernel
    cases hchosen : firstSecond.choose 1000 1100 with
    | none =>
      rw [hchosen] at hshown
      cases hshown
    | some c =>
      rw [hchosen] at hc hshown
      obtain ⟨hmem, hblank⟩ := of_decide_eq_true hshown
      exact hc.2.2 0 hmem hblank

namespace Chosen

variable {c : Chosen}

theorem length_le_of_increasing {l : List Nat} (h : l.Pairwise (· < ·))
    (hl : ∀ g ∈ l, a ≤ g ∧ g ≤ b) : l.length ≤ b + 1 - a := by
  have hnodup : l.Nodup := h.imp fun h => h.ne
  have hsub : l ⊆ List.range' a (b + 1 - a) := by
    intro g hg
    obtain ⟨hlo, hhi⟩ := hl g hg
    exact List.mem_range'_1.2 ⟨hlo, by omega⟩
  have hlen := (List.subperm_of_subset hnodup hsub).length_le
  rwa [List.length_range'] at hlen

theorem rendered_length (c : Chosen) (k : Nat) :
    (c.rendered k).buckets.length ≤ c.endIdx.toNat / k + 1 - c.startIdx.toNat / k := by
  have hgrouped : Grouped Measures.merge (· / k) c.ring.measuresAt c.contributors
      (groups Measures.merge (· / k) c.ring.measuresAt c.contributors) :=
    groups_grouped (c.contributors_keys k)
  have hlen := length_le_of_increasing hgrouped.increasing (a := c.startIdx.toNat / k)
    (b := c.endIdx.toNat / k) fun g hg => by
      obtain ⟨i, hi, rfl⟩ := (hgrouped.keys g).1 hg
      obtain ⟨hlo, hhi, -⟩ := mem_contributors.1 hi
      exact ⟨Nat.div_le_div_right (by omega), Nat.div_le_div_right (by omega)⟩
  rw [List.length_map] at hlen
  exact (List.length_map _).trans_le hlen

theorem render_length {m : Nat} (hm : 0 < m) (hrender : c.render m = some res) :
    res.buckets.length ≤ m + 1 ∧ (m < res.buckets.length → ∃ k : Nat, c.groupWidth m = k ∧
      c.startIdx.toNat / k + m = c.endIdx.toNat / k) := by
  have hin := inside_of_render hrender
  by_cases hlen : c.startIdx ≤ c.endIdx
  · obtain ⟨k, hk, hpos, hspan⟩ := groupWidth_spec hm hlen
    obtain rfl := Option.some.inj ((render_eq hpos hk hin).symm.trans hrender)
    have hcount := c.rendered_length k
    have hlast : c.endIdx.toNat ≤ c.startIdx.toNat + k * m := by
      have hspan' : c.endIdx + 1 - c.startIdx ≤ (k * m : Nat) := by
        push_cast
        exact hspan
      omega
    have hdiv : c.endIdx.toNat / k ≤ c.startIdx.toNat / k + m :=
      calc c.endIdx.toNat / k ≤ (c.startIdx.toNat + k * m) / k := Nat.div_le_div_right hlast
        _ = c.startIdx.toNat / k + m := Nat.add_mul_div_left _ _ hpos
    exact ⟨by omega, fun hlong => ⟨k, hk, by omega⟩⟩
  · rw [render, indices_nil hlen] at hrender
    obtain rfl := Option.some.inj hrender
    exact ⟨Nat.zero_le _, fun hlong => absurd hlong (Nat.not_lt_zero _)⟩

end Chosen

theorem historyAt_length (h : History) (nowMs : Nat) (windowMs maxBuckets : Int)
    (hres : h.historyAt nowMs windowMs maxBuckets = some res) :
    (res.buckets.length : Int) ≤ clampBuckets maxBuckets + 1 ∧
      (clampBuckets maxBuckets < res.buckets.length →
        ∃ c k, h.choose nowMs windowMs = some c ∧
          c.groupWidth (clampBuckets maxBuckets) = (k : Nat) ∧
          (c.startIdx.toNat / k : Nat) + clampBuckets maxBuckets = (c.endIdx.toNat / k : Nat)) := by
  unfold History.historyAt at hres
  obtain ⟨m, hm⟩ := Int.eq_ofNat_of_zero_le (clampBuckets_range maxBuckets).1.le
  have hpos : 0 < m := Int.natCast_pos.1 (hm ▸ (clampBuckets_range maxBuckets).1)
  rw [hm] at hres ⊢
  cases hc : h.choose nowMs windowMs with
  | none =>
    rw [hc] at hres
    obtain rfl := Option.some.inj hres
    exact ⟨Int.natCast_nonneg (m + 1), fun hlt => absurd (Int.ofNat_lt.1 hlt) (Nat.not_lt_zero m)⟩
  | some c =>
    rw [hc] at hres
    obtain ⟨hle, hlong⟩ := Chosen.render_length hpos hres
    refine ⟨Int.ofNat_le.2 hle, fun hlt => ?_⟩
    obtain ⟨k, hk, hstraddles⟩ := hlong (Int.ofNat_lt.1 hlt)
    exact ⟨c, k, rfl, hk, Int.ofNat_inj.2 hstraddles⟩

theorem historyAt_returns {h : History} (hr : h.Reached) (nowMs : Nat)
    (windowMs maxBuckets : Int)
    (hpast : ∀ c, h.choose nowMs windowMs = some c → c.PastEpoch) :
    (h.historyAt nowMs windowMs maxBuckets).isSome := by
  unfold History.historyAt
  cases hc : h.choose nowMs windowMs with
  | none => rfl
  | some c =>
    obtain ⟨res, hrender, -⟩ := Chosen.render_inside (hr.shaped.tier (History.choose_ring hc)).1
      (clampBuckets_range maxBuckets).1 (hpast c hc).inside
    simp only [hrender, Option.isSome_some]

/-- A reply has at most one bucket more than was asked for, and that only when its window touches
one aligned group more. -/
theorem historyAt_length_le (h : History) (hr : h.Reached) (nowMs : Nat)
    (windowMs maxBuckets : Int) :
    (∀ res, h.historyAt nowMs windowMs maxBuckets = some res →
      (res.buckets.length : Int) ≤ clampBuckets maxBuckets + 1 ∧
        (clampBuckets maxBuckets < res.buckets.length →
          ∃ c k, h.choose nowMs windowMs = some c ∧
            c.groupWidth (clampBuckets maxBuckets) = (k : Nat) ∧
            (c.startIdx.toNat / k : Nat) + clampBuckets maxBuckets = (c.endIdx.toNat / k : Nat))) ∧
    ((∀ c, h.choose nowMs windowMs = some c → c.PastEpoch) →
      (h.historyAt nowMs windowMs maxBuckets).isSome) :=
  ⟨fun _ hres => historyAt_length h nowMs windowMs maxBuckets hres,
    historyAt_returns hr nowMs windowMs maxBuckets⟩

theorem historyAt_length_le_tenths :
    ∃ res, fourTenths.historyAt 1700000000500 500 1 = some res ∧ res.buckets.length ≤ 2 := by
  have hsome : (fourTenths.historyAt 1700000000500 500 1).isSome := by decide +kernel
  obtain ⟨res, hres⟩ := Option.isSome_iff_exists.1 hsome
  have hle := ((historyAt_length_le fourTenths (sampled_reached _) 1700000000500 500 1).1 res
    hres).1
  exact ⟨res, hres, Int.ofNat_le.1 hle⟩

/-- A window of half a second straddles two of the half seconds that one bucket shows. -/
theorem tenths_straddle : fourTenths.Reached ∧ clampBuckets 1 = 1 ∧
    (fourTenths.historyAt 1700000000500 500 1).map (fun res => res.buckets.length) = some 2 :=
  ⟨sampled_reached _, by decide, by decide +kernel⟩

end ProxyForward.Stats

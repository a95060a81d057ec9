import ProxyForward.StoredHours

namespace ProxyForward
set_option autoImplicit true

open Stats

theorem bucketStart_of_nonneg (width : Int) (ht : 0 ≤ t) :
    bucketStart width t = t / width * width := by
  rw [bucketStart, Int.tdiv_eq_ediv_of_nonneg ht]

theorem bucketStart_hour (t : Nat) : bucketStart hourMillis t = (t / hourMs * hourMs : Nat) := by
  rw [bucketStart_of_nonneg _ (Int.natCast_nonneg t)]
  simp only [hourMillis, hourMs]
  omega

theorem bytesOf_counted (old : Option RollupRow) (rows : List SessionRow) :
    bytesOf (RollupRow.counted old rows) = bytesOf old := by
  unfold RollupRow.counted
  cases rows.isEmpty <;> rfl

theorem bytesOf_sessionLegs (sessions : List SessionRow) (width lo hi : Int) (t : RollupTable)
    (k : Int × String) : bytesOf (sessionLegs sessions width lo hi t k) = bytesOf (t k) := by
  simp only [sessionLegs, sessionsGlobal, sessionsPerAgent]
  split
  · rw [bytesOf_counted, bytesOf_counted]
  · exact bytesOf_counted ..

theorem sessionLegs_of_lt {sessions : List SessionRow} {t : RollupTable} {k : Int × String}
    (hlo : bucketStart width lo = lo) (hwidth : 0 < width) (h0 : 0 ≤ lo) (h : k.1 < lo) (hi : Int) :
    sessionLegs sessions width lo hi t k = t k := by
  have hnone : startedIn sessions width lo hi k.1 = [] := by
    refine List.filter_eq_nil_iff.2 fun s _ hs => ?_
    rw [Bool.and_eq_true, Bool.and_eq_true, decide_eq_true_eq, decide_eq_true_eq,
      decide_eq_true_eq] at hs
    obtain ⟨⟨hle, -⟩, hstart⟩ := hs
    rw [bucketStart_of_nonneg _ (h0.trans hle)] at hstart
    rw [bucketStart_of_nonneg _ h0] at hlo
    have hmono : lo / width * width ≤ s.startedMs / width * width :=
      Int.mul_le_mul_of_nonneg_right (Int.ediv_le_ediv hwidth hle) hwidth.le
    omega
  simp only [sessionLegs, sessionsGlobal, sessionsPerAgent, hnone]
  split <;> rfl

theorem bytesOf_summed {bytes : List (Int × Int)} (h : bytes ≠ []) (old : Option RollupRow) :
    bytesOf (RollupRow.summed old bytes) =
      ((bytes.map Prod.fst).sum, (bytes.map Prod.snd).sum) := by
  rw [RollupRow.summed, if_neg fun hnil => h (List.isEmpty_iff.1 hnil)]
  rfl

theorem rollFrom_spec (rrd : List RrdRow) (now : Nat) :
    ∃ n : Nat, rollFrom rrd now = (n * hourMs : Nat) ∧ n ≤ now / hourMs := by
  have hcur := bucketStart_hour now
  unfold rollFrom
  cases oldestRrd rrd with
  | none => exact ⟨_, hcur, le_rfl⟩
  | some minT =>
    have hfirst := bucketStart_hour (minT + hourMs - 1)
    have hcast : ((minT + hourMs - 1 : Nat) : Int) = minT + hourMillis - 1 := by
      simp only [hourMs, hourMillis]
      omega
    simp only
    rw [← hcast, hfirst, hcur]
    refine ⟨min ((minT + hourMs - 1) / hourMs) (now / hourMs), ?_, Nat.min_le_right ..⟩
    simp only [hourMs]
    omega

theorem mem_bucketsIn {k : Int × String} : b ∈ bucketsIn rrd lo hi k ↔
    ⟨k.2, 2, b⟩ ∈ rrd ∧ lo ≤ b.T ∧ b.T < hi ∧ bucketStart hourMillis b.T = k.1 := by
  simp only [bucketsIn, List.mem_map, List.mem_filter, decide_eq_true_eq]
  constructor
  · rintro ⟨⟨_, _, b⟩, ⟨hrow, rfl, rfl, hspan⟩, rfl⟩
    exact ⟨hrow, hspan⟩
  · exact fun ⟨hrow, hspan⟩ => ⟨_, ⟨hrow, rfl, rfl, hspan⟩, rfl⟩

theorem bucketsIn_hour {d : Disk} {id : String} {n : Nat} {lo : Int} (hlo : lo ≤ (n * hourMs : Nat))
    (hhi : ∀ b, d.rows id 2 b → (b.T : Int) < hi) :
    bucketsIn d.rrd lo hi ((n * hourMs : Nat), id) = (d.hourRows id n).map RrdRow.bucket := by
  refine congrArg (List.map RrdRow.bucket) (List.filter_congr fun row hrow => decide_eq_decide.2 ?_)
  have hstart := bucketStart_hour row.bucket.T
  simp only [hstart]
  constructor
  · rintro ⟨htier, hid, -, -, heq⟩
    refine ⟨htier, hid, ?_⟩
    simp only [hourMs] at heq ⊢
    omega
  · rintro ⟨htier, hid, rfl⟩
    have hT : (row.bucket.T : Int) < hi := by
      obtain ⟨_, _, b⟩ := row
      obtain rfl : _ = id := hid
      obtain rfl : _ = 2 := htier
      exact hhi b hrow
    refine ⟨htier, hid, hlo.trans ?_, hT, rfl⟩
    exact Int.ofNat_le.2 (Nat.div_mul_le_self ..)

theorem runRollup_hourly {d : Disk} (hd : d.Sound clock) {now : Nat} (hnow : clock ≤ now)
    (r : Rollups)
    (sessions : List SessionRow) (k : Int × String) :
    (bucketsIn d.rrd (rollFrom d.rrd now) (bucketStart hourMillis now + hourMillis) k = [] ∧
      bytesOf ((r.runRollup d.rrd sessions now).hourly k) = bytesOf (r.hourly k)) ∨
    ∃ n : Nat, k.1 = (n * hourMs : Nat) ∧ rollFrom d.rrd now ≤ k.1 ∧
      (∃ b, d.rows k.2 2 b ∧ b.T / hourMs = n) ∧
      bytesOf ((r.runRollup d.rrd sessions now).hourly k) = d.bytes k.2 n := by
  have hbytes : bytesOf ((r.runRollup d.rrd sessions now).hourly k) = bytesOf
    (RollupRow.summed (r.hourly k)
      ((bucketsIn d.rrd (rollFrom d.rrd now) (bucketStart hourMillis now + hourMillis) k).map
        fun b => (b.In, b.Out))) := by
    exact bytesOf_sessionLegs ..
  cases hbuckets : bucketsIn d.rrd (rollFrom d.rrd now)
    (bucketStart hourMillis now + hourMillis) k with
  | nil =>
    rw [hbuckets] at hbytes
    exact .inl ⟨rfl, hbytes⟩
  | cons b bs =>
    obtain ⟨hb, hlo, -, hstart⟩ := mem_bucketsIn.1 (hbuckets ▸ List.mem_cons_self)
    obtain ⟨m, hm, -⟩ := rollFrom_spec d.rrd now
    rw [bucketStart_hour] at hstart
    have hrollFrom : rollFrom d.rrd now ≤ (b.T / hourMs * hourMs : Nat) := by
      rw [hm] at hlo ⊢
      simp only [hourMs] at hlo ⊢
      omega
    have hhi : ∀ b, d.rows k.2 2 b → (b.T : Int) < bucketStart hourMillis now + hourMillis := by
      intro b hb
      have hle : b.T ≤ now := (hd.past _ b hb).trans hnow
      rw [bucketStart_hour]
      simp only [hourMs, hourMillis]
      omega
    have hall := bucketsIn_hour hrollFrom hhi
    rw [hstart] at hall
    have hne : (bucketsIn d.rrd (rollFrom d.rrd now)
      (bucketStart hourMillis now + hourMillis) k).map (fun b => (b.In, b.Out)) ≠ [] := by
      rw [hbuckets]
      exact List.cons_ne_nil _ _
    rw [bytesOf_summed hne, hall] at hbytes
    simp only [List.map_map] at hbytes
    exact .inr ⟨_, hstart.symm, hstart ▸ hrollFrom, ⟨b, hb, rfl⟩, hbytes⟩

theorem runRollup_hourly_of_lt {now : Nat} {k : Int × String} (h : k.1 < rollFrom rrd now)
    (r : Rollups)
    (sessions : List SessionRow) : (r.runRollup rrd sessions now).hourly k = r.hourly k := by
  obtain ⟨m, hm, -⟩ := rollFrom_spec rrd now
  have hlo : bucketStart hourMillis (rollFrom rrd now) = rollFrom rrd now := by
    rw [hm, bucketStart_hour, Nat.mul_div_cancel _ (by decide : 0 < hourMs)]
  have h0 : 0 ≤ rollFrom rrd now := hm ▸ Int.natCast_nonneg _
  refine (sessionLegs_of_lt hlo (by decide) h0 h _).trans ?_
  have hnil :
      bucketsIn rrd (rollFrom rrd now) (bucketStart hourMillis now + hourMillis) k = [] := by
    refine List.eq_nil_iff_forall_not_mem.2 fun b hb => ?_
    obtain ⟨-, hle, -, hstart⟩ := mem_bucketsIn.1 hb
    rw [bucketStart_hour] at hstart
    rw [hm] at hle h
    simp only [hourMs] at hle h hstart
    omega
  rw [hourlyRrd, hnil]
  rfl

theorem mem_hoursOf {day h : Int} (hh : h ∈ hoursOf day) : day ≤ h ∧ h < day + dayMillis := by
  obtain ⟨i, hi, rfl⟩ := List.mem_map.1 hh
  have hlt := List.mem_range.1 hi
  simp only [hourMillis, dayMillis]
  omega

theorem sum_rows (rows : Int → Option RollupRow) (hours : List Int) :
    (((hours.filterMap rows).map RollupRow.bytesIn).sum,
    ((hours.filterMap rows).map RollupRow.bytesOut).sum) =
      ((hours.map fun h => (bytesOf (rows h)).1).sum,
        (hours.map fun h => (bytesOf (rows h)).2).sum) := by
  induction hours with
  | nil => rfl
  | cons h hours ih =>
    obtain ⟨hin, hout⟩ := Prod.mk.inj ih
    simp only [List.map_cons, List.sum_cons, ← hin, ← hout]
    cases hrow : rows h with
    | none =>
      simp only [List.filterMap_cons, hrow, bytesOf, Option.getD_none, RollupRow.zero, Int.zero_add]
    | some row =>
      simp only [List.filterMap_cons, hrow, bytesOf, Option.getD_some, List.map_cons, List.sum_cons]

theorem runRollup_daily (rrd : List RrdRow) (now : Nat) (r : Rollups) (sessions : List SessionRow)
    {day : Int} (hday : bucketStart dayMillis day = day) (id : String) :
    ((day < bucketStart dayMillis (rollFrom rrd now) ∨ now < day) ∧
      bytesOf ((r.runRollup rrd sessions now).daily (day, id)) = bytesOf (r.daily (day, id))) ∨
    bucketStart dayMillis (rollFrom rrd now) ≤ day ∧
      (bytesOf ((r.runRollup rrd sessions now).daily (day, id)) =
          (((hoursOf day).map fun h =>
            (bytesOf ((r.runRollup rrd sessions now).hourly (h, id))).1).sum,
            ((hoursOf day).map fun h =>
              (bytesOf ((r.runRollup rrd sessions now).hourly (h, id))).2).sum) ∨
        (∀ h ∈ hoursOf day, (r.runRollup rrd sessions now).hourly (h, id) = none) ∧
          bytesOf ((r.runRollup rrd sessions now).daily (day, id)) =
            bytesOf (r.daily (day, id))) := by
  have hbytes : bytesOf ((r.runRollup rrd sessions now).daily (day, id)) =
      bytesOf (dailyHourly (r.runRollup rrd sessions now).hourly
        (bucketStart dayMillis (rollFrom rrd now))
        (((bucketStart hourMillis now).tdiv dayMillis + 1) * dayMillis) r.daily (day, id)) := by
    exact bytesOf_sessionLegs ..
  rw [dailyHourly] at hbytes
  simp only [hday, and_true] at hbytes
  split at hbytes
  · rename_i hspan
    refine .inr ⟨hspan.1, ?_⟩
    cases hrows : (hoursOf day).filterMap fun h =>
        (r.runRollup rrd sessions now).hourly (h, id) with
    | nil =>
      rw [hrows] at hbytes
      exact .inr ⟨List.filterMap_eq_nil_iff.1 hrows, hbytes⟩
    | cons row rows =>
      left
      rw [← sum_rows, hbytes, hrows, bytesOf_summed]
      · simp only [List.map_map]
        rfl
      · exact List.cons_ne_nil _ _
  · rename_i hspan
    refine .inl ⟨?_, hbytes⟩
    refine (Int.lt_or_le day (bucketStart dayMillis (rollFrom rrd now))).imp_right fun hle => ?_
    have hend : ((bucketStart hourMillis now).tdiv dayMillis + 1) * dayMillis ≤ day :=
      Int.not_lt.1 fun hlt => hspan ⟨hle, hlt⟩
    rw [bucketStart_hour, Int.tdiv_eq_ediv_of_nonneg (Int.natCast_nonneg _)] at hend
    simp only [hourMs, dayMillis] at hend
    omega

end ProxyForward

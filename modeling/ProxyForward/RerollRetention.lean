import ProxyForward.RolledHours

namespace ProxyForward
set_option autoImplicit true

/-- The sessions the prune deletes: ended ones that started before its cutoff. -/
def expiredSession (ended : SessionRow → Bool) (cutoff : Int) (s : SessionRow) : Bool :=
  s.startedMs < cutoff && ended s

def pruneSessions (ended : SessionRow → Bool) (cutoff : Int) (sessions : List SessionRow) :
    List SessionRow :=
  sessions.filter fun s => !expiredSession ended cutoff s

/-- All sessions of a bucket, of one agent or, for agent `""`, of any. -/
def bucketRows (sessions : List SessionRow) (width : Int) (k : Int × String) : List SessionRow :=
  sessions.filter fun s =>
    bucketStart width s.startedMs = k.1 && (k.2 = "" || s.agentID = k.2)

/-- The rows a leg over `[lo, hi)` counts into a key. -/
def countedRows (sessions : List SessionRow) (width lo hi : Int) (k : Int × String) :
    List SessionRow :=
  (startedIn sessions width lo hi k.1).filter fun s => k.2 = "" || s.agentID = k.2

theorem counted_of_ne_nil (old : Option RollupRow) (h : rows ≠ []) :
    RollupRow.counted old rows =
      some { old.getD RollupRow.zero with
        sessions := rows.length, uniquePlayers := distinctPlayers rows } := by
  cases rows with
  | nil => exact absurd rfl h
  | cons row rows => rfl

theorem counted_over_counted (old : Option RollupRow) (p : SessionRow → Bool) :
    RollupRow.counted (RollupRow.counted old (rows.filter p)) rows =
      RollupRow.counted old rows := by
  cases rows with
  | nil => rfl
  | cons row rows =>
    unfold RollupRow.counted
    cases (List.filter p (row :: rows)).isEmpty <;> rfl

theorem sessionLegs_at (sessions : List SessionRow) (width lo hi : Int) (t : RollupTable)
    (k : Int × String) :
    sessionLegs sessions width lo hi t k =
      RollupRow.counted (t k) (countedRows sessions width lo hi k) := by
  simp only [sessionLegs, sessionsGlobal, sessionsPerAgent, countedRows]
  by_cases hglobal : k.2 = ""
  · have hall : ((startedIn sessions width lo hi k.1).filter fun s =>
        decide (k.2 = "") || decide (s.agentID = k.2)) = startedIn sessions width lo hi k.1 := by
      rw [List.filter_eq_self]
      intro s hs
      simp only [hglobal, decide_true, Bool.true_or]
    rw [if_pos hglobal, hall]
    exact counted_over_counted _ _
  · rw [if_neg hglobal]
    simp only [hglobal, decide_false, Bool.false_or]

theorem countedRows_present (full : List SessionRow) (gone : SessionRow → Bool)
    (width lo hi : Int) (k : Int × String) :
    countedRows (full.filter fun s => !gone s) width lo hi k =
      (bucketRows full width k).filter fun s =>
        !gone s && decide (lo ≤ s.startedMs) && decide (s.startedMs < hi) := by
  simp only [countedRows, startedIn, bucketRows, List.filter_filter]
  apply List.filter_congr
  intro s hs
  cases gone s <;> cases decide (lo ≤ s.startedMs) <;> cases decide (s.startedMs < hi) <;>
    cases decide (bucketStart width s.startedMs = k.1) <;>
    simp only [Bool.not_true, Bool.not_false, Bool.and_true, Bool.and_false, Bool.true_and,
      Bool.false_and]

/-- The table keeps its history of the sessions of `full`, of which some are gone: a bucket that
lost rows is as it was, and no bucket is set below what all its rows count. -/
structure HistoryKept (full : List SessionRow) (gone : SessionRow → Bool) (width : Int)
    (t t' : RollupTable) : Prop where
  left_alone : ∀ k, (∃ s ∈ bucketRows full width k, gone s = true) → t' k = t k
  not_below : ∀ k, t' k = t k ∨ ∃ row, t' k = some row ∧
    (bucketRows full width k).length ≤ row.sessions ∧
    distinctPlayers (bucketRows full width k) ≤ row.uniquePlayers

/-- A row that has the counts of `rows` already. -/
def RollupRow.Holds (old : Option RollupRow) (rows : List SessionRow) : Prop :=
  ∃ row, old = some row ∧ row.sessions = rows.length ∧ row.uniquePlayers = distinctPlayers rows

/-- Each bucket with a row left in `[lo, hi)` has all its rows there, or its counts are those of the
rows left. -/
def BucketsWhole (full : List SessionRow) (gone : SessionRow → Bool) (width lo hi : Int)
    (t : RollupTable) : Prop :=
  ∀ k, (∃ s ∈ bucketRows full width k, gone s = false ∧ lo ≤ s.startedMs ∧ s.startedMs < hi) →
    (∀ s ∈ bucketRows full width k, gone s = false ∧ lo ≤ s.startedMs ∧ s.startedMs < hi) ∨
    RollupRow.Holds (t k) (countedRows (full.filter fun s => !gone s) width lo hi k)

theorem countedRows_ne_nil_iff (full : List SessionRow) (gone : SessionRow → Bool)
    (width lo hi : Int) (k : Int × String) :
    countedRows (full.filter fun s => !gone s) width lo hi k ≠ [] ↔
      ∃ s ∈ bucketRows full width k, gone s = false ∧ lo ≤ s.startedMs ∧ s.startedMs < hi := by
  rw [countedRows_present, Ne, List.filter_eq_nil_iff]
  simp only [Bool.and_eq_true, Bool.not_eq_true', decide_eq_true_eq, not_forall, not_not,
    exists_prop, and_assoc]

theorem countedRows_whole_iff (full : List SessionRow) (gone : SessionRow → Bool)
    (width lo hi : Int) (k : Int × String) :
    (bucketRows full width k).length ≤
        (countedRows (full.filter fun s => !gone s) width lo hi k).length ↔
      ∀ s ∈ bucketRows full width k, gone s = false ∧ lo ≤ s.startedMs ∧ s.startedMs < hi := by
  rw [countedRows_present]
  constructor
  · intro hle s hs
    have heq := Nat.le_antisymm (List.length_filter_le _ _) hle
    have hkept := List.length_filter_eq_length_iff.mp heq s hs
    simpa only [Bool.and_eq_true, Bool.not_eq_true', decide_eq_true_eq, and_assoc] using hkept
  · intro hall
    refine Nat.le_of_eq (List.length_filter_eq_length_iff.mpr ?_).symm
    intro s hs
    simpa only [Bool.and_eq_true, Bool.not_eq_true', decide_eq_true_eq, and_assoc] using hall s hs

theorem countedRows_whole (full : List SessionRow) (gone : SessionRow → Bool)
    (h : ∀ s ∈ bucketRows full width k, gone s = false ∧ lo ≤ s.startedMs ∧ s.startedMs < hi) :
    countedRows (full.filter fun s => !gone s) width lo hi k = bucketRows full width k := by
  rw [countedRows_present, List.filter_eq_self]
  intro s hs
  simpa only [Bool.and_eq_true, Bool.not_eq_true', decide_eq_true_eq, and_assoc] using h s hs

theorem counted_eq_self_iff (h : rows ≠ []) :
    RollupRow.counted old rows = old ↔ RollupRow.Holds old rows := by
  rw [counted_of_ne_nil old h]
  constructor
  · intro heq
    exact ⟨_, heq.symm, rfl, rfl⟩
  · rintro ⟨row, rfl, hsessions, hplayers⟩
    rw [← hsessions, ← hplayers]
    rfl

theorem legs_keep_history_iff (full : List SessionRow) (gone : SessionRow → Bool)
    (width lo hi : Int) (t : RollupTable) :
    HistoryKept full gone width t
        (sessionLegs (full.filter fun s => !gone s) width lo hi t) ↔
      BucketsWhole full gone width lo hi t := by
  constructor
  · intro hkept k hleft
    have hne := (countedRows_ne_nil_iff full gone width lo hi k).mpr hleft
    have hset := hkept.not_below k
    rw [sessionLegs_at] at hset
    rcases hset with hsame | ⟨row, hrow, hlength, _⟩
    · exact Or.inr ((counted_eq_self_iff hne).mp hsame)
    · rw [counted_of_ne_nil _ hne, Option.some.injEq] at hrow
      subst hrow
      exact Or.inl ((countedRows_whole_iff full gone width lo hi k).mp hlength)
  · intro hwhole
    have hkey : ∀ k, sessionLegs (full.filter fun s => !gone s) width lo hi t k = t k ∨
        ((∀ s ∈ bucketRows full width k,
            gone s = false ∧ lo ≤ s.startedMs ∧ s.startedMs < hi) ∧
          sessionLegs (full.filter fun s => !gone s) width lo hi t k =
            RollupRow.counted (t k) (bucketRows full width k) ∧
          bucketRows full width k ≠ []) := by
      intro k
      rw [sessionLegs_at]
      by_cases hnil : countedRows (full.filter fun s => !gone s) width lo hi k = []
      · rw [hnil]
        exact Or.inl rfl
      · rcases hwhole k ((countedRows_ne_nil_iff full gone width lo hi k).mp hnil) with
          hall | hholds
        · rw [countedRows_whole full gone hall] at hnil ⊢
          exact Or.inr ⟨hall, rfl, hnil⟩
        · exact Or.inl ((counted_eq_self_iff hnil).mpr hholds)
    constructor
    · rintro k ⟨s, hs, hgone⟩
      rcases hkey k with hsame | ⟨hall, _⟩
      · exact hsame
      · rw [(hall s hs).1] at hgone
        cases hgone
    · intro k
      rcases hkey k with hsame | ⟨_, hset, hne⟩
      · exact Or.inl hsame
      · rw [hset, counted_of_ne_nil _ hne]
        exact Or.inr ⟨_, rfl, le_refl _, le_refl _⟩

/-- The start of a re-roll, not before the retention floor. -/
def rerollFrom (retentionDays fromMs nowMs : Int) : Int :=
  if fromMs < nowMs - retentionDays * dayMillis then nowMs - retentionDays * dayMillis else fromMs

theorem reroll_keeps_history_iff (r : Rollups) (retentionDays : Int) (full : List SessionRow)
    (gone : SessionRow → Bool) (fromMs toMs nowMs : Int) :
    (HistoryKept full gone hourMillis r.hourly
        (r.rerollSessionRollups retentionDays (full.filter fun s => !gone s)
          fromMs toMs nowMs).hourly ∧
      HistoryKept full gone dayMillis r.daily
        (r.rerollSessionRollups retentionDays (full.filter fun s => !gone s)
          fromMs toMs nowMs).daily) ↔
    toMs < rerollFrom retentionDays fromMs nowMs ∨
      (BucketsWhole full gone hourMillis
          (bucketStart hourMillis (rerollFrom retentionDays fromMs nowMs))
          (bucketStart hourMillis toMs + hourMillis) r.hourly ∧
        BucketsWhole full gone dayMillis
          (bucketStart dayMillis (rerollFrom retentionDays fromMs nowMs))
          (bucketStart dayMillis toMs + dayMillis) r.daily) := by
  by_cases hrange : toMs < rerollFrom retentionDays fromMs nowMs
  · have hsame : r.rerollSessionRollups retentionDays (full.filter fun s => !gone s)
        fromMs toMs nowMs = r := if_pos hrange
    rw [hsame]
    have hkept : ∀ (width : Int) (t : RollupTable), HistoryKept full gone width t t :=
      fun width t => ⟨fun k hk => rfl, fun k => Or.inl rfl⟩
    exact ⟨fun _ => Or.inl hrange, fun _ => ⟨hkept _ _, hkept _ _⟩⟩
  · have hlegs : r.rerollSessionRollups retentionDays (full.filter fun s => !gone s)
        fromMs toMs nowMs =
          { hourly := sessionLegs (full.filter fun s => !gone s) hourMillis
              (bucketStart hourMillis (rerollFrom retentionDays fromMs nowMs))
              (bucketStart hourMillis toMs + hourMillis) r.hourly
            daily := sessionLegs (full.filter fun s => !gone s) dayMillis
              (bucketStart dayMillis (rerollFrom retentionDays fromMs nowMs))
              (bucketStart dayMillis toMs + dayMillis) r.daily } := if_neg hrange
    rw [hlegs, legs_keep_history_iff, legs_keep_history_iff]
    exact ⟨Or.inr, fun h => h.resolve_left hrange⟩

theorem bucketStart_mono (hwidth : 0 < width) (ht : 0 ≤ t) (hle : t ≤ t') :
    bucketStart width t ≤ bucketStart width t' := by
  rw [bucketStart_of_nonneg width ht, bucketStart_of_nonneg width (le_trans ht hle)]
  exact Int.mul_le_mul_of_nonneg_right (Int.ediv_le_ediv hwidth hle) hwidth.le

theorem nonneg_of_bucketStart_pos (hwidth : 0 < width) (h : 0 < bucketStart width t) :
    0 ≤ t := by
  by_contra hneg
  have hquot : 0 ≤ (-t).tdiv width := Int.tdiv_nonneg (by omega) hwidth.le
  rw [Int.neg_tdiv] at hquot
  have hround : t.tdiv width * width ≤ 0 :=
    Int.mul_nonpos_of_nonpos_of_nonneg (by omega) hwidth.le
  exact absurd h (not_lt.mpr hround)

theorem day_le_hour (ht : 0 ≤ t) : bucketStart dayMillis t ≤ bucketStart hourMillis t := by
  rw [bucketStart_of_nonneg _ ht, bucketStart_of_nonneg _ ht]
  simp only [dayMillis, hourMillis]
  omega

theorem span_of_same_bucket (hwidth : 0 < width) (ht : 0 ≤ t) (ht' : 0 ≤ t')
    (hsame : bucketStart width t = bucketStart width t')
    (h : bucketStart width lo ≤ t ∧ t < bucketStart width hi + width) :
    bucketStart width lo ≤ t' ∧ t' < bucketStart width hi + width := by
  rw [bucketStart_of_nonneg width ht, bucketStart_of_nonneg width ht'] at hsame
  have hquot : t / width = t' / width := Int.eq_of_mul_eq_mul_right hwidth.ne' hsame
  have hend : bucketStart width hi + width = (hi.tdiv width + 1) * width := by
    rw [bucketStart, Int.add_mul, Int.one_mul]
  rw [hend, bucketStart, ← Int.le_ediv_iff_mul_le hwidth, ← Int.ediv_lt_iff_lt_mul hwidth] at h ⊢
  rwa [← hquot]

/-- A prune that takes whole buckets, up to the one the range begins in, leaves the others whole. -/
theorem buckets_whole_of_aligned (full : List SessionRow) (gone : SessionRow → Bool)
    (fromMs toMs : Int) (t : RollupTable) (hwidth : 0 < width)
    (hstarts : ∀ s ∈ full, 0 ≤ s.startedMs)
    (hgone : ∀ s ∈ full, gone s = true → s.startedMs < bucketStart width fromMs) :
    BucketsWhole full gone width (bucketStart width fromMs) (bucketStart width toMs + width) t := by
  intro k hleft
  obtain ⟨s', hs', _, hspan'⟩ := hleft
  left
  intro s hs
  simp only [bucketRows, List.mem_filter, Bool.and_eq_true, decide_eq_true_eq] at hs hs'
  have hspan := span_of_same_bucket hwidth (hstarts s' hs'.1) (hstarts s hs.1)
    (hs'.2.1.trans hs.2.1.symm) hspan'
  refine ⟨?_, hspan⟩
  by_contra hlost
  have hbefore := hgone s hs.1 (by simpa using hlost)
  omega

theorem day_cutoff_keeps_history (r : Rollups) (retentionDays : Int) (full : List SessionRow)
    (gone : SessionRow → Bool) (fromMs toMs nowMs : Int)
    (hstarts : ∀ s ∈ full, 0 ≤ s.startedMs)
    (hgone : ∀ s ∈ full, gone s = true →
      s.startedMs < bucketStart dayMillis (nowMs - retentionDays * dayMillis)) :
    HistoryKept full gone hourMillis r.hourly
        (r.rerollSessionRollups retentionDays (full.filter fun s => !gone s)
          fromMs toMs nowMs).hourly ∧
      HistoryKept full gone dayMillis r.daily
        (r.rerollSessionRollups retentionDays (full.filter fun s => !gone s)
          fromMs toMs nowMs).daily := by
  have hday : ∀ s ∈ full, gone s = true →
      s.startedMs < bucketStart dayMillis (rerollFrom retentionDays fromMs nowMs) := by
    intro s hs hlost
    have hbefore := hgone s hs hlost
    have hstart := hstarts s hs
    have hfloor : 0 ≤ nowMs - retentionDays * dayMillis :=
      nonneg_of_bucketStart_pos (by decide) (lt_of_le_of_lt hstart hbefore)
    have hle : nowMs - retentionDays * dayMillis ≤ rerollFrom retentionDays fromMs nowMs := by
      unfold rerollFrom
      split <;> omega
    exact lt_of_lt_of_le hbefore (bucketStart_mono (by decide) hfloor hle)
  have hhour : ∀ s ∈ full, gone s = true →
      s.startedMs < bucketStart hourMillis (rerollFrom retentionDays fromMs nowMs) := by
    intro s hs hlost
    have hbefore := hday s hs hlost
    have hfrom := nonneg_of_bucketStart_pos (by decide) (lt_of_le_of_lt (hstarts s hs) hbefore)
    exact lt_of_lt_of_le hbefore (day_le_hour hfrom)
  exact (reroll_keeps_history_iff r retentionDays full gone fromMs toMs nowMs).mpr (Or.inr
    ⟨buckets_whole_of_aligned full gone _ toMs r.hourly (by decide) hstarts hhour,
      buckets_whole_of_aligned full gone _ toMs r.daily (by decide) hstarts hday⟩)

/-- Two players joined in the hour of the floor, one on each side of it. -/
def floorHour : List SessionRow :=
  [⟨1, "home", 1200000, some "ann", some "Ann"⟩, ⟨2, "home", 2400000, some "bob", some "Bob"⟩]

/-- The rollups of that hour, made while both rows were there. -/
def floorRollups : Rollups :=
  { hourly := sessionLegs floorHour hourMillis 0 hourMillis fun _ => none
    daily := sessionLegs floorHour dayMillis 0 dayMillis fun _ => none }

/-- Half an hour after a midnight, thirty days on. -/
def pastMidnight : Int := 30 * dayMillis + 1800000

/-- The prune of that moment takes the first row, and a re-roll for the second sets the counts of
both buckets from 2 to 1. -/
theorem reroll_erases_pruned_half :
    let ended := fun _ : SessionRow => true
    let gone := expiredSession ended (pastMidnight - 30 * dayMillis)
    let left := pruneSessions ended (pastMidnight - 30 * dayMillis) floorHour
    let rerolled := floorRollups.rerollSessionRollups 30 left 2400000 2400000 pastMidnight
    floorRollups.hourly (0, "") = some ⟨0, 0, 2, 2⟩ ∧
      rerolled.hourly (0, "") = some ⟨0, 0, 1, 1⟩ ∧
      floorRollups.daily (0, "") = some ⟨0, 0, 2, 2⟩ ∧
      rerolled.daily (0, "") = some ⟨0, 0, 1, 1⟩ ∧
      ¬ HistoryKept floorHour gone hourMillis floorRollups.hourly rerolled.hourly ∧
      ¬ HistoryKept floorHour gone dayMillis floorRollups.daily rerolled.daily := by
  intro ended gone left rerolled
  have hhour : floorRollups.hourly (0, "") = some ⟨0, 0, 2, 2⟩ := by decide
  have hhour' : rerolled.hourly (0, "") = some ⟨0, 0, 1, 1⟩ := by decide
  have hday : floorRollups.daily (0, "") = some ⟨0, 0, 2, 2⟩ := by decide
  have hday' : rerolled.daily (0, "") = some ⟨0, 0, 1, 1⟩ := by decide
  refine ⟨hhour, hhour', hday, hday', ?_, ?_⟩
  · intro hkept
    have halone := hkept.left_alone (0, "") ⟨floorHour.head (by decide), by decide, by decide⟩
    rw [hhour, hhour'] at halone
    exact absurd halone (by decide)
  · intro hkept
    have halone := hkept.left_alone (0, "") ⟨floorHour.head (by decide), by decide, by decide⟩
    rw [hday, hday'] at halone
    exact absurd halone (by decide)

end ProxyForward

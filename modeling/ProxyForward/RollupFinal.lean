import ProxyForward.HourSteps
import ProxyForward.RolledHours
import ProxyForward.Runs

namespace ProxyForward
set_option autoImplicit true

open Stats

namespace Rolling

/-- A history that is created tells of no hour that has bytes, and a rollup rolls no hour of which a
bucket may have lapped, nor a day of which an hour is pruned. -/
def Whole (s : Rolling) : RollStep → Prop
  | .stats l => s.stats.Whole l ∧
    match l with
    | .sampleAgent id r _ => id ≠ "" → s.stats.store.agents.lookup id = none →
      bytesOf (s.rollups.hourly (bucketStart hourMillis r.t, id)) = (0, 0)
    | _ => True
  | .rollup nowMs _ =>
    s.pruned ≤ bucketStart dayMillis (rollFrom s.stats.disk.rrd nowMs) ∧
      ∀ row ∈ s.stats.disk.rrd, ∀ row' ∈ s.stats.disk.rrd,
        row.tier = 2 → row'.tier = 2 → row'.agentID = row.agentID →
        rollFrom s.stats.disk.rrd nowMs ≤ bucketStart hourMillis row.bucket.T →
        row'.bucket.T < bucketStart hourMillis row.bucket.T + lapMs
  | .prune _ => True

instance (s : Rolling) : DecidablePred s.Whole
  | .stats (.sampleAgent id r victim) => inferInstanceAs (Decidable
      (s.stats.Whole (.sampleAgent id r victim) ∧ (id ≠ "" → s.stats.store.agents.lookup id = none →
        bytesOf (s.rollups.hourly (bucketStart hourMillis r.t, id)) = (0, 0))))
  | .stats (.sample r linkIn linkOut) =>
    inferInstanceAs (Decidable (s.stats.Whole (.sample r linkIn linkOut) ∧ True))
  | .stats .beginFlush => .isTrue ⟨trivial, trivial⟩
  | .stats .saveOk => .isTrue ⟨trivial, trivial⟩
  | .stats .saveFail => .isTrue ⟨trivial, trivial⟩
  | .stats .endFlush => .isTrue ⟨trivial, trivial⟩
  | .stats .restart => .isTrue ⟨trivial, trivial⟩
  | .rollup nowMs _ => inferInstanceAs (Decidable
      (s.pruned ≤ bucketStart dayMillis (rollFrom s.stats.disk.rrd nowMs) ∧
        ∀ row ∈ s.stats.disk.rrd, ∀ row' ∈ s.stats.disk.rrd,
          row.tier = 2 → row'.tier = 2 → row'.agentID = row.agentID →
          rollFrom s.stats.disk.rrd nowMs ≤ bucketStart hourMillis row.bucket.T →
          row'.bucket.T < bucketStart hourMillis row.bucket.T + lapMs))
  | .prune _ => .isTrue trivial

/-- The hours that a series has had, as the database and the store know of them. -/
structure Inv (s : Rolling) : Prop where
  stats : StatsInv s.stats s.clock
  retained : s.pruned ≤ max 0 (s.clock - rollupHourlyRetention)
  shown : ∀ k, s.pruned ≤ k.1 → bytesOf (s.rollups.hourly k) = s.had k
  removed : ∀ k, k.1 < s.pruned → s.rollups.hourly k = none
  counts : ∀ k, (0, 0) ≤ s.had k
  covered : ∀ k, s.had k ≠ (0, 0) → ∃ n : Nat, k.1 = (n * hourMs : Nat) ∧ n * hourMs ≤ s.clock ∧
    s.stats.Covers s.clock k.2 n (s.had k)
  sealed : ∀ k bytes, s.finalized k = some bytes → bytes = s.had k ∧
    ∃ n : Nat, k.1 = (n * hourMs : Nat) ∧
    (n + 1) * hourMs ≤ s.clock ∧ s.stats.Sealed s.clock k.2 n bytes
  days : ∀ day id, bucketStart dayMillis day = day →
    ((hoursOf day).map fun h => (s.had (h, id)).1).sum ≤ (bytesOf (s.rollups.daily (day, id))).1 ∧
    ((hoursOf day).map fun h => (s.had (h, id)).2).sum ≤ (bytesOf (s.rollups.daily (day, id))).2

theorem Inv.final {s : Rolling} (h : s.Inv) : s.Final := by
  refine ⟨fun k bytes hbytes row hrow => ?_, h.days⟩
  obtain ⟨rfl, -⟩ := h.sealed k bytes hbytes
  by_cases hk : s.pruned ≤ k.1
  · rw [← h.shown k hk, hrow]
    rfl
  · exact nomatch (h.removed k (Int.not_le.1 hk)).symm.trans hrow

theorem Inv.pass {s : Rolling} (h : s.Inv) {stats : Persistence} {clock : Nat}
    (hc : s.clock ≤ clock)
    (hstats : StatsInv stats clock) {ok : String → Nat → Prop}
    (hkeeps : s.stats.Keeps s.clock stats clock ok)
    (hok : ∀ (n : Nat) id,
      (n + 1) * hourMs ≤ s.clock ∨ s.had ((n * hourMs : Nat), id) ≠ (0, 0) → ok id n) :
    Inv { s with stats, clock } where
  stats := hstats
  retained := by
    have hretained := h.retained
    simp only
    omega
  shown := h.shown
  removed := h.removed
  counts := h.counts
  covered k hk := by
    obtain ⟨n, hn, hle, hcovers⟩ := h.covered k hk
    have hok := hok n k.2 (.inr (hn ▸ hk))
    exact ⟨n, hn, hle.trans hc, (hkeeps k.2 n _ hok).1 hcovers⟩
  sealed k bytes hbytes := by
    obtain ⟨hhad, n, hn, hle, hsealed⟩ := h.sealed k bytes hbytes
    exact ⟨hhad, n, hn, hle.trans hc, (hkeeps k.2 n _ (hok n k.2 (.inl hle))).2 hsealed⟩
  days := h.days

theorem Inv.statsStep {s : Rolling} {stats : Persistence} (h : s.Inv) (hw : s.Whole (.stats l))
    (hc : s.clock ≤ s.timeOf l) (hs : s.stats.step l = some stats) :
    Inv { s with stats, clock := s.timeOf l } := by
  cases l with
  | sample r linkIn linkOut =>
    obtain rfl := Option.some.inj hs
    obtain ⟨hagents, hevicted, hfor⟩ := s.stats.store.Sample_histories r linkIn linkOut
    obtain ⟨hstats, hkeeps⟩ := h.stats.grow hc hw.1 (if_pos rfl) hfor (hagents ▸ h.stats.noGlobal)
      hevicted
    exact h.pass hc hstats hkeeps fun _ _ _ => trivial
  | sampleAgent id r victim =>
    obtain ⟨-, hs⟩ := Option.ite_none_right_eq_some.1 hs
    obtain rfl := Option.some.inj hs
    obtain ⟨hstats, hkeeps⟩ := h.stats.sampleAgent hc hw.1
    refine h.pass hc hstats hkeeps fun n id' hn => ?_
    rintro rfl hnone
    have hc : s.clock ≤ r.t := hc
    obtain hn | hhad := hn
    · exact hn.trans hc
    · -- the hour of the new history has no bytes, and any other that has some is over
      obtain ⟨m, hm, hle, -⟩ := h.covered _ hhad
      have hnm : n * hourMs = m * hourMs := Int.ofNat_inj.1 hm
      have hid : id' ≠ "" := by
        rintro rfl
        exact nomatch hnone
      refine Nat.le_of_not_lt fun hlt => hhad ?_
      have hhour : bucketStart hourMillis r.t = (n * hourMs : Nat) := by
        rw [bucketStart_hour]
        simp only [hourMs] at hlt hnm hle ⊢
        omega
      have hzero := hw.2 hid ((if_neg hid).symm.trans hnone)
      rw [hhour] at hzero
      refine (h.shown _ ?_).symm.trans hzero
      have hretained := h.retained
      simp only [hourMs, rollupHourlyRetention, dayMillis] at hretained hlt ⊢
      omega
  | beginFlush =>
    simp only [Persistence.step] at hs
    split at hs
    · obtain rfl := Option.some.inj hs
      obtain ⟨hstats, hkeeps⟩ := h.stats.beginFlush ‹_›
      exact h.pass hc hstats hkeeps fun _ _ _ => trivial
    · cases hs
  | saveOk =>
    simp only [Persistence.step] at hs
    split at hs
    · obtain rfl := Option.some.inj hs
      obtain ⟨hstats, hkeeps⟩ := h.stats.saveOk ‹_›
      exact h.pass hc hstats hkeeps fun _ _ _ => trivial
    · cases hs
  | saveFail =>
    simp only [Persistence.step] at hs
    split at hs
    · obtain rfl := Option.some.inj hs
      obtain ⟨hstats, hkeeps⟩ := h.stats.saveFail ‹_›
      exact h.pass hc hstats hkeeps fun _ _ _ => trivial
    · cases hs
  | endFlush =>
    simp only [Persistence.step] at hs
    split at hs
    · obtain rfl := Option.some.inj hs
      obtain ⟨hstats, hkeeps⟩ := h.stats.endFlush ‹_›
      exact h.pass hc hstats hkeeps fun _ _ _ => trivial
    · cases hs
  | restart =>
    obtain rfl := Option.some.inj hs
    obtain ⟨hstats, hkeeps⟩ := h.stats.restart
    exact h.pass hc hstats hkeeps fun _ _ _ => trivial

theorem Inv.rolled {s : Rolling} (h : s.Inv) {now : Nat} {sessions : List SessionRow}
    (hw : s.Whole (.rollup now sessions)) (hnow : s.clock ≤ now) (k : Int × String) :
    (bucketsIn s.stats.disk.rrd (rollFrom s.stats.disk.rrd now)
        (bucketStart hourMillis now + hourMillis) k = [] ∧
      bytesOf ((s.rollups.runRollup s.stats.disk.rrd sessions now).hourly k) =
        bytesOf (s.rollups.hourly k) ∧
      (s.observe (s.rollups.runRollup s.stats.disk.rrd sessions now) now).had k = s.had k) ∨
    ∃ n : Nat, k.1 = (n * hourMs : Nat) ∧ rollFrom s.stats.disk.rrd now ≤ k.1 ∧
      (∃ b, s.stats.disk.rows k.2 2 b ∧ b.T / hourMs = n) ∧
      bytesOf ((s.rollups.runRollup s.stats.disk.rrd sessions now).hourly k) =
        s.stats.disk.bytes k.2 n ∧
      (s.observe (s.rollups.runRollup s.stats.disk.rrd sessions now) now).had k =
        s.stats.disk.bytes k.2 n ∧
      ∀ bytes, s.finalized k = some bytes → bytes = s.stats.disk.bytes k.2 n := by
  obtain ⟨hpruned, hspan⟩ := hw
  have hbeyond {id : String} {n : Nat} {b : Bucket} (hb : s.stats.disk.rows id 2 b)
    (hn : b.T / hourMs = n)
      (hgone : s.stats.store.Beyond s.stats.disk id ((n + 1) * hourMs) s.clock) : False := by
    obtain ⟨-, hrows, -⟩ | ⟨-, hrows⟩ := hgone
    · have hT := hrows b hb
      simp only [hourMs] at hn hT
      omega
    · exact hrows 2 b hb
  obtain ⟨hnil, hbytes⟩ | ⟨n, hn, hlo, ⟨b, hb, hbn⟩, hbytes⟩ :=
    runRollup_hourly h.stats.disk hnow s.rollups sessions k
  · refine .inl ⟨hnil, hbytes, ?_⟩
    have hle : bytesOf (s.rollups.hourly k) ≤ s.had k := by
      by_cases hk : s.pruned ≤ k.1
      · exact (h.shown k hk).le
      · rw [h.removed k (Int.not_le.1 hk)]
        exact h.counts k
    simp only [observe, hbytes]
    exact Prod.ext (max_eq_left hle.1) (max_eq_left hle.2)
  · have hhad : s.had k ≤ s.stats.disk.bytes k.2 n := by
      by_cases hzero : s.had k = (0, 0)
      · rw [hzero]
        exact h.stats.disk.bytes_nonneg k.2 n
      · obtain ⟨m, hm, -, hcovers, -⟩ := h.covered k hzero
        have hmn : m = n := by
          have heq := Int.ofNat_inj.1 (hm.symm.trans hn)
          simp only [hourMs] at heq
          omega
        subst hmn
        obtain hle | ⟨b', hb', hlap⟩ | hgone := hcovers
        · exact hle
        · have hlt := hspan _ hb _ hb' rfl rfl rfl
          simp only [bucketStart_hour, hbn] at hlt
          have hlt := hlt (hn ▸ hlo)
          simp only [lapMs] at hlap hlt
          omega
        · exact (hbeyond hb hbn hgone).elim
    refine .inr ⟨n, hn, hlo, ⟨b, hb, hbn⟩, hbytes, ?_, fun bytes hfinal => ?_⟩
    · simp only [observe, hbytes]
      exact Prod.ext (max_eq_right hhad.1) (max_eq_right hhad.2)
    · obtain ⟨rfl, m, hm, -, hsealed, -⟩ := h.sealed k bytes hfinal
      have hmn : m = n := by
        have heq := Int.ofNat_inj.1 (hm.symm.trans hn)
        simp only [hourMs] at heq
        omega
      subst hmn
      obtain ⟨hle, -⟩ | hgone := hsealed
      · exact le_antisymm hhad hle
      · exact (hbeyond hb hbn hgone).elim

theorem Inv.shown_rollup {s : Rolling} (h : s.Inv) {now : Nat} {sessions : List SessionRow}
    (hw : s.Whole (.rollup now sessions)) (hnow : s.clock ≤ now) {k : Int × String}
    (hk : s.pruned ≤ k.1) :
    bytesOf ((s.rollups.runRollup s.stats.disk.rrd sessions now).hourly k) =
      (s.observe (s.rollups.runRollup s.stats.disk.rrd sessions now) now).had k := by
  obtain ⟨-, hbytes, hhad⟩ | ⟨n, -, -, -, hbytes, hhad, -⟩ := h.rolled hw hnow k
  · exact hbytes.trans ((h.shown k hk).trans hhad.symm)
  · exact hbytes.trans hhad.symm

theorem rollFrom_day (rrd : List RrdRow) (now : Nat) :
    bucketStart dayMillis (rollFrom rrd now) ≤ rollFrom rrd now := by
  obtain ⟨m, hm, -⟩ := rollFrom_spec rrd now
  rw [hm, bucketStart_of_nonneg _ (Int.natCast_nonneg _)]
  simp only [dayMillis]
  omega

theorem Inv.days_rollup {s : Rolling} (h : s.Inv) {now : Nat} {sessions : List SessionRow}
    (hw : s.Whole (.rollup now sessions)) (hnow : s.clock ≤ now) {day : Int}
    (hday : bucketStart dayMillis day = day) (id : String) :
    ((hoursOf day).map fun hour =>
        ((s.observe (s.rollups.runRollup s.stats.disk.rrd sessions now) now).had
          (hour, id)).1).sum ≤
      (bytesOf ((s.rollups.runRollup s.stats.disk.rrd sessions now).daily (day, id))).1 ∧
    ((hoursOf day).map fun hour =>
        ((s.observe (s.rollups.runRollup s.stats.disk.rrd sessions now) now).had
          (hour, id)).2).sum ≤
      (bytesOf ((s.rollups.runRollup s.stats.disk.rrd sessions now).daily (day, id))).2 := by
  obtain ⟨hout, hsame⟩ | ⟨hin, hsum⟩ := runRollup_daily s.stats.disk.rrd now s.rollups
    sessions hday id
  · have hhad : ∀ hour ∈ hoursOf day,
        (s.observe (s.rollups.runRollup s.stats.disk.rrd sessions now) now).had (hour, id) =
          s.had (hour, id) := by
      intro hour hhour
      obtain ⟨hfrom, hto⟩ := mem_hoursOf hhour
      obtain ⟨-, -, hhad⟩ | ⟨n, hn, hlo, ⟨b, hb, hbn⟩, -⟩ := h.rolled hw hnow (hour, id)
      · exact hhad
      · exfalso
        simp only at hn hlo hb
        have hclock : b.T ≤ now := (h.stats.disk.past _ b hb).trans hnow
        obtain ⟨m, hm, -⟩ := rollFrom_spec s.stats.disk.rrd now
        rw [hm, bucketStart_of_nonneg _ (Int.natCast_nonneg _)] at hout
        rw [hm] at hlo
        have haligned : day.tdiv dayMillis * dayMillis = day := hday
        generalize day.tdiv dayMillis = d at haligned
        simp only [hourMs, dayMillis] at hout hlo hn hto hbn haligned
        omega
    have hmap : ((hoursOf day).map fun hour =>
        (s.observe (s.rollups.runRollup s.stats.disk.rrd sessions now) now).had (hour, id)) =
        (hoursOf day).map fun hour => s.had (hour, id) := List.map_congr_left hhad
    have hfst := congrArg (List.map Prod.fst) hmap
    have hsnd := congrArg (List.map Prod.snd) hmap
    simp only [List.map_map] at hfst hsnd
    obtain ⟨hdayIn, hdayOut⟩ := h.days day id hday
    rw [hsame]
    exact ⟨(congrArg List.sum hfst).le.trans hdayIn, (congrArg List.sum hsnd).le.trans hdayOut⟩
  · have hshown : ∀ hour ∈ hoursOf day,
        bytesOf ((s.rollups.runRollup s.stats.disk.rrd sessions now).hourly (hour, id)) =
          (s.observe (s.rollups.runRollup s.stats.disk.rrd sessions now) now).had (hour, id) :=
      fun hour hhour => h.shown_rollup hw hnow ((hw.1.trans hin).trans (mem_hoursOf hhour).1)
    have hmap : ((hoursOf day).map fun hour =>
        bytesOf ((s.rollups.runRollup s.stats.disk.rrd sessions now).hourly (hour, id))) =
        (hoursOf day).map fun hour =>
          (s.observe (s.rollups.runRollup s.stats.disk.rrd sessions now) now).had (hour, id) :=
      List.map_congr_left hshown
    have hfst := congrArg (fun l => (List.map Prod.fst l).sum) hmap
    have hsnd := congrArg (fun l => (List.map Prod.snd l).sum) hmap
    simp only [List.map_map] at hfst hsnd
    obtain hall | ⟨hnone, hsame⟩ := hsum
    · rw [hall]
      exact ⟨hfst.ge, hsnd.ge⟩
    · have hzero : ∀ hour ∈ hoursOf day,
          (s.observe (s.rollups.runRollup s.stats.disk.rrd sessions now) now).had
            (hour, id) = (0, 0) := by
        intro hour hhour
        rw [← hshown hour hhour, hnone hour hhour]
        rfl
      obtain ⟨hdayIn, hdayOut⟩ := h.days day id hday
      have hposIn : 0 ≤ ((hoursOf day).map fun hour => (s.had (hour, id)).1).sum :=
        List.sum_nonneg (List.forall_mem_map.2 fun hour _ => (h.counts (hour, id)).1)
      have hposOut : 0 ≤ ((hoursOf day).map fun hour => (s.had (hour, id)).2).sum :=
        List.sum_nonneg (List.forall_mem_map.2 fun hour _ => (h.counts (hour, id)).2)
      rw [hsame, List.sum_eq_zero (List.forall_mem_map.2 fun hour hhour =>
        congrArg Prod.fst (hzero hour hhour)),
        List.sum_eq_zero (List.forall_mem_map.2 fun hour hhour =>
          congrArg Prod.snd (hzero hour hhour))]
      exact ⟨hposIn.trans hdayIn, hposOut.trans hdayOut⟩

theorem Inv.rollup {s : Rolling} (h : s.Inv) {now : Nat} {sessions : List SessionRow}
    (hw : s.Whole (.rollup now sessions)) (hnow : s.clock ≤ now) :
    Inv { s.observe (s.rollups.runRollup s.stats.disk.rrd sessions now) now
      with clock := now } := by
  have hpruned : s.pruned ≤ bucketStart dayMillis (rollFrom s.stats.disk.rrd now) := hw.1
  obtain ⟨hstats, hkeeps⟩ := h.stats.later hnow
  have hflight {id : String} {n : Nat} (hn : ∃ b, s.stats.disk.rows id 2 b ∧ b.T / hourMs = n) :
      s.stats.Covers now id n (s.stats.disk.bytes id n) ∧
        ((∃ b, s.stats.disk.rows id 2 b ∧ (n + 1) * hourMs ≤ b.T) →
          s.stats.Sealed now id n (s.stats.disk.bytes id n)) := by
    obtain ⟨hcovers, hsealed⟩ := flight_self s.stats.store s.stats.disk now id n
    obtain ⟨hcovers', hsealed'⟩ := hstats.flight id n hn
    exact ⟨⟨hcovers, hcovers'⟩, fun hlater => ⟨hsealed hlater, hsealed' hlater⟩⟩
  refine ⟨hstats, ?_, fun k hk => ?_, fun k hk => ?_, fun k => ?_, fun k hk => ?_,
    fun k bytes hbytes => ?_, fun day id hday => ?_⟩
  · have hretained := h.retained
    simp only [observe]
    omega
  · exact h.shown_rollup hw hnow hk
  · have hlt : k.1 < rollFrom s.stats.disk.rrd now :=
      Int.lt_of_lt_of_le hk (hpruned.trans (rollFrom_day ..))
    exact (runRollup_hourly_of_lt hlt s.rollups sessions).trans (h.removed k hk)
  · obtain ⟨-, -, hhad⟩ | ⟨n, -, -, -, -, hhad, -⟩ := h.rolled hw hnow k
    · exact (h.counts k).trans hhad.ge
    · exact (h.stats.disk.bytes_nonneg k.2 n).trans hhad.ge
  · obtain ⟨-, -, hhad⟩ | ⟨n, hn, -, hrow, -, hhad, -⟩ := h.rolled hw hnow k
    · rw [hhad] at hk ⊢
      obtain ⟨n, hn, hle, hcovers⟩ := h.covered k hk
      exact ⟨n, hn, hle.trans hnow, (hkeeps k.2 n _ trivial).1 hcovers⟩
    · rw [hhad]
      refine ⟨n, hn, ?_, (hflight hrow).1⟩
      obtain ⟨b, hb, rfl⟩ := hrow
      exact (Nat.div_mul_le_self ..).trans ((h.stats.disk.past _ b hb).trans hnow)
  · obtain ⟨hnil, -, hhad⟩ | ⟨n, hn, -, hrow, hrolled, hhad, hfinal⟩ := h.rolled hw hnow k
    · rw [hhad]
      simp only [observe, hnil, List.isEmpty_nil, Bool.true_eq_false, false_and, if_false,
        Option.or_none] at hbytes
      obtain ⟨rfl, n, hn, hle, hsealed⟩ := h.sealed k bytes hbytes
      exact ⟨rfl, n, hn, hle.trans hnow, (hkeeps k.2 n _ trivial).2 hsealed⟩
    · rw [hhad]
      obtain hold | ⟨-, hnew⟩ := Option.or_eq_some_iff.1 hbytes
      · obtain ⟨-, m, hm, hle, hsealed⟩ := h.sealed k bytes hold
        exact ⟨hfinal bytes hold, m, hm, hle.trans hnow, (hkeeps k.2 m _ trivial).2 hsealed⟩
      · obtain ⟨⟨-, hcomplete⟩, hnew⟩ := Option.ite_none_right_eq_some.1 hnew
        obtain rfl := Option.some.inj hnew
        obtain ⟨⟨_, _, b⟩, hb, hlater⟩ := List.any_eq_true.1 hcomplete
        obtain ⟨rfl, rfl, hlater⟩ := of_decide_eq_true hlater
        have hlater : (n + 1) * hourMs ≤ b.T := by
          rw [hn] at hlater
          simp only [hourMs, hourMillis] at hlater ⊢
          omega
        refine ⟨hrolled, n, hn, hlater.trans ((h.stats.disk.past _ b hb).trans hnow), ?_⟩
        simp only [hrolled]
        exact (hflight hrow).2 ⟨b, hb, hlater⟩
  · exact h.days_rollup hw hnow hday id

theorem Inv.prune {s : Rolling} (h : s.Inv) {now : Nat} (hnow : s.clock ≤ now) :
    Inv { s with
      rollups := s.rollups.prune now
      clock := now
      pruned := max s.pruned (now - rollupHourlyRetention) } := by
  obtain ⟨hstats, hkeeps⟩ := h.stats.later hnow
  have hpass := h.pass hnow hstats hkeeps fun _ _ _ => trivial
  refine ⟨hstats, ?_, fun k hk => ?_, fun k hk => ?_, h.counts, hpass.covered, hpass.sealed, h.days⟩
  · have hretained := h.retained
    simp only
    omega
  · obtain ⟨hold, hnew⟩ := Int.max_le.1 hk
    refine (congrArg bytesOf (if_neg ?_)).trans (h.shown k hold)
    exact Int.not_lt.2 hnew
  · simp only [Rollups.prune]
    split
    · rfl
    · rename_i hkept
      exact h.removed k ((lt_max_iff.1 hk).resolve_right hkept)

theorem Inv.step {s t : Rolling} (h : s.Inv) (hw : s.Whole l) (hs : s.step l = some t) : t.Inv := by
  cases l with
  | stats l =>
    obtain ⟨hc, hs⟩ := Option.ite_none_right_eq_some.1 hs
    obtain ⟨stats, hstats, rfl⟩ := Option.map_eq_some_iff.1 hs
    exact h.statsStep hw hc hstats
  | rollup now sessions =>
    obtain ⟨hnow, hs⟩ := Option.ite_none_right_eq_some.1 hs
    obtain rfl := Option.some.inj hs
    exact h.rollup hw hnow
  | prune now =>
    obtain ⟨hnow, hs⟩ := Option.ite_none_right_eq_some.1 hs
    obtain rfl := Option.some.inj hs
    exact h.prune hnow

theorem Inv.init : Inv .init := by
  have hdisk : Disk.Sound .empty 0 :=
    ⟨fun _ => rfl, List.nodup_nil, fun _ _ _ hb => absurd hb List.not_mem_nil,
      fun _ _ hb => absurd hb List.not_mem_nil, fun _ _ hb => absurd hb List.not_mem_nil,
      fun _ _ hb => absurd hb List.not_mem_nil, fun _ _ hb => absurd hb List.not_mem_nil⟩
  refine ⟨.opened hdisk, Int.le_max_left .., fun _ _ => rfl, fun _ _ => rfl, fun _ => le_rfl,
    fun _ hk => absurd rfl hk, fun _ _ hbytes => (nomatch hbytes), fun day id _ => ?_⟩
  have hzero : ((hoursOf day).map fun _ => (0 : Int)).sum = 0 :=
    List.sum_eq_zero (List.forall_mem_map.2 fun _ _ => rfl)
  exact ⟨hzero.le, hzero.le⟩

/-- Rollups are final in every run in which no new history, no lapped bucket and no pruned hour
takes bytes from an hour that is rolled. -/
theorem always_final (hw : Runs.Along step Whole init ls) : Runs.Always step Final init ls :=
  Runs.always_of_invariant (fun _ _ _ h hw hs => Inv.step h hw hs) (fun _ h => h.final) .init hw

end Rolling

/-- Gateway-wide traffic goes on for an hour and on, and the hour is rolled when it is complete. -/
def completeHourRun : List RollStep :=
  let reading (t : Nat) (n : Int) : Reading := ⟨1749999600000 + t, n, n, 0, 0, 0, 0⟩
  [.stats (.sample (reading 0 0) 0 0), .stats (.sample (reading 100 5) 0 0),
    .stats (.sample (reading 1800000 7) 0 0), .stats (.sample (reading 3600000 9) 0 0),
    .stats (.sample (reading 3602000 11) 0 0), .stats (.sample (reading 3620000 12) 0 0),
    .stats .beginFlush, .stats .saveOk, .stats .endFlush, .rollup 1750003220000 []]

/-- An agent goes quiet at the end of the hour before. -/
def quietAgentSteps : List RollStep :=
  [.stats (.sampleAgent "a" ⟨1749999590000, 0, 0, 0, 0, 0, 0⟩ ""),
    .stats (.sampleAgent "a" ⟨1749999591000, 1, 1, 0, 0, 0, 0⟩ ""),
    .stats (.sampleAgent "a" ⟨1749999592000, 1, 1, 0, 0, 0, 0⟩ ""),
    .stats (.sampleAgent "a" ⟨1749999593000, 1, 1, 0, 0, 0, 0⟩ "")]

/-- Thirty hours later a part of that hour has lapped, but the quiet agent's bucket is still the
oldest. -/
def lappedSteps : List RollStep :=
  let reading (t : Nat) (n : Int) : Reading := ⟨1749999600000 + t, n, n, 0, 0, 0, 0⟩
  [.stats (.sample (reading 108900000 13) 0 0), .stats (.sample (reading 108901000 13) 0 0),
    .stats (.sample (reading 108920000 13) 0 0), .stats .beginFlush, .stats .saveOk,
      .stats .endFlush,
    .rollup 1750108520000 []]

/-- Within a lap the hour is rolled again with all its buckets. -/
theorem always_final_within_lap : Runs.Always Rolling.step Rolling.Final .init
    (completeHourRun ++ [.stats .restart, .prune 1750006000000, .rollup 1750006820000 []]) :=
  Rolling.always_final (by decide +kernel)

/-- After a lap it is rolled again with a part of them. -/
theorem lapped_hour_not_final : ¬∀ ls, Runs.Always Rolling.step Rolling.Final .init ls := by
  intro h
  have hrun : ∃ s, Runs.final Rolling.step .init
    (quietAgentSteps ++ completeHourRun ++ lappedSteps) = some s ∧
      ∃ row, s.rollups.hourly (1749999600000, "") = some row ∧
        s.finalized (1749999600000, "") = some (7, 7) ∧ row.bytesIn = 2 := by
    decide +kernel
  obtain ⟨s, hs, row, hrow, hfinal, hbytes⟩ := hrun
  have heq := (h _).final (Runs.reaches_of_final hs)
  have hbytes' := congrArg Prod.fst (heq.1 _ _ hfinal row hrow)
  exact absurd (hbytes.symm.trans hbytes') (by decide)

end ProxyForward

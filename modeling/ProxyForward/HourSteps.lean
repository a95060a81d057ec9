import ProxyForward.HourCover

namespace ProxyForward.Stats
set_option autoImplicit true

namespace Persistence

/-- No 15 s bucket of the series in the hour is stored, or under way. -/
def Absent (p : Persistence) (id : String) (n : Nat) : Prop :=
  (∀ row ∈ p.disk.rrd, row.agentID = id → row.tier = 2 → row.bucket.T / hourMs ≠ n) ∧
    ∀ ts ∈ p.writing, ts.agentID = id → ts.tier = 2 → ∀ b ∈ ts.buckets, b.T / hourMs ≠ n

/-- Readings come after the first lap, and a history is created for a series that has no buckets in
the hour. -/
def Whole (p : Persistence) : PersistStep → Prop
  | .sample r _ _ => lapMs ≤ r.t
  | .sampleAgent id r _ =>
    id ≠ "" → lapMs ≤ r.t ∧ (p.store.agents.lookup id = none → p.Absent id (r.t / hourMs))
  | _ => True

/-- The hours of which a step tells nothing new; a history that is created tells of its first
hour. -/
def settles (p : Persistence) : PersistStep → String → Nat → Prop
  | .sampleAgent id r _, id', n =>
    id' = id → p.store.historyFor id = none → (n + 1) * hourMs ≤ r.t
  | _, _, _ => True

instance (p : Persistence) (id : String) (n : Nat) : Decidable (p.Absent id n) := inferInstanceAs
  (Decidable ((∀ row ∈ p.disk.rrd, row.agentID = id → row.tier = 2 → row.bucket.T / hourMs ≠ n) ∧
    ∀ ts ∈ p.writing, ts.agentID = id → ts.tier = 2 → ∀ b ∈ ts.buckets, b.T / hourMs ≠ n))

instance (p : Persistence) : DecidablePred p.Whole
  | .sample r _ _ => inferInstanceAs (Decidable (lapMs ≤ r.t))
  | .sampleAgent id r _ => inferInstanceAs (Decidable (id ≠ "" → lapMs ≤ r.t ∧
      (p.store.agents.lookup id = none → p.Absent id (r.t / hourMs))))
  | .beginFlush => .isTrue trivial
  | .saveOk => .isTrue trivial
  | .saveFail => .isTrue trivial
  | .endFlush => .isTrue trivial
  | .restart => .isTrue trivial

theorem Absent.after {p : Persistence} {id : String} (h : p.Absent id n)
    (htiers : TiersOK p.writing)
    (hb : p.after.rows id 2 b) : b.T / hourMs ≠ n := by
  unfold Persistence.after at hb
  split at hb
  · rename_i snap hsaving
    have hwriting : p.writing = snap.tiers := by simp only [Persistence.writing, hsaving]
    by_cases hts : ∃ ts ∈ snap.tiers, id = ts.agentID ∧ 2 = ts.tier
    · obtain ⟨ts, hts, rfl, htier⟩ := hts
      rw [htier, Disk.rows_SaveStats (hwriting ▸ htiers) hts] at hb
      obtain ⟨hb, -⟩ | ⟨⟨hb, -⟩, -⟩ := hb
      · exact h.2 ts (hwriting ▸ hts) rfl htier.symm b hb
      · exact h.1 _ hb rfl htier.symm
    · rw [Disk.rows_SaveStats_of_ne fun ts hmem hkey => hts ⟨ts, hmem, hkey⟩] at hb
      exact h.1 _ hb.1 rfl rfl
  · exact h.1 _ hb rfl rfl

end Persistence

theorem Persistence.Keeps.trans {p p' p'' : Persistence}
    (h : p.Keeps clock p' clock' fun _ _ => True)
    (h' : p'.Keeps clock' p'' clock'' ok) : p.Keeps clock p'' clock'' ok := by
  intro id n bytes hok
  obtain ⟨hcovers, hsealed⟩ := h id n bytes trivial
  obtain ⟨hcovers', hsealed'⟩ := h' id n bytes hok
  exact ⟨fun hc => hcovers' (hcovers hc), fun hs => hsealed' (hsealed hs)⟩

namespace StatsInv

theorem consistent {p : Persistence} (h : StatsInv p clock) (hidle : p.saving = none) :
    Consistent p.store p.disk clock := by
  have hafter : p.after = p.disk := by simp only [Persistence.after, hidle]
  have hwriting : p.writing = [] := by simp only [Persistence.writing, hidle]
  refine ⟨h.noGlobal, h.kept, h.sound, h.disk, fun id hist hh => ?_⟩
  have hfits := h.fits id hist hh
  rwa [hafter, hwriting] at hfits

theorem beginFlush {p : Persistence} (h : StatsInv p clock) (hidle : p.saving = none) :
    StatsInv { p with saving := some ⟨p.store.snapshot, false⟩ } clock ∧
      p.Keeps clock { p with saving := some ⟨p.store.snapshot, false⟩ } clock fun _ _ => True := by
  have hcons := h.consistent hidle
  constructor
  · refine ⟨h.noGlobal, h.kept, h.sound, h.disk, hcons.save_sound, hcons.tiersOK, ?_, ?_, ?_, ?_⟩
    · intro ts hts htier b hb
      obtain ⟨id, hist, ti, r, hh, -, hr, hsnap⟩ := (Store.mem_snapshot h.noGlobal).1 hts
      obtain ⟨-, -, rfl⟩ := Ring.snapshot_eq_some hsnap
      obtain rfl : ti = 2 := htier
      obtain ⟨hdvd, hclock, -⟩ := (h.sound id hist hh).bucket hr hb
      exact ⟨hdvd, hclock⟩
    · intro id hist hh
      have hfits := hcons.fits id hist hh
      obtain ⟨hnone, -⟩ | ⟨hist', r, hh', hr, hcase⟩ := hcons.save_cases id
      · exact nomatch hh.symm.trans hnone
      · obtain rfl := Option.some.inj (hh.symm.trans hh')
        obtain ⟨-, hmark, hrows⟩ | ⟨c, ts, hc, hts, hmark, hrows⟩ := hcase
        · change hist.Fits ((p.disk.SaveStats p.store.snapshot).rows id 2)
            (markOf id hist.lastCurT p.store.snapshot.tiers 2) clock
          rw [hmark, hrows]
          exact hfits
        · change hist.Fits ((p.disk.SaveStats p.store.snapshot).rows id 2)
            (markOf id hist.lastCurT p.store.snapshot.tiers 2) clock
          rw [hmark, hrows]
          have hs := h.sound id hist hh
          have hok := hs.ok 2 (by decide) r hr
          refine ⟨⟨?_, hs.past 2 (by decide) r hr c hc⟩, fun r' hr' _ => ?_, fun r' hr' hcur => ?_⟩
          · rw [(hs.tier2 hr).1]
            exact Nat.dvd_mul_left ..
          · obtain rfl := Option.some.inj (hr.symm.trans hr')
            exact (hfits.ring r hr (hc ▸ nofun)).saved hok hc hts
          · obtain rfl := Option.some.inj (hr.symm.trans hr')
            exact nomatch hcur.symm.trans hc
    · intro snap hsnap id hist hh
      exact hcons.fits id hist hh
    · intro id n _
      obtain ⟨hcovers, hsealed⟩ := flight_self p.store p.disk clock id n
      exact ⟨hcons.save_covers hcovers, fun hlater => hcons.save_sealed (hsealed hlater)⟩
  · exact fun id n bytes _ => ⟨fun hc => ⟨hc.1, hcons.save_covers hc.1⟩, fun hs =>
      ⟨hs.1, hcons.save_sealed hs.1⟩⟩

theorem saveOk {p : Persistence} (h : StatsInv p clock) (hsaving : p.saving = some ⟨snap, false⟩) :
    StatsInv { p with disk := p.disk.SaveStats snap, saving := some ⟨snap, true⟩ } clock ∧
      p.Keeps clock { p with disk := p.disk.SaveStats snap, saving := some ⟨snap, true⟩ } clock
        fun _ _ => True := by
  have hafter : p.after = p.disk.SaveStats snap := by simp only [Persistence.after, hsaving]
  have hwriting : p.writing = snap.tiers := by simp only [Persistence.writing, hsaving]
  have hdisk := h.after
  have htiers := h.tiers
  have hbuckets := h.writing
  have hfits := h.fits
  rw [hafter] at hdisk
  rw [hwriting] at htiers hbuckets
  simp only [hafter, hwriting] at hfits
  constructor
  · refine ⟨h.noGlobal, h.kept, h.sound, hdisk, hdisk, htiers, hbuckets, hfits, fun _ hsnap => ?_,
      fun id n _ => flight_self ..⟩
    cases hsnap
  · intro id n bytes _
    exact ⟨fun hc => ⟨hafter ▸ hc.2, hafter ▸ hc.2⟩, fun hs => ⟨hafter ▸ hs.2, hafter ▸ hs.2⟩⟩

theorem saveFail {p : Persistence} (h : StatsInv p clock)
    (hsaving : p.saving = some ⟨snap, false⟩) :
    StatsInv { p with saving := none } clock ∧
      p.Keeps clock { p with saving := none } clock fun _ _ => True := by
  constructor
  · exact ⟨h.noGlobal, h.kept, h.sound, h.disk, h.disk,
      ⟨fun _ h => absurd h List.not_mem_nil, fun _ h => absurd h List.not_mem_nil⟩,
      fun _ h => absurd h List.not_mem_nil, h.failing snap hsaving, fun _ hsnap => (nomatch hsnap),
      fun id n _ => flight_self ..⟩
  · exact fun id n bytes _ => ⟨fun hc => ⟨hc.1, hc.1⟩, fun hs => ⟨hs.1, hs.1⟩⟩

theorem endFlush {p : Persistence} (h : StatsInv p clock) (hsaving : p.saving = some ⟨snap, true⟩) :
    StatsInv { p with store := p.store.saved snap, saving := none } clock ∧
      p.Keeps clock { p with store := p.store.saved snap, saving := none } clock
        fun _ _ => True := by
  have hafter : p.after = p.disk := by simp only [Persistence.after, hsaving]
  have hwriting : p.writing = snap.tiers := by simp only [Persistence.writing, hsaving]
  obtain ⟨hevicted, hagents⟩ := p.store.foldl_advance_agents snap.tiers
  have hfor (id : String) :
      (p.store.saved snap).historyFor id = (p.store.historyFor id).map fun h =>
      { h with lastCurT := markOf id h.lastCurT snap.tiers } :=
    p.store.historyFor_foldl_advance snap.tiers id
  have hsome {id : String} {h' : History} (hh : (p.store.saved snap).historyFor id = some h') :
      ∃ hist, p.store.historyFor id = some hist ∧
        { hist with lastCurT := markOf id hist.lastCurT snap.tiers } = h' :=
    Option.map_eq_some_iff.1 ((hfor id).symm.trans hh)
  have hbeyond {x : Nat} {id : String} (hb : p.store.Beyond p.disk id x clock) :
      (p.store.saved snap).Beyond p.disk id x clock := by
    refine hb.imp le_rfl fun h' hh' => ?_
    obtain ⟨hist, hh, rfl⟩ := hsome hh'
    exact ⟨hist, hh, fun hb => ⟨hb.now, hb.low, hb.image⟩⟩
  constructor
  · refine ⟨hagents h.noGlobal, fun id h' hh' => ?_, fun id h' hh' => ?_, h.disk, h.disk,
      ⟨fun _ h => absurd h List.not_mem_nil, fun _ h => absurd h List.not_mem_nil⟩,
      fun _ h => absurd h List.not_mem_nil, fun id h' hh' => ?_, fun _ hsnap => ?_,
      fun id n _ => flight_self ..⟩
    · obtain ⟨hist, hh, -⟩ := hsome hh'
      exact fun hmem => h.kept id hist hh (hevicted ▸ (Finset.mem_sdiff.1 hmem).1)
    · obtain ⟨hist, hh, rfl⟩ := hsome hh'
      have hs := h.sound id hist hh
      exact ⟨hs.shape, hs.ok, hs.counts, hs.past, hs.low⟩
    · obtain ⟨hist, hh, rfl⟩ := hsome hh'
      have hfits := h.fits id hist hh
      rw [hafter, hwriting] at hfits
      exact ⟨hfits.mark, hfits.ring, hfits.fresh⟩
    · cases hsnap
  · exact fun id n bytes _ => ⟨fun hc => ⟨hc.1.imp hbeyond, hc.1.imp hbeyond⟩,
      fun hs => ⟨hs.1.imp hbeyond, hs.1.imp hbeyond⟩⟩

theorem later {p : Persistence} (h : StatsInv p clock) (hc : clock ≤ clock') :
    StatsInv p clock' ∧ p.Keeps clock p clock' fun _ _ => True := by
  refine h.withStore hc h.noGlobal h.kept (fun id hist hh => (h.sound id hist hh).later hc)
    (fun id hist hh => ⟨(h.fits id hist hh).later hc, fun snap hsnap => ?_⟩) (fun id n _ d hb => ?_)
    fun _ _ _ => trivial
  · exact (h.failing snap hsnap id hist hh).later hc
  · exact hb.imp hc fun hist hh => ⟨hist, hh, fun hb => hb.later hc⟩

theorem set {p : Persistence} {store : Store} {id : String} {h₁ : History}
    (h : StatsInv p clock) (ok : Nat → Prop) (hc : clock ≤ clock')
    (hfor : ∀ id', store.historyFor id' = if id' = id then some h₁ else p.store.historyFor id')
    (hnoGlobal : store.agents.lookup "" = none) (hevicted : store.evicted ⊆ p.store.evicted)
    (hkept : id ∉ store.evicted) (hsound : h₁.Sound clock')
    (hfits : h₁.Fits (p.after.rows id 2) (markOf id h₁.lastCurT p.writing 2) clock')
    (hfailing : ∀ snap, p.saving = some ⟨snap, false⟩ →
      h₁.Fits (p.disk.rows id 2) (h₁.lastCurT 2) clock')
    (hbeyond : ∀ n, ok n → ∀ d, p.store.Beyond d id ((n + 1) * hourMs) clock →
      h₁.Beyond ((n + 1) * hourMs) clock')
    (hok : ∀ n, (∃ b, p.disk.rows id 2 b ∧ b.T / hourMs = n) → ok n) :
    StatsInv { p with store } clock' ∧
      p.Keeps clock { p with store } clock' fun id' n => id' = id → ok n := by
  have hcases {id' : String} {h' : History} (hh' : store.historyFor id' = some h') :
      (id' = id ∧ h' = h₁) ∨ (id' ≠ id ∧ p.store.historyFor id' = some h') := by
    rw [hfor] at hh'
    by_cases hid : id' = id
    · rw [if_pos hid] at hh'
      exact .inl ⟨hid, (Option.some.inj hh').symm⟩
    · rw [if_neg hid] at hh'
      exact .inr ⟨hid, hh'⟩
  refine h.withStore hc hnoGlobal (fun id' h' hh' => ?_) (fun id' h' hh' => ?_)
    (fun id' h' hh' => ?_)
    (fun id' n hn d hb => ?_) fun id' n hn hid => hok n (hid ▸ hn)
  · obtain ⟨rfl, -⟩ | ⟨-, hh⟩ := hcases hh'
    · exact hkept
    · exact fun hmem => h.kept id' h' hh (hevicted hmem)
  · obtain ⟨rfl, rfl⟩ | ⟨-, hh⟩ := hcases hh'
    · exact hsound
    · exact (h.sound id' h' hh).later hc
  · obtain ⟨rfl, rfl⟩ | ⟨-, hh⟩ := hcases hh'
    · exact ⟨hfits, hfailing⟩
    · exact ⟨(h.fits id' h' hh).later hc, fun snap hsnap =>
        (h.failing snap hsnap id' h' hh).later hc⟩
  · by_cases hid : id' = id
    · subst hid
      have hb₁ := hbeyond n (hn rfl) d hb
      refine .inl ⟨hb₁.now, ?_, fun h' hh' => ?_⟩
      · obtain ⟨-, hrows, -⟩ | ⟨-, hrows⟩ := hb
        · exact hrows
        · exact fun b hb => absurd hb (hrows 2 b)
      · obtain ⟨-, rfl⟩ | ⟨hne, -⟩ := hcases hh'
        · exact hb₁
        · exact absurd rfl hne
    · refine hb.imp hc fun h' hh' => ?_
      obtain ⟨rfl, -⟩ | ⟨-, hh⟩ := hcases hh'
      · exact absurd rfl hid
      · exact ⟨h', hh, fun hb => hb.later hc⟩

theorem grow {p : Persistence} {store : Store} {id : String} {r : Reading} {h₀ : History}
    (h : StatsInv p clock) (hr : clock ≤ r.t) (hlap : lapMs ≤ r.t)
    (hh : p.store.historyFor id = some h₀)
    (hfor : ∀ id', store.historyFor id' =
      if id' = id then some (h₀.sample r).2 else p.store.historyFor id')
    (hnoGlobal : store.agents.lookup "" = none) (hevicted : store.evicted = p.store.evicted) :
    StatsInv { p with store } r.t ∧ p.Keeps clock { p with store } r.t fun _ _ => True := by
  have hs := h.sound id h₀ hh
  have hset := h.set (fun _ => True) hr hfor hnoGlobal hevicted.subset (hevicted ▸ h.kept id h₀ hh)
    (hs.sample hr hlap) ?_ (fun snap hsnap => ?_) (fun n _ d hb => ?_) fun _ _ => trivial
  · exact ⟨hset.1, fun id n bytes _ => hset.2 id n bytes fun _ => trivial⟩
  · rw [h₀.sample_lastCurT r]
    exact (h.fits id h₀ hh).sample hs hr hlap fun b hb => h.after.aligned id b hb
  · rw [h₀.sample_lastCurT r]
    exact (h.failing snap hsnap id h₀ hh).sample hs hr hlap fun b hb => h.disk.aligned id b hb
  · obtain ⟨-, -, hhist⟩ | ⟨hnone, -⟩ := hb
    · exact (hhist h₀ hh).sample hs (Dvd.dvd.mul_left (by decide) _) hr hlap
    · exact nomatch hnone.symm.trans hh

theorem evict {p : Persistence} (h : StatsInv p clock) (victim : String) (hvictim : victim ≠ "") :
    StatsInv { p with store :=
      { p.store with
        agents := p.store.agents.erase victim
        evicted := insert victim p.store.evicted } } clock ∧
    p.Keeps clock { p with store :=
      { p.store with
        agents := p.store.agents.erase victim
        evicted := insert victim p.store.evicted } } clock fun _ _ => True := by
  have hsome {id : String} {hist : History} (hh : ({ p.store with
      agents := p.store.agents.erase victim
      evicted := insert victim p.store.evicted } : Store).historyFor id = some hist) :
      id ≠ victim ∧ p.store.historyFor id = some hist := by
    rw [p.store.historyFor_erase hvictim] at hh
    by_cases hid : id = victim
    · rw [if_pos hid] at hh
      exact nomatch hh
    · exact ⟨hid, (if_neg hid).symm.trans hh⟩
  refine h.withStore le_rfl ?_ (fun id hist hh => ?_)
    (fun id hist hh => h.sound id hist (hsome hh).2)
    (fun id hist hh => ?_) (fun id n _ d hb => ?_) fun _ _ _ => trivial
  · exact (AList.lookup_erase_ne (Ne.symm hvictim)).trans h.noGlobal
  · obtain ⟨hne, hh⟩ := hsome hh
    exact fun hmem => (Finset.mem_insert.1 hmem).elim hne (h.kept id hist hh)
  · exact ⟨h.fits id hist (hsome hh).2, fun snap hsnap => h.failing snap hsnap id hist (hsome hh).2⟩
  · exact hb.imp le_rfl fun hist hh => ⟨hist, (hsome hh).2, fun hb => hb⟩

theorem create {p : Persistence} {id : String} {r : Reading} (h : StatsInv p clock) (hid : id ≠ "")
    (hr : clock ≤ r.t) (habsent : p.Absent id (r.t / hourMs)) :
    StatsInv { p with store :=
      { p.store with
        agents := p.store.agents.insert id (newHistory.sample r).2
        evicted := p.store.evicted.erase id } } r.t ∧
    p.Keeps clock { p with store :=
      { p.store with
        agents := p.store.agents.insert id (newHistory.sample r).2
        evicted := p.store.evicted.erase id } } r.t fun id' n => id' = id →
          (n + 1) * hourMs ≤ r.t := by
  have hrestored : (newHistory.sample r).2.restored fun _ => [] := ⟨rfl, newHistory_restored.2⟩
  obtain ⟨hsound, hlow, hring⟩ := hrestored.sound r.t (fun _ _ => rfl)
    (fun _ hb => absurd hb List.not_mem_nil)
    (fun _ hb => absurd hb List.not_mem_nil) (fun _ hb => absurd hb List.not_mem_nil)
    (fun _ hb => absurd hb List.not_mem_nil) fun _ hb => absurd hb List.not_mem_nil
  have hempty (ring : Ring) (hring' : (newHistory.sample r).2.tiers[2]? = some ring) :
    ring.cur = none := by
    cases hcur : ring.cur with
    | none => rfl
    | some c =>
      have hok := hsound.ok 2 (by decide) ring hring'
      exact absurd ((hring ring hring').2.1 _ (hok.cur_mem_image hcur)) List.not_mem_nil
  have hfits {rows : Bucket → Prop} {w : Nat} (hw : 15000 ∣ w ∧ w ≤ clock)
      (hrows : ∀ b, rows b → 15000 ∣ b.T ∧ b.T ≤ clock ∧ b.T / hourMs ≠ r.t / hourMs) :
      (newHistory.sample r).2.Fits rows w r.t := by
    refine ⟨⟨hw.1, hw.2.trans hr⟩, fun ring hring' hsome => absurd (hempty ring hring') hsome,
      fun ring _ _ => ⟨hlow w, fun b hb => ⟨hlow _, ?_⟩⟩⟩
    obtain ⟨hdvd, hpast, hhour⟩ := hrows b hb
    have hle : b.T ≤ r.t := hpast.trans hr
    simp only [hourMs] at hhour
    omega
  have hdisk : ∀ b, p.disk.rows id 2 b → 15000 ∣ b.T ∧ b.T ≤ clock ∧ b.T / hourMs ≠ r.t / hourMs :=
    fun b hb => ⟨h.disk.aligned id b hb, h.disk.past id b hb, habsent.1 _ hb rfl rfl⟩
  have hafter : ∀ b, p.after.rows id 2 b → 15000 ∣ b.T ∧ b.T ≤ clock ∧
    b.T / hourMs ≠ r.t / hourMs :=
    fun b hb => ⟨h.after.aligned id b hb, h.after.past id b hb, habsent.after h.tiers hb⟩
  refine h.set (fun n => (n + 1) * hourMs ≤ r.t) hr (p.store.historyFor_insert hid _) ?_
    (Finset.erase_subset ..) (Finset.notMem_erase id p.store.evicted) hsound
    (hfits (h.mark id ?_) hafter)
    (fun snap _ => hfits ?_ hdisk) (fun n hn _ _ => ⟨hn, hlow _, fun ring hring' b hb => ?_⟩) ?_
  · exact (AList.lookup_insert_ne (Ne.symm hid)).trans h.noGlobal
  · exact ⟨Nat.dvd_zero _, Nat.zero_le _⟩
  · exact ⟨Nat.dvd_zero _, Nat.zero_le _⟩
  · exact absurd ((hring ring hring').2.1 b hb) List.not_mem_nil
  · rintro n ⟨b, hb, rfl⟩
    obtain ⟨-, hpast, hhour⟩ := hdisk b hb
    have hle : b.T ≤ r.t := hpast.trans hr
    simp only [hourMs] at hhour ⊢
    omega

theorem sampleAgent {p : Persistence} {id : String} {r : Reading} (h : StatsInv p clock)
    (hr : clock ≤ r.t) (hwhole : p.Whole (.sampleAgent id r victim)) :
    StatsInv { p with store := p.store.SampleAgent id r victim } r.t ∧
      p.Keeps clock { p with store := p.store.SampleAgent id r victim } r.t
        (p.settles (.sampleAgent id r victim)) := by
  unfold Store.SampleAgent
  by_cases hid : id = ""
  · simp only [if_pos hid]
    obtain ⟨hinv, hkeeps⟩ := h.later hr
    exact ⟨hinv, fun id' n bytes _ => hkeeps id' n bytes trivial⟩
  · obtain ⟨hlap, hnew⟩ := hwhole hid
    simp only [if_neg hid]
    cases hlookup : p.store.agents.lookup id with
    | some hist =>
      have hh : p.store.historyFor id = some hist := (if_neg hid).trans hlookup
      have hfor (id' : String) := p.store.historyFor_setHistory id id' (hist.sample r).2
      rw [Store.setHistory, if_neg hid] at hfor
      obtain ⟨hinv, hkeeps⟩ := h.grow hr hlap hh hfor
        ((AList.lookup_insert_ne (Ne.symm hid)).trans h.noGlobal) rfl
      exact ⟨hinv, fun id' n bytes _ => hkeeps id' n bytes trivial⟩
    | none =>
      have hnone : p.store.historyFor id = none := (if_neg hid).trans hlookup
      simp only [Store.evictAgentIfFull]
      by_cases hfull : (p.store.isFull && decide (victim ≠ "")) = true
      · rw [if_pos hfull]
        rw [Bool.and_eq_true, decide_eq_true_eq] at hfull
        obtain ⟨hevict, hkeeps⟩ := h.evict victim hfull.2
        obtain ⟨hcreate, hkeeps'⟩ := hevict.create hid hr (hnew hlookup)
        exact ⟨hcreate, hkeeps.trans fun id' n bytes hn => hkeeps' id' n bytes fun hid' =>
          hn hid' hnone⟩
      · rw [if_neg hfull]
        obtain ⟨hcreate, hkeeps⟩ := h.create hid hr (hnew hlookup)
        exact ⟨hcreate, fun id' n bytes hn => hkeeps id' n bytes fun hid' => hn hid' hnone⟩

theorem opened_history {d : Disk} {id : String} {hist : History} (hd : d.Sound clock)
    (hh : (Store.load d).historyFor id = some hist) :
    hist.Sound clock ∧ (∀ x, hist.Low x) ∧ ∀ r : Ring, hist.tiers[2]? = some r →
      (r.cur = none → d.buckets id 2 = []) ∧ (∀ b ∈ r.image, d.rows id 2 b) ∧
        r.Fits (d.rows id 2) 0 := by
  have hmem {b : Bucket} : b ∈ d.buckets id 2 ↔ d.rows id 2 b := Disk.mem_buckets
  obtain ⟨-, -, -, hsome⟩ := load_restored hd.lifetime
  obtain ⟨hsound, hlow, hring⟩ := (hsome id hist hh).2.sound clock
    (fun ti hti => List.eq_nil_iff_forall_not_mem.2 fun b hb =>
      (hd.tier id ti b (Disk.mem_buckets.1 hb)).not_gt hti)
    (fun b hb => hd.aligned id b (hmem.1 hb))
    (fun b hb b' hb' => hd.unique (hmem.1 hb) (hmem.1 hb'))
    (fun b hb => hd.late id b (hmem.1 hb)) (fun b hb => hd.past id b (hmem.1 hb))
    fun b hb => hd.counts id b (hmem.1 hb)
  refine ⟨hsound, hlow, fun r hr => ?_⟩
  obtain ⟨hnil, himage, hfits⟩ := hring r hr
  have hrows : (· ∈ d.buckets id 2) = d.rows id 2 := funext fun b => propext hmem
  exact ⟨hnil, fun b hb => hmem.1 (himage b hb), hrows ▸ hfits⟩

theorem opened {d : Disk} (hd : d.Sound clock) : StatsInv ⟨Store.load d, d, none⟩ clock := by
  obtain ⟨hnoGlobal, hevicted, -, hsome⟩ := load_restored hd.lifetime
  refine ⟨hnoGlobal, fun id _ _ => hevicted ▸ Finset.notMem_empty id,
    fun id hist hh => (opened_history hd hh).1, hd, hd,
    ⟨fun _ h => absurd h List.not_mem_nil, fun _ h => absurd h List.not_mem_nil⟩,
    fun _ h => absurd h List.not_mem_nil, fun id hist hh => ?_, fun _ hsnap => (nomatch hsnap),
    fun id n _ => flight_self ..⟩
  obtain ⟨-, hlow, hring⟩ := opened_history hd hh
  have hmark : hist.lastCurT = fun _ => 0 := (hsome id hist hh).2.1
  change hist.Fits (d.rows id 2) (hist.lastCurT 2) clock
  rw [hmark]
  refine ⟨⟨Nat.dvd_zero _, Nat.zero_le _⟩, fun r hr _ => (hring r hr).2.2, fun r hr hcur => ?_⟩
  refine ⟨hlow 0, fun b hb => absurd (Disk.mem_buckets.2 hb) ?_⟩
  exact (hring r hr).1 hcur ▸ List.not_mem_nil

theorem restart {p : Persistence} (h : StatsInv p clock) :
    StatsInv ⟨Store.load p.disk, p.disk, none⟩ clock ∧
      p.Keeps clock ⟨Store.load p.disk, p.disk, none⟩ clock fun _ _ => True := by
  have hbeyond {x : Nat} {id : String} (hb : p.store.Beyond p.disk id x clock) :
      (Store.load p.disk).Beyond p.disk id x clock := by
    obtain ⟨hx, hrows, -⟩ | ⟨hgone, hrows⟩ := hb
    · refine .inl ⟨hx, hrows, fun hist hh => ?_⟩
      obtain ⟨-, hlow, hring⟩ := opened_history h.disk hh
      exact ⟨hx, hlow x, fun r hr b hb => hrows b ((hring r hr).2.1 b hb)⟩
    · refine .inr ⟨?_, hrows⟩
      cases hh : (Store.load p.disk).historyFor id with
      | none => rfl
      | some hist =>
        obtain ⟨-, -, -, hsome⟩ := load_restored h.disk.lifetime
        obtain rfl | ⟨ti, b, hb⟩ := (hsome id hist hh).1
        · exact nomatch hgone
        · exact absurd hb (hrows ti b)
  exact ⟨opened h.disk, fun id n bytes _ => ⟨fun hc => ⟨hc.1.imp hbeyond, hc.1.imp hbeyond⟩,
    fun hs => ⟨hs.1.imp hbeyond, hs.1.imp hbeyond⟩⟩⟩

end StatsInv

end ProxyForward.Stats

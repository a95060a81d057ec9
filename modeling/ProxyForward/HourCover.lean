import ProxyForward.StoredHours

namespace ProxyForward.Stats
set_option autoImplicit true

namespace Store

/-- A series has no rows from before `x`, nor does memory have or get such buckets; or the series is
gone. -/
def Beyond (s : Store) (d : Disk) (id : String) (x clock : Nat) : Prop :=
  (x ≤ clock ∧ (∀ b, d.rows id 2 b → x ≤ b.T) ∧ ∀ h, s.historyFor id = some h → h.Beyond x clock) ∨
    (s.historyFor id = none ∧ ∀ ti b, ¬d.rows id ti b)

/-- An hour's rows have these bytes, unless the hour has lapped or the series is past it. -/
def Covers (s : Store) (d : Disk) (clock : Nat) (id : String) (n : Nat)
    (bytes : Int × Int) : Prop :=
  bytes ≤ d.bytes id n ∨ (∃ b, d.rows id 2 b ∧ n * hourMs + lapMs ≤ b.T) ∨
    s.Beyond d id ((n + 1) * hourMs) clock

/-- An hour's rows have no more than these bytes and are complete, unless the series is past it. -/
def Sealed (s : Store) (d : Disk) (clock : Nat) (id : String) (n : Nat)
    (bytes : Int × Int) : Prop :=
  (d.bytes id n ≤ bytes ∧ ∃ b, d.rows id 2 b ∧ (n + 1) * hourMs ≤ b.T) ∨
    s.Beyond d id ((n + 1) * hourMs) clock

theorem Covers.imp {s s' : Store} {id : String} (h : s.Beyond d id ((n + 1) * hourMs) clock →
    s'.Beyond d id ((n + 1) * hourMs) clock') (hc : s.Covers d clock id n bytes) :
    s'.Covers d clock' id n bytes :=
  Or.imp_right (Or.imp_right h) hc

theorem Sealed.imp {s s' : Store} {id : String} (h : s.Beyond d id ((n + 1) * hourMs) clock →
    s'.Beyond d id ((n + 1) * hourMs) clock') (hs : s.Sealed d clock id n bytes) :
    s'.Sealed d clock' id n bytes :=
  Or.imp_right h hs

theorem Beyond.imp {s s' : Store} {id : String} (hc : clock ≤ clock')
    (h : ∀ h', s'.historyFor id = some h' → ∃ h, s.historyFor id = some h ∧
      (h.Beyond x clock → h'.Beyond x clock'))
    (hb : s.Beyond d id x clock) : s'.Beyond d id x clock' := by
  obtain ⟨hx, hrows, hhist⟩ | ⟨hnone, hrows⟩ := hb
  · refine .inl ⟨hx.trans hc, hrows, fun h' hh' => ?_⟩
    obtain ⟨hist, hh, himp⟩ := h h' hh'
    exact himp (hhist hist hh)
  · refine .inr ⟨?_, hrows⟩
    cases hh' : s'.historyFor id with
    | none => rfl
    | some h' =>
      obtain ⟨hist, hh, -⟩ := h h' hh'
      exact nomatch hnone.symm.trans hh

end Store

/-- A store and a database that it can be saved onto, as far as the 15 s tier goes. -/
structure Consistent (s : Store) (d : Disk) (clock : Nat) : Prop where
  noGlobal : s.agents.lookup "" = none
  kept : ∀ id h, s.historyFor id = some h → id ∉ s.evicted
  sound : ∀ id h, s.historyFor id = some h → h.Sound clock
  disk : d.Sound clock
  fits : ∀ id h, s.historyFor id = some h → h.Fits (d.rows id 2) (h.lastCurT 2) clock

namespace Consistent

theorem tiersOK (h : Consistent s d clock) : TiersOK s.snapshot.tiers := by
  refine Store.snapshot_tiersOK h.noGlobal fun id hist hh ti r hr => ?_
  obtain ⟨spec, hspec, hres, -⟩ := (h.sound id hist hh).tier hr
  exact hres ▸ (tierSpecs_ok hspec).res

theorem save_cases {s : Store} {d : Disk} (hcons : Consistent s d clock) (id : String) :
    (s.historyFor id = none ∧
      ∀ ti b, (d.SaveStats s.snapshot).rows id ti b ↔ d.rows id ti b ∧ id ∉ s.evicted) ∨
    ∃ h r, s.historyFor id = some h ∧ h.tiers[2]? = some r ∧
      ((r.cur = none ∧ markOf id h.lastCurT s.snapshot.tiers 2 = h.lastCurT 2 ∧
          (d.SaveStats s.snapshot).rows id 2 = d.rows id 2) ∨
        ∃ c ts, r.cur = some c ∧ r.snapshot id 2 (h.lastCurT 2) = some ts ∧
          markOf id h.lastCurT s.snapshot.tiers 2 = c * r.resMs ∧
          (d.SaveStats s.snapshot).rows id 2 = ts.savedRows (d.rows id 2)) := by
  cases hh : s.historyFor id with
  | none =>
    refine .inl ⟨rfl, fun ti b => Disk.rows_SaveStats_of_ne ?_ b⟩
    rintro ts hts ⟨rfl, -⟩
    obtain ⟨id', h', ti', r', hh', -, -, hsnap⟩ := (Store.mem_snapshot hcons.noGlobal).1 hts
    obtain ⟨-, -, rfl⟩ := Ring.snapshot_eq_some hsnap
    exact nomatch hh.symm.trans hh'
  | some h =>
    have hlt : 2 < h.tiers.length := by
      have hlength := congrArg List.length (hcons.sound id h hh).shape
      rw [List.length_map, List.length_map] at hlength
      exact hlength ▸ (by decide)
    refine .inr ⟨h, h.tiers[2], rfl, List.getElem?_eq_getElem hlt, ?_⟩
    generalize hr : h.tiers[2] = r
    have hr : h.tiers[2]? = some r := (List.getElem?_eq_getElem hlt).trans (congrArg some hr)
    have hnotDeleted : (fun b => d.rows id 2 b ∧ id ∉ s.snapshot.deleteAgents) = d.rows id 2 := by
      funext b
      exact propext (and_iff_left (hcons.kept id h hh))
    cases hcur : r.cur with
    | none =>
      have hne : ∀ ts ∈ s.snapshot.tiers, ¬(id = ts.agentID ∧ 2 = ts.tier) := by
        rintro ts hts ⟨rfl, htier⟩
        obtain ⟨id', h', ti', r', hh', -, hr', hsnap⟩ := (Store.mem_snapshot hcons.noGlobal).1 hts
        obtain ⟨c, hc, rfl⟩ := Ring.snapshot_eq_some hsnap
        obtain rfl : 2 = ti' := htier
        obtain rfl := Option.some.inj (hh.symm.trans hh')
        obtain rfl := Option.some.inj (hr.symm.trans hr')
        exact nomatch hcur.symm.trans hc
      refine .inl ⟨rfl, markOf_of_ne hne _, ?_⟩
      exact (funext fun b => propext (Disk.rows_SaveStats_of_ne hne b)).trans hnotDeleted
    | some c =>
      have hsnap := Ring.snapshot_of_cur hcur id 2 (h.lastCurT 2)
      have hts := (Store.mem_snapshot hcons.noGlobal).2 ⟨id, h, 2, r, hh, ⟨_, rfl, rfl⟩, hr, hsnap⟩
      have hok := (hcons.sound id h hh).ok 2 (by decide) r hr
      refine .inr ⟨c, _, rfl, hsnap, ?_, ?_⟩
      · exact (markOf_of_mem hcons.tiersOK hts (hok.getLast?_image hcur) _).trans
          (hok.filling c hcur)
      · refine (funext fun b => propext (Disk.rows_SaveStats hcons.tiersOK hts b)).trans ?_
        exact congrArg (TierSnapshot.savedRows _) hnotDeleted

theorem saved_of_rows {s : Store} {d : Disk} {id : String} (hcons : Consistent s d clock)
    (hb : (d.SaveStats s.snapshot).rows id 2 b) : d.rows id 2 b ∨
      ∃ h r, s.historyFor id = some h ∧ h.tiers[2]? = some r ∧ b ∈ r.image := by
  obtain ⟨-, hrows⟩ | ⟨h, r, hh, hr, ⟨-, -, hrows⟩ | ⟨c, ts, -, hts, -, hrows⟩⟩ :=
    hcons.save_cases id
  · exact .inl ((hrows 2 b).1 hb).1
  · exact .inl (hrows ▸ hb)
  · obtain hb | hb := Ring.savedRows_cases hts (hrows ▸ hb)
    · exact .inr ⟨h, r, hh, hr, hb⟩
    · exact .inl hb

theorem save_sound {s : Store} {d : Disk} (hcons : Consistent s d clock) :
    (d.SaveStats s.snapshot).Sound clock := by
  have hbucket {id : String} {b : Bucket} (hb : (d.SaveStats s.snapshot).rows id 2 b) :
      15000 ∣ b.T ∧ lapMs ≤ b.T ∧ b.T ≤ clock ∧ 0 ≤ b.In ∧ 0 ≤ b.Out := by
    obtain hb | ⟨h, r, hh, hr, hb⟩ := hcons.saved_of_rows hb
    · exact ⟨hcons.disk.aligned id b hb, hcons.disk.late id b hb, hcons.disk.past id b hb,
        hcons.disk.counts id b hb⟩
    · obtain ⟨hdvd, hclock, hcounts⟩ := (hcons.sound id h hh).bucket hr hb
      obtain ⟨i, hi, -⟩ := Ring.mem_image.1 hb
      obtain ⟨c, hc, -⟩ := Ring.valid_iff.1 hi
      exact ⟨hdvd, ((hcons.fits id h hh).ring r hr (hc ▸ nofun)).late b hb, hclock, hcounts⟩
  refine ⟨fun hnone => (nomatch hnone), Disk.keys_SaveStats hcons.disk.keys _, fun id ti b hb => ?_,
    fun id b hb => (hbucket hb).1, fun id b hb => (hbucket hb).2.1,
    fun id b hb => (hbucket hb).2.2.1,
    fun id b hb => (hbucket hb).2.2.2⟩
  by_cases hts : ∃ ts ∈ s.snapshot.tiers, id = ts.agentID ∧ ti = ts.tier
  · obtain ⟨ts, hts, rfl, rfl⟩ := hts
    obtain ⟨id, h, ti, r, -, ⟨spec, hspec, hpersist⟩, -, hsnap⟩ :=
      (Store.mem_snapshot hcons.noGlobal).1 hts
    obtain ⟨-, -, rfl⟩ := Ring.snapshot_eq_some hsnap
    have hspecs : ∀ ti < 2, ∀ spec ∈ tierSpecs[ti]?, TierSpec.persist spec = false := by decide
    refine Nat.le_of_not_lt fun hti => ?_
    exact nomatch hpersist.symm.trans (hspecs ti hti spec hspec)
  · rw [Disk.rows_SaveStats_of_ne fun ts hmem hkey => hts ⟨ts, hmem, hkey⟩] at hb
    exact hcons.disk.tier id ti b hb.1

/-- A save leaves no row of a forgotten series, or the rows that there are, or adds a ring to
them. -/
theorem save_series {s : Store} {d : Disk} (hcons : Consistent s d clock) (id : String) :
    (s.historyFor id = none ∧ ∀ ti b, ¬(d.SaveStats s.snapshot).rows id ti b) ∨
    (d.SaveStats s.snapshot).rows id 2 = d.rows id 2 ∨
    ∃ (r : Ring) (w c : Nat) (ts : TierSnapshot), r.OK ∧ r.resMs = 15000 ∧ r.slots = 7200 ∧
      r.Fits (d.rows id 2) w ∧ r.cur = some c ∧ r.snapshot id 2 w = some ts ∧
      (d.SaveStats s.snapshot).rows id 2 = ts.savedRows (d.rows id 2) := by
  obtain ⟨hnone, hrows⟩ | ⟨h, r, hh, hr, ⟨-, -, hrows⟩ | ⟨c, ts, hc, hts, -, hrows⟩⟩ :=
    hcons.save_cases id
  · by_cases hid : id ∈ s.evicted
    · exact .inl ⟨hnone, fun ti b hb => ((hrows ti b).1 hb).2 hid⟩
    · exact .inr (.inl (funext fun b => propext ((hrows 2 b).trans (and_iff_left hid))))
  · exact .inr (.inl hrows)
  · have hs := hcons.sound id h hh
    obtain ⟨hres, hslots⟩ := hs.tier2 hr
    exact .inr (.inr ⟨r, _, c, ts, hs.ok 2 (by decide) r hr, hres, hslots,
      (hcons.fits id h hh).ring r hr (hc ▸ nofun), hc, hts, hrows⟩)

theorem save_beyond {s : Store} {d : Disk} {id : String} (hcons : Consistent s d clock)
    (h : s.Beyond d id x clock) : s.Beyond (d.SaveStats s.snapshot) id x clock := by
  obtain ⟨hx, hrows, hhist⟩ | ⟨hnone, hrows⟩ := h
  · refine .inl ⟨hx, fun b hb => ?_, hhist⟩
    obtain hb | ⟨h, r, hh, hr, hb⟩ := hcons.saved_of_rows hb
    · exact hrows b hb
    · exact (hhist h hh).image r hr b hb
  · refine .inr ⟨hnone, fun ti b hb => ?_⟩
    obtain ⟨-, hsaved⟩ | ⟨h, -, hh, -⟩ := hcons.save_cases id
    · exact hrows ti b ((hsaved ti b).1 hb).1
    · exact nomatch hnone.symm.trans hh

theorem save_later {s : Store} {d : Disk} {id : String} (hcons : Consistent s d clock)
    (hb : d.rows id 2 b) :
    (∃ b', (d.SaveStats s.snapshot).rows id 2 b' ∧ b.T ≤ b'.T) ∨
      (s.historyFor id = none ∧ ∀ ti b, ¬(d.SaveStats s.snapshot).rows id ti b) := by
  obtain hgone | hsame | ⟨r, w, c, ts, hok, -, -, hfits, hc, hts, hrows⟩ := hcons.save_series id
  · exact .inr hgone
  · exact .inl ⟨b, hsame ▸ hb, le_rfl⟩
  · refine .inl ⟨_, hrows ▸ hfits.savedRows_of_mem hok hts (hok.cur_mem_image hc), ?_⟩
    exact hok.filling c hc ▸ (hfits.bound c hc).2 b hb

theorem save_covers {s : Store} {d : Disk} {id : String} (hcons : Consistent s d clock)
    (h : s.Covers d clock id n bytes) : s.Covers (d.SaveStats s.snapshot) clock id n bytes := by
  obtain hle | ⟨b, hb, hlap⟩ | hbeyond := h
  · obtain hgone | hsame | ⟨r, w, c, ts, hok, hres, hslots, hfits, hc, hts, hrows⟩ :=
      hcons.save_series id
    · exact .inr (.inr (.inr hgone))
    · refine .inl (hle.trans (hcons.disk.bytes_le hcons.save_sound fun b hb _ => ?_))
      exact ⟨b, hsame ▸ hb, rfl, le_rfl, le_rfl⟩
    · have hsaved {b : Bucket} (hb : b ∈ r.image) := hfits.savedRows_of_mem hok hts hb
      obtain ⟨c', hc', rfl⟩ := Ring.snapshot_eq_some hts
      obtain rfl := Option.some.inj (hc.symm.trans hc')
      by_cases hexpired : ∃ b, d.rows id 2 b ∧ b.T / hourMs = n ∧ b.T < r.floorT
      · -- the newest bucket is a lap after what it expires
        obtain ⟨b, hb, hn, hT⟩ := hexpired
        refine .inr (.inl ⟨r.buf (r.pos c), hrows ▸ hsaved (hok.cur_mem_image hc), ?_⟩)
        have hdvd := hcons.disk.aligned id b hb
        simp only [Ring.floorT, hc, hres, hslots] at hT
        rw [hok.filling c hc, hres]
        simp only [hourMs, lapMs] at hn ⊢
        omega
      · refine .inl (hle.trans (hcons.disk.bytes_le hcons.save_sound fun b hb hn => ?_))
        by_cases hnew : ∃ b' ∈ r.image, w ≤ b'.T ∧ b'.T = b.T
        · obtain ⟨b', hb', -, hT⟩ := hnew
          exact ⟨b', hrows ▸ hsaved hb', hT, hfits.mono b hb b' hb' hT⟩
        · refine ⟨b, hrows ▸ .inr ⟨hb, ?_, fun b' hb' hw hT => hnew ⟨b', hb', hw, hT⟩⟩, rfl,
            le_rfl, le_rfl⟩
          exact Nat.le_of_not_lt fun hT => hexpired ⟨b, hb, hn, hT⟩
  · obtain ⟨b', hb', hT⟩ | hgone := hcons.save_later hb
    · exact .inr (.inl ⟨b', hb', hlap.trans hT⟩)
    · exact .inr (.inr (.inr hgone))
  · exact .inr (.inr (hcons.save_beyond hbeyond))

theorem save_sealed {s : Store} {d : Disk} {id : String} (hcons : Consistent s d clock)
    (h : s.Sealed d clock id n bytes) : s.Sealed (d.SaveStats s.snapshot) clock id n bytes := by
  obtain ⟨hle, b, hb, hlater⟩ | hbeyond := h
  · obtain ⟨b', hb', hT⟩ | hgone := hcons.save_later hb
    · refine .inl ⟨(hcons.save_sound.bytes_le hcons.disk fun b₀ hb₀ hn => ?_).trans hle, b', hb',
        hlater.trans hT⟩
      have hbefore : b₀.T < b.T := by
        simp only [hourMs] at hn hlater
        omega
      obtain hb₀ | ⟨h, r, hh, hr, hb₀⟩ := hcons.saved_of_rows hb₀
      · exact ⟨b₀, hb₀, rfl, le_rfl, le_rfl⟩
      · obtain ⟨i, hi, -⟩ := Ring.mem_image.1 hb₀
        obtain ⟨c, hc, -⟩ := Ring.valid_iff.1 hi
        have hfits := (hcons.fits id h hh).ring r hr (hc ▸ nofun)
        exact ⟨b₀, hfits.settled b₀ hb₀ b hb hbefore, rfl, le_rfl, le_rfl⟩
    · exact .inr (.inr hgone)
  · exact .inr (hcons.save_beyond hbeyond)

end Consistent

/-- What the stats store and the database keep consistent for the 15 s tier, and what the save under
way makes of the hours that are stored. -/
structure StatsInv (p : Persistence) (clock : Nat) : Prop where
  noGlobal : p.store.agents.lookup "" = none
  kept : ∀ id h, p.store.historyFor id = some h → id ∉ p.store.evicted
  sound : ∀ id h, p.store.historyFor id = some h → h.Sound clock
  disk : p.disk.Sound clock
  after : p.after.Sound clock
  tiers : TiersOK p.writing
  writing : ∀ ts ∈ p.writing, ts.tier = 2 → ∀ b ∈ ts.buckets, 15000 ∣ b.T ∧ b.T ≤ clock
  fits : ∀ id h, p.store.historyFor id = some h →
    h.Fits (p.after.rows id 2) (markOf id h.lastCurT p.writing 2) clock
  failing : ∀ snap, p.saving = some ⟨snap, false⟩ → ∀ id h, p.store.historyFor id = some h →
    h.Fits (p.disk.rows id 2) (h.lastCurT 2) clock
  flight : ∀ id n, (∃ b, p.disk.rows id 2 b ∧ b.T / hourMs = n) →
    p.store.Covers p.after clock id n (p.disk.bytes id n) ∧
    ((∃ b, p.disk.rows id 2 b ∧ (n + 1) * hourMs ≤ b.T) →
      p.store.Sealed p.after clock id n (p.disk.bytes id n))

namespace Persistence

/-- Now and once the save under way lands. -/
def Covers (p : Persistence) (clock : Nat) (id : String) (n : Nat) (bytes : Int × Int) : Prop :=
  p.store.Covers p.disk clock id n bytes ∧ p.store.Covers p.after clock id n bytes

def Sealed (p : Persistence) (clock : Nat) (id : String) (n : Nat) (bytes : Int × Int) : Prop :=
  p.store.Sealed p.disk clock id n bytes ∧ p.store.Sealed p.after clock id n bytes

/-- What was known of the hours of the series is known after a step. -/
def Keeps (p : Persistence) (clock : Nat) (p' : Persistence) (clock' : Nat)
    (ok : String → Nat → Prop) : Prop :=
  ∀ id n bytes, ok id n → (p.Covers clock id n bytes → p'.Covers clock' id n bytes) ∧
    (p.Sealed clock id n bytes → p'.Sealed clock' id n bytes)

end Persistence

theorem flight_self (s : Store) (d : Disk) (clock : Nat) (id : String) (n : Nat) :
    s.Covers d clock id n (d.bytes id n) ∧
      ((∃ b, d.rows id 2 b ∧ (n + 1) * hourMs ≤ b.T) → s.Sealed d clock id n (d.bytes id n)) :=
  ⟨.inl le_rfl, fun hb => .inl ⟨le_rfl, hb⟩⟩

namespace StatsInv

theorem withStore {p : Persistence} (h : StatsInv p clock) (hc : clock ≤ clock') {store : Store}
    {ok : String → Nat → Prop} (hnoGlobal : store.agents.lookup "" = none)
    (hkept : ∀ id h, store.historyFor id = some h → id ∉ store.evicted)
    (hsound : ∀ id h, store.historyFor id = some h → h.Sound clock')
    (hfits : ∀ id h', store.historyFor id = some h' →
      h'.Fits (p.after.rows id 2) (markOf id h'.lastCurT p.writing 2) clock' ∧
      ∀ snap, p.saving = some ⟨snap, false⟩ → h'.Fits (p.disk.rows id 2) (h'.lastCurT 2) clock')
    (hbeyond : ∀ id n, ok id n → ∀ d, p.store.Beyond d id ((n + 1) * hourMs) clock →
      store.Beyond d id ((n + 1) * hourMs) clock')
    (hok : ∀ id n, (∃ b, p.disk.rows id 2 b ∧ b.T / hourMs = n) → ok id n) :
    StatsInv { p with store } clock' ∧ p.Keeps clock { p with store } clock' ok := by
  constructor
  · refine ⟨hnoGlobal, hkept, hsound, h.disk.later hc, h.after.later hc, h.tiers,
      fun ts hts h2 b hb => ?_,
      fun id h' hh' => (hfits id h' hh').1, fun snap hsnap id h' hh' =>
        (hfits id h' hh').2 snap hsnap,
      fun id n hn => ?_⟩
    · obtain ⟨hdvd, hle⟩ := h.writing ts hts h2 b hb
      exact ⟨hdvd, hle.trans hc⟩
    · obtain ⟨hcovers, hsealed⟩ := h.flight id n hn
      have hb := hbeyond id n (hok id n hn)
      exact ⟨hcovers.imp (hb _), fun hlater => (hsealed hlater).imp (hb _)⟩
  · intro id n bytes hn
    have hb := hbeyond id n hn
    exact ⟨fun ⟨hd, ha⟩ => ⟨hd.imp (hb _), ha.imp (hb _)⟩, fun ⟨hd, ha⟩ =>
      ⟨hd.imp (hb _), ha.imp (hb _)⟩⟩

theorem mark {p : Persistence} (h : StatsInv p clock) (id : String) {w : Nat → Nat}
    (hw : 15000 ∣ w 2 ∧ w 2 ≤ clock) :
    15000 ∣ markOf id w p.writing 2 ∧ markOf id w p.writing 2 ≤ clock := by
  by_cases hts : ∃ ts ∈ p.writing, id = ts.agentID ∧ 2 = ts.tier ∧ ts.buckets ≠ []
  · obtain ⟨ts, hts, rfl, htier, hne⟩ := hts
    have hmark := markOf_of_mem h.tiers hts (List.getLast?_eq_some_getLast hne) w
    rw [← htier] at hmark
    rw [hmark]
    exact h.writing ts hts htier.symm _ (List.getLast_mem hne)
  · rw [markOf_of_nil fun ts hmem hid htier => by_contra fun hne => hts ⟨ts, hmem, hid, htier, hne⟩]
    exact hw

end StatsInv

end ProxyForward.Stats

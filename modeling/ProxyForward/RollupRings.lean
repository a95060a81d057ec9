import ProxyForward.HistoryImage
import ProxyForward.Rollup

namespace ProxyForward.Stats
set_option autoImplicit true

namespace Ring

theorem OK.mem_image_of_write {r : Ring} (h : r.OK) (hlap : r.cur = none → r.slots ≤ i)
    (hnewest : ∀ c, r.cur = some c → c ≤ i) (hd : d.T = i * r.resMs)
    (hb : b ∈ (r.write i d).image) :
    b = d ∨ b ∈ r.image := by
  by_cases hT : b.T = i * r.resMs
  · left
    exact (h.write hnewest hd).image_unique hb (mem_image_write_self h.slots hd) (hT.trans hd.symm)
  · cases hcur : r.cur with
    | some c => exact .inr ((h.mem_image_write hcur (hnewest c hcur) hT).1 hb).1
    | none =>
      exfalso
      obtain ⟨j, hj, rfl⟩ := mem_image.1 hb
      obtain ⟨c, hc, hle, hlt, hjT⟩ := valid_iff.1 hj
      obtain rfl := Option.some.inj hc
      have hji : j ≠ i := by
        rintro rfl
        exact hT hjT
      have hpos : (r.write i d).pos j ≠ r.pos i := pos_ne (Nat.lt_of_le_of_ne hle hji) hlt
      rw [write_of_ne hpos, h.unused hcur] at hjT
      have hj0 : j = 0 := (Nat.mul_eq_zero.1 hjT.symm).resolve_right h.res.ne'
      have hslots : i < j + r.slots := hlt
      have hle' := hlap hcur
      omega

/-- A ring is consistent with its rows, those before the watermark having been saved: rows only lag
behind buckets of their times, and no bucket is missing from rows that go past it. -/
structure Fits (r : Ring) (rows : Bucket → Prop) (w : Nat) : Prop where
  late : ∀ b ∈ r.image, lapMs ≤ b.T
  bound : ∀ c, r.cur = some c → w ≤ c * r.resMs ∧ ∀ b, rows b → b.T ≤ c * r.resMs
  mono : ∀ b, rows b → ∀ b' ∈ r.image, b'.T = b.T → b.In ≤ b'.In ∧ b.Out ≤ b'.Out
  settled : ∀ b' ∈ r.image, ∀ b, rows b → b'.T < b.T → rows b'
  clean : ∀ b' ∈ r.image, b'.T < w → rows b'

theorem Fits.first {r : Ring} (hok : r.OK) (hcur : r.cur = none) (hw : r.Wrote b i d)
    (hslots : r.slots ≤ i) (hlate : lapMs ≤ i * r.resMs) (hmark : w ≤ i * r.resMs)
    (hrows : ∀ b, rows b → b.T < i * r.resMs) : (r.write i d).Fits rows w := by
  have himage {b' : Bucket} (hb' : b' ∈ (r.write i d).image) : b' = d := by
    obtain rfl | hold := hok.mem_image_of_write (fun _ => hslots) hw.newest hw.time hb'
    · rfl
    · obtain ⟨j, hj, -⟩ := mem_image.1 hold
      obtain ⟨c, hc, -⟩ := valid_iff.1 hj
      exact nomatch hcur.symm.trans hc
  constructor
  · intro b' hb'
    rw [himage hb', hw.time]
    exact hlate
  · intro c hc
    obtain rfl := Option.some.inj hc
    exact ⟨hmark, fun b hb => (hrows b hb).le⟩
  · intro b hb b' hb' hT
    rw [himage hb', hw.time] at hT
    exact absurd hT.symm (hrows b hb).ne
  · intro b' hb' b hb hT
    rw [himage hb', hw.time] at hT
    exact absurd hT (hrows b hb).le.not_gt
  · intro b' hb' hT
    rw [himage hb', hw.time] at hT
    exact absurd hT hmark.not_gt

theorem Fits.next {r : Ring} (hok : r.OK) (h : r.Fits rows w) (hcur : r.cur = some c)
    (hw : r.Wrote b i d) (hin : 0 ≤ b.In) (hout : 0 ≤ b.Out) : (r.write i d).Fits rows w := by
  obtain ⟨hmark, hrows⟩ := h.bound c hcur
  have hle : c * r.resMs ≤ i * r.resMs := Nat.mul_le_mul_right _ (hw.newest c hcur)
  have himage {b' : Bucket} (hb' : b' ∈ (r.write i d).image) : b' = d ∨ b' ∈ r.image :=
    hok.mem_image_of_write (fun hnone => nomatch hnone.symm.trans hcur) hw.newest hw.time hb'
  constructor
  · intro b' hb'
    obtain rfl | hb' := himage hb'
    · have hlate := h.late _ (hok.cur_mem_image hcur)
      rw [hok.filling c hcur] at hlate
      exact hw.time ▸ hlate.trans hle
    · exact h.late b' hb'
  · intro c' hc'
    obtain rfl := Option.some.inj hc'
    exact ⟨hmark.trans hle, fun b hb => (hrows b hb).trans hle⟩
  · intro b₀ hb₀ b' hb' hT
    obtain rfl | hb' := himage hb'
    · -- a row of the time of the newest bucket is one of the bucket that was being filled
      have hi : i = c := by
        have hrow := hrows b₀ hb₀
        rw [← hT, hw.time] at hrow
        exact Nat.le_antisymm (Nat.le_of_mul_le_mul_right hrow hok.res) (hw.newest c hcur)
      subst hi
      obtain ⟨hin', hout'⟩ := h.mono b₀ hb₀ _ (hok.cur_mem_image hcur)
        ((hok.filling i hcur).trans (hw.time.symm.trans hT))
      rw [hw.bytesIn, hw.bytesOut, if_pos hcur, if_pos hcur]
      omega
    · exact h.mono b₀ hb₀ b' hb' hT
  · intro b' hb' b₀ hb₀ hT
    obtain rfl | hb' := himage hb'
    · rw [hw.time] at hT
      exact absurd ((hrows b₀ hb₀).trans hle) (Nat.not_le_of_lt hT)
    · exact h.settled b' hb' b₀ hb₀ hT
  · intro b' hb' hT
    obtain rfl | hb' := himage hb'
    · rw [hw.time] at hT
      exact absurd (hmark.trans hle) (Nat.not_le_of_lt hT)
    · exact h.clean b' hb' hT

theorem savedRows_cases {r : Ring} {ts : TierSnapshot} (hts : r.snapshot agentID tier w = some ts)
    (h : ts.savedRows rows b) : b ∈ r.image ∨ rows b := by
  obtain ⟨c, -, rfl⟩ := snapshot_eq_some hts
  exact h.imp And.left And.left

theorem Fits.savedRows_of_mem {r : Ring} (hok : r.OK) (h : r.Fits rows w)
    (hts : r.snapshot agentID tier w = some ts) (hb : b ∈ r.image) : ts.savedRows rows b := by
  obtain ⟨c, -, rfl⟩ := snapshot_eq_some hts
  by_cases hw : w ≤ b.T
  · exact .inl ⟨hb, hw⟩
  · refine .inr ⟨h.clean b hb (Nat.lt_of_not_le hw), floorT_le hb, fun b' hb' hw' hT => hw ?_⟩
    exact hok.image_unique hb' hb hT ▸ hw'

theorem Fits.saved {r : Ring} (hok : r.OK) (h : r.Fits rows w) (hcur : r.cur = some c)
    (hts : r.snapshot agentID tier w = some ts) : r.Fits (ts.savedRows rows) (c * r.resMs) where
  late := h.late
  bound c' hc' := by
    obtain rfl := Option.some.inj (hcur.symm.trans hc')
    refine ⟨Nat.le_refl _, fun b hb => ?_⟩
    obtain hb | hb := savedRows_cases hts hb
    · obtain ⟨i, hi, rfl⟩ := mem_image.1 hb
      obtain ⟨c', hc', hle, -, hT⟩ := valid_iff.1 hi
      obtain rfl := Option.some.inj (hcur.symm.trans hc')
      exact hT ▸ Nat.mul_le_mul_right _ hle
    · exact (h.bound c hcur).2 b hb
  mono b hb b' hb' hT := by
    obtain hb | hb := savedRows_cases hts hb
    · rw [hok.image_unique hb' hb hT]
      exact ⟨Int.le_refl _, Int.le_refl _⟩
    · exact h.mono b hb b' hb' hT
  settled b' hb' _ _ _ := h.savedRows_of_mem hok hts hb'
  clean b' hb' _ := h.savedRows_of_mem hok hts hb'

theorem restored_fits {bs : List Bucket} (haligned : ∀ b ∈ bs, 15000 ∣ b.T)
    (hunique : ∀ b ∈ bs, ∀ b' ∈ bs, b.T = b'.T → b = b') (hlate : ∀ b ∈ bs, lapMs ≤ b.T) :
    (restoreTier (newRing 15000 7200) bs).OK ∧
    ((restoreTier (newRing 15000 7200) bs).cur = none → bs = []) ∧
      (∀ b ∈ (restoreTier (newRing 15000 7200) bs).image, b ∈ bs) ∧
      (restoreTier (newRing 15000 7200) bs).Fits (· ∈ bs) 0 := by
  have hpositive : ∀ b ∈ bs, 0 < b.T := fun b hb => Nat.lt_of_lt_of_le (by decide) (hlate b hb)
  have hnew : (newRing 15000 7200).OK := newRing_ok (by decide) (by decide)
  obtain ⟨hok, hsynced⟩ := restoreTier_ok hnew haligned hunique fun b hb => ⟨b, hb, hpositive b hb⟩
  obtain ⟨hres, hslots⟩ := restoreTier_shape (newRing 15000 7200) bs
  have himage : ∀ b ∈ (restoreTier (newRing 15000 7200) bs).image, b ∈ bs := by
    intro b hb
    obtain ⟨i, hi, rfl⟩ := mem_image.1 hb
    obtain ⟨c, hc, -, hlt, hT⟩ := valid_iff.1 hi
    refine (restoreTier_cell (newRing 15000 7200) bs _).resolve_left fun hblank => ?_
    -- a blank cell is the bucket of the epoch, which is more than a lap before what came back
    obtain ⟨b', hb', rfl⟩ := restoreTier_cur rfl hc
    have hlate' := hlate b' hb'
    rw [hblank, hres] at hT
    rw [hslots] at hlt
    simp only [newRing, lapMs] at hT hlt hlate'
    omega
  have hnil (hcur : (restoreTier (newRing 15000 7200) bs).cur = none) : bs = [] :=
    List.eq_nil_iff_forall_not_mem.2 (hsynced.unused hcur).2
  refine ⟨hok, hnil, himage, fun b hb => hlate b (himage b hb), fun c hc =>
    ⟨Nat.zero_le _, fun b hb => ?_⟩,
    fun b hb b' hb' hT => ?_, fun b' hb' _ _ _ => himage b' hb', fun b' hb' _ => himage b' hb'⟩
  · by_cases hfloor : (restoreTier (newRing 15000 7200) bs).floorT ≤ b.T
    · have hb : b ∈ (restoreTier (newRing 15000 7200) bs).image := by
        obtain hb | ⟨b', hb', -, hT⟩ := hsynced.known b hb hfloor
        · exact hb
        · exact hunique b' (himage b' hb') b hb hT ▸ hb'
      obtain ⟨i, hi, rfl⟩ := mem_image.1 hb
      obtain ⟨c', hc', hle, -, hT⟩ := valid_iff.1 hi
      obtain rfl := Option.some.inj (hc.symm.trans hc')
      exact hT ▸ Nat.mul_le_mul_right _ hle
    · refine (Nat.le_of_not_le hfloor).trans ?_
      have hidx : c + 1 - (restoreTier (newRing 15000 7200) bs).slots ≤ c := by
        rw [hslots]
        simp only [newRing]
        omega
      simp only [floorT, hc]
      exact Nat.mul_le_mul_right _ hidx
  · rw [hunique b' (himage b' hb') b hb hT]
    exact ⟨le_rfl, le_rfl⟩

end Ring

namespace History

/-- No finer tier than the 15 s one is filling a bucket from before `x`. -/
def Low (h : History) (x : Nat) : Prop :=
  ∀ ti < 2, ∀ r : Ring, h.tiers[ti]? = some r → ∀ c, r.cur = some c → x ≤ c * r.resMs

/-- The tiers up to the 15 s one are in order, hold no negative counts, and no later buckets than
`clock`. -/
structure Sound (h : History) (clock : Nat) : Prop where
  shape : h.tiers.map (fun r => (r.resMs, r.slots)) = tierSpecs.map fun ts => (ts.resMs, ts.slots)
  ok : ∀ ti < 3, ∀ r : Ring, h.tiers[ti]? = some r → r.OK
  counts : ∀ ti < 3, ∀ r : Ring, h.tiers[ti]? = some r → ∀ p, 0 ≤ (r.buf p).In ∧ 0 ≤ (r.buf p).Out
  past : ∀ ti < 3, ∀ r : Ring, h.tiers[ti]? = some r → ∀ c, r.cur = some c → c * r.resMs ≤ clock
  low : h.Low lapMs

theorem Sound.tier {h : History} {ti : Nat} (hs : h.Sound clock) {r : Ring}
    (hr : h.tiers[ti]? = some r) :
    ∃ spec : TierSpec, tierSpecs[ti]? = some spec ∧ r.resMs = spec.resMs ∧
      r.slots = spec.slots := by
  have hshape := congrArg (·[ti]?) hs.shape
  simp only [List.getElem?_map, hr, Option.map_some] at hshape
  obtain ⟨spec, hspec, heq⟩ := Option.map_eq_some_iff.1 hshape.symm
  obtain ⟨hres, hslots⟩ := Prod.mk.inj heq
  exact ⟨spec, hspec, hres.symm, hslots.symm⟩

theorem Sound.tier2 {h : History} (hs : h.Sound clock) {r : Ring} (hr : h.tiers[2]? = some r) :
    r.resMs = 15000 ∧ r.slots = 7200 := by
  obtain ⟨spec, hspec, hres, hslots⟩ := hs.tier hr
  obtain rfl := Option.some.inj hspec
  exact ⟨hres, hslots⟩

theorem Sound.dvd {h : History} (hs : h.Sound clock) (hti : ti < 3) {r : Ring}
    (hr : h.tiers[ti]? = some r) : r.resMs ∣ 15000 := by
  obtain ⟨spec, hspec, hres, -⟩ := hs.tier hr
  have hspecs : ∀ ti < 3, ∀ spec ∈ tierSpecs[ti]?, TierSpec.resMs spec ∣ 15000 := by decide
  exact hres ▸ hspecs ti hti spec hspec

theorem Sound.later {h : History} (hs : h.Sound clock) (hc : clock ≤ clock') : h.Sound clock' where
  shape := hs.shape
  ok := hs.ok
  counts := hs.counts
  past ti hti r hr c hcur := (hs.past ti hti r hr c hcur).trans hc
  low := hs.low

theorem Sound.bucket {h : History} (hs : h.Sound clock) {r : Ring} (hr : h.tiers[2]? = some r)
    (hb : b ∈ r.image) : 15000 ∣ b.T ∧ b.T ≤ clock ∧ 0 ≤ b.In ∧ 0 ≤ b.Out := by
  refine ⟨(hs.tier2 hr).1 ▸ Ring.image_aligned hb, ?_⟩
  obtain ⟨i, hi, rfl⟩ := Ring.mem_image.1 hb
  obtain ⟨c, hc, hle, -, hT⟩ := Ring.valid_iff.1 hi
  have hpast := hs.past 2 (by decide) r hr c hc
  exact ⟨hT ▸ (Nat.mul_le_mul_right _ hle).trans hpast, hs.counts 2 (by decide) r hr _⟩

theorem Sound.point {h : History} (hs : h.Sound clock) {r : Reading} (hr : clock ≤ r.t)
    (hti : ti < 3)
    {r' : Ring} (h' : (h.sample r).2.tiers[ti]? = some r') :
    ∃ r₀, h.tiers[ti]? = some r₀ ∧ (r' = r₀ ∨ ∃ b i d, r₀.Wrote b i d ∧ r' = r₀.write i d ∧
      0 ≤ b.In ∧ 0 ≤ b.Out ∧ b.T ≤ r.t ∧ ∀ x, h.Low x → x ≤ r.t → x ≤ b.T) := by
  unfold History.sample at h'
  simp only at h'
  split at h'
  · exact ⟨r', h', .inl rfl⟩
  · split at h'
    · exact ⟨r', h', .inl rfl⟩
    · obtain ⟨r₀, hr₀, rfl | ⟨b, hfrom, rfl⟩⟩ := getElem?_add h'
      · exact ⟨r', hr₀, .inl rfl⟩
      · refine ⟨r₀, hr₀, ((hs.ok ti hti r₀ hr₀).put_cases b).imp_right fun ⟨i, d, hw⟩ =>
          ⟨b, i, d, hw, hw.put, ?_⟩⟩
        obtain rfl | ⟨tj, htj, r₁, c, hr₁, hc, rfl⟩ := hfrom
        · have hdelta (cur prev : Int) : 0 ≤ monotonicDelta cur prev := by
            unfold monotonicDelta
            split <;> omega
          exact ⟨hdelta .., hdelta .., Nat.le_refl _, fun x _ hx => hx⟩
        · have htj3 : tj < 3 := htj.trans hti
          obtain ⟨hin, hout⟩ := hs.counts tj htj3 r₁ hr₁ (r₁.pos c)
          have hT := (hs.ok tj htj3 r₁ hr₁).filling c hc
          refine ⟨hin, hout, ?_, fun x hlow _ => ?_⟩
          · exact hT ▸ (hs.past tj htj3 r₁ hr₁ c hc).trans hr
          · exact hT ▸ hlow tj (by omega) r₁ hr₁ c hc

theorem sample_shape (h : History) (r : Reading) :
    (h.sample r).2.tiers.map (fun r => (r.resMs, r.slots)) =
      h.tiers.map fun r => (r.resMs, r.slots) := by
  have hadd (rs : List Ring) (b : Bucket) :
      (add rs b).map (fun r => (r.resMs, r.slots)) = rs.map fun r => (r.resMs, r.slots) := by
    induction rs generalizing b with
    | nil => rfl
    | cons r rs ih =>
      rw [add_cons, List.map_cons, List.map_cons, (r.put_resMs b).1, (r.put_resMs b).2]
      cases r.completed b with
      | none => rfl
      | some done => exact congrArg _ (ih done)
  unfold History.sample
  simp only
  split
  · rfl
  · split
    · rfl
    · exact hadd ..

theorem sample_lastCurT (h : History) (r : Reading) : (h.sample r).2.lastCurT = h.lastCurT := by
  unfold History.sample
  simp only
  split
  · rfl
  · split <;> rfl

theorem Sound.low_sample {h : History} (hs : h.Sound clock) {r : Reading} (hr : clock ≤ r.t)
    (hx : 15000 ∣ x) (hlow : h.Low x) (hxt : x ≤ r.t) : (h.sample r).2.Low x := by
  intro ti hti r' h' c hc
  obtain ⟨r₀, hr₀, rfl | ⟨b, i, d, hw, rfl, -, -, -, hT⟩⟩ := hs.point hr (hti.trans (by decide)) h'
  · exact hlow ti hti r' hr₀ c hc
  · obtain rfl := Option.some.inj hc
    obtain hi | hi := hw.index
    · obtain ⟨k, rfl⟩ := (hs.dvd (hti.trans (by decide)) hr₀).trans hx
      have hres := (hs.ok ti (hti.trans (by decide)) r₀ hr₀).res
      change r₀.resMs * k ≤ i * r₀.resMs
      rw [Nat.mul_comm, hi]
      exact Nat.mul_le_mul_right _
        ((Nat.le_div_iff_mul_le hres).2 (Nat.mul_comm .. ▸ hT _ hlow hxt))
    · exact hlow ti hti r₀ hr₀ i hi

theorem Sound.sample {h : History} (hs : h.Sound clock) {r : Reading} (hr : clock ≤ r.t)
    (hlap : lapMs ≤ r.t) : (h.sample r).2.Sound r.t where
  shape := (h.sample_shape r).trans hs.shape
  ok ti hti r' h' := by
    obtain ⟨r₀, hr₀, rfl | ⟨b, i, d, hw, rfl, -⟩⟩ := hs.point hr hti h'
    · exact hs.ok ti hti r' hr₀
    · exact (hs.ok ti hti r₀ hr₀).write hw.newest hw.time
  counts ti hti r' h' p := by
    obtain ⟨r₀, hr₀, rfl | ⟨b, i, d, hw, rfl, hin, hout, -⟩⟩ := hs.point hr hti h'
    · exact hs.counts ti hti r' hr₀ p
    · by_cases hp : p = r₀.pos i
      · subst hp
        obtain ⟨hin', hout'⟩ := hs.counts ti hti r₀ hr₀ (r₀.pos i)
        rw [Ring.write_self, hw.bytesIn, hw.bytesOut]
        split <;> omega
      · rw [Ring.write_of_ne hp]
        exact hs.counts ti hti r₀ hr₀ p
  past ti hti r' h' c hc := by
    obtain ⟨r₀, hr₀, rfl | ⟨b, i, d, hw, rfl, -, -, hT, -⟩⟩ := hs.point hr hti h'
    · exact (hs.past ti hti r' hr₀ c hc).trans hr
    · obtain rfl := Option.some.inj hc
      obtain hi | hi := hw.index
      · change i * r₀.resMs ≤ r.t
        rw [hi]
        exact (Nat.div_mul_le_self ..).trans hT
      · exact (hs.past ti hti r₀ hr₀ i hi).trans hr
  low := hs.low_sample hr (by decide) hs.low hlap

/-- The 15 s tier is consistent with its rows, and a tier with nothing in it yet starts past
them. -/
structure Fits (h : History) (rows : Bucket → Prop) (w clock : Nat) : Prop where
  mark : 15000 ∣ w ∧ w ≤ clock
  ring : ∀ r : Ring, h.tiers[2]? = some r → r.cur ≠ none → r.Fits rows w
  fresh : ∀ r : Ring, h.tiers[2]? = some r → r.cur = none →
    h.Low w ∧ ∀ b, rows b → h.Low (b.T + 15000) ∧ b.T + 15000 ≤ clock

theorem Fits.later {h : History} (hfits : h.Fits rows w clock) (hc : clock ≤ clock') :
    h.Fits rows w clock' where
  mark := ⟨hfits.mark.1, hfits.mark.2.trans hc⟩
  ring := hfits.ring
  fresh r hr hcur := by
    obtain ⟨hlow, hrows⟩ := hfits.fresh r hr hcur
    exact ⟨hlow, fun b hb => ⟨(hrows b hb).1, (hrows b hb).2.trans hc⟩⟩

theorem Sound.index_le {h : History} (hs : h.Sound clock) {r₀ : Ring} (hr₀ : h.tiers[2]? = some r₀)
    (hx : 15000 ∣ x) (hT : x ≤ t) : x ≤ t / r₀.resMs * r₀.resMs := by
  obtain ⟨hres, -⟩ := hs.tier2 hr₀
  obtain ⟨k, rfl⟩ := hx
  rw [hres]
  omega

theorem Fits.sample {h : History} (hs : h.Sound clock) (hfits : h.Fits rows w clock) {r : Reading}
    (hr : clock ≤ r.t) (hlap : lapMs ≤ r.t) (haligned : ∀ b, rows b → 15000 ∣ b.T) :
    (h.sample r).2.Fits rows w r.t := by
  obtain ⟨hdvd, hmark⟩ := hfits.mark
  refine ⟨⟨hdvd, hmark.trans hr⟩, fun r' h' hsome => ?_, fun r' h' hnone => ?_⟩
  · obtain ⟨r₀, hr₀, rfl | ⟨b, i, d, hw, rfl, hin, hout, -, hT⟩⟩ := hs.point hr (by decide) h'
    · exact hfits.ring r' hr₀ hsome
    · have hok := hs.ok 2 (by decide) r₀ hr₀
      cases hcur : r₀.cur with
      | some c => exact (hfits.ring r₀ hr₀ (hcur ▸ nofun)).next hok hcur hw hin hout
      | none =>
        obtain ⟨hlow, hrows⟩ := hfits.fresh r₀ hr₀ hcur
        have hi : i = b.T / r₀.resMs := hw.index.resolve_right (hcur ▸ nofun)
        have hpast {x : Nat} (hx : 15000 ∣ x) (hlow : h.Low x) (hxt : x ≤ r.t) : x ≤ i * r₀.resMs :=
          hi ▸ hs.index_le hr₀ hx (hT x hlow hxt)
        have hlate := hpast (by decide) hs.low hlap
        refine .first hok hcur hw ?_ hlate (hpast hdvd hlow (hmark.trans hr)) fun b₀ hb₀ => ?_
        · obtain ⟨hres, hslots⟩ := hs.tier2 hr₀
          rw [hres, lapMs] at hlate
          omega
        · obtain ⟨hlow₀, hclock₀⟩ := hrows b₀ hb₀
          exact Nat.lt_of_lt_of_le (Nat.lt_add_of_pos_right (by decide))
            (hpast (Nat.dvd_add (haligned b₀ hb₀) (by decide)) hlow₀ (hclock₀.trans hr))
  · obtain ⟨r₀, hr₀, rfl | ⟨b, i, d, hw, rfl, -⟩⟩ := hs.point hr (by decide) h'
    · obtain ⟨hlow, hrows⟩ := hfits.fresh r' hr₀ hnone
      refine ⟨hs.low_sample hr hdvd hlow (hmark.trans hr), fun b hb => ?_⟩
      obtain ⟨hlow₀, hclock₀⟩ := hrows b hb
      exact ⟨hs.low_sample hr (Nat.dvd_add (haligned b hb) (by decide)) hlow₀ (hclock₀.trans hr),
        hclock₀.trans hr⟩
    · exact nomatch hnone

/-- The 15 s tier has no bucket from before `x`, and will have none. -/
structure Beyond (h : History) (x clock : Nat) : Prop where
  now : x ≤ clock
  low : h.Low x
  image : ∀ r : Ring, h.tiers[2]? = some r → ∀ b ∈ r.image, x ≤ b.T

theorem Beyond.later {h : History} (hb : h.Beyond x clock) (hc : clock ≤ clock') :
    h.Beyond x clock' where
  now := hb.now.trans hc
  low := hb.low
  image := hb.image

theorem Beyond.sample {h : History} (hs : h.Sound clock) (hx : 15000 ∣ x) (hb : h.Beyond x clock)
    {r : Reading} (hr : clock ≤ r.t) (hlap : lapMs ≤ r.t) : (h.sample r).2.Beyond x r.t where
  now := hb.now.trans hr
  low := hs.low_sample hr hx hb.low (hb.now.trans hr)
  image r' h' b₁ hb₁ := by
    obtain ⟨r₀, hr₀, rfl | ⟨b, i, d, hw, rfl, -, -, -, hT⟩⟩ := hs.point hr (by decide) h'
    · exact hb.image r' hr₀ b₁ hb₁
    · have hok := hs.ok 2 (by decide) r₀ hr₀
      have hi (hcur : r₀.cur = none) : i = b.T / r₀.resMs := hw.index.resolve_right (hcur ▸ nofun)
      have hlap' (hcur : r₀.cur = none) : r₀.slots ≤ i := by
        have hlate : lapMs ≤ i * r₀.resMs := hi hcur ▸ hs.index_le hr₀ (by decide)
          (hT _ hs.low hlap)
        obtain ⟨hres, hslots⟩ := hs.tier2 hr₀
        rw [hres, lapMs] at hlate
        omega
      obtain rfl | hb₁ := hok.mem_image_of_write hlap' hw.newest hw.time hb₁
      · rw [hw.time]
        cases hcur : r₀.cur with
        | none => exact hi hcur ▸ hs.index_le hr₀ hx (hT x hb.low (hb.now.trans hr))
        | some c =>
          refine (hok.filling c hcur ▸ hb.image r₀ hr₀ _ (hok.cur_mem_image hcur)).trans ?_
          exact Nat.mul_le_mul_right _ (hw.newest c hcur)
      · exact hb.image r₀ hr₀ b₁ hb₁

theorem restored.sound {h : History} {buckets : Nat → List Bucket} (hr : h.restored buckets)
    (clock : Nat)
    (hlow : ∀ ti < 2, buckets ti = []) (haligned : ∀ b ∈ buckets 2, 15000 ∣ b.T)
    (hunique : ∀ b ∈ buckets 2, ∀ b' ∈ buckets 2, b.T = b'.T → b = b')
    (hlate : ∀ b ∈ buckets 2, lapMs ≤ b.T) (hpast : ∀ b ∈ buckets 2, b.T ≤ clock)
    (hcounts : ∀ b ∈ buckets 2, 0 ≤ b.In ∧ 0 ≤ b.Out) :
    h.Sound clock ∧ (∀ x, h.Low x) ∧
      ∀ r : Ring, h.tiers[2]? = some r → (r.cur = none → buckets 2 = []) ∧
        (∀ b ∈ r.image, b ∈ buckets 2) ∧
        r.Fits (· ∈ buckets 2) 0 := by
  obtain ⟨hok, hnil, himage, hfits⟩ := Ring.restored_fits haligned hunique hlate
  have hfine : ∀ ti < 2, ∀ r : Ring, h.tiers[ti]? = some r →
    ∃ spec : TierSpec, tierSpecs[ti]? = some spec ∧
      r = newRing spec.resMs spec.slots := by
    intro ti hti r hr'
    rw [hr.2 ti, hlow ti hti] at hr'
    obtain ⟨spec, hspec, rfl⟩ := Option.map_eq_some_iff.1 hr'
    exact ⟨spec, hspec, rfl⟩
  have hring : ∀ r : Ring, h.tiers[2]? = some r → r = restoreTier (newRing 15000 7200)
    (buckets 2) := by
    intro r hr'
    rw [hr.2 2] at hr'
    exact (Option.some.inj hr').symm
  have hlow' (x : Nat) : h.Low x := by
    intro ti hti r hr' c hc
    obtain ⟨spec, -, rfl⟩ := hfine ti hti r hr'
    exact nomatch hc
  have hcases : ∀ ti < 3, ti < 2 ∨ ti = 2 := by decide
  refine ⟨⟨?_, fun ti hti r hr' => ?_, fun ti hti r hr' p => ?_, fun ti hti r hr' c hc => ?_,
    hlow' _⟩, hlow', fun r hr' => hring r hr' ▸ ⟨hnil, himage, hfits⟩⟩
  · refine List.ext_getElem? fun ti => ?_
    rw [List.getElem?_map, List.getElem?_map, hr.2 ti]
    cases tierSpecs[ti]? with
    | none => rfl
    | some spec =>
      obtain ⟨hres, hslots⟩ := restoreTier_shape (newRing spec.resMs spec.slots) (buckets ti)
      simp only [Option.map_some, hres, hslots]
      rfl
  · obtain hti | rfl := hcases ti hti
    · obtain ⟨spec, hspec, rfl⟩ := hfine ti hti r hr'
      exact tierSpecs_ok hspec
    · exact hring r hr' ▸ hok
  · obtain hti | rfl := hcases ti hti
    · obtain ⟨spec, -, rfl⟩ := hfine ti hti r hr'
      exact ⟨le_rfl, le_rfl⟩
    · obtain rfl := hring r hr'
      obtain hblank | hmem := restoreTier_cell (newRing 15000 7200) (buckets 2) p
      · rw [hblank]
        exact ⟨le_rfl, le_rfl⟩
      · exact hcounts _ hmem
  · obtain hti | rfl := hcases ti hti
    · obtain ⟨spec, -, rfl⟩ := hfine ti hti r hr'
      exact nomatch hc
    · obtain rfl := hring r hr'
      obtain ⟨b, hb, rfl⟩ := restoreTier_cur rfl hc
      rw [(restoreTier_shape _ _).1]
      exact (Nat.div_mul_le_self ..).trans (hpast b hb)

end History

end ProxyForward.Stats

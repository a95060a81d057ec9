import ProxyForward.RrdRows

namespace ProxyForward.Stats
set_option autoImplicit true

def persisted (tier : Nat) : Prop := ∃ spec, tierSpecs[tier]? = some spec ∧ spec.persist = true

instance (tier : Nat) : Decidable (persisted tier) :=
  decidable_of_iff ((tierSpecs[tier]?).any TierSpec.persist = true) (Option.any_eq_true ..)

theorem tierSpecs_ok {tier : Nat} (h : tierSpecs[tier]? = some spec) :
    (newRing spec.resMs spec.slots).OK := by
  have hspecs : ∀ spec ∈ tierSpecs, 0 < spec.resMs ∧ 0 < spec.slots := by decide
  obtain ⟨hres, hslots⟩ := hspecs spec (List.mem_of_getElem? h)
  exact Ring.newRing_ok hres hslots

/-- A tier's point is the ladder's, or what a finer tier was filling. -/
def ComesFrom (rs : List Ring) (b : Bucket) (ti : Nat) (b' : Bucket) : Prop :=
  b' = b ∨ ∃ tj < ti, ∃ r c, rs[tj]? = some r ∧ r.cur = some c ∧ b' = r.buf (r.pos c)

theorem getElem?_add {rs : List Ring} {ti : Nat} {r' : Ring} (h : (add rs b)[ti]? = some r') :
    ∃ r, rs[ti]? = some r ∧ (r' = r ∨ ∃ b', ComesFrom rs b ti b' ∧ r' = r.put b') := by
  induction rs generalizing b ti with
  | nil => exact nomatch h
  | cons r rs ih =>
    rw [add_cons] at h
    cases ti with
    | zero => exact ⟨r, rfl, .inr ⟨b, .inl rfl, (Option.some.inj h).symm⟩⟩
    | succ ti =>
      rw [List.getElem?_cons_succ] at h
      rw [List.getElem?_cons_succ]
      cases hdone : r.completed b with
      | none =>
        rw [hdone] at h
        exact ⟨r', h, .inl rfl⟩
      | some done =>
        rw [hdone] at h
        obtain ⟨r₀, hr₀, hput⟩ := ih h
        refine ⟨r₀, hr₀, hput.imp_right fun ⟨b', hfrom, hb'⟩ => ⟨b', .inr ?_, hb'⟩⟩
        obtain rfl | ⟨tj, htj, r₁, c, hr₁, hc, rfl⟩ := hfrom
        · cases hcur : r.cur with
          | none => simp only [Ring.completed, hcur, reduceCtorEq] at hdone
          | some c =>
            simp only [Ring.completed, hcur, Option.ite_none_right_eq_some,
              Option.some.injEq] at hdone
            exact ⟨0, Nat.succ_pos ti, r, c, rfl, hcur, hdone.2.symm⟩
        · exact ⟨tj + 1, Nat.succ_lt_succ htj, r₁, c, hr₁, hc, rfl⟩

theorem length_add (rs : List Ring) (b : Bucket) : (add rs b).length = rs.length := by
  induction rs generalizing b with
  | nil => rfl
  | cons r rs ih =>
    rw [add_cons, List.length_cons, List.length_cons]
    cases r.completed b with
    | none => rfl
    | some done => exact congrArg (· + 1) (ih done)

namespace History

/-- The tiers are those of the ladder, and each is in order. -/
structure OK (h : History) : Prop where
  length : h.tiers.length = tierSpecs.length
  tier : ∀ (ti : Nat) (r : Ring), h.tiers[ti]? = some r →
    r.OK ∧ ∃ spec, tierSpecs[ti]? = some spec ∧ TierSpec.resMs spec = r.resMs

/-- Every persisted tier is ready to be saved onto its rows. -/
def Synced (h : History) (rows : Nat → Bucket → Prop) (w : Nat → Nat) : Prop :=
  ∀ (ti : Nat) (r : Ring), h.tiers[ti]? = some r → persisted ti → r.Synced (rows ti) (w ti)

/-- The history after some readings. -/
structure Grew (h h' : History) : Prop where
  ok : h'.OK
  lastCurT : h'.lastCurT = h.lastCurT
  synced : ∀ rows w, h.Synced rows w → h'.Synced rows w

theorem OK.sample {h : History} (hok : h.OK) (r : Reading) : h.Grew (h.sample r).2 := by
  unfold History.sample
  simp only
  split
  · exact ⟨⟨hok.length, hok.tier⟩, rfl, fun _ _ hs => hs⟩
  · split
    · exact ⟨⟨hok.length, hok.tier⟩, rfl, fun _ _ hs => hs⟩
    · have htier (ti : Nat) (r' : Ring)
          (h' : (add h.tiers (r.point h.lastT h.lastIn h.lastOut))[ti]? = some r') :
          ∃ r, h.tiers[ti]? = some r ∧ r'.OK ∧ r'.resMs = r.resMs ∧
            ∀ rows w, r.Synced rows w → r'.Synced rows w := by
        obtain ⟨r₀, hr₀, rfl | ⟨b, -, rfl⟩⟩ := getElem?_add h'
        · exact ⟨r', hr₀, (hok.tier ti r' hr₀).1, rfl, fun _ _ hs => hs⟩
        · obtain ⟨hput, hsynced⟩ := (hok.tier ti r₀ hr₀).1.put b
          exact ⟨r₀, hr₀, hput, (r₀.put_resMs b).1, hsynced⟩
      refine ⟨⟨(length_add ..).trans hok.length, fun ti r' h' => ?_⟩, rfl,
        fun rows w hs ti r' h' hp => ?_⟩
      · obtain ⟨r₀, hr₀, hok', hres, -⟩ := htier ti r' h'
        obtain ⟨-, spec, hspec, hspecRes⟩ := hok.tier ti r₀ hr₀
        exact ⟨hok', spec, hspec, hspecRes.trans hres.symm⟩
      · obtain ⟨r₀, hr₀, -, -, hsynced⟩ := htier ti r' h'
        exact hsynced _ _ (hs ti r₀ hr₀ hp)

theorem newHistory_ok : newHistory.OK where
  length := List.length_map ..
  tier ti r hti := by
    have hti : tierSpecs[ti]?.map (fun spec => newRing spec.resMs spec.slots) = some r :=
      (List.getElem?_map ..).symm.trans hti
    obtain ⟨spec, hspec, rfl⟩ := Option.map_eq_some_iff.1 hti
    exact ⟨tierSpecs_ok hspec, spec, hspec, rfl⟩

theorem mem_appendTiers {h : History} : ts ∈ h.appendTiers agentID ↔ ∃ ti r, persisted ti ∧
    h.tiers[ti]? = some r ∧ r.snapshot agentID ti (h.lastCurT ti) = some ts := by
  simp only [appendTiers, List.mem_filterMap, Option.ite_none_right_eq_some,
    Option.bind_eq_some_iff, Prod.exists, List.mk_mem_zipIdx_iff_getElem?]
  constructor
  · rintro ⟨spec, ti, hspec, hpersist, r, hr, hts⟩
    exact ⟨ti, r, ⟨spec, hspec, hpersist⟩, hr, hts⟩
  · rintro ⟨ti, r, ⟨spec, hspec, hpersist⟩, hr, hts⟩
    exact ⟨spec, ti, hspec, hpersist, r, hr, hts⟩

end History

namespace Store

theorem historyFor_setHistory (s : Store) (agentID agentID' : String) (h : History) :
    (s.setHistory agentID h).historyFor agentID' =
      if agentID' = agentID then some h else s.historyFor agentID' := by
  unfold setHistory historyFor
  by_cases hglobal : agentID = ""
  · subst hglobal
    by_cases hid : agentID' = ""
    · simp only [if_pos hid, if_true]
    · simp only [if_neg hid, if_true]
  · simp only [if_neg hglobal]
    by_cases hid : agentID' = agentID
    · subst hid
      simp only [if_neg hglobal, if_true, AList.lookup_insert]
    · simp only [if_neg hid, AList.lookup_insert_ne hid]

/-- What the store holds for a bucket of the persisted tiers. -/
def holds (s : Store) (agentID : String) (tier : Nat) (b : Bucket) : Prop :=
  ∃ h r i, s.historyFor agentID = some h ∧ persisted tier ∧ h.tiers[tier]? = some r ∧
    r.valid i = true ∧ r.buf (r.pos i) = b

theorem holds_iff {s : Store} : s.holds agentID tier b ↔ ∃ h r, s.historyFor agentID = some h ∧
    persisted tier ∧ h.tiers[tier]? = some r ∧ b ∈ r.image := by
  simp only [holds, Ring.mem_image]
  constructor
  · rintro ⟨h, r, i, hh, hp, hr, hi⟩
    exact ⟨h, r, hh, hp, hr, i, hi⟩
  · rintro ⟨h, r, hh, hp, hr, i, hi⟩
    exact ⟨h, r, i, hh, hp, hr, hi⟩

structure OK (s : Store) : Prop where
  noGlobal : s.agents.lookup "" = none
  histories : ∀ id h, s.historyFor id = some h → h.OK
  tracked : ∀ id h, s.historyFor id = some h → id ∉ s.evicted

theorem mem_snapshot {s : Store} (hnoGlobal : s.agents.lookup "" = none) :
    ts ∈ s.snapshot.tiers ↔ ∃ id h ti r,
    s.historyFor id = some h ∧ persisted ti ∧ h.tiers[ti]? = some r ∧
      r.snapshot id ti (h.lastCurT ti) = some ts := by
  simp only [snapshot, List.mem_append, List.mem_flatMap, History.mem_appendTiers]
  constructor
  · rintro (⟨ti, r, hts⟩ | ⟨⟨id, h⟩, hmem, ti, r, hts⟩)
    · exact ⟨"", s.global, ti, r, if_pos rfl, hts⟩
    · have hlookup := AList.mem_lookup_iff.2 hmem
      have hid : id ≠ "" := by
        rintro rfl
        rw [hnoGlobal] at hlookup
        exact nomatch hlookup
      exact ⟨id, h, ti, r, (if_neg hid).trans hlookup, hts⟩
  · rintro ⟨id, h, ti, r, hh, hts⟩
    unfold historyFor at hh
    by_cases hid : id = ""
    · rw [if_pos hid] at hh
      obtain rfl := Option.some.inj hh
      exact .inl ⟨ti, r, hid ▸ hts⟩
    · rw [if_neg hid] at hh
      exact .inr ⟨⟨id, h⟩, AList.mem_lookup_iff.1 hh, ti, r, hts⟩

theorem snapshot_tiersOK {s : Store} (hnoGlobal : s.agents.lookup "" = none)
    (hres : ∀ id h, s.historyFor id = some h → ∀ (ti : Nat) r, h.tiers[ti]? = some r →
    0 < r.resMs) :
    TiersOK s.snapshot.tiers where
  key ts hts ts' hts' hid htier := by
    obtain ⟨id, h, ti, r, hh, -, hr, hsnap⟩ := (mem_snapshot hnoGlobal).1 hts
    obtain ⟨id', h', ti', r', hh', -, hr', hsnap'⟩ := (mem_snapshot hnoGlobal).1 hts'
    obtain ⟨-, -, rfl⟩ := Ring.snapshot_eq_some hsnap
    obtain ⟨-, -, rfl⟩ := Ring.snapshot_eq_some hsnap'
    obtain rfl : id = id' := hid
    obtain rfl : ti = ti' := htier
    obtain rfl := Option.some.inj (hh.symm.trans hh')
    obtain rfl := Option.some.inj (hr.symm.trans hr')
    rfl
  times ts hts b hb b' hb' hT := by
    obtain ⟨id, h, ti, r, hh, -, hr, hsnap⟩ := (mem_snapshot hnoGlobal).1 hts
    obtain ⟨-, -, rfl⟩ := Ring.snapshot_eq_some hsnap
    exact Ring.image_unique (hres id h hh ti r hr) hb hb' hT

theorem OK.snapshot_tiersOK {s : Store} (hok : s.OK) : TiersOK s.snapshot.tiers :=
  Store.snapshot_tiersOK hok.noGlobal fun id h hh ti r hr =>
    ((hok.histories id h hh).tier ti r hr).1.res

end Store

/-- Rows of persisted tiers, at the tiers' times, and at most one for each. -/
structure Disk.OK (d : Disk) : Prop where
  lifetime : d.lifetime = none → d.rrd = []
  persisted : ∀ id ti b, d.rows id ti b → persisted ti
  aligned : ∀ id ti b spec, d.rows id ti b → tierSpecs[ti]? = some spec → spec.resMs ∣ b.T
  unique : ∀ id ti b b', d.rows id ti b → d.rows id ti b' → b.T = b'.T → b = b'

/-- Each tier that has rows has one that is not at the epoch. -/
def Disk.Restorable (d : Disk) : Prop :=
  ∀ row ∈ d.rrd, ∃ row' ∈ d.rrd,
    row'.agentID = row.agentID ∧ row'.tier = row.tier ∧ 0 < row'.bucket.T

instance (d : Disk) : Decidable d.Restorable := inferInstanceAs (Decidable (∀ _ ∈ _, _))

/-- A store whose histories are ready to be saved, and that knows which rows are no history's. -/
structure Ready (s : Store) (d : Disk) : Prop where
  synced : ∀ id h, s.historyFor id = some h → h.Synced (d.rows id) h.lastCurT
  gone : ∀ id, s.historyFor id = none → ∀ ti b, d.rows id ti b → id ∈ s.evicted

theorem Ready.rows_SaveStats {s : Store} {d : Disk} (hok : s.OK) (hd : d.OK) (h : Ready s d)
    (id : String) (ti : Nat) (b : Bucket) :
    (d.SaveStats s.snapshot).rows id ti b ↔ s.holds id ti b := by
  rw [Store.holds_iff]
  by_cases hts : ∃ ts ∈ s.snapshot.tiers, id = ts.agentID ∧ ti = ts.tier
  · obtain ⟨ts, hts, rfl, rfl⟩ := hts
    rw [Disk.rows_SaveStats hok.snapshot_tiersOK hts]
    obtain ⟨id, hist, ti, r, hh, hp, hr, hsnap⟩ := (Store.mem_snapshot hok.noGlobal).1 hts
    have hkey : ts.agentID = id ∧ ts.tier = ti := by
      obtain ⟨-, -, rfl⟩ := Ring.snapshot_eq_some hsnap
      exact ⟨rfl, rfl⟩
    rw [hkey.1, hkey.2]
    have hrows : (fun b => d.rows id ti b ∧ id ∉ s.snapshot.deleteAgents) = d.rows id ti := by
      funext b
      exact propext (and_iff_left (hok.tracked id hist hh))
    rw [hrows, (h.synced id hist hh ti r hr hp).saved
      ((hok.histories id hist hh).tier ti r hr).1 hsnap]
    constructor
    · exact fun hb => ⟨hist, r, hh, hp, hr, hb⟩
    · rintro ⟨hist', r', hh', -, hr', hb⟩
      obtain rfl := Option.some.inj (hh.symm.trans hh')
      obtain rfl := Option.some.inj (hr.symm.trans hr')
      exact hb
  · have hne : ∀ ts ∈ s.snapshot.tiers, ¬(id = ts.agentID ∧ ti = ts.tier) :=
      fun ts hmem hkey => hts ⟨ts, hmem, hkey⟩
    have hempty {hist : History} {r : Ring} (hh : s.historyFor id = some hist) (hp : persisted ti)
        (hr : hist.tiers[ti]? = some r) : r.cur = none := by
      cases hcur : r.cur with
      | none => rfl
      | some c =>
        have hsnap := Ring.snapshot_of_cur hcur id ti (hist.lastCurT ti)
        exact absurd ⟨rfl, rfl⟩
          (hne _ ((Store.mem_snapshot hok.noGlobal).2 ⟨id, hist, ti, r, hh, hp, hr, hsnap⟩))
    rw [Disk.rows_SaveStats_of_ne hne]
    constructor
    · rintro ⟨hb, hdel⟩
      cases hh : s.historyFor id with
      | none => exact absurd (h.gone id hh ti b hb) hdel
      | some hist =>
        have hp := hd.persisted id ti b hb
        have hlt : ti < hist.tiers.length := by
          obtain ⟨spec, hspec, -⟩ := hp
          exact (hok.histories id hist hh).length ▸ (List.getElem?_eq_some_iff.1 hspec).1
        have hr := List.getElem?_eq_getElem hlt
        exact absurd hb (((h.synced id hist hh ti _ hr hp).unused (hempty hh hp hr)).2 b)
    · rintro ⟨hist, r, hh, hp, hr, hb⟩
      obtain ⟨i, hi, -⟩ := Ring.mem_image.1 hb
      obtain ⟨c, hc, -⟩ := Ring.valid_iff.1 hi
      exact nomatch (hempty hh hp hr).symm.trans hc

theorem Disk.mem_buckets {d : Disk} {id : String} {ti : Nat} {b : Bucket} :
    b ∈ d.buckets id ti ↔ d.rows id ti b := by
  simp only [Disk.buckets, List.mem_insertionSort, List.mem_map, List.mem_filter, decide_eq_true_eq,
    Disk.rows]
  constructor
  · rintro ⟨row, ⟨hrow, rfl, rfl⟩, rfl⟩
    exact hrow
  · exact fun hrow => ⟨_, ⟨hrow, rfl, rfl⟩, rfl⟩

theorem restoreTier_nil (r : Ring) : restoreTier r [] = r := rfl

/-- The history whose tiers come back from these buckets. -/
def History.restored (h : History) (buckets : Nat → List Bucket) : Prop :=
  h.lastCurT = (fun _ => 0) ∧ ∀ ti, h.tiers[ti]? =
    tierSpecs[ti]?.map fun spec => restoreTier (newRing spec.resMs spec.slots) (buckets ti)

theorem newHistory_restored : newHistory.restored fun _ => [] := by
  refine ⟨rfl, fun ti => ?_⟩
  exact List.getElem?_map ..

theorem History.restored.modify {h : History} (hr : h.restored buckets) (htier : buckets tier = [])
    (bs : List Bucket) : { h with tiers := h.tiers.modify tier (restoreTier · bs) }.restored
      (Function.update buckets tier bs) := by
  refine ⟨hr.1, fun ti => ?_⟩
  simp only
  rw [List.getElem?_modify, hr.2 ti]
  by_cases hti : tier = ti
  · subst hti
    rw [Function.update_self, htier]
    cases tierSpecs[tier]? with
    | none => rfl
    | some spec => simp only [Option.map_some, restoreTier_nil, if_true, Option.map_eq_map]
  · rw [Function.update_of_ne (Ne.symm hti)]
    simp only [if_neg hti, id_map']

theorem History.restored.ready {d : Disk} {h : History} {id : String} (hd : d.OK)
    (hlate : d.Restorable)
    (hr : h.restored fun ti => d.buckets id ti) : h.OK ∧ h.Synced (d.rows id) h.lastCurT := by
  have hbuckets (ti : Nat) : ∀ b ∈ d.buckets id ti, ∃ b' ∈ d.buckets id ti, 0 < b'.T := by
    intro b hb
    obtain ⟨⟨_, _, b'⟩, hrow, rfl, rfl, hT⟩ := hlate _ (Disk.mem_buckets.1 hb)
    exact ⟨b', Disk.mem_buckets.2 hrow, hT⟩
  have htier : ∀ (ti : Nat) (r : Ring), h.tiers[ti]? = some r → r.OK ∧
      (∃ spec, tierSpecs[ti]? = some spec ∧ spec.resMs = r.resMs) ∧ r.Synced (d.rows id ti) 0 := by
    intro ti r hti
    rw [hr.2 ti] at hti
    obtain ⟨spec, hspec, rfl⟩ := Option.map_eq_some_iff.1 hti
    obtain ⟨hok, hsynced⟩ := restoreTier_ok (tierSpecs_ok hspec)
      (fun b (hb : b ∈ d.buckets id ti) => hd.aligned id ti b spec (Disk.mem_buckets.1 hb) hspec)
      (fun b hb b' hb' => hd.unique id ti b b' (Disk.mem_buckets.1 hb) (Disk.mem_buckets.1 hb'))
      (hbuckets ti)
    refine ⟨hok, ⟨spec, hspec, ?_⟩, ?_⟩
    · unfold restoreTier
      split <;> rfl
    · have hrows : (· ∈ d.buckets id ti) = d.rows id ti := funext fun b => propext Disk.mem_buckets
      exact hrows ▸ hsynced
  refine ⟨⟨?_, fun ti r hti => ⟨(htier ti r hti).1, (htier ti r hti).2.1⟩⟩, fun ti r hti _ => ?_⟩
  · have hlen (ti : Nat) : ti < h.tiers.length ↔ ti < tierSpecs.length := by
      have hsome := congrArg (fun o => o.isSome = true) (hr.2 ti)
      simpa only [Option.isSome_map, isSome_getElem?, eq_iff_iff] using hsome
    exact Nat.le_antisymm (Nat.le_of_not_lt fun hlt => Nat.lt_irrefl _ ((hlen _).1 hlt))
      (Nat.le_of_not_lt fun hlt => Nat.lt_irrefl _ ((hlen _).2 hlt))
  · rw [hr.1]
    exact (htier ti r hti).2.2

theorem foldl_loadTier (life : Lifetime) (buckets : String → Nat → List Bucket)
    (keys : List (String × Nat)) (hkeys : keys.Nodup) :
    let s := (keys.map fun k => ⟨k.1, k.2, 0, 0, buckets k.1 k.2⟩).foldl Store.loadTier
      { Store.new with life }
    s.agents.lookup "" = none ∧ s.evicted = ∅ ∧
      (∀ id, s.historyFor id = none → ∀ ti, (id, ti) ∉ keys) ∧
      ∀ id h, s.historyFor id = some h → (id = "" ∨ ∃ ti, (id, ti) ∈ keys) ∧
        h.restored fun ti => if (id, ti) ∈ keys then buckets id ti else [] := by
  induction keys using List.reverseRecOn with
  | nil =>
    refine ⟨rfl, rfl, fun _ _ _ => List.not_mem_nil, fun id h hh => ?_⟩
    simp only [List.not_mem_nil, if_false]
    unfold Store.historyFor at hh
    by_cases hid : id = ""
    · rw [if_pos hid] at hh
      exact ⟨.inl hid, Option.some.inj hh ▸ newHistory_restored⟩
    · rw [if_neg hid] at hh
      exact nomatch hh
  | append_singleton keys k ih =>
    obtain ⟨agentID, tier⟩ := k
    obtain ⟨hkeys, -, hfresh⟩ := List.nodup_append.1 hkeys
    have hnew : (agentID, tier) ∉ keys := fun hmem => hfresh _ hmem _ (List.mem_singleton.2 rfl) rfl
    obtain ⟨hnoGlobal, hevicted, hnone, hsome⟩ := ih hkeys
    simp only [List.map_append, List.map_singleton, List.foldl_append, List.foldl_cons,
      List.foldl_nil]
    generalize (keys.map fun k => (⟨k.1, k.2, 0, 0, buckets k.1 k.2⟩ : TierSnapshot)).foldl
      Store.loadTier { Store.new with life } = s at hnoGlobal hevicted hnone hsome ⊢
    have hload : (s.historyForLoad agentID).restored fun ti =>
        if (agentID, ti) ∈ keys then buckets agentID ti else [] := by
      unfold Store.historyForLoad
      cases hh : s.historyFor agentID with
      | none =>
        simp only [if_neg (hnone agentID hh _)]
        exact newHistory_restored
      | some h => exact (hsome agentID h hh).2
    have hmod := hload.modify (if_neg hnew) (buckets agentID tier)
    refine ⟨?_, ?_, fun id hid ti hmem => ?_, fun id h hh => ?_⟩
    · unfold Store.loadTier Store.setHistory
      by_cases hid : agentID = ""
      · simp only [if_pos hid]
        exact hnoGlobal
      · simp only [if_neg hid]
        rw [AList.lookup_insert_ne (Ne.symm hid)]
        exact hnoGlobal
    · unfold Store.loadTier Store.setHistory
      by_cases hid : agentID = ""
      · simp only [if_pos hid]
        exact hevicted
      · simp only [if_neg hid]
        exact hevicted
    · rw [Store.loadTier, Store.historyFor_setHistory] at hid
      by_cases hsame : id = agentID
      · rw [if_pos hsame] at hid
        exact nomatch hid
      · rw [if_neg hsame] at hid
        obtain hmem | hmem := List.mem_append.1 hmem
        · exact hnone id hid ti hmem
        · exact hsame (Prod.mk.inj (List.mem_singleton.1 hmem)).1
    · rw [Store.loadTier, Store.historyFor_setHistory] at hh
      by_cases hsame : id = agentID
      · subst hsame
        rw [if_pos rfl] at hh
        obtain rfl := Option.some.inj hh
        refine ⟨.inr ⟨tier, List.mem_append_right _ (List.mem_singleton.2 rfl)⟩, ?_⟩
        have hbuckets :
            Function.update (fun ti => if (id, ti) ∈ keys then buckets id ti else []) tier
              (buckets id tier) =
            fun ti => if (id, ti) ∈ keys ++ [(id, tier)] then buckets id ti else [] := by
          funext ti
          by_cases hti : ti = tier
          · subst hti
            rw [Function.update_self, if_pos (List.mem_append_right _ (List.mem_singleton.2 rfl))]
          · have hmem : (id, ti) ∈ keys ++ [(id, tier)] ↔ (id, ti) ∈ keys := by
              simp only [List.mem_append, List.mem_singleton, Prod.mk.injEq, hti, and_false,
                or_false]
            simp only [Function.update_of_ne hti, hmem]
        exact hbuckets ▸ hmod
      · rw [if_neg hsame] at hh
        have hmem (ti : Nat) : (id, ti) ∈ keys ++ [(agentID, tier)] ↔ (id, ti) ∈ keys := by
          simp only [List.mem_append, List.mem_singleton, Prod.mk.injEq, hsame, false_and, or_false]
        simp only [hmem]
        exact hsome id h hh

theorem load_restored {d : Disk} (hlife : d.lifetime = none → d.rrd = []) :
    (Store.load d).agents.lookup "" = none ∧ (Store.load d).evicted = ∅ ∧
      (∀ id, (Store.load d).historyFor id = none → ∀ ti b, ¬d.rows id ti b) ∧
      ∀ id h, (Store.load d).historyFor id = some h →
        (id = "" ∨ ∃ ti b, d.rows id ti b) ∧ h.restored fun ti => d.buckets id ti := by
  have hkeys : ∀ id ti, (id, ti) ∈ (d.rrd.map fun row => (row.agentID, row.tier)).dedup ↔
      ∃ b, d.rows id ti b := by
    intro id ti
    rw [List.mem_dedup, List.mem_map]
    constructor
    · rintro ⟨⟨id, ti, b⟩, hrow, heq⟩
      obtain ⟨rfl, rfl⟩ := Prod.mk.inj heq
      exact ⟨b, hrow⟩
    · exact fun ⟨b, hb⟩ => ⟨_, hb, rfl⟩
  unfold Store.load Disk.LoadStats
  cases hlifetime : d.lifetime with
  | none =>
    have hnil : ∀ id ti b, ¬d.rows id ti b := by
      intro id ti b hb
      rw [Disk.rows, hlife hlifetime] at hb
      exact absurd hb List.not_mem_nil
    refine ⟨rfl, rfl, fun id _ => hnil id, fun id h hh => ?_⟩
    have hbuckets : (fun ti => d.buckets id ti) = fun _ => [] := by
      funext ti
      exact List.eq_nil_iff_forall_not_mem.2 fun b hb => hnil id ti b (Disk.mem_buckets.1 hb)
    rw [hbuckets]
    change (if id = "" then some newHistory else none) = some h at hh
    obtain ⟨hid, hh⟩ := Option.ite_none_right_eq_some.1 hh
    exact ⟨.inl hid, Option.some.inj hh ▸ newHistory_restored⟩
  | some life =>
    obtain ⟨hnoGlobal, hevicted, hnone, hsome⟩ := foldl_loadTier life d.buckets _
      (List.nodup_dedup (d.rrd.map fun row => (row.agentID, row.tier)))
    refine ⟨hnoGlobal, hevicted, fun id hid ti b hb =>
      hnone id hid ti ((hkeys id ti).2 ⟨b, hb⟩), ?_⟩
    intro id h hh
    have hbuckets : (fun ti =>
      if (id, ti) ∈ (d.rrd.map fun row => (row.agentID, row.tier)).dedup then
        d.buckets id ti else []) = fun ti => d.buckets id ti := by
      funext ti
      by_cases hmem : (id, ti) ∈ (d.rrd.map fun row => (row.agentID, row.tier)).dedup
      · rw [if_pos hmem]
      · rw [if_neg hmem]
        refine (List.eq_nil_iff_forall_not_mem.2 fun b hb => hmem ?_).symm
        exact (hkeys id ti).2 ⟨b, Disk.mem_buckets.1 hb⟩
    refine ⟨(hsome id h hh).1.imp_right fun hmem => ?_, hbuckets ▸ (hsome id h hh).2⟩
    obtain ⟨ti, hti⟩ := hmem
    exact ⟨ti, (hkeys id ti).1 hti⟩

theorem load_ready {d : Disk} (hd : d.OK) (hlate : d.Restorable) :
    (Store.load d).OK ∧ Ready (Store.load d) d ∧
      ∀ id, (Store.load d).historyFor id = none → ∀ ti b, ¬d.rows id ti b := by
  obtain ⟨hnoGlobal, hevicted, hnone, hsome⟩ := load_restored hd.lifetime
  refine ⟨⟨hnoGlobal, fun id h hh => ((hsome id h hh).2.ready hd hlate).1, fun id _ _ => ?_⟩, ⟨?_,
    ?_⟩, hnone⟩
  · exact hevicted ▸ Finset.notMem_empty id
  · exact fun id h hh => ((hsome id h hh).2.ready hd hlate).2
  · exact fun id hid ti b hb => absurd hb (hnone id hid ti b)

end ProxyForward.Stats

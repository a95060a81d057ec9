import ProxyForward.RingImage

namespace ProxyForward.Stats
set_option autoImplicit true

variable {stored : List RrdRow} {row : RrdRow} {ts : TierSnapshot} {tiers : List TierSnapshot}
  {b : Bucket} {agentID : String} {tier : Nat}

/-- The buckets stored for a tier. -/
def Disk.rows (d : Disk) (agentID : String) (tier : Nat) (b : Bucket) : Prop :=
  ⟨agentID, tier, b⟩ ∈ d.rrd

namespace Disk

theorem mem_saveBucket : row ∈ saveBucket agentID tier stored b ↔
    (row ∈ stored ∧ ¬(row.agentID = agentID ∧ row.tier = tier ∧ row.bucket.T = b.T)) ∨
      row = ⟨agentID, tier, b⟩ := by
  simp only [saveBucket, List.mem_append, List.mem_filter, List.mem_singleton, decide_not,
    Bool.not_eq_true', decide_eq_false_iff_not]

/-- Buckets of distinct times are all there once they are written, and replace those of their
times. -/
theorem mem_foldl_saveBucket {bs : List Bucket} (h : ∀ b ∈ bs, ∀ b' ∈ bs, b.T = b'.T → b = b') :
    row ∈ bs.foldl (saveBucket agentID tier) stored ↔
      (∃ b ∈ bs, row = ⟨agentID, tier, b⟩) ∨ (row ∈ stored ∧
        ∀ b ∈ bs, ¬(row.agentID = agentID ∧ row.tier = tier ∧ row.bucket.T = b.T)) := by
  induction bs generalizing stored with
  | nil => simp only [List.foldl_nil, List.not_mem_nil, false_and, exists_false, false_implies,
      implies_true, and_true, false_or]
  | cons a bs ih =>
    rw [List.foldl_cons, ih fun b hb b' hb' => h b (List.mem_cons_of_mem _ hb) b'
      (List.mem_cons_of_mem _ hb'), mem_saveBucket]
    constructor
    · rintro (⟨b, hb, rfl⟩ | ⟨⟨hrow, hne⟩ | rfl, hrest⟩)
      · exact .inl ⟨b, List.mem_cons_of_mem _ hb, rfl⟩
      · exact .inr ⟨hrow, List.forall_mem_cons.2 ⟨hne, hrest⟩⟩
      · exact .inl ⟨a, List.mem_cons_self, rfl⟩
    · rintro (⟨b, hb, rfl⟩ | ⟨hrow, hne⟩)
      · obtain rfl | hb := List.mem_cons.1 hb
        · by_cases hlater : ∃ b' ∈ bs, b.T = b'.T
          · obtain ⟨b', hb', hT⟩ := hlater
            obtain rfl := h b List.mem_cons_self b' (List.mem_cons_of_mem _ hb') hT
            exact .inl ⟨b, hb', rfl⟩
          · exact .inr ⟨.inr rfl, fun b' hb' hsame => hlater ⟨b', hb', hsame.2.2⟩⟩
        · exact .inl ⟨b, hb, rfl⟩
      · obtain ⟨hne, hrest⟩ := List.forall_mem_cons.1 hne
        exact .inr ⟨.inl ⟨hrow, hne⟩, hrest⟩

theorem mem_saveTier {ts : TierSnapshot}
    (h : ∀ b ∈ ts.buckets, ∀ b' ∈ ts.buckets, b.T = b'.T → b = b') :
    ⟨ts.agentID, ts.tier, b⟩ ∈ saveTier stored ts ↔
      ts.savedRows (fun b => ⟨ts.agentID, ts.tier, b⟩ ∈ stored) b := by
  rw [saveTier, mem_foldl_saveBucket fun b hb b' hb' =>
    h b (List.mem_of_mem_filter hb) b' (List.mem_of_mem_filter hb')]
  simp only [List.mem_filter, decide_eq_true_eq, RrdRow.mk.injEq, true_and, Nat.not_lt,
    TierSnapshot.savedRows, and_imp, and_assoc]
  constructor
  · rintro (⟨b', hb', hw, rfl⟩ | ⟨hstored, hfloor, hne⟩)
    · exact .inl ⟨hb', hw⟩
    · exact .inr ⟨hstored, hfloor, fun b' hb' hw => Ne.symm (hne b' hb' hw)⟩
  · rintro (⟨hb, hw⟩ | ⟨hstored, hfloor, hne⟩)
    · exact .inl ⟨b, hb, hw, rfl⟩
    · exact .inr ⟨hstored, hfloor, fun b' hb' hw => Ne.symm (hne b' hb' hw)⟩

theorem mem_saveTier_of_ne {ts : TierSnapshot}
    (h : ¬(row.agentID = ts.agentID ∧ row.tier = ts.tier)) :
    row ∈ saveTier stored ts ↔ row ∈ stored := by
  have hfold (bs : List Bucket) (stored : List RrdRow) :
      row ∈ bs.foldl (saveBucket ts.agentID ts.tier) stored ↔ row ∈ stored := by
    induction bs generalizing stored with
    | nil => exact Iff.rfl
    | cons b bs ih =>
      rw [List.foldl_cons, ih, mem_saveBucket]
      constructor
      · rintro (⟨hrow, -⟩ | rfl)
        · exact hrow
        · exact absurd ⟨rfl, rfl⟩ h
      · exact fun hrow => .inl ⟨hrow, fun hsame => h ⟨hsame.1, hsame.2.1⟩⟩
  rw [saveTier, hfold, List.mem_filter, and_iff_left_iff_imp]
  exact fun _ => decide_eq_true fun hsame => h ⟨hsame.1, hsame.2.1⟩

end Disk

/-- At most one snapshot for each tier, and its buckets have distinct times. -/
structure TiersOK (tiers : List TierSnapshot) : Prop where
  key : ∀ ts ∈ tiers, ∀ ts' ∈ tiers, ts.agentID = ts'.agentID → ts.tier = ts'.tier → ts = ts'
  times : ∀ ts ∈ tiers, ∀ b ∈ ts.buckets, ∀ b' ∈ ts.buckets, b.T = b'.T → b = b'

theorem TiersOK.tail (h : TiersOK (ts :: tiers)) : TiersOK tiers where
  key ts hts ts' hts' := h.key ts (List.mem_cons_of_mem _ hts) ts' (List.mem_cons_of_mem _ hts')
  times ts hts := h.times ts (List.mem_cons_of_mem _ hts)

namespace Disk

theorem mem_foldl_saveTier_of_ne
    (h : ∀ ts ∈ tiers, ¬(row.agentID = ts.agentID ∧ row.tier = ts.tier)) :
    row ∈ tiers.foldl saveTier stored ↔ row ∈ stored := by
  induction tiers generalizing stored with
  | nil => exact Iff.rfl
  | cons ts tiers ih =>
    obtain ⟨hts, hrest⟩ := List.forall_mem_cons.1 h
    rw [List.foldl_cons, ih hrest, mem_saveTier_of_ne hts]

theorem mem_foldl_saveTier (h : TiersOK tiers) (hts : ts ∈ tiers) :
    ⟨ts.agentID, ts.tier, b⟩ ∈ tiers.foldl saveTier stored ↔
      ts.savedRows (fun b => ⟨ts.agentID, ts.tier, b⟩ ∈ stored) b := by
  induction tiers generalizing stored with
  | nil => exact absurd hts List.not_mem_nil
  | cons t tiers ih =>
    rw [List.foldl_cons]
    by_cases hsame : ts.agentID = t.agentID ∧ ts.tier = t.tier
    · obtain rfl := h.key ts hts t List.mem_cons_self hsame.1 hsame.2
      have hfirst (b : Bucket) : ⟨ts.agentID, ts.tier, b⟩ ∈ saveTier stored ts ↔
          ts.savedRows (fun b => ⟨ts.agentID, ts.tier, b⟩ ∈ stored) b := mem_saveTier
            (h.times ts hts)
      by_cases hlater : ts ∈ tiers
      · rw [ih h.tail hlater]
        simp only [hfirst, TierSnapshot.savedRows_idem]
      · rw [mem_foldl_saveTier_of_ne, hfirst]
        rintro ts' hts' ⟨hid, htier⟩
        exact hlater (h.key ts hts ts' (List.mem_cons_of_mem _ hts') hid htier ▸ hts')
    · have hne : ts ≠ t := by
        rintro rfl
        exact hsame ⟨rfl, rfl⟩
      rw [ih h.tail ((List.mem_cons.1 hts).resolve_left hne)]
      simp only [TierSnapshot.savedRows]
      have hother (b : Bucket) : ⟨ts.agentID, ts.tier, b⟩ ∈ saveTier stored t ↔
          ⟨ts.agentID, ts.tier, b⟩ ∈ stored := mem_saveTier_of_ne hsame
      simp only [hother]

theorem rows_SaveStats {d : Disk} {snap : SnapshotData} (h : TiersOK snap.tiers)
    (hts : ts ∈ snap.tiers)
    (b : Bucket) : (d.SaveStats snap).rows ts.agentID ts.tier b ↔
      ts.savedRows (fun b => d.rows ts.agentID ts.tier b ∧ ts.agentID ∉ snap.deleteAgents) b := by
  refine (mem_foldl_saveTier h hts).trans ?_
  simp only [List.mem_filter, decide_eq_true_eq, rows]

theorem rows_SaveStats_of_ne {d : Disk} {snap : SnapshotData}
    (h : ∀ ts ∈ snap.tiers, ¬(agentID = ts.agentID ∧ tier = ts.tier)) (b : Bucket) :
    (d.SaveStats snap).rows agentID tier b ↔ d.rows agentID tier b ∧
    agentID ∉ snap.deleteAgents := by
  refine (mem_foldl_saveTier_of_ne h).trans ?_
  simp only [List.mem_filter, decide_eq_true_eq, rows]

end Disk

end ProxyForward.Stats

import Mathlib.Algebra.Order.BigOperators.Group.List
import Mathlib.Algebra.Order.Ring.Int
import Mathlib.Data.List.Perm.Basic
import ProxyForward.PersistImage
import ProxyForward.RollupRings

namespace ProxyForward
set_option autoImplicit true

theorem sum_le_of_keyed {α κ : Type} [DecidableEq α] {key : α → κ} {f g : α → Int} {l l' : List α}
    (hkeys : (l.map key).Nodup) (h : ∀ x ∈ l, ∃ y ∈ l', key y = key x ∧ f x ≤ g y)
    (hpos : ∀ y ∈ l', 0 ≤ g y) : (l.map f).sum ≤ (l'.map g).sum := by
  induction l generalizing l' with
  | nil =>
    rw [List.map_nil, List.sum_nil]
    exact List.sum_nonneg (List.forall_mem_map.2 hpos)
  | cons x l ih =>
    obtain ⟨y, hy, hkey, hle⟩ := h x List.mem_cons_self
    obtain ⟨hx, hkeys⟩ := List.nodup_cons.1 hkeys
    have hperm := ((List.perm_cons_erase hy).map g).sum_eq
    rw [List.map_cons, List.sum_cons, hperm, List.map_cons, List.sum_cons]
    refine Int.add_le_add hle (ih hkeys (fun z hz => ?_) fun z hz =>
      hpos z (List.mem_of_mem_erase hz))
    obtain ⟨w, hw, hkey', hle'⟩ := h z (List.mem_cons_of_mem _ hz)
    refine ⟨w, (List.mem_erase_of_ne ?_).2 hw, hkey', hle'⟩
    rintro rfl
    exact hx (hkey.symm.trans hkey' ▸ List.mem_map_of_mem hz)

namespace Stats

def hourMs : Nat := 3600000

def RrdRow.key (row : RrdRow) : String × Nat × Nat := (row.agentID, row.tier, row.bucket.T)

/-- Rows of distinct keys; those of the 15 s tier are late, not of the future, and count nothing
negative. -/
structure Disk.Sound (d : Disk) (clock : Nat) : Prop where
  lifetime : d.lifetime = none → d.rrd = []
  keys : (d.rrd.map RrdRow.key).Nodup
  tier : ∀ id ti b, d.rows id ti b → 2 ≤ ti
  aligned : ∀ id b, d.rows id 2 b → 15000 ∣ b.T
  late : ∀ id b, d.rows id 2 b → lapMs ≤ b.T
  past : ∀ id b, d.rows id 2 b → b.T ≤ clock
  counts : ∀ id b, d.rows id 2 b → 0 ≤ b.In ∧ 0 ≤ b.Out

theorem Disk.Sound.later {d : Disk} (h : d.Sound clock) (hc : clock ≤ clock') : d.Sound clock' where
  lifetime := h.lifetime
  keys := h.keys
  tier := h.tier
  aligned := h.aligned
  late := h.late
  past id b hb := (h.past id b hb).trans hc
  counts := h.counts

theorem Disk.Sound.unique {d : Disk} {id : String} (h : d.Sound clock) (hb : d.rows id ti b)
    (hb' : d.rows id ti b')
    (hT : b.T = b'.T) : b = b' := by
  have heq := List.inj_on_of_nodup_map h.keys hb hb' (by rw [RrdRow.key, RrdRow.key, hT])
  exact (RrdRow.mk.inj heq).2.2

namespace Disk

/-- The 15 s buckets of a series in an hour. -/
def hourRows (d : Disk) (id : String) (n : Nat) : List RrdRow :=
  d.rrd.filter fun row => row.tier = 2 ∧ row.agentID = id ∧ row.bucket.T / hourMs = n

/-- The bytes of a series in an hour. -/
def bytes (d : Disk) (id : String) (n : Nat) : Int × Int :=
  (((d.hourRows id n).map fun row => row.bucket.In).sum,
    ((d.hourRows id n).map fun row => row.bucket.Out).sum)

theorem mem_hourRows {d : Disk} {id : String} {n : Nat} {row : RrdRow} : row ∈ d.hourRows id n ↔
    ∃ b, d.rows id 2 b ∧ b.T / hourMs = n ∧ row = ⟨id, 2, b⟩ := by
  simp only [hourRows, List.mem_filter, decide_eq_true_eq, rows]
  constructor
  · rintro ⟨hrow, htier, rfl, hT⟩
    exact ⟨row.bucket, htier ▸ hrow, hT, htier ▸ rfl⟩
  · rintro ⟨b, hb, hT, rfl⟩
    exact ⟨hb, rfl, rfl, hT⟩

theorem Sound.hourRows_keys {d : Disk} (h : d.Sound clock) (id : String) (n : Nat) :
    ((d.hourRows id n).map RrdRow.key).Nodup :=
  h.keys.sublist (List.filter_sublist.map _)

theorem Sound.bytes_le {d d' : Disk} {id : String} (hd : d.Sound clock) (hd' : d'.Sound clock)
    (h : ∀ b, d.rows id 2 b → b.T / hourMs = n →
      ∃ b', d'.rows id 2 b' ∧ b'.T = b.T ∧ b.In ≤ b'.In ∧ b.Out ≤ b'.Out) :
    d.bytes id n ≤ d'.bytes id n := by
  have hrow : ∀ row ∈ d.hourRows id n, ∃ row' ∈ d'.hourRows id n, row'.key = row.key ∧
      row.bucket.In ≤ row'.bucket.In ∧ row.bucket.Out ≤ row'.bucket.Out := by
    intro row hrow
    obtain ⟨b, hb, hn, rfl⟩ := mem_hourRows.1 hrow
    obtain ⟨b', hb', hT, hle⟩ := h b hb hn
    exact ⟨⟨id, 2, b'⟩, mem_hourRows.2
      ⟨b', hb', hT ▸ hn, rfl⟩, by rw [RrdRow.key, RrdRow.key, hT], hle⟩
  have hcounts : ∀ row ∈ d'.hourRows id n, 0 ≤ row.bucket.In ∧ 0 ≤ row.bucket.Out := by
    intro row hrow
    obtain ⟨b, hb, -, rfl⟩ := mem_hourRows.1 hrow
    exact hd'.counts id b hb
  constructor
  · exact sum_le_of_keyed (hd.hourRows_keys id n)
      (fun row hr => (hrow row hr).imp fun row' hr' => ⟨hr'.1, hr'.2.1, hr'.2.2.1⟩)
      fun row hr => (hcounts row hr).1
  · exact sum_le_of_keyed (hd.hourRows_keys id n)
      (fun row hr => (hrow row hr).imp fun row' hr' => ⟨hr'.1, hr'.2.1, hr'.2.2.2⟩)
      fun row hr => (hcounts row hr).2

theorem Sound.bytes_nonneg {d : Disk} (hd : d.Sound clock) (id : String) (n : Nat) :
    0 ≤ d.bytes id n := by
  have hcounts : ∀ row ∈ d.hourRows id n, 0 ≤ row.bucket.In ∧ 0 ≤ row.bucket.Out := by
    intro row hrow
    obtain ⟨b, hb, -, rfl⟩ := mem_hourRows.1 hrow
    exact hd.counts id b hb
  exact ⟨List.sum_nonneg (List.forall_mem_map.2 fun row hr => (hcounts row hr).1),
    List.sum_nonneg (List.forall_mem_map.2 fun row hr => (hcounts row hr).2)⟩

theorem keys_SaveStats {d : Disk} (h : (d.rrd.map RrdRow.key).Nodup) (snap : SnapshotData) :
    ((d.SaveStats snap).rrd.map RrdRow.key).Nodup := by
  have hbucket (id : String) (ti : Nat) (stored : List RrdRow) (b : Bucket)
      (h : (stored.map RrdRow.key).Nodup) : ((saveBucket id ti stored b).map RrdRow.key).Nodup := by
    rw [saveBucket, List.map_append, List.nodup_append]
    refine ⟨h.sublist (List.filter_sublist.map _), List.nodup_singleton _, ?_⟩
    rintro k hk k' hk' rfl
    obtain ⟨row, hrow, rfl⟩ := List.mem_map.1 hk
    have hne := of_decide_eq_true (List.mem_filter.1 hrow).2
    obtain ⟨hid, hrest⟩ := Prod.mk.inj (List.mem_singleton.1 hk')
    obtain ⟨hti, hT⟩ := Prod.mk.inj hrest
    exact hne ⟨hid, hti, hT⟩
  have hbuckets (id : String) (ti : Nat) (bs : List Bucket) (stored : List RrdRow)
      (h : (stored.map RrdRow.key).Nodup) :
        ((bs.foldl (saveBucket id ti) stored).map RrdRow.key).Nodup := by
    induction bs generalizing stored with
    | nil => exact h
    | cons b bs ih => exact ih _ (hbucket id ti stored b h)
  have htiers (tiers : List TierSnapshot) (stored : List RrdRow)
      (h : (stored.map RrdRow.key).Nodup) :
        ((tiers.foldl saveTier stored).map RrdRow.key).Nodup := by
    induction tiers generalizing stored with
    | nil => exact h
    | cons ts tiers ih => exact ih _ (hbuckets _ _ _ _ (h.sublist (List.filter_sublist.map _)))
  exact htiers _ _ (h.sublist (List.filter_sublist.map _))

end Disk

end Stats

end ProxyForward

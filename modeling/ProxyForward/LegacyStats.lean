import Mathlib.Data.List.Sort
import Mathlib.Data.Rat.Floor
import Mathlib.Tactic.Ring
import ProxyForward.HistoryImage
import ProxyForward.Runs

namespace ProxyForward.Stats.Legacy
open Runs
set_option autoImplicit true

def legacyFileVersion : Int := 3

/-- A row of a tier: `[t,in,out,io,ih,il,ic,oo,oh,ol,oc,co,ch,cl,cc,ro,rh,rl,rc]`. -/
def packedBucket : Type := Fin 19 → Rat

/-- Elements that a row lacks are zero, and those past the end are dropped. -/
def packedBucket.decode (elems : List Rat) : packedBucket := fun j => elems.getD j 0

/-- The conversion drops the fraction. -/
def int64 (x : Rat) : Int := if 0 ≤ x then ⌊x⌋ else ⌈x⌉

/-- The format predates the gauges of players and loss. A time before the epoch counts as the epoch,
which no bucket has either. -/
def unpack (p : packedBucket) : Bucket where
  T := (int64 (p 0)).toNat
  In := int64 (p 1)
  Out := int64 (p 2)
  inRate := ⟨p 3, p 4, p 5, p 6⟩
  outRate := ⟨p 7, p 8, p 9, p 10⟩
  conns := ⟨p 11, p 12, p 13, p 14⟩
  rtt := ⟨p 15, p 16, p 17, p 18⟩
  players := .flat (-1)
  loss := .flat (-1)

structure legacyStatsFile where
  V : Int
  lifetime : Lifetime
  tiers : AList fun _ : String => List (List Rat)

/-- The tiers' names in the file. -/
def legacyTiers : List (String × Nat) := [("t2", 2), ("t3", 3), ("t4", 4)]

/-- The first element that a row of the version lacks. -/
def connStart (version : Int) : Nat := if version = 1 then 11 else 15

/-- Rows of the older versions have unknown gauges where the decoder left zeros. -/
def stamp (version : Int) (p : packedBucket) : packedBucket :=
  if version < 3 then fun j => if connStart version ≤ j then -1 else p j else p

namespace legacyStatsFile

/-- The buckets of a tier's rows. -/
def rows (f : legacyStatsFile) (key : String) : List Bucket :=
  ((f.tiers.lookup key).getD []).map fun elems => unpack (stamp f.V (.decode elems))

end legacyStatsFile

/-- An entry that is not misaligned. -/
def aligned (resMs : Nat) (b : Bucket) : Bool := 0 < b.T && b.T % resMs = 0

section

-- `sort.Slice` by time, which is not stable
variable (sort : List Bucket → List Bucket)

/-- The buckets within a lap of the newest. -/
def tierSnapshot (ti : Nat) (spec : TierSpec) (rows : List Bucket) : Option TierSnapshot :=
  let buckets := rows.filter (aligned spec.resMs)
  (buckets.map Bucket.T).max?.map fun newest =>
    let floorT := newest - (spec.slots - 1) * spec.resMs
    { agentID := ""
      tier := ti
      dirtyFromT := 0
      floorT
      buckets := sort (buckets.filter fun b => floorT ≤ b.T) }

/-- What `LoadLegacyJSON` makes of a file that parses. -/
def LoadLegacyJSON (f : legacyStatsFile) : Option SnapshotData :=
  if f.V < 1 ∨ legacyFileVersion < f.V then none
  else some {
    lifetime := f.lifetime
    tiers := legacyTiers.filterMap fun (key, ti) =>
      tierSpecs[ti]?.bind fun spec => tierSnapshot sort ti spec (f.rows key)
    deleteAgents := ∅ }

/-- Whether the database could be asked for its rows, the save went through, and the rename. -/
structure Luck where
  counted : Bool
  saved : Bool
  renamed : Bool
  deriving DecidableEq, Repr

/-- The database and `stats.json` after the import, and whether it landed. A file that is there may
be unreadable. -/
def ImportLegacyStats (d : Disk) (file : Option (Option legacyStatsFile)) (luck : Luck) :
    Disk × Option (Option legacyStatsFile) × Bool :=
  match file with
  | none => (d, none, false)
  | some content =>
    if luck.counted = false ∨ d.lifetime ≠ none then (d, file, false)
    else
      match content.bind (LoadLegacyJSON sort) with
      | none => (d, if luck.renamed then none else file, false)
      | some snap =>
        if luck.saved = false then (d, file, false)
        else (d.SaveStats snap, if luck.renamed then none else file, true)

/-- A machine's database and file, the store of its engine, and how many imports have landed. -/
structure Machine where
  engine : Persistence
  file : Option (Option legacyStatsFile)
  imports : Nat

/-- A fresh machine. -/
def Machine.init : Machine := ⟨.init, none, 0⟩

inductive MachineStep
  /-- Restoring an old machine's backup writes `stats.json`. -/
  | place (content : Option legacyStatsFile)
  | start (luck : Luck)
  | run (l : PersistStep)

namespace Machine

/-- An engine that starts, at any point, imports before it opens the store. -/
def start (s : Machine) (luck : Luck) : Machine :=
  let (disk, file, landed) := ImportLegacyStats sort s.engine.disk s.file luck
  { engine := ⟨Store.load disk, disk, none⟩
    file
    imports := if landed then s.imports + 1 else s.imports }

def step (s : Machine) : MachineStep → Option Machine
  | .place content => some { s with file := some content }
  | .start luck => some (s.start sort luck)
  | .run .restart => none
  | .run l => (s.engine.step l).map fun engine => { s with engine }

end Machine

end

/-- What of a tier's rows is of use: the buckets at its times within a lap of the newest. -/
def Current (rows : List Bucket) (spec : TierSpec) (b : Bucket) : Prop :=
  b ∈ rows ∧ aligned spec.resMs b = true ∧
    ∀ b' ∈ rows, aligned spec.resMs b' = true → b'.T < b.T + spec.slots * spec.resMs

/-- A store that shows what the file has: its totals, and for each bucket's time exactly one of the
file's buckets of that time. -/
structure Migrated (f : legacyStatsFile) (s : Store) : Prop where
  life : s.life = f.lifetime
  alone : ∀ id, id ≠ "" → s.historyFor id = none
  sound : ∀ key ti spec, (key, ti) ∈ legacyTiers → tierSpecs[ti]? = some spec →
    ∀ b, 0 < b.T → s.holds "" ti b → Current (f.rows key) spec b
  complete : ∀ key ti spec, (key, ti) ∈ legacyTiers → tierSpecs[ti]? = some spec →
    ∀ b, Current (f.rows key) spec b → ∃ b', s.holds "" ti b' ∧ b'.T = b.T
  unique : ∀ key ti, (key, ti) ∈ legacyTiers → ∀ b b', s.holds "" ti b → s.holds "" ti b' →
    b.T = b'.T → b = b'

theorem aligned_iff : aligned resMs b = true ↔ 0 < b.T ∧ b.T % resMs = 0 := by
  rw [aligned, Bool.and_eq_true, decide_eq_true_eq, decide_eq_true_eq]

theorem floor_iff {spec : TierSpec} (hres : 0 < spec.resMs) (hslots : 0 < spec.slots)
    {newest T : Nat} (hnewest : newest % spec.resMs = 0) (hT : T % spec.resMs = 0) :
    newest - (spec.slots - 1) * spec.resMs ≤ T ↔ newest < T + spec.slots * spec.resMs := by
  obtain ⟨i, rfl⟩ := Nat.dvd_of_mod_eq_zero hnewest
  obtain ⟨j, rfl⟩ := Nat.dvd_of_mod_eq_zero hT
  obtain ⟨n, hn⟩ := Nat.exists_eq_add_of_lt hslots
  rw [hn, Nat.sub_le_iff_le_add]
  have hlap : spec.resMs * j + (0 + n + 1 - 1) * spec.resMs = spec.resMs * (j + n) := by
    rw [Nat.zero_add, Nat.add_sub_cancel]
    ring
  have hlap' : spec.resMs * j + (0 + n + 1) * spec.resMs = spec.resMs * (j + n + 1) := by ring
  rw [hlap, hlap', Nat.mul_le_mul_left_iff hres, Nat.mul_lt_mul_left hres, Nat.lt_succ_iff]

section

variable {sort : List Bucket → List Bucket} (hsort : ∀ bs, (sort bs).Perm bs)
include hsort

theorem tierSnapshot_some {spec : TierSpec} (hres : 0 < spec.resMs) (hslots : 0 < spec.slots)
    (h : tierSnapshot sort ti spec rows = some ts) :
    (ts.agentID = "" ∧ ts.dirtyFromT = 0 ∧ ts.tier = ti) ∧
      ∀ b, b ∈ ts.buckets ↔ Current rows spec b := by
  obtain ⟨newest, hmax, rfl⟩ := Option.map_eq_some_iff.1 h
  obtain ⟨hmem, hle⟩ := List.max?_eq_some_iff.1 hmax
  obtain ⟨b₀, hb₀, rfl⟩ := List.mem_map.1 hmem
  obtain ⟨hrow₀, hal₀⟩ := List.mem_filter.1 hb₀
  refine ⟨⟨rfl, rfl, rfl⟩, fun b => ?_⟩
  rw [(hsort _).mem_iff, List.mem_filter, List.mem_filter, decide_eq_true_eq]
  constructor
  · rintro ⟨⟨hrow, hal⟩, hfloor⟩
    refine ⟨hrow, hal, fun b' hrow' hal' => ?_⟩
    have hlap := (floor_iff hres hslots (aligned_iff.1 hal₀).2 (aligned_iff.1 hal).2).1 hfloor
    exact (hle _ (List.mem_map_of_mem (List.mem_filter.2 ⟨hrow', hal'⟩))).trans_lt hlap
  · rintro ⟨hrow, hal, hlap⟩
    refine ⟨⟨hrow, hal⟩, ?_⟩
    exact (floor_iff hres hslots (aligned_iff.1 hal₀).2 (aligned_iff.1 hal).2).2
      (hlap b₀ hrow₀ hal₀)

omit hsort in
theorem tierSnapshot_none {spec : TierSpec} (h : tierSnapshot sort ti spec rows = none)
    (b : Bucket) :
    ¬Current rows spec b := by
  rintro ⟨hrow, hal, -⟩
  have hnil := List.map_eq_nil_iff.1 (List.max?_eq_none_iff.1 (Option.map_eq_none_iff.1 h))
  exact List.not_mem_nil (hnil ▸ List.mem_filter.2 ⟨hrow, hal⟩)

end

/-- The rows are some of these buckets, one for each time. -/
structure Landed (rows : Bucket → Prop) (bs : List Bucket) : Prop where
  sound : ∀ b, rows b → b ∈ bs
  complete : ∀ b ∈ bs, ∃ b', rows b' ∧ b'.T = b.T
  unique : ∀ b b', rows b → rows b' → b.T = b'.T → b = b'

theorem landed_foldl {id : String} (hstored : ∀ b, (⟨id, ti, b⟩ : RrdRow) ∉ stored)
    (bs : List Bucket) :
    Landed (fun b => ⟨id, ti, b⟩ ∈ bs.foldl (Disk.saveBucket id ti) stored) bs := by
  induction bs using List.reverseRecOn with
  | nil => exact ⟨fun b hb => absurd hb (hstored b), fun b hb => absurd hb List.not_mem_nil,
      fun b b' hb => absurd hb (hstored b)⟩
  | append_singleton bs a ih =>
    have hmem (b : Bucket) : (⟨id, ti, b⟩ : RrdRow) ∈
        (bs ++ [a]).foldl (Disk.saveBucket id ti) stored ↔
        (⟨id, ti, b⟩ ∈ bs.foldl (Disk.saveBucket id ti) stored ∧ b.T ≠ a.T) ∨ b = a := by
      rw [List.foldl_append, List.foldl_cons, List.foldl_nil, Disk.mem_saveBucket]
      simp only [true_and, RrdRow.mk.injEq, ne_eq]
    refine ⟨fun b hb => ?_, fun b hb => ?_, fun b b' hb hb' hT => ?_⟩
    · obtain ⟨hold, -⟩ | rfl := (hmem b).1 hb
      · exact List.mem_append_left _ (ih.sound b hold)
      · exact List.mem_append_right _ (List.mem_singleton_self b)
    · by_cases hT : b.T = a.T
      · exact ⟨a, (hmem a).2 (.inr rfl), hT.symm⟩
      · obtain hb | hb := List.mem_append.1 hb
        · obtain ⟨b', hb', hT'⟩ := ih.complete b hb
          exact ⟨b', (hmem b').2 (.inl ⟨hb', fun heq => hT (hT'.symm.trans heq)⟩), hT'⟩
        · exact absurd (congrArg Bucket.T (List.mem_singleton.1 hb)) hT
    · obtain ⟨hold, hne⟩ | rfl := (hmem b).1 hb
      · obtain ⟨hold', -⟩ | rfl := (hmem b').1 hb'
        · exact ih.unique b b' hold hold' hT
        · exact absurd hT hne
      · obtain ⟨-, hne⟩ | rfl := (hmem b').1 hb'
        · exact absurd hT.symm hne
        · rfl

theorem landed_saveTier {ts : TierSnapshot} (hdirty : ts.dirtyFromT = 0)
    (hstored : ∀ b, (⟨ts.agentID, ts.tier, b⟩ : RrdRow) ∉ stored) :
    Landed (fun b => ⟨ts.agentID, ts.tier, b⟩ ∈ Disk.saveTier stored ts) ts.buckets := by
  have hall : ts.buckets.filter (fun b => ts.dirtyFromT ≤ b.T) = ts.buckets :=
    List.filter_eq_self.2 fun b _ => decide_eq_true (hdirty ▸ Nat.zero_le b.T)
  rw [Disk.saveTier, hall]
  exact landed_foldl (fun b hb => hstored b (List.mem_filter.1 hb).1) ts.buckets

theorem landed_tiers {tiers : List TierSnapshot} (hkeys : (tiers.map TierSnapshot.tier).Nodup)
    (hfull : ∀ ts ∈ tiers, ts.agentID = "" ∧ ts.dirtyFromT = 0)
    (hstored : ∀ ts ∈ tiers, ∀ b, (⟨"", ts.tier, b⟩ : RrdRow) ∉ stored) (hts : ts ∈ tiers) :
    Landed (fun b => ⟨"", ts.tier, b⟩ ∈ tiers.foldl Disk.saveTier stored) ts.buckets := by
  induction tiers generalizing stored with
  | nil => exact absurd hts List.not_mem_nil
  | cons t tiers ih =>
    obtain ⟨hnew, hkeys⟩ := List.nodup_cons.1 hkeys
    obtain ⟨⟨hid, hdirty⟩, hfull⟩ := List.forall_mem_cons.1 hfull
    obtain ⟨ht, hrest⟩ := List.forall_mem_cons.1 hstored
    rw [List.foldl_cons]
    obtain rfl | hts := List.mem_cons.1 hts
    · have hfirst : Landed (fun b => ⟨ts.agentID, ts.tier, b⟩ ∈ Disk.saveTier stored ts)
          ts.buckets := landed_saveTier hdirty (hid ▸ ht)
      rw [hid] at hfirst
      have hkept (b : Bucket) : (⟨"", ts.tier, b⟩ : RrdRow) ∈
          tiers.foldl Disk.saveTier (Disk.saveTier stored ts) ↔
          ⟨"", ts.tier, b⟩ ∈ Disk.saveTier stored ts := by
        refine Disk.mem_foldl_saveTier_of_ne fun ts' hts' hsame => hnew ?_
        have htier : ts.tier = ts'.tier := hsame.2
        rw [htier]
        exact List.mem_map_of_mem hts'
      simp only [hkept]
      exact hfirst
    · refine ih hkeys hfull (fun ts' hts' b => ?_) hts
      rw [Disk.mem_saveTier_of_ne]
      · exact hrest ts' hts' b
      · exact fun hsame => hnew (hsame.2 ▸ List.mem_map_of_mem hts')

theorem mem_image_restore {resMs slots : Nat} (hok : (newRing resMs slots).OK) {bs : List Bucket}
    (haligned : ∀ b ∈ bs, aligned resMs b = true)
    (hunique : ∀ b ∈ bs, ∀ b' ∈ bs, b.T = b'.T → b = b')
    (hlap : ∀ b ∈ bs, ∀ b' ∈ bs, b'.T < b.T + slots * resMs) :
    b ∈ (restoreTier (newRing resMs slots) bs).image ∧ 0 < b.T ↔ b ∈ bs := by
  have hdvd : ∀ b ∈ bs, resMs ∣ b.T :=
    fun b hb => Nat.dvd_of_mod_eq_zero (aligned_iff.1 (haligned b hb)).2
  have hmem {b : Bucket} (hb : b ∈ (restoreTier (newRing resMs slots) bs).image) (hT : 0 < b.T) :
      b ∈ bs := by
    obtain ⟨i, -, rfl⟩ := Ring.mem_image.1 hb
    obtain hzero | hbs := restoreTier_cell (newRing resMs slots) bs
      ((restoreTier (newRing resMs slots) bs).pos i)
    · rw [hzero] at hT
      exact absurd hT (Nat.lt_irrefl 0)
    · exact hbs
  obtain ⟨-, hsynced⟩ := restoreTier_ok hok hdvd hunique
    fun b hb => ⟨b, hb, (aligned_iff.1 (haligned b hb)).1⟩
  refine ⟨fun h => hmem h.1 h.2, fun hb => ?_⟩
  have hT := (aligned_iff.1 (haligned b hb)).1
  have hfloor : (restoreTier (newRing resMs slots) bs).floorT ≤ b.T := by
    unfold Ring.floorT
    cases hcur : (restoreTier (newRing resMs slots) bs).cur with
    | none => exact Nat.zero_le _
    | some c =>
      obtain ⟨b₀, hb₀, hc⟩ := restoreTier_cur rfl hcur
      obtain ⟨hres, hslots⟩ := restoreTier_shape (newRing resMs slots) bs
      rw [hres, hslots]
      change (c + 1 - slots) * resMs ≤ b.T
      change b₀.T / resMs = c at hc
      obtain ⟨j, hj⟩ := hdvd b hb
      have hlap' : c < j + slots := by
        have hlt := hlap b hb b₀ hb₀
        have hdiv : b₀.T / resMs < j + slots := by
          refine Nat.div_lt_of_lt_mul ?_
          rw [hj] at hlt
          calc b₀.T < resMs * j + slots * resMs := hlt
            _ = resMs * (j + slots) := by ring
        omega
      rw [hj, Nat.mul_comm resMs j]
      exact Nat.mul_le_mul_right _ (by omega)
  refine ⟨?_, hT⟩
  obtain himage | ⟨b', hb', -, hT'⟩ := hsynced.known b hb hfloor
  · exact himage
  · have hb'bs := hmem hb' (hT' ▸ hT)
    exact hunique b' hb'bs b hb hT' ▸ hb'

theorem filterMap_tiers (g : String × Nat → Option TierSnapshot)
    (hg : ∀ k ts, g k = some ts → ts.tier = k.2) (keys : List (String × Nat)) :
    ((keys.filterMap g).map TierSnapshot.tier).Sublist (keys.map Prod.snd) := by
  induction keys with
  | nil => exact List.Sublist.refl _
  | cons k keys ih =>
    rw [List.filterMap_cons]
    cases hk : g k with
    | none => exact ih.cons _
    | some ts =>
      rw [List.map_cons, List.map_cons, hg k ts hk]
      exact ih.cons_cons _

theorem legacyTiers_key (h : (key, ti) ∈ legacyTiers) (h' : (key', ti) ∈ legacyTiers) :
    key' = key := by
  have hall : ∀ k ∈ legacyTiers, ∀ k' ∈ legacyTiers, k.2 = k'.2 → k' = k := by decide
  exact congrArg Prod.fst (hall _ h _ h' rfl)

theorem legacyTiers_persisted (h : (key, ti) ∈ legacyTiers) : persisted ti := by
  have hall : ∀ k ∈ legacyTiers, (tierSpecs[k.2]?.any fun spec => spec.persist) = true := by decide
  obtain ⟨spec, hspec, hpersist⟩ := (Option.any_eq_true _ _).1 (hall _ h)
  exact ⟨spec, hspec, hpersist⟩

section

variable {sort : List Bucket → List Bucket} (hsort : ∀ bs, (sort bs).Perm bs) {f : legacyStatsFile}

/-- The snapshot of a tier of the file. -/
def fileTier (sort : List Bucket → List Bucket) (f : legacyStatsFile) (k : String × Nat) :
    Option TierSnapshot :=
  tierSpecs[k.2]?.bind fun spec => tierSnapshot sort k.2 spec (f.rows k.1)

theorem LoadLegacyJSON_some (h : LoadLegacyJSON sort f = some snap) :
    (1 ≤ f.V ∧ f.V ≤ legacyFileVersion) ∧ snap.lifetime = f.lifetime ∧
      snap.tiers = legacyTiers.filterMap (fileTier sort f) ∧ snap.deleteAgents = ∅ := by
  unfold LoadLegacyJSON at h
  split at h
  · exact absurd h (Option.some_ne_none snap).symm
  · rename_i hversion
    obtain rfl := Option.some.inj h
    exact ⟨by omega, rfl, rfl, rfl⟩

include hsort

theorem fileTier_some (h : fileTier sort f k = some ts) : ∃ spec, tierSpecs[k.2]? = some spec ∧
    (ts.agentID = "" ∧ ts.dirtyFromT = 0 ∧ ts.tier = k.2) ∧
      ∀ b, b ∈ ts.buckets ↔ Current (f.rows k.1) spec b := by
  obtain ⟨spec, hspec, hts⟩ := Option.bind_eq_some_iff.1 h
  have hok := tierSpecs_ok hspec
  exact ⟨spec, hspec, tierSnapshot_some hsort hok.res hok.slots hts⟩

/-- Imported into a database without rows, a file leaves for each tier one of its current buckets
for each of their times, and nothing else. -/
theorem landed_import {d : Disk} (hd : d.rrd = []) (h : LoadLegacyJSON sort f = some snap)
    (hkey : (key, ti) ∈ legacyTiers) (hspec : tierSpecs[ti]? = some spec) :
    (∀ b, (d.SaveStats snap).rows "" ti b → Current (f.rows key) spec b) ∧
      (∀ b, Current (f.rows key) spec b → ∃ b', (d.SaveStats snap).rows "" ti b' ∧ b'.T = b.T) ∧
      ∀ b b', (d.SaveStats snap).rows "" ti b → (d.SaveStats snap).rows "" ti b' → b.T = b'.T →
        b = b' := by
  obtain ⟨-, -, htiers, -⟩ := LoadLegacyJSON_some h
  have hrows (b : Bucket) : (d.SaveStats snap).rows "" ti b ↔
      ⟨"", ti, b⟩ ∈ (legacyTiers.filterMap (fileTier sort f)).foldl Disk.saveTier [] := by
    rw [Disk.rows, Disk.SaveStats, hd, htiers]
    rfl
  have hnodup : ((legacyTiers.filterMap (fileTier sort f)).map TierSnapshot.tier).Nodup := by
    refine (filterMap_tiers _ (fun k ts hts => ?_) legacyTiers).nodup (by decide)
    obtain ⟨-, -, ⟨-, -, htier⟩, -⟩ := fileTier_some hsort hts
    exact htier
  have hfull : ∀ ts ∈ legacyTiers.filterMap (fileTier sort f),
      ts.agentID = "" ∧ ts.dirtyFromT = 0 := by
    intro ts hts
    obtain ⟨k, -, hk⟩ := List.mem_filterMap.1 hts
    obtain ⟨-, -, ⟨hid, hdirty, -⟩, -⟩ := fileTier_some hsort hk
    exact ⟨hid, hdirty⟩
  simp only [hrows]
  cases hts : fileTier sort f (key, ti) with
  | none =>
    -- the file has nothing of use for the tier
    have hnone : tierSnapshot sort ti spec (f.rows key) = none := by
      rw [fileTier, hspec] at hts
      exact hts
    have hother (b : Bucket) : (⟨"", ti, b⟩ : RrdRow) ∉
        (legacyTiers.filterMap (fileTier sort f)).foldl Disk.saveTier [] := by
      rw [Disk.mem_foldl_saveTier_of_ne]
      · exact List.not_mem_nil
      · rintro ts hmem ⟨-, htier⟩
        obtain ⟨⟨key', ti'⟩, hk, hsome⟩ := List.mem_filterMap.1 hmem
        obtain ⟨-, -, ⟨-, -, htier'⟩, -⟩ := fileTier_some hsort hsome
        obtain rfl : ti = ti' := htier.trans htier'
        obtain rfl := legacyTiers_key hkey hk
        exact Option.some_ne_none ts (hsome.symm.trans hts)
    exact ⟨fun b hb => absurd hb (hother b), fun b hb => absurd hb (tierSnapshot_none hnone b),
      fun b _ hb => absurd hb (hother b)⟩
  | some ts =>
    obtain ⟨spec', hspec', ⟨-, -, rfl⟩, hbuckets⟩ := fileTier_some hsort hts
    obtain rfl := Option.some.inj (hspec.symm.trans hspec')
    have hlanded := landed_tiers hnodup hfull (fun _ _ _ => List.not_mem_nil)
      (List.mem_filterMap.2 ⟨_, hkey, hts⟩)
    refine ⟨fun b hb => (hbuckets b).1 (hlanded.sound b hb), fun b hb => ?_, hlanded.unique⟩
    exact hlanded.complete b ((hbuckets b).2 hb)

theorem import_alone {d : Disk} {id : String} (hd : d.rrd = [])
    (h : LoadLegacyJSON sort f = some snap)
    (hid : id ≠ "") (ti : Nat) (b : Bucket) : ¬(d.SaveStats snap).rows id ti b := by
  obtain ⟨-, -, htiers, -⟩ := LoadLegacyJSON_some h
  rw [Disk.rows, Disk.SaveStats, hd, htiers, Disk.mem_foldl_saveTier_of_ne]
  · exact List.not_mem_nil
  · rintro ts hmem ⟨hsame, -⟩
    obtain ⟨k, -, hk⟩ := List.mem_filterMap.1 hmem
    obtain ⟨-, -, ⟨hempty, -⟩, -⟩ := fileTier_some hsort hk
    exact hid (hsame.trans hempty)

end

theorem life_load {d : Disk} (h : d.lifetime = some life) : (Store.load d).life = life := by
  have hkept (tiers : List TierSnapshot) (s : Store) : (tiers.foldl Store.loadTier s).life =
      s.life := by
    induction tiers generalizing s with
    | nil => rfl
    | cons ts tiers ih =>
      rw [List.foldl_cons, ih, Store.loadTier, Store.setHistory]
      split <;> rfl
  rw [Store.load, Disk.LoadStats, h, Option.map_some]
  exact hkept _ _

theorem migrated_import {sort : List Bucket → List Bucket} (hsort : ∀ bs, (sort bs).Perm bs)
    {d : Disk} (hd : d.rrd = []) (h : LoadLegacyJSON sort f = some snap) :
    Migrated f (Store.load (d.SaveStats snap)) := by
  obtain ⟨-, hlife, -, -⟩ := LoadLegacyJSON_some h
  have hsome : (d.SaveStats snap).lifetime = some snap.lifetime := rfl
  obtain ⟨-, -, -, hrestored⟩ := load_restored (d := d.SaveStats snap) fun hnone =>
    absurd (hsome.symm.trans hnone) (Option.some_ne_none _)
  have hglobal : (Store.load (d.SaveStats snap)).historyFor "" =
      some (Store.load (d.SaveStats snap)).global := if_pos rfl
  have htier {ti : Nat} {spec : TierSpec} (hspec : tierSpecs[ti]? = some spec) :
      (Store.load (d.SaveStats snap)).global.tiers[ti]? =
        some (restoreTier (newRing spec.resMs spec.slots) ((d.SaveStats snap).buckets "" ti)) := by
    rw [(hrestored "" _ hglobal).2.2 ti, hspec]
    rfl
  have himage {ti : Nat} {spec : TierSpec} {b : Bucket} (hspec : tierSpecs[ti]? = some spec)
      (hb : (Store.load (d.SaveStats snap)).holds "" ti b) :
      b ∈ (restoreTier (newRing spec.resMs spec.slots)
        ((d.SaveStats snap).buckets "" ti)).image := by
    obtain ⟨h, r, hh, -, hr, hb⟩ := Store.holds_iff.1 hb
    obtain rfl := Option.some.inj (hglobal.symm.trans hh)
    obtain rfl := Option.some.inj ((htier hspec).symm.trans hr)
    exact hb
  have hholds (key : String) (ti : Nat) (spec : TierSpec) (hkey : (key, ti) ∈ legacyTiers)
      (hspec : tierSpecs[ti]? = some spec) (b : Bucket) :
      (Store.load (d.SaveStats snap)).holds "" ti b ∧ 0 < b.T ↔
        (d.SaveStats snap).rows "" ti b := by
    obtain ⟨hsound, -, hunique⟩ := landed_import hsort hd h hkey hspec
    have hrestore : b ∈ (restoreTier (newRing spec.resMs spec.slots)
        ((d.SaveStats snap).buckets "" ti)).image ∧ 0 < b.T ↔
        b ∈ (d.SaveStats snap).buckets "" ti := mem_image_restore (tierSpecs_ok hspec)
      (fun b hb => (hsound b (Disk.mem_buckets.1 hb)).2.1)
      (fun b hb b' hb' => hunique b b' (Disk.mem_buckets.1 hb) (Disk.mem_buckets.1 hb'))
      (fun b hb b' hb' => by
        have hb' := hsound b' (Disk.mem_buckets.1 hb')
        exact (hsound b (Disk.mem_buckets.1 hb)).2.2 b' hb'.1 hb'.2.1)
    rw [Disk.mem_buckets] at hrestore
    rw [← hrestore]
    refine and_congr_left fun _ => ⟨himage hspec, fun hb => ?_⟩
    exact Store.holds_iff.2 ⟨_, _, hglobal, legacyTiers_persisted hkey, htier hspec, hb⟩
  refine ⟨(life_load hsome).trans hlife, fun id hid => ?_, ?_, ?_, ?_⟩
  · cases hh : (Store.load (d.SaveStats snap)).historyFor id with
    | none => rfl
    | some hist =>
      obtain hglobal | ⟨ti, b, hb⟩ := (hrestored id hist hh).1
      · exact absurd hglobal hid
      · exact absurd hb (import_alone hsort hd h hid ti b)
  · intro key ti spec hkey hspec b hT hb
    exact (landed_import hsort hd h hkey hspec).1 b ((hholds key ti spec hkey hspec b).1 ⟨hb, hT⟩)
  · intro key ti spec hkey hspec b hb
    obtain ⟨b', hb', hT⟩ := (landed_import hsort hd h hkey hspec).2.1 b hb
    exact ⟨b', ((hholds key ti spec hkey hspec b').2 hb').1, hT⟩
  · intro key ti hkey b b' hb hb'
    obtain ⟨spec, hspec, -⟩ := legacyTiers_persisted hkey
    refine Ring.image_unique ?_ (himage hspec hb) (himage hspec hb')
    rw [(restoreTier_shape _ _).1]
    exact (tierSpecs_ok hspec).res

namespace Machine

/-- A database that holds nothing yet has no rows, and none has been imported into it. -/
structure Inv (s : Machine) : Prop where
  fresh : s.engine.disk.lifetime = none → s.engine.disk.rrd = [] ∧ s.imports = 0
  once : s.imports ≤ 1

variable {sort : List Bucket → List Bucket} {s t : Machine}

theorem start_cases (sort : List Bucket → List Bucket) (s : Machine) (luck : Luck) :
    ((s.start sort luck).engine.disk = s.engine.disk ∧ (s.start sort luck).imports = s.imports) ∨
      s.engine.disk.lifetime = none ∧ ∃ f snap, s.file = some (some f) ∧
        LoadLegacyJSON sort f = some snap ∧
        (s.start sort luck).engine.disk = s.engine.disk.SaveStats snap ∧
        (s.start sort luck).engine.store = Store.load (s.engine.disk.SaveStats snap) ∧
        (s.start sort luck).imports = s.imports + 1 := by
  unfold start ImportLegacyStats
  cases hfile : s.file with
  | none => exact .inl ⟨rfl, rfl⟩
  | some content =>
    by_cases hheld : luck.counted = false ∨ s.engine.disk.lifetime ≠ none
    · simp only [if_pos hheld]
      exact .inl ⟨trivial, if_neg Bool.false_ne_true⟩
    · have hnone : s.engine.disk.lifetime = none := not_not.1 (not_or.1 hheld).2
      simp only [if_neg hheld]
      cases hsnap : content.bind (LoadLegacyJSON sort) with
      | none => exact .inl ⟨rfl, rfl⟩
      | some snap =>
        by_cases hsaved : luck.saved = false
        · simp only [if_pos hsaved]
          exact .inl ⟨trivial, if_neg Bool.false_ne_true⟩
        · obtain ⟨f, rfl, hf⟩ := Option.bind_eq_some_iff.1 hsnap
          simp only [if_neg hsaved]
          exact .inr ⟨hnone, f, snap, rfl, hf, rfl, rfl, rfl⟩

theorem engine_disk {p q : Persistence} (h : p.step l = some q) :
    q.disk = p.disk ∨ q.disk.lifetime ≠ none := by
  cases l with
  | sample r linkIn linkOut =>
    obtain rfl := Option.some.inj h
    exact .inl rfl
  | sampleAgent agentID r victim =>
    obtain ⟨-, h⟩ := Option.ite_none_right_eq_some.1 h
    obtain rfl := Option.some.inj h
    exact .inl rfl
  | beginFlush =>
    simp only [Persistence.step] at h
    split at h
    · obtain rfl := Option.some.inj h
      exact .inl rfl
    · exact absurd h (Option.some_ne_none q).symm
  | saveOk =>
    simp only [Persistence.step] at h
    split at h
    · obtain rfl := Option.some.inj h
      exact .inr (Option.some_ne_none _)
    · exact absurd h (Option.some_ne_none q).symm
  | saveFail =>
    simp only [Persistence.step] at h
    split at h
    · obtain rfl := Option.some.inj h
      exact .inl rfl
    · exact absurd h (Option.some_ne_none q).symm
  | endFlush =>
    simp only [Persistence.step] at h
    split at h
    · obtain rfl := Option.some.inj h
      exact .inl rfl
    · exact absurd h (Option.some_ne_none q).symm
  | restart =>
    obtain rfl := Option.some.inj h
    exact .inl rfl

theorem Inv.start (h : s.Inv) (luck : Luck) : (s.start sort luck).Inv := by
  obtain ⟨hdisk, himports⟩ | ⟨hnone, f, snap, -, -, hdisk, -, himports⟩ := start_cases sort s luck
  · exact ⟨by rw [hdisk, himports]; exact h.fresh, himports ▸ h.once⟩
  · refine ⟨fun hnone' => ?_, ?_⟩
    · rw [hdisk] at hnone'
      exact absurd hnone' (Option.some_ne_none _)
    · rw [himports, (h.fresh hnone).2]

theorem Inv.step (h : s.Inv) (hs : s.step sort l = some t) : t.Inv := by
  cases l with
  | place content =>
    obtain rfl := Option.some.inj hs
    exact ⟨h.fresh, h.once⟩
  | start luck =>
    obtain rfl := Option.some.inj hs
    exact h.start luck
  | run l =>
    have hrun : ∃ engine, s.engine.step l = some engine ∧ { s with engine } = t := by
      cases l with
      | restart => exact absurd hs (Option.some_ne_none t).symm
      | sample | sampleAgent | beginFlush | saveOk | saveFail | endFlush =>
        exact Option.map_eq_some_iff.1 hs
    obtain ⟨engine, hl, rfl⟩ := hrun
    refine ⟨fun hnone => ?_, h.once⟩
    obtain hsame | hsome := engine_disk hl
    · simp only [hsame] at hnone ⊢
      exact h.fresh hnone
    · exact absurd hnone hsome

/-- In every run at most one import lands. It does so in a database that holds nothing, and the
engine then opens the store that the file describes. Any other start leaves the database alone. -/
theorem migrated_of_reaches (hsort : ∀ bs, (sort bs).Perm bs)
    (hr : Reaches (step sort) init ls s) : s.imports ≤ 1 ∧ ∀ luck : Luck,
      ((s.start sort luck).engine.disk = s.engine.disk ∧
        (s.start sort luck).imports = s.imports) ∨
      (s.imports = 0 ∧ s.engine.disk.lifetime = none ∧ (s.start sort luck).imports = 1 ∧
        ∃ f, s.file = some (some f) ∧ 1 ≤ f.V ∧ f.V ≤ legacyFileVersion ∧
          Migrated f (s.start sort luck).engine.store) := by
  have hinv : s.Inv := hr.invariant (fun _ _ _ h hs => h.step hs)
    ⟨fun _ => ⟨rfl, rfl⟩, Nat.zero_le 1⟩
  refine ⟨hinv.once, fun luck => ?_⟩
  obtain hsame | ⟨hnone, f, snap, hfile, hf, -, hstore, himports⟩ := start_cases sort s luck
  · exact .inl hsame
  · obtain ⟨hrrd, hzero⟩ := hinv.fresh hnone
    obtain ⟨⟨hlow, hhigh⟩, -⟩ := LoadLegacyJSON_some hf
    refine .inr ⟨hzero, hnone, himports.trans (congrArg (· + 1) hzero), f, hfile, hlow, hhigh, ?_⟩
    rw [hstore]
    exact migrated_import hsort hrrd hf

end Machine

/-- A file of version 2: one row is misaligned, and two have one time. -/
def secondVersion : legacyStatsFile where
  V := 2
  lifetime := ⟨70, 30, 80, 40⟩
  tiers := (∅ : AList fun _ : String => List (List Rat)).insert "t2"
    [[45000, 7, 3], [30000, 5, 2], [30001, 1, 1], [45000, 8, 4]]

def byStart (bs : List Bucket) : List Bucket := bs.insertionSort fun b b' => b.T ≤ b'.T

theorem byStart_perm (bs : List Bucket) : (byStart bs).Perm bs := List.perm_insertionSort _ bs

/-- The first start finds nothing and the engine does not flush; the second one imports. -/
theorem migrated_second_start : ∃ s, Reaches (Machine.step byStart)
      .init [.start ⟨true, true, true⟩, .run (.sample ⟨1000, 0, 0, 0, 0, 0, 0⟩ 0 0),
        .place (some secondVersion)] s ∧
    (s.start byStart ⟨true, true, false⟩).imports = 1 ∧ ∃ f, s.file = some (some f) ∧
      Migrated f (s.start byStart ⟨true, true, false⟩).engine.store := by
  obtain ⟨s, hs⟩ : ∃ s, final (Machine.step byStart) .init
      [.start ⟨true, true, true⟩, .run (.sample ⟨1000, 0, 0, 0, 0, 0, 0⟩ 0 0),
        .place (some secondVersion)] = some s := ⟨_, rfl⟩
  have hland : (s.start byStart ⟨true, true, false⟩).imports = 1 ∧ s.imports = 0 := by
    obtain rfl := Option.some.inj hs
    exact ⟨rfl, rfl⟩
  have hr := reaches_of_final hs
  refine ⟨s, hr, hland.1, ?_⟩
  obtain ⟨-, himport⟩ := Machine.migrated_of_reaches byStart_perm hr
  obtain ⟨-, hsame⟩ | ⟨-, -, -, f, hfile, -, -, hmigrated⟩ := himport ⟨true, true, false⟩
  · rw [hland.1, hland.2] at hsame
    exact absurd hsame Nat.one_ne_zero
  · exact ⟨f, hfile, hmigrated⟩

end ProxyForward.Stats.Legacy

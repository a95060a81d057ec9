import ProxyForward.Persist
import ProxyForward.RingTiers

namespace ProxyForward.Stats
set_option autoImplicit true

/-- A tier's rows once its buckets from the watermark on are written and the lapped ones expire. -/
def TierSnapshot.savedRows (ts : TierSnapshot) (rows : Bucket → Prop) (b : Bucket) : Prop :=
  (b ∈ ts.buckets ∧ ts.dirtyFromT ≤ b.T) ∨
    (rows b ∧ ts.floorT ≤ b.T ∧ ∀ b' ∈ ts.buckets, ts.dirtyFromT ≤ b'.T → b'.T ≠ b.T)

theorem TierSnapshot.savedRows_idem (ts : TierSnapshot) (rows : Bucket → Prop) (b : Bucket) :
    ts.savedRows (ts.savedRows rows) b ↔ ts.savedRows rows b := by
  unfold savedRows
  constructor
  · rintro (h | ⟨h | h, -⟩)
    · exact .inl h
    · exact .inl h
    · exact .inr h
  · rintro (h | h)
    · exact .inl h
    · exact .inr ⟨.inr h, h.2⟩

namespace Ring

/-- No slot is ahead of the bucket that is being filled. -/
structure OK (r : Ring) : Prop where
  res : 0 < r.resMs
  slots : 0 < r.slots
  unused : r.cur = none → ∀ p, (r.buf p).T = 0
  filling : ∀ c, r.cur = some c → (r.buf (r.pos c)).T = c * r.resMs
  past : ∀ c, r.cur = some c → ∀ p, (r.buf p).T ≤ c * r.resMs

theorem valid_iff {r : Ring} : r.valid i = true ↔
    ∃ c, r.cur = some c ∧ i ≤ c ∧ c < i + r.slots ∧ (r.buf (r.pos i)).T = i * r.resMs := by
  unfold valid
  cases r.cur with
  | none => simp only [Bool.false_eq_true, reduceCtorEq, false_and, exists_false]
  | some c =>
    simp only [Bool.and_eq_true, decide_eq_true_eq, Option.some.injEq, exists_eq_left', and_assoc]

theorem mem_image {r : Ring} : b ∈ r.image ↔ ∃ i, r.valid i = true ∧ r.buf (r.pos i) = b := by
  unfold image
  cases hcur : r.cur with
  | none =>
    simp only [List.not_mem_nil, false_iff, not_exists, not_and]
    intro i hi
    obtain ⟨c, hc, -⟩ := valid_iff.1 hi
    exact nomatch hcur.symm.trans hc
  | some c =>
    simp only [List.mem_map, List.mem_filter, List.mem_range'_1]
    constructor
    · rintro ⟨i, ⟨-, hi⟩, hb⟩
      exact ⟨i, hi, hb⟩
    · rintro ⟨i, hi, hb⟩
      obtain ⟨c', hc', hle, hlt, -⟩ := valid_iff.1 hi
      obtain rfl := Option.some.inj (hcur.symm.trans hc')
      exact ⟨i, ⟨⟨by omega, by omega⟩, hi⟩, hb⟩

/-- The start of the oldest bucket that the ring has room for. -/
def floorT (r : Ring) : Nat :=
  match r.cur with
  | none => 0
  | some c => (c + 1 - r.slots) * r.resMs

theorem floorT_le {r : Ring} (hb : b ∈ r.image) : r.floorT ≤ b.T := by
  obtain ⟨i, hi, rfl⟩ := mem_image.1 hb
  obtain ⟨c, hc, -, hlt, hT⟩ := valid_iff.1 hi
  simp only [floorT, hc, hT]
  exact Nat.mul_le_mul_right _ (by omega)

theorem image_unique {r : Ring} (hres : 0 < r.resMs) (hb : b ∈ r.image) (hb' : b' ∈ r.image)
    (hT : b.T = b'.T) : b = b' := by
  obtain ⟨i, hi, rfl⟩ := mem_image.1 hb
  obtain ⟨j, hj, rfl⟩ := mem_image.1 hb'
  obtain ⟨-, -, -, -, hi⟩ := valid_iff.1 hi
  obtain ⟨-, -, -, -, hj⟩ := valid_iff.1 hj
  rw [hi, hj] at hT
  rw [Nat.eq_of_mul_eq_mul_right hres hT]

theorem OK.image_unique {r : Ring} (h : r.OK) : b ∈ r.image → b' ∈ r.image → b.T = b'.T → b = b' :=
  Ring.image_unique h.res

theorem image_aligned {r : Ring} (hb : b ∈ r.image) : r.resMs ∣ b.T := by
  obtain ⟨i, hi, rfl⟩ := mem_image.1 hb
  obtain ⟨-, -, -, -, hT⟩ := valid_iff.1 hi
  exact ⟨i, hT.trans (Nat.mul_comm ..)⟩

theorem OK.getLast?_image {r : Ring} (h : r.OK) (hc : r.cur = some c) :
    r.image.getLast? = some (r.buf (r.pos c)) := by
  have hslots := h.slots
  have hvalid : r.valid c = true := valid_iff.2 ⟨c, hc, Nat.le_refl c, by omega, h.filling c hc⟩
  have hrange : List.range' (c + 1 - r.slots) (c + 1 - (c + 1 - r.slots)) =
      List.range' (c + 1 - r.slots) (c - (c + 1 - r.slots)) ++ [c] := by
    have hlen : c + 1 - (c + 1 - r.slots) = c - (c + 1 - r.slots) + 1 := by omega
    have hlast : c + 1 - r.slots + 1 * (c - (c + 1 - r.slots)) = c := by omega
    rw [hlen, List.range'_concat, hlast]
  simp only [image, hc, hrange, List.filter_append, List.filter_singleton, hvalid, cond_true,
    List.map_append, List.map_singleton, List.getLast?_concat]

theorem OK.cur_mem_image {r : Ring} (h : r.OK) (hc : r.cur = some c) : r.buf (r.pos c) ∈ r.image :=
  List.mem_of_getLast? (h.getLast?_image hc)

/-- The bucket of an index is `d` now, and it is the newest. -/
def write (r : Ring) (i : Nat) (d : Bucket) : Ring :=
  { r with cur := some i, buf := Function.update r.buf (r.pos i) d, curEmpty := false }

@[simp] theorem write_self (r : Ring) (i : Nat) (d : Bucket) : (r.write i d).buf (r.pos i) = d :=
  Function.update_self ..

theorem write_of_ne {r : Ring} (h : p ≠ r.pos i) (d : Bucket) : (r.write i d).buf p = r.buf p :=
  Function.update_of_ne h ..

/-- A point is written as the bucket `d` of the index `i`. -/
structure Wrote (r : Ring) (b : Bucket) (i : Nat) (d : Bucket) : Prop where
  index : i = b.T / r.resMs ∨ r.cur = some i
  newest : ∀ c, r.cur = some c → c ≤ i
  time : d.T = i * r.resMs
  bytesIn : d.In = (if r.cur = some i then (r.buf (r.pos i)).In else 0) + b.In
  bytesOut : d.Out = (if r.cur = some i then (r.buf (r.pos i)).Out else 0) + b.Out
  put : r.put b = r.write i d

theorem Wrote.start {r : Ring} {b : Bucket} (hcur : r.cur ≠ some (b.T / r.resMs))
    (hnewest : ∀ c, r.cur = some c → c ≤ b.T / r.resMs)
    (hput : r.put b = (r.start (b.T / r.resMs)).mergeCur b) :
    r.Wrote b (b.T / r.resMs) ⟨b.toMeasures, b.T / r.resMs * r.resMs⟩ where
  index := .inl rfl
  newest := hnewest
  time := rfl
  bytesIn := by rw [if_neg hcur, Int.zero_add]
  bytesOut := by rw [if_neg hcur, Int.zero_add]
  put := hput.trans (start_mergeCur ..)

theorem OK.put_cases {r : Ring} (h : r.OK) (b : Bucket) : r.put b = r ∨ ∃ i d, r.Wrote b i d := by
  cases hcur : r.cur with
  | none =>
    refine .inr ⟨_, _, .start (hcur ▸ nofun) (hcur ▸ nofun) ?_⟩
    simp only [Ring.put, hcur]
  | some c =>
    by_cases hnext : c < b.T / r.resMs
    · refine .inr ⟨_, _, .start ?_ (fun c' hc' => ?_) ?_⟩
      · exact fun hc => hnext.ne (Option.some.inj (hcur.symm.trans hc))
      · obtain rfl := Option.some.inj (hcur.symm.trans hc')
        exact Nat.le_of_lt hnext
      · simp only [Ring.put, hcur, if_pos hnext]
    · by_cases hbefore : b.T / r.resMs < c
      · left
        simp only [Ring.put, hcur, if_neg hnext, if_pos hbefore]
      · have hmerge : ∃ m : Measures, m.In = (r.buf (r.pos c)).In + b.In ∧
            m.Out = (r.buf (r.pos c)).Out + b.Out ∧
              r.mergeCur b = r.write c ⟨m, (r.buf (r.pos c)).T⟩ := by
          simp only [mergeCur, hcur, write]
          refine ⟨_, ?_, ?_, rfl⟩
          · split <;> rfl
          · split <;> rfl
        obtain ⟨m, hin, hout, hm⟩ := hmerge
        refine .inr ⟨c, ⟨m, (r.buf (r.pos c)).T⟩, .inr hcur, fun c' hc' => ?_, h.filling c hcur,
          ?_, ?_, ?_⟩
        · exact (Option.some.inj (hcur.symm.trans hc')).symm.le
        · rw [if_pos hcur]
          exact hin
        · rw [if_pos hcur]
          exact hout
        · simp only [Ring.put, hcur, if_neg hnext, if_neg hbefore]
          exact hm

theorem OK.write {r : Ring} (h : r.OK) (hi : ∀ c, r.cur = some c → c ≤ i)
    (hd : d.T = i * r.resMs) : (r.write i d).OK where
  res := h.res
  slots := h.slots
  unused hc := nomatch hc
  filling c hc := by
    obtain rfl := Option.some.inj hc
    exact (congrArg Bucket.T (r.write_self ..)).trans hd
  past c hc p := by
    obtain rfl := Option.some.inj hc
    by_cases hp : p = r.pos i
    · subst hp
      rw [write_self, hd]
      exact Nat.le_refl _
    · rw [write_of_ne hp]
      cases hcur : r.cur with
      | none =>
        rw [h.unused hcur p]
        exact Nat.zero_le _
      | some c => exact (h.past c hcur p).trans (Nat.mul_le_mul_right _ (hi c hcur))

theorem mem_image_write_self {r : Ring} (hs : 0 < r.slots) (hd : d.T = i * r.resMs) :
    d ∈ (r.write i d).image := by
  have hself : (r.write i d).buf ((r.write i d).pos i) = d := r.write_self ..
  refine mem_image.2 ⟨i, valid_iff.2 ⟨i, rfl, Nat.le_refl i, Nat.lt_add_of_pos_right hs, ?_⟩, hself⟩
  rw [hself, hd]
  rfl

theorem OK.mem_image_write {r : Ring} (h : r.OK) (hc : r.cur = some c) (hi : c ≤ i)
    (hne : b.T ≠ i * r.resMs) :
    b ∈ (r.write i d).image ↔ b ∈ r.image ∧ (r.write i d).floorT ≤ b.T := by
  have hbuf {j : Nat} (hj : j ≠ i) (hle : j ≤ i) (hlt : i < j + r.slots) :
      (r.write i d).buf (r.pos j) = r.buf (r.pos j) :=
    write_of_ne (pos_ne (Nat.lt_of_le_of_ne hle hj) hlt) d
  constructor
  · intro hb
    refine ⟨?_, floorT_le hb⟩
    obtain ⟨j, hj, hbj⟩ := mem_image.1 hb
    obtain ⟨c', hc', hle, hlt, hT⟩ := valid_iff.1 hj
    obtain rfl := Option.some.inj hc'
    change (r.write i d).buf (r.pos j) = b at hbj
    change ((r.write i d).buf (r.pos j)).T = j * r.resMs at hT
    have hji : j ≠ i := by
      rintro rfl
      exact hne (hbj ▸ hT)
    rw [hbuf hji hle hlt] at hbj hT
    have hjc : j ≤ c := Nat.le_of_mul_le_mul_right (hT ▸ h.past c hc _) h.res
    have hlt' : i < j + r.slots := hlt
    exact mem_image.2 ⟨j, valid_iff.2 ⟨c, hc, hjc, by omega, hT⟩, hbj⟩
  · rintro ⟨hb, hfloor⟩
    obtain ⟨j, hj, rfl⟩ := mem_image.1 hb
    obtain ⟨c', hc', hle, hlt, hT⟩ := valid_iff.1 hj
    obtain rfl := Option.some.inj (hc.symm.trans hc')
    have hji : j ≠ i := by
      rintro rfl
      exact hne hT
    change (i + 1 - r.slots) * r.resMs ≤ (r.buf (r.pos j)).T at hfloor
    rw [hT] at hfloor
    have hij := Nat.le_of_mul_le_mul_right hfloor h.res
    have hsame := hbuf hji (hle.trans hi) (by omega)
    refine mem_image.2 ⟨j, valid_iff.2 ⟨i, rfl, hle.trans hi, ?_, ?_⟩, hsame⟩
    · change i < j + r.slots
      omega
    · change ((r.write i d).buf (r.pos j)).T = j * r.resMs
      rw [hsame, hT]

/-- Saving a ring whose newest save was at the watermark `w` onto the rows makes these its image. -/
structure Synced (r : Ring) (rows : Bucket → Prop) (w : Nat) : Prop where
  unused : r.cur = none → w = 0 ∧ ∀ b, ¬rows b
  bound : ∀ c, r.cur = some c → w ≤ c * r.resMs
  clean : ∀ b ∈ r.image, b.T < w → rows b
  known : ∀ b, rows b → r.floorT ≤ b.T → b ∈ r.image ∨ ∃ b' ∈ r.image, w ≤ b'.T ∧ b'.T = b.T

theorem snapshot_of_cur {r : Ring} (hc : r.cur = some c) (agentID : String) (tier w : Nat) :
    r.snapshot agentID tier w = some ⟨agentID, tier, w, r.floorT, r.image⟩ := by
  simp only [snapshot, floorT, hc, Option.map_some]

theorem snapshot_eq_some {r : Ring} (h : r.snapshot agentID tier w = some ts) :
    ∃ c, r.cur = some c ∧ ts = ⟨agentID, tier, w, r.floorT, r.image⟩ := by
  obtain ⟨c, hc, rfl⟩ := Option.map_eq_some_iff.1 h
  exact ⟨c, hc, by simp only [floorT, hc]⟩

theorem Synced.saved {r : Ring} (hok : r.OK) (h : r.Synced rows w)
    (hts : r.snapshot agentID tier w = some ts) (b : Bucket) : ts.savedRows rows b ↔
    b ∈ r.image := by
  obtain ⟨c, -, rfl⟩ := snapshot_eq_some hts
  constructor
  · rintro (⟨hb, -⟩ | ⟨hb, hfloor, hne⟩)
    · exact hb
    · obtain hb | ⟨b', hb', hw, hT⟩ := h.known b hb hfloor
      · exact hb
      · exact absurd hT (hne b' hb' hw)
  · intro hb
    by_cases hw : w ≤ b.T
    · exact .inl ⟨hb, hw⟩
    · refine .inr ⟨h.clean b hb (Nat.lt_of_not_le hw), floorT_le hb, fun b' hb' hw' hT => ?_⟩
      exact hw (hok.image_unique hb' hb hT ▸ hw')

theorem Synced.of_image {r : Ring} (hrows : ∀ b, rows b ↔ b ∈ r.image)
    (hunused : r.cur = none → w = 0) (hbound : ∀ c, r.cur = some c → w ≤ c * r.resMs) :
    r.Synced rows w where
  unused hcur := by
    refine ⟨hunused hcur, fun b hb => ?_⟩
    obtain ⟨i, hi, -⟩ := mem_image.1 ((hrows b).1 hb)
    obtain ⟨c, hc, -⟩ := valid_iff.1 hi
    exact nomatch hcur.symm.trans hc
  bound := hbound
  clean b hb _ := (hrows b).2 hb
  known b hb _ := .inl ((hrows b).1 hb)

theorem Synced.write {r : Ring} (hok : r.OK) (h : r.Synced rows w)
    (hi : ∀ c, r.cur = some c → c ≤ i) (hd : d.T = i * r.resMs) : (r.write i d).Synced rows w := by
  have hself : d ∈ (r.write i d).image := mem_image_write_self hok.slots hd
  cases hcur : r.cur with
  | none =>
    obtain ⟨rfl, hnone⟩ := h.unused hcur
    exact ⟨fun hc => (nomatch hc), fun _ _ => Nat.zero_le _, fun _ _ hT =>
      absurd hT (Nat.not_lt_zero _), fun b hb => absurd hb (hnone b)⟩
  | some c =>
    have hw : w ≤ d.T := hd ▸ (h.bound c hcur).trans (Nat.mul_le_mul_right _ (hi c hcur))
    have hfloor : r.floorT ≤ (r.write i d).floorT := by
      simp only [floorT, hcur, Ring.write]
      exact Nat.mul_le_mul_right _ (by have hle := hi c hcur; omega)
    constructor
    · exact fun hc => nomatch hc
    · intro c' hc'
      obtain rfl := Option.some.inj hc'
      exact hd ▸ hw
    · intro b hb hT
      have hne : b.T ≠ i * r.resMs := by omega
      exact h.clean b ((hok.mem_image_write hcur (hi c hcur) hne).1 hb).1 hT
    · intro b hb hT
      by_cases hne : b.T = i * r.resMs
      · exact .inr ⟨d, hself, hw, hd.trans hne.symm⟩
      · have hkept {b' : Bucket} (hb' : b' ∈ r.image) (hT' : b'.T = b.T) : b' ∈
          (r.write i d).image :=
          (hok.mem_image_write hcur (hi c hcur) (hT' ▸ hne)).2 ⟨hb', hT' ▸ hT⟩
        obtain hb | ⟨b', hb', hw', hT'⟩ := h.known b hb (hfloor.trans hT)
        · exact .inl (hkept hb rfl)
        · exact .inr ⟨b', hkept hb' hT', hw', hT'⟩

theorem OK.put {r : Ring} (hok : r.OK) (b : Bucket) :
    (r.put b).OK ∧ ∀ rows w, r.Synced rows w → (r.put b).Synced rows w := by
  obtain heq | ⟨i, d, hw⟩ := hok.put_cases b
  · rw [heq]
    exact ⟨hok, fun _ _ h => h⟩
  · rw [hw.put]
    exact ⟨hok.write hw.newest hw.time, fun _ _ h => h.write hok hw.newest hw.time⟩

theorem newRing_ok {resMs slots : Nat} (hres : 0 < resMs) (hslots : 0 < slots) :
    (newRing resMs slots).OK where
  res := hres
  slots := hslots
  unused _ _ := rfl
  filling _ hc := nomatch hc
  past _ hc := nomatch hc

end Ring

theorem foldl_update_cases {α β : Type} [DecidableEq α] (place : β → α) (bs : List β) (buf : α → β)
    (p : α) :
    bs.foldl (fun buf b => Function.update buf (place b) b) buf p = buf p ∨
      ∃ b ∈ bs,
        place b = p ∧ bs.foldl (fun buf b => Function.update buf (place b) b) buf p = b := by
  induction bs generalizing buf with
  | nil => exact .inl rfl
  | cons a bs ih =>
    rw [List.foldl_cons]
    obtain h | ⟨b, hb, hp, h⟩ := ih (Function.update buf (place a) a)
    · by_cases hp : p = place a
      · subst hp
        rw [Function.update_self] at h
        exact .inr ⟨a, List.mem_cons_self, rfl, h⟩
      · rw [Function.update_of_ne hp] at h
        exact .inl h
    · exact .inr ⟨b, List.mem_cons_of_mem _ hb, hp, h⟩

theorem foldl_update_of_mem {α β : Type} [DecidableEq α] (place : β → α) {bs : List β} (buf : α → β)
    {b : β} (hb : b ∈ bs)
    (hplace : ∀ b' ∈ bs, place b' = place b → b' = b) :
    bs.foldl (fun buf b => Function.update buf (place b) b) buf (place b) = b := by
  induction bs generalizing buf with
  | nil => exact absurd hb List.not_mem_nil
  | cons a bs ih =>
    have hrest : ∀ b' ∈ bs, place b' = place b → b' = b :=
      fun b' hb' => hplace b' (List.mem_cons_of_mem _ hb')
    rw [List.foldl_cons]
    obtain h | ⟨b', hb', hp, h⟩ := foldl_update_cases place bs (Function.update buf (place a) a)
      (place b)
    · obtain rfl | hb := List.mem_cons.1 hb
      · rw [h, Function.update_self]
      · exact ih _ hb hrest
    · rw [h, hrest b' hb' hp]

theorem restoreTier_shape (r : Ring) (bs : List Bucket) :
    (restoreTier r bs).resMs = r.resMs ∧ (restoreTier r bs).slots = r.slots := by
  unfold restoreTier
  split <;> exact ⟨rfl, rfl⟩

theorem restoreTier_cell (r : Ring) (bs : List Bucket) (p : Nat) :
    (restoreTier r bs).buf p = r.buf p ∨ (restoreTier r bs).buf p ∈ bs := by
  unfold restoreTier
  split
  · exact .inl rfl
  · refine (foldl_update_cases _ _ _ p).imp_right fun ⟨b, hb, _, hbuf⟩ => ?_
    simp only [hbuf]
    exact List.mem_of_mem_filter (List.mem_of_mem_filter hb)

theorem restoreTier_cur {r : Ring} (hr : r.cur = none) (h : (restoreTier r bs).cur = some c) :
    ∃ b ∈ bs, b.T / r.resMs = c := by
  unfold restoreTier at h
  split at h
  · exact nomatch hr.symm.trans h
  · rename_i newest hmax
    obtain rfl := Option.some.inj h
    obtain ⟨b, hb, hnewest⟩ := List.mem_map.1 (List.max?_eq_some_iff.1 hmax).1
    exact ⟨b, List.mem_of_mem_filter hb, hnewest⟩

/-- The rows that a restore places: those after the epoch within a lap of the newest. -/
structure Placing (resMs slots newest : Nat) (bs placed : List Bucket) : Prop where
  sound : ∀ b ∈ placed, b ∈ bs ∧ 0 < b.T ∧ newest < b.T / resMs + slots ∧ b.T / resMs ≤ newest
  complete : ∀ b ∈ bs, 0 < b.T → newest < b.T / resMs + slots → b ∈ placed
  aligned : ∀ b ∈ bs, b.T / resMs * resMs = b.T
  unique : ∀ b ∈ bs, ∀ b' ∈ bs, b.T = b'.T → b = b'

/-- A new ring with these rows in their cells. -/
def placedRing (resMs slots newest : Nat) (placed : List Bucket) : Ring :=
  { newRing resMs slots with
    buf := placed.foldl (fun buf b => Function.update buf
      ((newRing resMs slots).pos (b.T / (newRing resMs slots).resMs)) b) (newRing resMs slots).buf
    cur := some newest
    curEmpty := false }

namespace Placing

variable {resMs slots newest : Nat} {bs placed : List Bucket}

theorem cell (resMs slots newest : Nat) (placed : List Bucket) (p : Nat) :
    ((placedRing resMs slots newest placed).buf p).T = 0 ∨
      ∃ b ∈ placed, (newRing resMs slots).pos (b.T / resMs) = p ∧
        (placedRing resMs slots newest placed).buf p = b := by
  obtain h | h := foldl_update_cases
    (fun b : Bucket => (newRing resMs slots).pos (b.T / resMs)) placed (newRing resMs slots).buf p
  · exact .inl (congrArg Bucket.T h)
  · exact .inr h

theorem stays (h : Placing resMs slots newest bs placed) (hb : b ∈ placed) :
    (placedRing resMs slots newest placed).buf ((newRing resMs slots).pos (b.T / resMs)) = b := by
  refine foldl_update_of_mem (fun b : Bucket => (newRing resMs slots).pos (b.T / resMs))
    (newRing resMs slots).buf hb fun b' hb' hpos => ?_
  obtain ⟨hbs, -, hlo, hhi⟩ := h.sound b hb
  obtain ⟨hbs', -, hlo', hhi'⟩ := h.sound b' hb'
  have hsame : b'.T / resMs = b.T / resMs := by
    by_contra hne
    obtain hlt | hlt := Nat.lt_or_gt_of_ne hne
    · refine Ring.pos_ne hlt ?_ hpos
      change _ < _ + slots
      omega
    · refine Ring.pos_ne hlt ?_ hpos.symm
      change _ < _ + slots
      omega
  exact h.unique b' hbs' b hbs (by rw [← h.aligned b' hbs', ← h.aligned b hbs, hsame])

theorem past (h : Placing resMs slots newest bs placed) (p : Nat) :
    ((placedRing resMs slots newest placed).buf p).T ≤ newest * resMs := by
  obtain hzero | ⟨b, hb, -, hbuf⟩ := cell resMs slots newest placed p
  · rw [hzero]
    exact Nat.zero_le _
  · obtain ⟨hbs, -, -, hhi⟩ := h.sound b hb
    rw [hbuf, ← h.aligned b hbs]
    exact Nat.mul_le_mul_right _ hhi

theorem ok (h : Placing resMs slots newest bs placed) (hres : 0 < resMs) (hslots : 0 < slots)
    (hb : b ∈ placed) (hnewest : b.T / resMs = newest) :
    (placedRing resMs slots newest placed).OK := by
  refine ⟨hres, hslots, fun hc => (nomatch hc), ?_, ?_⟩
  · intro c hc
    obtain rfl := Option.some.inj hc
    have hcell := h.stays hb
    rw [hnewest] at hcell
    refine (congrArg Bucket.T hcell).trans ?_
    rw [← hnewest]
    exact (h.aligned b (h.sound b hb).1).symm
  · intro c hc p
    obtain rfl := Option.some.inj hc
    exact h.past p

theorem cell_zero (h : Placing resMs slots newest bs placed) (hnew : newest < slots) :
    ((placedRing resMs slots newest placed).buf ((newRing resMs slots).pos 0)).T = 0 := by
  obtain hzero | ⟨b, hb, hpos, -⟩ := cell resMs slots newest placed ((newRing resMs slots).pos 0)
  · exact hzero
  · obtain ⟨hbs, hT, hlo, hhi⟩ := h.sound b hb
    change b.T / resMs % slots = 0 % slots at hpos
    rw [Nat.zero_mod, Nat.mod_eq_of_lt (by omega)] at hpos
    have hz := h.aligned b hbs
    rw [hpos, Nat.zero_mul] at hz
    omega

theorem synced (h : Placing resMs slots newest bs placed) (hres : 0 < resMs) :
    (placedRing resMs slots newest placed).Synced (· ∈ bs) 0 := by
  refine ⟨fun hc => (nomatch hc), fun _ _ => Nat.zero_le _,
    fun _ _ hT => absurd hT (Nat.not_lt_zero _), ?_⟩
  intro b hb hfloor
  change (newest + 1 - slots) * resMs ≤ b.T at hfloor
  by_cases hT : 0 < b.T
  · have hlo : newest + 1 - slots ≤ b.T / resMs := (Nat.le_div_iff_mul_le hres).2 hfloor
    have hb' := h.complete b hb hT (by omega)
    obtain ⟨-, -, hlap, hhi⟩ := h.sound b hb'
    refine .inl (Ring.mem_image.2
      ⟨b.T / resMs, Ring.valid_iff.2 ⟨newest, rfl, hhi, hlap, ?_⟩, h.stays hb'⟩)
    exact (congrArg Bucket.T (h.stays hb')).trans (h.aligned b hb).symm
  · have hT : b.T = 0 := by omega
    rw [hT, Nat.le_zero, Nat.mul_eq_zero] at hfloor
    have hnew : newest + 1 - slots = 0 := hfloor.resolve_right (by omega)
    have hzero := h.cell_zero (by omega)
    refine .inr ⟨_, Ring.mem_image.2 ⟨0, Ring.valid_iff.2
      ⟨newest, rfl, Nat.zero_le _, ?_, hzero.trans (Nat.zero_mul _).symm⟩, rfl⟩, Nat.zero_le _, ?_⟩
    · change newest < 0 + slots
      omega
    · exact hzero.trans hT.symm

end Placing

theorem restoreTier_ok {resMs slots : Nat} (hok : (newRing resMs slots).OK) {bs : List Bucket}
    (haligned : ∀ b ∈ bs, resMs ∣ b.T) (hunique : ∀ b ∈ bs, ∀ b' ∈ bs, b.T = b'.T → b = b')
    (hlate : ∀ b ∈ bs, ∃ b' ∈ bs, 0 < b'.T) :
    (restoreTier (newRing resMs slots) bs).OK ∧
      (restoreTier (newRing resMs slots) bs).Synced (· ∈ bs) 0 := by
  have hres : 0 < resMs := hok.res
  have hslots : 0 < slots := hok.slots
  have haccepts {b : Bucket} (hb : b ∈ bs) (hT : 0 < b.T) :
      b ∈ bs.filter (newRing resMs slots).accepts := by
    refine List.mem_filter.2 ⟨hb, ?_⟩
    rw [Ring.accepts, decide_eq_true hT, Bool.true_and, decide_eq_true_eq]
    exact Nat.mod_eq_zero_of_dvd (haligned b hb)
  unfold restoreTier
  cases hmax : ((bs.filter (newRing resMs slots).accepts).map fun b =>
      b.T / (newRing resMs slots).resMs).max? with
  | none =>
    have hnil : ∀ b, b ∉ bs := by
      intro b hb
      obtain ⟨b', hb', hT⟩ := hlate b hb
      rw [List.max?_eq_none_iff, List.map_eq_nil_iff] at hmax
      exact absurd (hmax ▸ haccepts hb' hT) List.not_mem_nil
    exact ⟨hok, .of_image (fun b =>
      ⟨fun hb => absurd hb (hnil b), fun hb => absurd hb List.not_mem_nil⟩)
      (fun _ => rfl) fun _ _ => Nat.zero_le _⟩
  | some newest =>
    obtain ⟨hmem, hle⟩ := List.max?_eq_some_iff.1 hmax
    obtain ⟨b₀, hb₀, hnewest⟩ := List.mem_map.1 hmem
    have hplacing : Placing resMs slots newest bs
        ((bs.filter (newRing resMs slots).accepts).filter fun b =>
          newest + 1 - (newRing resMs slots).slots ≤ b.T / (newRing resMs slots).resMs) := by
      refine ⟨?_, ?_, fun b hb => Nat.div_mul_cancel (haligned b hb), hunique⟩
      · intro b hb
        obtain ⟨hb, hfloor⟩ := List.mem_filter.1 hb
        have hnew := hle _ (List.mem_map_of_mem hb)
        obtain ⟨hb, hacc⟩ := List.mem_filter.1 hb
        rw [Ring.accepts, Bool.and_eq_true, decide_eq_true_eq] at hacc
        have hfloor := of_decide_eq_true hfloor
        change newest + 1 - slots ≤ b.T / resMs at hfloor
        exact ⟨hb, hacc.1, by omega, hnew⟩
      · intro b hb hT hfloor
        exact List.mem_filter.2
          ⟨haccepts hb hT, decide_eq_true (Nat.sub_le_iff_le_add.2 (Nat.succ_le_of_lt hfloor))⟩
    obtain ⟨hb₀bs, hacc₀⟩ := List.mem_filter.1 hb₀
    rw [Ring.accepts, Bool.and_eq_true, decide_eq_true_eq] at hacc₀
    change b₀.T / resMs = newest at hnewest
    have hplaced₀ := hplacing.complete b₀ hb₀bs hacc₀.1 (by omega)
    exact ⟨hplacing.ok hres hslots hplaced₀ hnewest, hplacing.synced hres⟩

end ProxyForward.Stats

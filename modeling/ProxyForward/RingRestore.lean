import ProxyForward.RingImage
import ProxyForward.Runs

namespace ProxyForward.Stats.Slots
set_option autoImplicit true

/-- A bucket with any number for its time, as a persisted one may have. -/
structure Bucket extends Measures where
  T : Int
  deriving DecidableEq, Repr

/-- What an unwritten slot holds. -/
def Bucket.zero : Bucket := ⟨.zero, 0⟩

/-- A tier under the source's own indices; the newest one is -1 when it is empty. -/
structure Ring where
  resMs : Int
  slots : Nat
  buf : Int → Bucket
  cur : Int
  curEmpty : Bool

def newRing (resMs : Int) (slots : Nat) : Ring := ⟨resMs, slots, fun _ => .zero, -1, false⟩

/-- Persisted buckets are skipped unless they are late and aligned. -/
def accepts (resMs : Int) (b : Bucket) : Prop := ¬(b.T ≤ 0 ∨ b.T.tmod resMs ≠ 0)

instance : Decidable (accepts resMs b) :=
  inferInstanceAs (Decidable ¬(b.T ≤ 0 ∨ b.T.tmod resMs ≠ 0))

namespace Ring

/-- The remainder has the sign of the index. -/
def pos (r : Ring) (i : Int) : Int := i.tmod r.slots

/-- The slot of an index; a negative position panics. -/
def slot (r : Ring) (i : Int) : Option Bucket :=
  if 0 ≤ r.pos i then some (r.buf (r.pos i)) else none

def start (r : Ring) (idx : Int) : Option Ring :=
  if 0 ≤ r.pos idx then
    some { r with
      cur := idx
      buf := Function.update r.buf (r.pos idx) ⟨.zero, idx * r.resMs⟩
      curEmpty := true }
  else none

def mergeCur (r : Ring) (b : Bucket) : Option Ring :=
  (r.slot r.cur).map fun dst =>
    let merged : Measures :=
      if r.curEmpty then { b.toMeasures with In := dst.In + b.In, Out := dst.Out + b.Out }
      else dst.toMeasures.merge b.toMeasures
    { r with buf := Function.update r.buf (r.pos r.cur) ⟨merged, dst.T⟩, curEmpty := false }

def valid (r : Ring) (i : Int) : Option Bool :=
  if r.cur < 0 ∨ r.cur < i ∨ i ≤ r.cur - r.slots then some false
  else (r.slot i).map fun b => b.T = i * r.resMs

/-- The buckets of a tier that `appendTiersLocked` puts in the image. -/
def appendTiers (r : Ring) : List Bucket :=
  if r.cur < 0 then []
  else
    let floorIdx := r.cur - r.slots + 1
    (((List.range r.slots).map fun k => floorIdx + (k : Nat)).filter fun i =>
      0 ≤ i ∧ r.valid i = some true).map fun i => r.buf (r.pos i)

end Ring

/-- The first loop of `restoreTier`. -/
def newestOf (resMs : Int) (buckets : List Bucket) : Int :=
  buckets.foldl (fun newest b =>
    if b.T ≤ 0 ∨ b.T.tmod resMs ≠ 0 then newest
    else
      let idx := b.T.tdiv resMs
      if newest < idx then idx else newest) (-1)

/-- The second loop. -/
def placeAll (r : Ring) (floor : Int) (buckets : List Bucket) : Int → Bucket :=
  buckets.foldl (fun buf b =>
    if b.T ≤ 0 ∨ b.T.tmod r.resMs ≠ 0 then buf
    else
      let idx := b.T.tdiv r.resMs
      if idx < floor then buf else Function.update buf (r.pos idx) b) r.buf

def restoreTier (r : Ring) (buckets : List Bucket) : Ring :=
  let newest := newestOf r.resMs buckets
  if newest < 0 then r
  else
    let floor := newest - r.slots + 1
    { r with buf := placeAll r floor buckets, cur := newest, curEmpty := false }

inductive Op
  | start (idx : Int)
  | mergeCur (b : Bucket)

def step (r : Ring) : Op → Option Ring
  | .start idx => r.start idx
  | .mergeCur b => r.mergeCur b

/-- The indices that a run starts buckets at. -/
def starts (ops : List Op) : List Int :=
  ops.filterMap fun op =>
    match op with
    | .start idx => some idx
    | .mergeCur _ => none

/-- The second ring shows what the first shows: the newest index, and for every index its validity
and, where it is valid, its bucket. -/
def Shows (r r' : Ring) : Prop :=
  r'.cur = r.cur ∧ ∀ i, r'.valid i = r.valid i ∧ (r.valid i = some true → r'.slot i = r.slot i)

/-- A restored ring has just the accepted entries within a lap of the newest. -/
def RestoredExactly (resMs : Int) (slots : Nat) (buckets : List Bucket) : Prop :=
  ∀ i : Int, (restoreTier (newRing resMs slots) buckets).valid i = some true ↔
    (∃ b ∈ buckets, accepts resMs b ∧ b.T.tdiv resMs = i) ∧
      ∀ b ∈ buckets, accepts resMs b → b.T.tdiv resMs < i + slots

theorem accepts_index (hres : 0 < resMs) (h : accepts resMs b) :
    0 < b.T.tdiv resMs ∧ b.T = b.T.tdiv resMs * resMs := by
  unfold accepts at h
  push Not at h
  obtain ⟨hpos, haligned⟩ := h
  have hdiv := Int.mul_tdiv_add_tmod b.T resMs
  rw [haligned, Int.add_zero, Int.mul_comm] at hdiv
  refine ⟨?_, hdiv.symm⟩
  rw [← hdiv] at hpos
  exact Int.pos_of_mul_pos_left hpos hres

namespace Ring

theorem pos_eq_emod (r : Ring) {i : Int} (hi : 0 ≤ i) : r.pos i = i % r.slots :=
  Int.tmod_eq_emod_of_nonneg hi

theorem pos_nonneg (r : Ring) {i : Int} (hi : 0 ≤ i) : 0 ≤ r.pos i :=
  Int.tmod_nonneg _ hi

theorem slot_of_nonneg (r : Ring) {i : Int} (hi : 0 ≤ i) : r.slot i = some (r.buf (r.pos i)) :=
  if_pos (r.pos_nonneg hi)

theorem pos_inj {r : Ring} {i j : Int} (hi : 0 ≤ i) (hij : i ≤ j) (hnear : j < i + r.slots)
    (h : r.pos i = r.pos j) : i = j := by
  rw [r.pos_eq_emod hi, r.pos_eq_emod (by omega)] at h
  have hzero := Int.emod_eq_emod_iff_emod_sub_eq_zero.1 h.symm
  rw [Int.emod_eq_of_lt (by omega) (by omega)] at hzero
  omega

theorem valid_of_nonneg {r : Ring} (hi : 0 ≤ i) :
    r.valid i = some true ↔
      i ≤ r.cur ∧ r.cur < i + r.slots ∧ (r.buf (r.pos i)).T = i * r.resMs := by
  unfold valid
  rw [r.slot_of_nonneg hi]
  split
  · rename_i hout
    constructor
    · intro h
      cases h
    · intro h
      omega
  · rename_i hin
    rw [Option.map_some, Option.some.injEq, decide_eq_true_eq]
    constructor
    · intro h
      exact ⟨by omega, by omega, h⟩
    · intro h
      exact h.2.2

theorem valid_of_neg {r : Ring} (hi : i < 0) :
    r.valid i = if r.cur < 0 ∨ r.cur < i ∨ i ≤ r.cur - r.slots then some false else none := by
  unfold valid
  split
  · rfl
  · rename_i hin
    have hneg : r.pos i = i := by
      unfold pos
      rw [← Int.neg_neg i, Int.neg_tmod, Int.tmod_eq_of_lt (by omega) (by omega)]
    rw [slot, if_neg (by omega)]
    rfl

theorem valid_of_window {r r' : Ring} (hcur : r'.cur = r.cur) (hslots : r'.slots = r.slots)
    (h : ∀ i, 0 ≤ i → (r'.valid i = some true ↔ r.valid i = some true)) (i : Int) :
    r'.valid i = r.valid i := by
  by_cases hi : 0 ≤ i
  · have hsome (r : Ring) : r.valid i = some true ∨ r.valid i = some false := by
      unfold valid
      rw [r.slot_of_nonneg hi]
      split
      · exact .inr rfl
      · rw [Option.map_some]
        cases decide ((r.buf (r.pos i)).T = i * r.resMs)
        · exact .inr rfl
        · exact .inl rfl
    have hiff := h i hi
    rcases hsome r with hr | hr
    · rw [hr, hiff.2 hr]
    · rcases hsome r' with hr' | hr'
      · exact absurd (hr.symm.trans (hiff.1 hr')) (by decide)
      · rw [hr, hr']
  · rw [valid_of_neg (by omega), valid_of_neg (by omega), hcur, hslots]

theorem mem_appendTiers {r : Ring} :
    b ∈ r.appendTiers ↔ ∃ i, 0 ≤ i ∧ r.valid i = some true ∧ r.buf (r.pos i) = b := by
  unfold appendTiers
  split
  · rename_i hempty
    constructor
    · intro h
      exact (List.not_mem_nil h).elim
    · intro h
      obtain ⟨i, hi, hvalid, -⟩ := h
      have hle := (valid_of_nonneg hi).1 hvalid
      omega
  · rename_i hcur
    simp only [List.mem_map, List.mem_filter, List.mem_range, decide_eq_true_eq]
    constructor
    · intro h
      obtain ⟨i, ⟨-, hi, hvalid⟩, hb⟩ := h
      exact ⟨i, hi, hvalid, hb⟩
    · intro h
      obtain ⟨i, hi, hvalid, hb⟩ := h
      have hle := (valid_of_nonneg hi).1 hvalid
      exact ⟨i, ⟨⟨(i - (r.cur - r.slots + 1)).toNat, by omega, by omega⟩, hi, hvalid⟩, hb⟩

end Ring

theorem foldl_newest (resMs n : Int) (bs : List Bucket) :
    let newest := bs.foldl (fun newest b =>
      if b.T ≤ 0 ∨ b.T.tmod resMs ≠ 0 then newest
      else
        let idx := b.T.tdiv resMs
        if newest < idx then idx else newest) n
    (newest = n ∨ ∃ b ∈ bs, accepts resMs b ∧ b.T.tdiv resMs = newest) ∧
      n ≤ newest ∧ ∀ b ∈ bs, accepts resMs b → b.T.tdiv resMs ≤ newest := by
  induction bs generalizing n with
  | nil => exact ⟨.inl rfl, Int.le_refl n, fun b hb => (List.not_mem_nil hb).elim⟩
  | cons a bs ih =>
    simp only [List.foldl_cons, List.exists_mem_cons_iff, List.forall_mem_cons] at ih ⊢
    by_cases ha : a.T ≤ 0 ∨ a.T.tmod resMs ≠ 0
    · obtain ⟨hfrom, hle, hmax⟩ := ih n
      rw [if_pos ha]
      exact ⟨hfrom.imp_right .inr, hle, fun h => absurd ha h, hmax⟩
    · rw [if_neg ha]
      obtain ⟨hfrom, hle, hmax⟩ := ih (if n < a.T.tdiv resMs then a.T.tdiv resMs else n)
      have hboth : n ≤ (if n < a.T.tdiv resMs then a.T.tdiv resMs else n) ∧
          a.T.tdiv resMs ≤ (if n < a.T.tdiv resMs then a.T.tdiv resMs else n) := by
        split
        · omega
        · omega
      refine ⟨?_, hboth.1.trans hle, fun _ => hboth.2.trans hle, hmax⟩
      rcases hfrom with h | h
      · by_cases hn : n < a.T.tdiv resMs
        · rw [if_pos hn] at h ⊢
          exact .inr (.inl ⟨ha, h.symm⟩)
        · rw [if_neg hn] at h ⊢
          exact .inl h
      · exact .inr (.inr h)

theorem newestOf_cases (resMs : Int) (bs : List Bucket) :
    (newestOf resMs bs = -1 ∨ ∃ b ∈ bs, accepts resMs b ∧ b.T.tdiv resMs = newestOf resMs bs) ∧
      ∀ b ∈ bs, accepts resMs b → b.T.tdiv resMs ≤ newestOf resMs bs := by
  obtain ⟨hfrom, -, hmax⟩ := foldl_newest resMs (-1) bs
  exact ⟨hfrom, hmax⟩

theorem placeAll_cases (r : Ring) (floor : Int) (bs : List Bucket) (p : Int) :
    (placeAll r floor bs p = r.buf p ∧ ∀ b ∈ bs, accepts r.resMs b →
      floor ≤ b.T.tdiv r.resMs → r.pos (b.T.tdiv r.resMs) ≠ p) ∨
    ∃ b ∈ bs, accepts r.resMs b ∧ floor ≤ b.T.tdiv r.resMs ∧
      r.pos (b.T.tdiv r.resMs) = p ∧ placeAll r floor bs p = b := by
  unfold placeAll
  generalize r.buf = buf
  induction bs generalizing buf with
  | nil => exact .inl ⟨rfl, fun b hb => (List.not_mem_nil hb).elim⟩
  | cons a bs ih =>
    simp only [List.foldl_cons, List.exists_mem_cons_iff, List.forall_mem_cons]
    by_cases ha : a.T ≤ 0 ∨ a.T.tmod r.resMs ≠ 0
    · rw [if_pos ha]
      rcases ih buf with h | h
      · exact .inl ⟨h.1, fun hacc => absurd ha hacc, h.2⟩
      · exact .inr (.inr h)
    · rw [if_neg ha]
      by_cases hfloor : a.T.tdiv r.resMs < floor
      · rw [if_pos hfloor]
        rcases ih buf with h | h
        · exact .inl ⟨h.1, fun _ hle => absurd hle (by omega), h.2⟩
        · exact .inr (.inr h)
      · rw [if_neg hfloor]
        rcases ih (Function.update buf (r.pos (a.T.tdiv r.resMs)) a) with h | h
        · by_cases hp : r.pos (a.T.tdiv r.resMs) = p
          · refine .inr (.inl ⟨ha, by omega, hp, ?_⟩)
            rw [h.1, hp, Function.update_self]
          · refine .inl ⟨?_, fun _ _ => hp, h.2⟩
            rw [h.1, Function.update_of_ne (Ne.symm hp)]
        · exact .inr (.inr h)

section Restored

variable {resMs : Int} {slots : Nat} {bs : List Bucket}

/-- The ring that `restoreTier` leaves when an entry is accepted. -/
def placedRing (resMs : Int) (slots : Nat) (bs : List Bucket) : Ring where
  resMs := resMs
  slots := slots
  buf := placeAll (newRing resMs slots) (newestOf resMs bs - slots + 1) bs
  cur := newestOf resMs bs
  curEmpty := false

theorem restoreTier_eq (resMs : Int) (slots : Nat) (bs : List Bucket) :
    restoreTier (newRing resMs slots) bs =
      if newestOf resMs bs < 0 then newRing resMs slots else placedRing resMs slots bs := rfl

theorem newest_pos (hres : 0 < resMs) (hnew : 0 ≤ newestOf resMs bs) :
    ∃ b ∈ bs, accepts resMs b ∧ b.T.tdiv resMs = newestOf resMs bs ∧ 0 < newestOf resMs bs := by
  rcases (newestOf_cases resMs bs).1 with h | h
  · omega
  · obtain ⟨b, hb, hacc, hidx⟩ := h
    have hpos := (accepts_index hres hacc).1
    exact ⟨b, hb, hacc, hidx, by omega⟩

theorem index_le_newest (hres : 0 < resMs) (hb : b ∈ bs) (hacc : accepts resMs b) :
    0 < b.T.tdiv resMs ∧ b.T.tdiv resMs ≤ newestOf resMs bs :=
  ⟨(accepts_index hres hacc).1, (newestOf_cases resMs bs).2 b hb hacc⟩

theorem placedRing_entry (hres : 0 < resMs) (hb : b ∈ bs) (hacc : accepts resMs b)
    (hlap : newestOf resMs bs < b.T.tdiv resMs + slots) :
    ∃ b' ∈ bs, accepts resMs b' ∧ b'.T.tdiv resMs = b.T.tdiv resMs ∧
      (placedRing resMs slots bs).buf ((placedRing resMs slots bs).pos (b.T.tdiv resMs)) = b' := by
  rcases placeAll_cases (newRing resMs slots) (newestOf resMs bs - slots + 1) bs
    ((newRing resMs slots).pos (b.T.tdiv resMs)) with h | h
  · refine absurd rfl (h.2 b hb hacc ?_)
    change newestOf resMs bs - slots + 1 ≤ b.T.tdiv resMs
    omega
  · obtain ⟨b', hb', hacc', hfloor', hpos', hcell⟩ := h
    change newestOf resMs bs - slots + 1 ≤ b'.T.tdiv resMs at hfloor'
    refine ⟨b', hb', hacc', ?_, hcell⟩
    have hidx := index_le_newest hres hb hacc
    have hidx' := index_le_newest hres hb' hacc'
    rcases Int.le_total (b.T.tdiv resMs) (b'.T.tdiv resMs) with hij | hij
    · refine (Ring.pos_inj (by omega) hij ?_ hpos'.symm).symm
      change _ < _ + (slots : Int)
      omega
    · refine Ring.pos_inj (by omega) hij ?_ hpos'
      change _ < _ + (slots : Int)
      omega

theorem placedRing_cell (resMs : Int) (slots : Nat) (bs : List Bucket) (p : Int) :
    (placedRing resMs slots bs).buf p = .zero ∨
      ∃ b ∈ bs, accepts resMs b ∧ (newRing resMs slots).pos (b.T.tdiv resMs) = p ∧
        (placedRing resMs slots bs).buf p = b := by
  rcases placeAll_cases (newRing resMs slots) (newestOf resMs bs - slots + 1) bs p with h | h
  · exact .inl h.1
  · obtain ⟨b, hb, hacc, -, hpos, hcell⟩ := h
    exact .inr ⟨b, hb, hacc, hpos, hcell⟩

theorem placedRing_zero (hres : 0 < resMs) (hlap : newestOf resMs bs < slots) :
    (placedRing resMs slots bs).buf ((placedRing resMs slots bs).pos 0) = .zero := by
  rcases placedRing_cell resMs slots bs ((newRing resMs slots).pos 0) with h | h
  · exact h
  · obtain ⟨b, hb, hacc, hpos, -⟩ := h
    have hidx := index_le_newest hres hb hacc
    have hsame : 0 = b.T.tdiv resMs := by
      refine Ring.pos_inj (Int.le_refl 0) (by omega) ?_ hpos.symm
      change _ < 0 + (slots : Int)
      omega
    omega

/-- What an index shows once the entries are placed: an accepted entry within a lap of the newest,
or index 0, whose slot is unwritten, while the newest index is below the ring's length. -/
theorem placedRing_valid (hres : 0 < resMs) (hnew : 0 ≤ newestOf resMs bs) {i : Int} (hi : 0 ≤ i) :
    (placedRing resMs slots bs).valid i = some true ↔
      newestOf resMs bs < i + slots ∧
        ((∃ b ∈ bs, accepts resMs b ∧ b.T.tdiv resMs = i) ∨ i = 0) := by
  rw [Ring.valid_of_nonneg hi]
  change i ≤ newestOf resMs bs ∧ newestOf resMs bs < i + slots ∧ _ = i * resMs ↔ _
  constructor
  · intro h
    obtain ⟨-, hlap, hT⟩ := h
    refine ⟨hlap, ?_⟩
    rcases placedRing_cell resMs slots bs ((newRing resMs slots).pos i) with hcell | hcell
    · have hzero : i * resMs = 0 := hT.symm.trans (congrArg Bucket.T hcell)
      rcases Int.mul_eq_zero.1 hzero with hzero | hzero
      · exact .inr hzero
      · omega
    · obtain ⟨b, hb, hacc, -, hcell⟩ := hcell
      have hmul : b.T.tdiv resMs * resMs = i * resMs := by
        rw [← (accepts_index hres hacc).2]
        exact (congrArg Bucket.T hcell).symm.trans hT
      exact .inl ⟨b, hb, hacc, Int.eq_of_mul_eq_mul_right (by omega) hmul⟩
  · intro h
    obtain ⟨hlap, h⟩ := h
    rcases h with h | h
    · obtain ⟨b, hb, hacc, rfl⟩ := h
      obtain ⟨b', -, hacc', hsame, hcell⟩ := placedRing_entry hres hb hacc hlap
      refine ⟨(index_le_newest hres hb hacc).2, hlap, ?_⟩
      rw [hcell, ← hsame]
      exact (accepts_index hres hacc').2
    · subst h
      rw [Int.zero_add] at hlap
      refine ⟨hnew, by omega, ?_⟩
      rw [placedRing_zero hres hlap, Int.zero_mul]
      rfl

theorem restoreTier_valid (hres : 0 < resMs) (bs : List Bucket) (i : Int) :
    (restoreTier (newRing resMs slots) bs).valid i = some true ↔
      newestOf resMs bs < i + slots ∧
        ((∃ b ∈ bs, accepts resMs b ∧ b.T.tdiv resMs = i) ∨ i = 0 ∧ 0 ≤ newestOf resMs bs) := by
  have hbound : (∃ b ∈ bs, accepts resMs b ∧ b.T.tdiv resMs = i) →
      0 < i ∧ i ≤ newestOf resMs bs := by
    rintro ⟨b, hb, hacc, rfl⟩
    exact index_le_newest hres hb hacc
  rw [restoreTier_eq]
  by_cases hnew : newestOf resMs bs < 0
  · rw [if_pos hnew, Ring.valid, if_pos (.inl (show (-1 : Int) < 0 by decide))]
    constructor
    · intro h
      cases h
    · intro h
      rcases h.2 with h | h
      · have hle := hbound h
        omega
      · omega
  · rw [if_neg hnew]
    by_cases hi : 0 ≤ i
    · rw [placedRing_valid hres (by omega) hi]
      simp only [Int.not_lt.1 hnew, and_true]
    · rw [Ring.valid_of_neg (by omega)]
      constructor
      · intro h
        split at h
        · cases h
        · cases h
      · intro h
        rcases h.2 with h | h
        · have hle := hbound h
          omega
        · omega

/-- The restored ring is exact unless some entry is accepted and all are below the ring's length. -/
theorem restoredExactly_iff (hres : 0 < resMs) (bs : List Bucket) :
    RestoredExactly resMs slots bs ↔
      (∀ b ∈ bs, ¬accepts resMs b) ∨ ∃ b ∈ bs, accepts resMs b ∧ slots ≤ b.T.tdiv resMs := by
  constructor
  · intro h
    by_cases hnew : 0 ≤ newestOf resMs bs
    · obtain ⟨b, hb, hacc, hidx, -⟩ := newest_pos hres hnew
      refine .inr ⟨b, hb, hacc, ?_⟩
      by_contra hlt
      have hzero := (h 0).1 ((restoreTier_valid hres bs 0).2 ⟨by omega, .inr ⟨rfl, hnew⟩⟩)
      obtain ⟨b', -, hacc', hidx'⟩ := hzero.1
      have hpos := (accepts_index hres hacc').1
      omega
    · refine .inl fun b hb hacc => ?_
      have hidx := index_le_newest hres hb hacc
      omega
  · intro h i
    rw [restoreTier_valid hres bs i]
    constructor
    · intro hvalid
      obtain ⟨hlap, hvalid⟩ := hvalid
      refine ⟨?_, fun b hb hacc => (index_le_newest hres hb hacc).2.trans_lt hlap⟩
      rcases hvalid with hvalid | hvalid
      · exact hvalid
      · obtain ⟨rfl, hnew⟩ := hvalid
        obtain ⟨b₀, hb₀, hacc₀, -⟩ := newest_pos hres hnew
        rcases h with h | h
        · exact absurd hacc₀ (h b₀ hb₀)
        · obtain ⟨b, hb, hacc, hlong⟩ := h
          have hle := index_le_newest hres hb hacc
          omega
    · intro hentry
      obtain ⟨⟨b, hb, hacc, hidx⟩, hlap⟩ := hentry
      have hle := index_le_newest hres hb hacc
      obtain ⟨b₀, hb₀, hacc₀, hidx₀, -⟩ := newest_pos hres (hle.1.le.trans hle.2)
      exact ⟨hidx₀ ▸ hlap b₀ hb₀ hacc₀, .inl ⟨b, hb, hacc, hidx⟩⟩

end Restored

/-- After starts at these indices, each slot has the bucket of one of those that share it, and a
slot that none has is unwritten. -/
structure Started (resMs : Int) (slots : Nat) (S : List Int) (r : Ring) : Prop where
  res : r.resMs = resMs
  size : r.slots = slots
  positive : ∀ i ∈ S, 0 < i
  empty : S = [] → r.cur = -1
  newest : ∀ c, S.getLast? = some c → r.cur = c
  filling : 0 ≤ r.cur → r.cur ∈ S ∧ (r.buf (r.pos r.cur)).T = r.cur * resMs
  written : ∀ i ∈ S, ∃ j ∈ S, r.pos j = r.pos i ∧ (r.buf (r.pos i)).T = j * resMs
  unwritten : ∀ p, (∀ i ∈ S, r.pos i ≠ p) → (r.buf p).T = 0 ∧ (1 < slots → r.buf p = .zero)

namespace Started

variable {resMs : Int} {slots : Nat} {S : List Int} {r r' : Ring}

theorem init (resMs : Int) (slots : Nat) : Started resMs slots [] (newRing resMs slots) where
  res := rfl
  size := rfl
  positive i hi := (List.not_mem_nil hi).elim
  empty _ := rfl
  newest c hc := nomatch hc
  filling h := absurd h (show ¬(0 : Int) ≤ -1 by decide)
  written i hi := (List.not_mem_nil hi).elim
  unwritten p _ := ⟨rfl, fun _ => rfl⟩

theorem start (h : Started resMs slots S r) (hidx : 0 < idx) (hs : r.start idx = some r') :
    Started resMs slots (S ++ [idx]) r' := by
  unfold Ring.start at hs
  rw [if_pos (r.pos_nonneg hidx.le)] at hs
  cases hs
  have hmem : idx ∈ S ++ [idx] := List.mem_append_right _ (List.mem_singleton_self idx)
  refine ⟨h.res, h.size, ?_, ?_, ?_, ?_, ?_, ?_⟩
  · intro i hi
    rcases List.mem_append.1 hi with hi | hi
    · exact h.positive i hi
    · rw [List.mem_singleton.1 hi]
      exact hidx
  · intro hnil
    exact absurd hnil (List.append_ne_nil_of_right_ne_nil S (List.cons_ne_nil idx []))
  · intro c hc
    rw [List.getLast?_concat] at hc
    exact Option.some.inj hc
  · intro _
    refine ⟨hmem, ?_⟩
    change (Function.update r.buf (r.pos idx) _ (r.pos idx)).T = idx * resMs
    rw [Function.update_self, h.res]
  · intro i hi
    change ∃ j ∈ S ++ [idx], r.pos j = r.pos i ∧
      (Function.update r.buf (r.pos idx) _ (r.pos i)).T = j * resMs
    by_cases hp : r.pos i = r.pos idx
    · refine ⟨idx, hmem, hp.symm, ?_⟩
      rw [hp, Function.update_self, h.res]
    · rcases List.mem_append.1 hi with hi | hi
      · obtain ⟨j, hj, hpos, hT⟩ := h.written i hi
        refine ⟨j, List.mem_append_left _ hj, hpos, ?_⟩
        rw [Function.update_of_ne hp, hT]
      · rw [List.mem_singleton.1 hi] at hp
        exact absurd rfl hp
  · intro p hp
    change (Function.update r.buf (r.pos idx) _ p).T = 0 ∧
      (1 < slots → Function.update r.buf (r.pos idx) _ p = .zero)
    have hne : p ≠ r.pos idx := (hp idx hmem).symm
    rw [Function.update_of_ne hne]
    exact h.unwritten p fun i hi => hp i (List.mem_append_left _ hi)

theorem mergeCur (h : Started resMs slots S r) (hs : r.mergeCur b = some r') :
    Started resMs slots S r' := by
  unfold Ring.mergeCur Ring.slot at hs
  by_cases hpos : 0 ≤ r.pos r.cur
  · rw [if_pos hpos] at hs
    simp only [Option.map_some, Option.some.injEq] at hs
    subst hs
    -- the times stay as they are, and the slot of an empty ring of one slot is the one written
    have htime (m : Measures) (p : Int) :
        (Function.update r.buf (r.pos r.cur) ⟨m, (r.buf (r.pos r.cur)).T⟩ p).T = (r.buf p).T := by
      by_cases hp : p = r.pos r.cur
      · rw [hp, Function.update_self]
      · rw [Function.update_of_ne hp]
    refine ⟨h.res, h.size, h.positive, h.empty, h.newest, ?_, ?_, ?_⟩
    · intro hcur
      exact ⟨(h.filling hcur).1, (htime _ _).trans (h.filling hcur).2⟩
    · intro i hi
      obtain ⟨j, hj, hpj, hT⟩ := h.written i hi
      exact ⟨j, hj, hpj, (htime _ _).trans hT⟩
    · intro p hp
      refine ⟨(htime _ _).trans (h.unwritten p hp).1, fun hone => ?_⟩
      by_cases hcur : 0 ≤ r.cur
      · refine (Function.update_of_ne ?_ _ _).trans ((h.unwritten p hp).2 hone)
        exact (hp r.cur (h.filling hcur).1).symm
      · have hnil : r.cur = -1 := by
          cases hS : S.getLast? with
          | none => exact h.empty (List.getLast?_eq_none_iff.1 hS)
          | some c =>
            have hc := h.newest c hS
            have hcpos := h.positive c (List.mem_of_getLast? hS)
            omega
        rw [hnil, Ring.pos, h.size, Int.neg_tmod, Int.tmod_eq_of_lt (by omega) (by omega)] at hpos
        omega
  · rw [if_neg hpos] at hs
    cases hs

theorem step (h : Started resMs slots S r) (hpos : ∀ i ∈ starts [op], 0 < i)
    (hs : Slots.step r op = some r') : Started resMs slots (S ++ starts [op]) r' := by
  cases op with
  | start idx => exact h.start (hpos idx (List.mem_singleton_self idx)) hs
  | mergeCur b =>
    change Started resMs slots (S ++ []) r'
    rw [List.append_nil]
    exact h.mergeCur hs

theorem run (h : Started resMs slots S r) (hpos : ∀ i ∈ starts ops, 0 < i)
    (hr : Runs.Reaches Slots.step r ops r') : Started resMs slots (S ++ starts ops) r' := by
  induction hr generalizing S with
  | nil s =>
    change Started resMs slots (S ++ []) s
    rwa [List.append_nil]
  | @cons s op t ops u hs hr ih =>
    have hsplit : starts (op :: ops) = starts [op] ++ starts ops := by
      rw [starts, starts, starts, ← List.filterMap_append, List.singleton_append]
    rw [hsplit] at hpos
    rw [hsplit, ← List.append_assoc]
    refine ih (h.step (fun i hi => hpos i (List.mem_append_left _ hi)) hs) ?_
    intro i hi
    exact hpos i (List.mem_append_right _ hi)

theorem cur_eq (h : Started resMs slots S r) (hlast : S.getLast? = some c) :
    r.cur = c ∧ 0 < c ∧ c ∈ S ∧ (r.buf (r.pos c)).T = c * resMs := by
  have hcur := h.newest c hlast
  have hpos := h.positive c (List.mem_of_getLast? hlast)
  have hfilling := h.filling (by omega)
  rw [hcur] at hfilling
  exact ⟨hcur, hpos, hfilling⟩

theorem slot_zero (h : Started resMs slots S r) (hres : 0 < resMs) :
    (r.buf (r.pos 0)).T = 0 ↔ ∀ i ∈ S, ¬(slots : Int) ∣ i := by
  have hdvd : ∀ i, r.pos i = r.pos 0 ↔ (slots : Int) ∣ i := by
    intro i
    rw [Ring.pos, Ring.pos, Int.zero_tmod, h.size]
    exact Int.dvd_iff_tmod_eq_zero.symm
  constructor
  · intro hT i hi hmul
    obtain ⟨j, hj, -, hwritten⟩ := h.written i hi
    rw [(hdvd i).2 hmul, hT] at hwritten
    have hjpos := h.positive j hj
    rcases Int.mul_eq_zero.1 hwritten.symm with hzero | hzero
    · omega
    · omega
  · intro hnone
    exact (h.unwritten (r.pos 0) fun i hi hpos => hnone i hi ((hdvd i).1 hpos)).1

end Started

theorem accepts_mul {i : Int} (hres : 0 < resMs) (hi : 0 < i) (hT : b.T = i * resMs) :
    accepts resMs b ∧ b.T.tdiv resMs = i := by
  unfold accepts
  rw [hT, Int.mul_tmod_left, Int.mul_tdiv_cancel _ (by omega)]
  have hpos := Int.mul_pos hi hres
  exact ⟨by omega, rfl⟩

theorem appendTiers_accepted {r : Ring} (hr : 0 < r.resMs) :
    (b ∈ r.appendTiers ∧ accepts r.resMs b) ↔
      ∃ i, 0 < i ∧ r.valid i = some true ∧ r.buf (r.pos i) = b ∧ b.T.tdiv r.resMs = i := by
  rw [Ring.mem_appendTiers]
  constructor
  · intro h
    obtain ⟨⟨i, hi, hvalid, hb⟩, hacc⟩ := h
    obtain ⟨-, -, hT⟩ := (Ring.valid_of_nonneg hi).1 hvalid
    rw [hb] at hT
    have hidx : b.T.tdiv r.resMs = i := by rw [hT, Int.mul_tdiv_cancel _ (by omega)]
    have hpos := (accepts_index hr hacc).1
    exact ⟨i, by omega, hvalid, hb, hidx⟩
  · intro h
    obtain ⟨i, hi, hvalid, hb, -⟩ := h
    obtain ⟨-, -, hT⟩ := (Ring.valid_of_nonneg hi.le).1 hvalid
    rw [hb] at hT
    exact ⟨⟨i, hi.le, hvalid, hb⟩, (accepts_mul hr hi hT).1⟩

namespace Started

variable {resMs : Int} {slots : Nat} {S : List Int} {r : Ring} {c : Int}

theorem newest_saved (h : Started resMs slots S r) (hres : 0 < resMs) (hslots : 0 < slots)
    (hlast : S.getLast? = some c) : newestOf resMs r.appendTiers = c := by
  have hr : 0 < r.resMs := h.res.symm ▸ hres
  obtain ⟨hcur, hpos, -, hT⟩ := h.cur_eq hlast
  have hsize := h.size
  rw [← h.res] at hT ⊢
  obtain ⟨hfrom, hmax⟩ := newestOf_cases r.resMs r.appendTiers
  have hvalid : r.valid c = some true := (Ring.valid_of_nonneg hpos.le).2 ⟨by omega, by omega, hT⟩
  obtain ⟨hb, hacc⟩ := (appendTiers_accepted hr).2
    ⟨c, hpos, hvalid, rfl, (accepts_mul hr hpos hT).2⟩
  have hge := hmax _ hb hacc
  rw [(accepts_mul hr hpos hT).2] at hge
  rcases hfrom with hnone | hfrom
  · omega
  · obtain ⟨b, hb, hacc, hidx⟩ := hfrom
    obtain ⟨i, hi, hvalid, -, hi'⟩ := (appendTiers_accepted hr).1 ⟨hb, hacc⟩
    obtain ⟨hle, -⟩ := (Ring.valid_of_nonneg hi.le).1 hvalid
    omega

theorem restored_valid (h : Started resMs slots S r) (hres : 0 < resMs) (hslots : 0 < slots)
    (hlast : S.getLast? = some c) (i : Int) :
    (restoreTier (newRing resMs slots) r.appendTiers).valid i = some true ↔
      (0 < i ∧ r.valid i = some true) ∨ i = 0 ∧ c < slots := by
  have hr : 0 < r.resMs := h.res.symm ▸ hres
  obtain ⟨hcur, hpos, -, -⟩ := h.cur_eq hlast
  have hsize := h.size
  rw [restoreTier_valid hres, h.newest_saved hres hslots hlast]
  constructor
  · intro hvalid
    obtain ⟨hlap, hvalid⟩ := hvalid
    rcases hvalid with hentry | hzero
    · obtain ⟨b, hb, hacc, hidx⟩ := hentry
      rw [← h.res] at hacc hidx
      obtain ⟨j, hj, hvalid, -, hj'⟩ := (appendTiers_accepted hr).1 ⟨hb, hacc⟩
      rw [← hidx, hj']
      exact .inl ⟨hj, hvalid⟩
    · exact .inr ⟨hzero.1, by omega⟩
  · intro hvalid
    rcases hvalid with hvalid | hzero
    · obtain ⟨hi, hvalid⟩ := hvalid
      obtain ⟨-, hlap, hT⟩ := (Ring.valid_of_nonneg hi.le).1 hvalid
      obtain ⟨hb, hacc⟩ := (appendTiers_accepted hr).2
        ⟨i, hi, hvalid, rfl, (accepts_mul hr hi hT).2⟩
      refine ⟨by omega, .inl ⟨_, hb, h.res ▸ hacc, ?_⟩⟩
      rw [← h.res]
      exact (accepts_mul hr hi hT).2
    · exact ⟨by omega, .inr ⟨hzero.1, hpos.le⟩⟩

theorem restored_slot (h : Started resMs slots S r) (hres : 0 < resMs) (hslots : 0 < slots)
    (hlast : S.getLast? = some c) (hvalid : r.valid i = some true) :
    (restoreTier (newRing resMs slots) r.appendTiers).slot i = r.slot i := by
  have hr : 0 < r.resMs := h.res.symm ▸ hres
  have hsize := h.size
  have hnewest := h.newest_saved hres hslots hlast
  obtain ⟨hcur, hpos, -, -⟩ := h.cur_eq hlast
  have hi : 0 ≤ i := by
    by_contra hneg
    rw [Ring.valid_of_neg (by omega)] at hvalid
    split at hvalid
    · cases hvalid
    · cases hvalid
  obtain ⟨-, hlap, hT⟩ := (Ring.valid_of_nonneg hi).1 hvalid
  rw [restoreTier_eq, if_neg (by omega), Ring.slot_of_nonneg _ hi, Ring.slot_of_nonneg _ hi]
  refine congrArg some ?_
  rcases Int.lt_or_eq_of_le hi with hlt | hzero
  · obtain ⟨hb, hacc⟩ := (appendTiers_accepted hr).2
      ⟨i, hlt, hvalid, rfl, (accepts_mul hr hlt hT).2⟩
    have hidx := (accepts_mul hr hlt hT).2
    rw [h.res] at hacc hidx
    have hlap' : newestOf resMs r.appendTiers < (r.buf (r.pos i)).T.tdiv resMs + slots := by
      omega
    obtain ⟨b, hb', hacc', hsame, hcell⟩ := placedRing_entry hres hb hacc hlap'
    rw [hidx] at hsame hcell
    rw [← h.res] at hacc' hsame
    obtain ⟨j, -, -, hslot, hj⟩ := (appendTiers_accepted hr).1 ⟨hb', hacc'⟩
    rw [hcell, ← hslot, ← hj, hsame]
  · subst hzero
    rw [Int.zero_mul] at hT
    rw [placedRing_zero hres (by omega)]
    refine ((h.unwritten (r.pos 0) ?_).2 (by omega)).symm
    intro i hi hsame
    refine (h.slot_zero hres).1 hT i hi ?_
    rw [Ring.pos, Ring.pos, Int.zero_tmod, hsize] at hsame
    exact Int.dvd_of_tmod_eq_zero hsame

/-- A save and a restore show the same ring unless the newest index is below the ring's length and
the slot of index 0 has been written, which the restored ring does not know. -/
theorem shows_iff (h : Started resMs slots S r) (hres : 0 < resMs) (hslots : 0 < slots) :
    Shows r (restoreTier (newRing resMs slots) r.appendTiers) ↔
      ∀ c, S.getLast? = some c → slots ≤ c ∨ ∀ i ∈ S, ¬(slots : Int) ∣ i := by
  cases hlast : S.getLast? with
  | none =>
    have hcur := h.empty (List.getLast?_eq_none_iff.1 hlast)
    have himage : r.appendTiers = [] := if_pos (by omega)
    rw [himage]
    constructor
    · intro _ c hc
      cases hc
    · intro _
      refine ⟨hcur.symm, fun i => ?_⟩
      rw [Ring.valid, Ring.valid, if_pos (.inl (show (-1 : Int) < 0 by decide)),
        if_pos (.inl (by omega))]
      refine ⟨rfl, fun hvalid => ?_⟩
      cases hvalid
  | some c =>
    obtain ⟨hcur, hpos, -, -⟩ := h.cur_eq hlast
    have hsize := h.size
    have hzero := h.slot_zero hres
    have hnewest := h.newest_saved hres hslots hlast
    constructor
    · intro hshows c' hc'
      cases hc'
      by_cases hlap : c < slots
      · have hvalid := (h.restored_valid hres hslots hlast 0).2 (.inr ⟨rfl, hlap⟩)
        rw [(hshows.2 0).1, Ring.valid_of_nonneg (Int.le_refl 0), Int.zero_mul] at hvalid
        exact .inr (hzero.1 hvalid.2.2)
      · exact .inl (by omega)
    · intro hcond
      refine ⟨?_, fun i => ⟨?_, h.restored_slot hres hslots hlast⟩⟩
      · rw [restoreTier_eq, if_neg (by omega), hcur]
        exact hnewest
      · refine Ring.valid_of_window ?_ ?_ ?_ i
        · rw [restoreTier_eq, if_neg (by omega), hcur]
          exact hnewest
        · rw [restoreTier_eq, if_neg (by omega), hsize]
          rfl
        · intro i hi
          rw [h.restored_valid hres hslots hlast]
          constructor
          · intro hvalid
            rcases hvalid with hvalid | hvalid
            · exact hvalid.2
            · obtain ⟨rfl, hlap⟩ := hvalid
              rw [Ring.valid_of_nonneg (Int.le_refl 0), Int.zero_mul]
              exact ⟨by omega, by omega, hzero.2 ((hcond c rfl).resolve_left (by omega))⟩
          · intro hvalid
            rcases Int.lt_or_eq_of_le hi with hlt | heq
            · exact .inl ⟨hlt, hvalid⟩
            · subst heq
              obtain ⟨-, hlap, -⟩ := (Ring.valid_of_nonneg (Int.le_refl 0)).1 hvalid
              exact .inr ⟨rfl, by omega⟩

end Started

/-- Saving and restoring a ring after any run, and restoring any list, each with what it takes: the
newest index has passed the ring's length, or the slot of index 0 tells the truth. -/
theorem restore_save_iff (resMs : Int) (slots : Nat) (hres : 0 < resMs) (hslots : 0 < slots) :
    (∀ ops r, Runs.Reaches step (newRing resMs slots) ops r → (∀ i ∈ starts ops, 0 < i) →
      (Shows r (restoreTier (newRing resMs slots) r.appendTiers) ↔
        ∀ c, (starts ops).getLast? = some c →
          slots ≤ c ∨ ∀ i ∈ starts ops, ¬(slots : Int) ∣ i)) ∧
    ∀ bs, RestoredExactly resMs slots bs ↔
      (∀ b ∈ bs, ¬accepts resMs b) ∨ ∃ b ∈ bs, accepts resMs b ∧ slots ≤ b.T.tdiv resMs := by
  refine ⟨fun ops r hr hpos => ?_, restoredExactly_iff hres⟩
  exact ((Started.init resMs slots).run hpos hr).shows_iff hres hslots

theorem restore_save_minutes :
    (Shows ⟨15000, 7200, Function.update (fun _ => .zero) 5 ⟨.zero, 75000⟩, 5, true⟩
      (restoreTier (newRing 15000 7200)
        (Ring.appendTiers ⟨15000, 7200, Function.update (fun _ => .zero) 5 ⟨.zero, 75000⟩, 5,
          true⟩))) ∧
      RestoredExactly 15000 7200 [⟨.zero, 108000000⟩] := by
  refine ⟨?_, ?_⟩
  · refine (((restore_save_iff 15000 7200 (by decide) (by decide)).1 [.start 5] _
      (.cons rfl (.nil _)) ?_).2 ?_)
    · decide
    · intro c hc
      exact .inr (by decide)
  · refine ((restore_save_iff 15000 7200 (by decide) (by decide)).2 _).2 ?_
    exact .inr ⟨_, List.mem_singleton_self _, by decide, by decide⟩

/-- One bucket a tick after the epoch comes back with a bucket at the epoch, which nobody saved. -/
theorem unwritten_slot_valid : ¬RestoredExactly 15000 7200 [⟨.zero, 15000⟩] := by
  intro h
  rcases (restoredExactly_iff (by decide) _).1 h with h | h
  · exact h _ (List.mem_singleton_self _) (by decide)
  · obtain ⟨b, hb, -, hlong⟩ := h
    rw [List.mem_singleton.1 hb] at hlong
    exact absurd hlong (by decide)

theorem shows_of_forward (hres : 0 < resMs) (hslots : 0 < slots)
    (hr : Runs.Reaches step (newRing resMs slots) ops r) (hpos : ∀ i ∈ starts ops, 0 < i)
    (hforward : (starts ops).Pairwise (· < ·)) :
    Shows r (restoreTier (newRing resMs slots) r.appendTiers) := by
  have hiff := ((Started.init resMs slots).run hpos hr).shows_iff hres hslots
  rw [List.nil_append] at hiff
  refine hiff.2 fun c hc => ?_
  by_cases hlap : (slots : Int) ≤ c
  · exact .inl hlap
  · refine .inr fun i hi hdvd => ?_
    have hle : i ≤ c := by
      obtain ⟨init, hinit⟩ := List.getLast?_eq_some_iff.1 hc
      rw [hinit] at hi hforward
      rcases List.mem_append.1 hi with hi | hi
      · exact ((List.pairwise_append.1 hforward).2.2 i hi c (List.mem_singleton_self c)).le
      · exact (List.mem_singleton.1 hi).le
    have hge := Int.le_of_dvd (hpos i hi) hdvd
    omega

def Bucket.of (b : Stats.Bucket) : Bucket := ⟨b.toMeasures, b.T⟩

/-- The ring of the ladder's model, which has natural numbers for times and indices, is this one. -/
structure Agrees (r : Stats.Ring) (r' : Ring) : Prop where
  resMs : r'.resMs = r.resMs
  slots : r'.slots = r.slots
  buf : ∀ p : Nat, r'.buf p = .of (r.buf p)
  cur : r'.cur = (r.cur.map Int.ofNat).getD (-1)
  curEmpty : r'.curEmpty = r.curEmpty

namespace Agrees

variable {r : Stats.Ring} {r' : Ring}

theorem pos (h : Agrees r r') (i : Nat) : r'.pos i = r.pos i := by
  rw [Ring.pos, h.slots]
  exact (Int.ofNat_tmod i r.slots).symm

theorem cell (h : Agrees r r') (i : Nat) : r'.buf (r'.pos i) = .of (r.buf (r.pos i)) := by
  rw [h.pos, h.buf]

theorem update {buf : Nat → Stats.Bucket} {buf' : Int → Bucket}
    (h : ∀ p : Nat, buf' p = .of (buf p)) (k : Nat) (b : Stats.Bucket) (p : Nat) :
    Function.update buf' k (.of b) p = .of (Function.update buf k b p) := by
  by_cases hp : p = k
  · rw [hp, Function.update_self, Function.update_self]
  · rw [Function.update_of_ne hp, Function.update_of_ne (by omega), h]

theorem newRing (resMs slots : Nat) :
    Agrees (Stats.newRing resMs slots) (Slots.newRing resMs slots) :=
  ⟨rfl, rfl, fun _ => rfl, rfl, rfl⟩

theorem start (h : Agrees r r') (idx : Nat) :
    ∃ t', r'.start idx = some t' ∧ Agrees (r.start idx) t' := by
  refine ⟨_, if_pos (r'.pos_nonneg (Int.natCast_nonneg idx)), h.resMs, h.slots, ?_, rfl, rfl⟩
  intro p
  have hb : (⟨.zero, idx * r'.resMs⟩ : Bucket) = .of ⟨.zero, idx * r.resMs⟩ := by
    rw [h.resMs, Bucket.of, Int.natCast_mul]
  change Function.update r'.buf (r'.pos idx) _ p = .of (Function.update r.buf (r.pos idx) _ p)
  rw [hb, h.pos]
  exact update h.buf _ _ p

theorem mergeCur (h : Agrees r r') (hcur : r.cur = some c) (b : Stats.Bucket) :
    ∃ t', r'.mergeCur (.of b) = some t' ∧ Agrees (r.mergeCur b) t' := by
  have hcur' : r'.cur = c := by rw [h.cur, hcur]; rfl
  unfold Ring.mergeCur Stats.Ring.mergeCur
  rw [hcur', hcur, r'.slot_of_nonneg (Int.natCast_nonneg c), Option.map_some]
  refine ⟨_, rfl, h.resMs, h.slots, ?_, rfl, rfl⟩
  intro p
  rw [h.cell, h.pos, h.curEmpty]
  exact update h.buf _ ⟨_, _⟩ p

theorem valid (h : Agrees r r') (i : Nat) : r'.valid i = some (r.valid i) := by
  unfold Ring.valid Stats.Ring.valid
  rw [r'.slot_of_nonneg (Int.natCast_nonneg i), h.cell, h.slots, h.cur, h.resMs]
  cases r.cur with
  | none => exact if_pos (.inl (show (-1 : Int) < 0 by decide))
  | some c =>
    have hT : ((r.buf (r.pos i)).T : Int) = i * r.resMs ↔ (r.buf (r.pos i)).T = i * r.resMs := by
      rw [← Int.natCast_mul, Int.natCast_inj]
    simp only [Option.map_some, Option.getD_some, Int.ofNat_eq_natCast, Bucket.of, hT]
    split
    · rename_i hout
      refine congrArg some (Eq.symm ?_)
      simp only [Bool.and_eq_false_iff, decide_eq_false_iff_not]
      omega
    · rename_i hin
      refine congrArg some (Eq.symm ?_)
      rw [decide_eq_true (by omega : i ≤ c), decide_eq_true (by omega : c < i + r.slots)]
      rfl

theorem mem_image (h : Agrees r r') : b ∈ r'.appendTiers ↔ ∃ b₀ ∈ r.image, .of b₀ = b := by
  rw [Ring.mem_appendTiers]
  constructor
  · intro hb
    obtain ⟨i, hi, hvalid, hb⟩ := hb
    obtain ⟨i, rfl⟩ := Int.eq_ofNat_of_zero_le hi
    rw [h.valid, Option.some.injEq] at hvalid
    exact ⟨_, Stats.Ring.mem_image.2 ⟨i, hvalid, rfl⟩, (h.cell i).symm.trans hb⟩
  · intro hb
    obtain ⟨b₀, hb₀, hb⟩ := hb
    obtain ⟨i, hvalid, hslot⟩ := Stats.Ring.mem_image.1 hb₀
    refine ⟨i, Int.natCast_nonneg i, ?_, ?_⟩
    · rw [h.valid, hvalid]
    · rw [h.cell, hslot, hb]

theorem accepts_iff (r : Stats.Ring) (b : Stats.Bucket) :
    (Bucket.of b).T ≤ 0 ∨ (Bucket.of b).T.tmod r.resMs ≠ 0 ↔ ¬r.accepts b = true := by
  have hmod : ((b.T : Int).tmod r.resMs = 0) ↔ b.T % r.resMs = 0 := by
    rw [← Int.ofNat_tmod, Int.natCast_eq_zero]
  simp only [Bucket.of, Stats.Ring.accepts, Bool.and_eq_true, decide_eq_true_eq, ne_eq, hmod]
  omega

theorem tdiv_of (r : Stats.Ring) (b : Stats.Bucket) :
    (Bucket.of b).T.tdiv r.resMs = (b.T / r.resMs : Nat) :=
  (Int.ofNat_tdiv b.T r.resMs).symm

theorem newest (r : Stats.Ring) (bs : List Stats.Bucket) :
    newestOf r.resMs (bs.map .of) =
      ((((bs.filter r.accepts).map fun b => b.T / r.resMs).max?).map Int.ofNat).getD (-1) := by
  obtain ⟨hfrom, hmax⟩ := newestOf_cases r.resMs (bs.map .of)
  have hle : ∀ b ∈ bs, r.accepts b = true →
      ((b.T / r.resMs : Nat) : Int) ≤ newestOf r.resMs (bs.map .of) := by
    intro b hb hacc
    rw [← tdiv_of]
    exact hmax _ (List.mem_map_of_mem hb) fun hskip => (accepts_iff r b).1 hskip hacc
  cases hmem : ((bs.filter r.accepts).map fun b => b.T / r.resMs).max? with
  | none =>
    rw [List.max?_eq_none_iff, List.map_eq_nil_iff, List.filter_eq_nil_iff] at hmem
    rcases hfrom with hfrom | hfrom
    · exact hfrom
    · obtain ⟨b', hb', hacc, -⟩ := hfrom
      obtain ⟨b, hb, rfl⟩ := List.mem_map.1 hb'
      exact absurd ((accepts_iff r b).2 (hmem b hb)) hacc
  | some n =>
    obtain ⟨hn, hall⟩ := List.max?_eq_some_iff.1 hmem
    obtain ⟨b, hb, hidx⟩ := List.mem_map.1 hn
    obtain ⟨hb, hacc⟩ := List.mem_filter.1 hb
    have hge := hle b hb hacc
    rw [hidx] at hge
    change newestOf r.resMs (bs.map .of) = (n : Int)
    rcases hfrom with hfrom | hfrom
    · omega
    · obtain ⟨b₁, hb₁, hacc₁, hidx'⟩ := hfrom
      obtain ⟨b', hb', rfl⟩ := List.mem_map.1 hb₁
      have hacc' : r.accepts b' = true := by
        by_contra hskip
        exact hacc₁ ((accepts_iff r b').2 hskip)
      have hbound := hall _ (List.mem_map_of_mem (List.mem_filter.2 ⟨hb', hacc'⟩))
      rw [tdiv_of] at hidx'
      omega

theorem place (h : Agrees r r') (n : Nat) (bs : List Stats.Bucket) (p : Nat) :
    placeAll r' (n - r.slots + 1) (bs.map .of) p =
      .of (((bs.filter r.accepts).filter fun b => n + 1 - r.slots ≤ b.T / r.resMs).foldl
        (fun buf b => Function.update buf (r.pos (b.T / r.resMs)) b) r.buf p) := by
  have hstep (bs : List Stats.Bucket) (buf : Nat → Stats.Bucket) (buf' : Int → Bucket)
      (hbuf : ∀ p : Nat, buf' p = .of (buf p)) :
      placeAll { r' with buf := buf' } (n - r.slots + 1) (bs.map .of) p =
        .of (((bs.filter r.accepts).filter fun b => n + 1 - r.slots ≤ b.T / r.resMs).foldl
          (fun buf b => Function.update buf (r.pos (b.T / r.resMs)) b) buf p) := by
    induction bs generalizing buf buf' with
    | nil => exact hbuf p
    | cons b bs ih =>
      unfold placeAll at ih ⊢
      simp only [List.map_cons, List.foldl_cons, h.resMs, List.filter_cons] at ih ⊢
      by_cases hacc : r.accepts b = true
      · rw [if_neg (fun hskip => (accepts_iff r b).1 hskip hacc), if_pos hacc, tdiv_of,
          List.filter_cons]
        have hidx := Int.natCast_nonneg (b.T / r.resMs)
        have hpos : ({ r' with buf := buf' } : Ring).pos (b.T / r.resMs : Nat) =
            r.pos (b.T / r.resMs) := h.pos _
        simp only [h.resMs] at hpos
        by_cases hfloor : n + 1 - r.slots ≤ b.T / r.resMs
        · rw [if_neg (by omega), if_pos (decide_eq_true hfloor), List.foldl_cons, hpos]
          exact ih _ _ (update hbuf _ _)
        · rw [if_pos (by omega), if_neg (by simpa using hfloor)]
          exact ih _ _ hbuf
      · rw [if_pos ((accepts_iff r b).2 hacc), if_neg hacc]
        exact ih _ _ hbuf
  exact hstep bs r.buf r'.buf h.buf

theorem restore (h : Agrees r r') (bs : List Stats.Bucket) :
    Agrees (Stats.restoreTier r bs) (restoreTier r' (bs.map .of)) := by
  have hnew := newest r bs
  unfold restoreTier Stats.restoreTier
  rw [h.resMs, hnew]
  cases ((bs.filter r.accepts).map fun b => b.T / r.resMs).max? with
  | none =>
    change Agrees r (if (-1 : Int) < 0 then r' else _)
    rw [if_pos (show (-1 : Int) < 0 by decide)]
    exact h
  | some n =>
    change Agrees _ (if (n : Int) < 0 then r' else _)
    rw [if_neg (Int.not_lt.2 (Int.natCast_nonneg n))]
    refine ⟨rfl, h.slots, fun p => ?_, rfl, rfl⟩
    rw [h.slots]
    exact h.place n bs p

end Agrees

end ProxyForward.Stats.Slots

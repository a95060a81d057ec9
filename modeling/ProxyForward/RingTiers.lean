import ProxyForward.Cascade
import ProxyForward.History

namespace ProxyForward.Stats
set_option autoImplicit true

open Cascade

theorem mergeRate_assoc (a b c : OHLC) :
    mergeRate (mergeRate a b) c = mergeRate a (mergeRate b c) := by
  simp only [mergeRate, max_assoc, min_assoc]

theorem mergeGauge_assoc (a b c : OHLC) :
    mergeGauge (mergeGauge a b) c = mergeGauge a (mergeGauge b c) := by
  unfold mergeGauge
  by_cases hc : c.c < 0
  · simp only [if_pos hc]
  · by_cases hb : b.c < 0
    · simp only [if_pos hb, if_neg hc]
    · by_cases ha : a.c < 0
      · simp only [if_pos ha, if_neg hb, if_neg hc]
      · simp only [if_neg ha, if_neg hb, if_neg hc, max_assoc, min_assoc]

instance : Std.Associative Measures.merge where
  assoc a b c := by
    simp only [Measures.merge, mergeRate_assoc, mergeGauge_assoc, Int.add_assoc]

def Bucket.point (b : Bucket) : Nat × Measures := (b.T, b.toMeasures)

namespace Ring

/-- What one tier does with a point. -/
def put (r : Ring) (b : Bucket) : Ring :=
  let idx := b.T / r.resMs
  match r.cur with
  | none => (r.start idx).mergeCur b
  | some cur =>
    if cur < idx then (r.start idx).mergeCur b
    else if idx < cur then r
    else r.mergeCur b

/-- The bucket that a point completes. -/
def completed (r : Ring) (b : Bucket) : Option Bucket :=
  match r.cur with
  | none => none
  | some cur => if cur < b.T / r.resMs then some (r.buf (r.pos cur)) else none

/-- The buckets that some points complete. -/
def completedBy (r : Ring) : List Bucket → List Bucket
  | [] => []
  | b :: bs => (r.completed b).toList ++ (r.put b).completedBy bs

end Ring

theorem add_cons (r : Ring) (rs : List Ring) (b : Bucket) :
    add (r :: rs) b = r.put b :: (r.completed b).toList.foldl add rs := by
  unfold add Ring.put Ring.completed
  cases r.cur with
  | none => rfl
  | some cur =>
    simp only
    split
    · rfl
    · split <;> rfl

theorem foldl_add (r : Ring) (rs : List Ring) (bs : List Bucket) :
    bs.foldl add (r :: rs) = bs.foldl Ring.put r :: (r.completedBy bs).foldl add rs := by
  induction bs generalizing r rs with
  | nil => rfl
  | cons b bs ih =>
    rw [List.foldl_cons, add_cons, ih, Ring.completedBy, List.foldl_append, List.foldl_cons]

/-- All buckets that each tier has completed. -/
def completedTiers : List Ring → List Bucket → List (List Bucket)
  | [], _ => []
  | r :: rs, bs => r.completedBy bs :: completedTiers rs (r.completedBy bs)

namespace Ring

theorem start_mergeCur (r : Ring) (idx : Nat) (b : Bucket) : (r.start idx).mergeCur b =
    { r with
      cur := some idx
      buf := Function.update r.buf (r.pos idx) ⟨b.toMeasures, idx * r.resMs⟩
      curEmpty := false } := by
  simp only [mergeCur, start, pos, Function.update_self, Function.update_idem, if_true,
    Measures.zero, Int.zero_add]

theorem mergeCur_of_filling {r : Ring} (hcur : r.cur = some i) (hempty : r.curEmpty = false)
    (hbuf : r.buf (r.pos i) = ⟨m, t⟩) (b : Bucket) : r.mergeCur b =
      { r with buf := Function.update r.buf (r.pos i) ⟨m.merge b.toMeasures, t⟩ } := by
  simp only [mergeCur, hcur, hempty, hbuf, Bool.false_eq_true, if_false]

theorem pos_ne {r : Ring} (hlt : i < j) (hnear : j < i + r.slots) : r.pos i ≠ r.pos j := by
  intro h
  have hmod : (j - i) % r.slots = 0 := Nat.sub_mod_eq_zero_of_mod_eq h.symm
  rw [Nat.mod_eq_of_lt (by omega)] at hmod
  omega

/-- A ring holds the buckets of a tier that it has not overwritten, and none but these. -/
structure Mirrors (r : Ring) (tier : Tier Measures) : Prop where
  cur : r.cur = tier.last.map Prod.fst
  filling : ∀ i m, tier.last = some (i, m) →
    r.curEmpty = false ∧ r.buf (r.pos i) = ⟨m, i * r.resMs⟩
  starts : ∀ b ∈ tier.closed, ∃ i m, tier.last = some (i, m) ∧ b.1 / r.resMs < i ∧
    b.1 / r.resMs * r.resMs = b.1
  kept : ∀ b ∈ tier.closed, ∀ i m, tier.last = some (i, m) → i < b.1 / r.resMs + r.slots →
    r.buf (r.pos (b.1 / r.resMs)) = ⟨b.2, b.1⟩
  written : ∀ p, r.buf p = ⟨.zero, 0⟩ ∨ (∃ b ∈ tier.closed, r.buf p = ⟨b.2, b.1⟩) ∨
    ∃ i m, tier.last = some (i, m) ∧ p = r.pos i

theorem newRing_mirrors (resMs slots : Nat) : (newRing resMs slots).Mirrors Tier.empty where
  cur := rfl
  filling _ _ h := nomatch h
  starts _ hb := absurd hb List.not_mem_nil
  kept _ hb := absurd hb List.not_mem_nil
  written _ := .inl rfl

theorem Mirrors.start {r : Ring} (hres : 0 < r.resMs) (h : r.Mirrors tier) (idx : Nat)
    (hlt : ∀ i m, tier.last = some (i, m) → i < idx) (b : Bucket) :
    ((r.start idx).mergeCur b).Mirrors
      ⟨tier.closed ++ (tier.last.map fun last => (last.1 * r.resMs, last.2)).toList,
        some (idx, b.toMeasures)⟩ := by
  rw [start_mergeCur]
  have hpos (i : Nat) : ({ r with
      cur := some idx
      buf := Function.update r.buf (r.pos idx) ⟨b.toMeasures, idx * r.resMs⟩
      curEmpty := false } : Ring).pos i = r.pos i := rfl
  have hclosed : ∀ c ∈ (tier.last.map fun last => (last.1 * r.resMs, last.2)).toList,
      ∃ i m, tier.last = some (i, m) ∧ c = (i * r.resMs, m) := by
    intro c hc
    obtain ⟨⟨i, m⟩, hlast, rfl⟩ := Option.map_eq_some_iff.1 (Option.mem_toList.1 hc)
    exact ⟨i, m, hlast, rfl⟩
  constructor
  · rfl
  · intro i m heq
    obtain ⟨rfl, rfl⟩ := Prod.mk.inj (Option.some.inj heq)
    exact ⟨rfl, Function.update_self ..⟩
  · intro c hc
    refine ⟨idx, b.toMeasures, rfl, ?_⟩
    obtain hc | hc := List.mem_append.1 hc
    · obtain ⟨i, m, hlast, hi, hc⟩ := h.starts c hc
      exact ⟨hi.trans (hlt i m hlast), hc⟩
    · obtain ⟨i, m, hlast, rfl⟩ := hclosed c hc
      simp only [Nat.mul_div_cancel i hres]
      exact ⟨hlt i m hlast, trivial⟩
  · intro c hc j m heq hnear
    obtain ⟨rfl, -⟩ := Prod.mk.inj (Option.some.inj heq)
    simp only [hpos] at hnear ⊢
    obtain hc | hc := List.mem_append.1 hc
    · obtain ⟨i, m, hlast, hi, -⟩ := h.starts c hc
      have hidx := hlt i m hlast
      rw [Function.update_of_ne (pos_ne (by omega) hnear)]
      exact h.kept c hc i m hlast (by omega)
    · obtain ⟨i, m, hlast, rfl⟩ := hclosed c hc
      have hidx := hlt i m hlast
      simp only [Nat.mul_div_cancel i hres] at hnear ⊢
      rw [Function.update_of_ne (pos_ne hidx hnear)]
      exact (h.filling i m hlast).2
  · intro p
    by_cases hp : p = r.pos idx
    · subst hp
      exact .inr (.inr ⟨idx, b.toMeasures, rfl, rfl⟩)
    · simp only [Function.update_of_ne hp]
      obtain hzero | ⟨c, hc, hbuf⟩ | ⟨i, m, hlast, rfl⟩ := h.written p
      · exact .inl hzero
      · exact .inr (.inl ⟨c, List.mem_append_left _ hc, hbuf⟩)
      · refine .inr (.inl ⟨(i * r.resMs, m), List.mem_append_right _ ?_, (h.filling i m hlast).2⟩)
        rw [hlast]
        exact List.mem_singleton.2 rfl

theorem Mirrors.merge {r : Ring} (h : r.Mirrors tier) (hlast : tier.last = some (i, m))
    (b : Bucket) :
    (r.mergeCur b).Mirrors { tier with last := some (i, m.merge b.toMeasures) } := by
  have hcur : r.cur = some i := by
    rw [h.cur, hlast]
    rfl
  obtain ⟨hempty, hbuf⟩ := h.filling i m hlast
  rw [mergeCur_of_filling hcur hempty hbuf]
  have hpos (i : Nat) : ({ r with
      buf := Function.update r.buf (r.pos i) ⟨m.merge b.toMeasures, i * r.resMs⟩ } : Ring).pos i =
    r.pos i := rfl
  constructor
  · exact hcur
  · intro j m' heq
    obtain ⟨rfl, rfl⟩ := Prod.mk.inj (Option.some.inj heq)
    exact ⟨hempty, Function.update_self ..⟩
  · intro c hc
    obtain ⟨j, m', hlast', hc⟩ := h.starts c hc
    obtain ⟨rfl, -⟩ := Prod.mk.inj (Option.some.inj (hlast.symm.trans hlast'))
    exact ⟨i, _, rfl, hc⟩
  · intro c hc j m' heq hnear
    obtain ⟨rfl, -⟩ := Prod.mk.inj (Option.some.inj heq)
    obtain ⟨j, m', hlast', hlt, -⟩ := h.starts c hc
    obtain ⟨rfl, -⟩ := Prod.mk.inj (Option.some.inj (hlast.symm.trans hlast'))
    exact (Function.update_of_ne (pos_ne hlt hnear) ..).trans (h.kept c hc i m hlast hnear)
  · intro p
    by_cases hp : p = r.pos i
    · subst hp
      exact .inr (.inr ⟨i, _, rfl, rfl⟩)
    · simp only [Function.update_of_ne hp]
      obtain hzero | hc | ⟨j, m', hlast', rfl⟩ := h.written p
      · exact .inl hzero
      · exact .inr (.inl hc)
      · obtain ⟨rfl, rfl⟩ := Prod.mk.inj (Option.some.inj (hlast.symm.trans hlast'))
        exact absurd rfl hp

theorem Mirrors.put {r : Ring} (hres : 0 < r.resMs) (h : r.Mirrors tier) (b : Bucket) :
    (r.put b).Mirrors (tier.feed Measures.merge r.resMs b.point) ∧
      (tier.feed Measures.merge r.resMs b.point).closed =
        tier.closed ++ (r.completed b).toList.map Bucket.point := by
  unfold Tier.feed Ring.put Ring.completed
  rw [h.cur]
  cases hlast : tier.last with
  | none =>
    have hstart := h.start hres (b.T / r.resMs) (by simp [hlast]) b
    rw [hlast] at hstart
    simp only [Option.map_none, Option.toList_none, List.append_nil, List.map_nil] at hstart ⊢
    exact ⟨hstart, trivial⟩
  | some last =>
    obtain ⟨i, m⟩ := last
    have hpoint : Bucket.point (r.buf (r.pos i)) = (i * r.resMs, m) := by
      rw [(h.filling i m hlast).2]
      rfl
    simp only [Option.map_some]
    by_cases hnext : i < b.T / r.resMs
    · have hstart := h.start hres (b.T / r.resMs) (by simpa [hlast] using hnext) b
      rw [hlast] at hstart
      have hnext' : i < b.point.1 / r.resMs := hnext
      simp only [if_pos hnext, if_pos hnext', Option.toList_some, List.map_singleton, hpoint]
      exact ⟨hstart, trivial⟩
    · have hnext' : ¬i < b.point.1 / r.resMs := hnext
      simp only [if_neg hnext, if_neg hnext', Option.toList_none, List.map_nil, List.append_nil]
      by_cases hbefore : b.T / r.resMs < i
      · have hbefore' : b.point.1 / r.resMs < i := hbefore
        simp only [if_pos hbefore, if_pos hbefore']
        exact ⟨h, trivial⟩
      · have hbefore' : ¬b.point.1 / r.resMs < i := hbefore
        simp only [if_neg hbefore, if_neg hbefore']
        exact ⟨h.merge hlast b, trivial⟩

theorem put_resMs (r : Ring) (b : Bucket) :
    (r.put b).resMs = r.resMs ∧ (r.put b).slots = r.slots := by
  have hmerge (r : Ring) : (r.mergeCur b).resMs = r.resMs ∧ (r.mergeCur b).slots = r.slots := by
    unfold mergeCur
    split <;> exact ⟨rfl, rfl⟩
  unfold put
  split
  · exact hmerge _
  · simp only
    split
    · exact hmerge _
    · split
      · exact ⟨rfl, rfl⟩
      · exact hmerge _

theorem Mirrors.foldl {r : Ring} (hres : 0 < r.resMs) (h : r.Mirrors tier) (bs : List Bucket) :
    (bs.foldl Ring.put r).Mirrors
    ((bs.map Bucket.point).foldl (Tier.feed Measures.merge r.resMs) tier) ∧
      ((bs.map Bucket.point).foldl (Tier.feed Measures.merge r.resMs) tier).closed =
        tier.closed ++ (r.completedBy bs).map Bucket.point := by
  induction bs generalizing r tier with
  | nil => exact ⟨h, (List.append_nil _).symm⟩
  | cons b bs ih =>
    obtain ⟨hput, hclosed⟩ := h.put hres b
    have hsame := (r.put_resMs b).1
    obtain ⟨hrest, hclosed'⟩ := ih (hsame ▸ hres) hput
    rw [hsame] at hrest hclosed'
    refine ⟨hrest, hclosed'.trans ?_⟩
    rw [hclosed, completedBy, List.map_append, List.append_assoc]

end Ring

theorem mirrors_ladder (specs : List TierSpec) (hres : ∀ ts ∈ specs, 0 < ts.resMs)
    (bs : List Bucket) :
    List.Forall₂ Ring.Mirrors (bs.foldl add (specs.map fun ts => newRing ts.resMs ts.slots))
        (ladder Measures.merge (specs.map TierSpec.resMs) (bs.map Bucket.point)) ∧
      (completedTiers (specs.map fun ts => newRing ts.resMs ts.slots) bs).map
          (List.map Bucket.point) =
        (ladder Measures.merge (specs.map TierSpec.resMs) (bs.map Bucket.point)).map
          Tier.closed := by
  induction specs generalizing bs with
  | nil =>
    have hnil : bs.foldl add [] = [] := by
      induction bs with
      | nil => rfl
      | cons b bs ih => exact ih
    simp only [List.map_nil, hnil]
    exact ⟨.nil, rfl⟩
  | cons ts specs ih =>
    obtain ⟨hmirrors, hclosed⟩ := (Ring.newRing_mirrors ts.resMs ts.slots).foldl
      (hres ts List.mem_cons_self) bs
    obtain ⟨hrest, hcompleted⟩ := ih (fun ts hts => hres ts (List.mem_cons_of_mem _ hts))
      ((newRing ts.resMs ts.slots).completedBy bs)
    have hpoints : ((newRing ts.resMs ts.slots).completedBy bs).map Bucket.point =
        ((bs.map Bucket.point).foldl (Tier.feed Measures.merge ts.resMs) Tier.empty).closed :=
      hclosed.symm
    rw [hpoints] at hrest hcompleted
    rw [List.map_cons, List.map_cons, foldl_add, completedTiers, List.map_cons, ladder,
      List.map_cons]
    exact ⟨.cons hmirrors hrest, by rw [hpoints, hcompleted]⟩

end ProxyForward.Stats

import Mathlib.Algebra.BigOperators.Group.List.Basic
import Mathlib.Algebra.Ring.Int.Defs
import Mathlib.Data.List.Induction
import Mathlib.Data.Nat.Basic

namespace ProxyForward.Cascade
set_option autoImplicit true

/-! Timed values, folded into buckets, and the buckets into wider ones. -/

section

variable {M : Type} (op : M → M → M)

/-- The values merged in order, if there are any. -/
def merged (ms : List M) : Option M := ms.foldl (fun acc m => Option.merge op acc (some m)) none

/-- The values from `a` on and before `b`, merged. -/
def spanMerged (a b : Nat) (ps : List (Nat × M)) : Option M :=
  merged op ((ps.filter fun p => a ≤ p.1 ∧ p.1 < b).map Prod.snd)

/-- A tier of buckets of one width: those it has closed, by start time, and the one it is filling,
by index. -/
structure Tier (M : Type) where
  closed : List (Nat × M)
  last : Option (Nat × M)

def Tier.empty : Tier M := ⟨[], none⟩

def Tier.feed (w : Nat) (tier : Tier M) (p : Nat × M) : Tier M :=
  match tier.last with
  | none => { tier with last := some (p.1 / w, p.2) }
  | some (i, m) =>
    if i < p.1 / w then ⟨tier.closed ++ [(i * w, m)], some (p.1 / w, p.2)⟩
    else if p.1 / w < i then tier
    else { tier with last := some (i, op m p.2) }

/-- Points in the order of their times, no two of one time. -/
def Timed (ps : List (Nat × M)) : Prop := (ps.map Prod.fst).Pairwise (· < ·)

/-- The buckets `bs` of width `w` hold what the points hold before `cut`. -/
structure Represents (w cut : Nat) (ps bs : List (Nat × M)) : Prop where
  timed : Timed bs
  aligned : w ∣ cut
  starts : ∀ b ∈ bs, w ∣ b.1 ∧ b.1 < cut
  spans : ∀ a b, w ∣ a → w ∣ b → b ≤ cut → spanMerged op a b bs = spanMerged op a b ps

theorem merge_assoc [Std.Associative op] (a b c : Option M) :
    Option.merge op (Option.merge op a b) c = Option.merge op a (Option.merge op b c) :=
  Std.Associative.assoc a b c

theorem merged_append [Std.Associative op] (ms ms' : List M) :
    merged op (ms ++ ms') = Option.merge op (merged op ms) (merged op ms') := by
  have hfold (acc : Option M) : ms'.foldl (fun acc m => Option.merge op acc (some m)) acc =
      Option.merge op acc (merged op ms') := by
    induction ms' generalizing acc with
    | nil => exact (Option.merge_none_right).symm
    | cons m ms' ih =>
      have hcons : merged op (m :: ms') = Option.merge op (some m) (merged op ms') := by
        rw [merged, List.foldl_cons, Option.merge_none_left, ih]
      rw [List.foldl_cons, ih, hcons, merge_assoc]
  rw [merged, List.foldl_append, hfold]
  rfl

theorem merged_map {N : Type} {op' : N → N → N} {φ : M → N}
    (h : ∀ m m', φ (op m m') = op' (φ m) (φ m')) (ms : List M) :
    (merged op ms).map φ = merged op' (ms.map φ) := by
  have hfold (acc : Option M) :
      (ms.foldl (fun acc m => Option.merge op acc (some m)) acc).map φ =
        (ms.map φ).foldl (fun acc n => Option.merge op' acc (some n)) (acc.map φ) := by
    induction ms generalizing acc with
    | nil => rfl
    | cons m ms ih =>
      rw [List.foldl_cons, ih, List.map_cons, List.foldl_cons]
      cases acc with
      | none => rfl
      | some acc => exact congrArg (List.foldl _ · _) (congrArg some (h acc m))
  exact hfold none

theorem merged_add (ms : List Int) : (merged (· + ·) ms).getD 0 = ms.sum := by
  induction ms using List.reverseRecOn with
  | nil => rfl
  | append_singleton ms m ih =>
    rw [merged, List.foldl_append, List.sum_append, ← ih, ← merged]
    cases merged (· + ·) ms <;> simp [Option.merge]

theorem spanMerged_append [Std.Associative op] (a b : Nat) (ps qs : List (Nat × M)) :
    spanMerged op a b (ps ++ qs) = Option.merge op (spanMerged op a b ps)
      (spanMerged op a b qs) := by
  rw [spanMerged, List.filter_append, List.map_append, merged_append]
  rfl

theorem spanMerged_singleton (a b : Nat) (p : Nat × M) :
    spanMerged op a b [p] = if a ≤ p.1 ∧ p.1 < b then some p.2 else none := by
  unfold spanMerged
  by_cases h : a ≤ p.1 ∧ p.1 < b
  · rw [if_pos h]
    simp [h.1, h.2, merged]
  · rw [if_neg h, List.filter_cons_of_neg (by simpa using h)]
    rfl

theorem spanMerged_congr (h : ∀ p ∈ ps, (a ≤ p.1 ∧ p.1 < b) ↔ (a' ≤ p.1 ∧ p.1 < b')) :
    spanMerged op a b ps = spanMerged op a' b' ps := by
  have hfilter : ps.filter (fun p => decide (a ≤ p.1 ∧ p.1 < b)) =
      ps.filter fun p => decide (a' ≤ p.1 ∧ p.1 < b') :=
    List.filter_congr fun p hp => decide_eq_decide.2 (h p hp)
  rw [spanMerged, hfilter, spanMerged]

theorem spanMerged_eq_none (h : ∀ p ∈ ps, ¬(a ≤ p.1 ∧ p.1 < b)) : spanMerged op a b ps = none := by
  have hfilter : ps.filter (fun p => decide (a ≤ p.1 ∧ p.1 < b)) = [] :=
    List.filter_eq_nil_iff.2 fun p hp => by simpa only [decide_eq_true_eq] using h p hp
  rw [spanMerged, hfilter]
  rfl

theorem not_within_of_spanMerged (h : spanMerged op a b ps = none) (hp : p ∈ ps) :
    ¬(a ≤ p.1 ∧ p.1 < b) := by
  intro hspan
  have hmem : p.2 ∈ (ps.filter fun p => decide (a ≤ p.1 ∧ p.1 < b)).map Prod.snd :=
    List.mem_map_of_mem (List.mem_filter.2 ⟨hp, decide_eq_true hspan⟩)
  rw [spanMerged] at h
  generalize (ps.filter fun p => decide (a ≤ p.1 ∧ p.1 < b)).map Prod.snd = ms at h hmem
  cases ms using List.reverseRecOn with
  | nil => exact absurd hmem List.not_mem_nil
  | append_singleton ms m =>
    rw [merged, List.foldl_append] at h
    exact absurd (Option.merge_eq_none_iff.1 h).2 (Option.some_ne_none m)

theorem exists_of_spanMerged (h : spanMerged op a b ps = some m) : ∃ p ∈ ps, a ≤ p.1 ∧ p.1 < b := by
  by_contra hno
  have hnone := spanMerged_eq_none op fun p hp hspan => hno ⟨p, hp, hspan⟩
  rw [h] at hnone
  cases hnone

theorem spanMerged_split [Std.Associative op] (hps : Timed ps) (hac : a ≤ c) (hcb : c ≤ b) :
    spanMerged op a b ps = Option.merge op (spanMerged op a c ps) (spanMerged op c b ps) := by
  induction ps with
  | nil => rfl
  | cons p ps ih =>
    obtain ⟨hlt, hps⟩ := List.pairwise_cons.1 hps
    have hcons (a b : Nat) := spanMerged_append op a b [p] ps
    rw [List.singleton_append] at hcons
    rw [hcons, hcons, hcons, ih hps]
    simp only [spanMerged_singleton]
    by_cases hp : p.1 < c
    · have hno : ¬(c ≤ p.1 ∧ p.1 < b) := by omega
      rw [if_neg hno, Option.merge_none_left, merge_assoc]
      congr 1
      exact if_congr (by omega) rfl rfl
    · have hnone : spanMerged op a c ps = none := by
        refine spanMerged_eq_none op fun q hq => ?_
        have := hlt q.1 (List.mem_map_of_mem hq)
        omega
      have hno : ¬(a ≤ p.1 ∧ p.1 < c) := by omega
      rw [if_neg hno, hnone, Option.merge_none_left, Option.merge_none_left, Option.merge_none_left]
      congr 1
      exact if_congr (by omega) rfl rfl

theorem next_multiple {w a i : Nat} (ha : w ∣ a) (h : i * w < a) : i * w + w ≤ a := by
  obtain ⟨k, rfl⟩ := ha
  rw [Nat.mul_comm w k] at h ⊢
  rw [← Nat.succ_mul]
  exact Nat.mul_le_mul_right w (Nat.lt_of_mul_lt_mul_right h)

/-- What a tier holds of the points fed to it. -/
def Tier.Holds (w : Nat) (ps : List (Nat × M)) (tier : Tier M) : Prop :=
  match tier.last with
  | none => ps = [] ∧ tier.closed = []
  | some (i, m) => Represents op w (i * w) ps tier.closed ∧
      spanMerged op (i * w) (i * w + w) ps = some m ∧ ∀ p ∈ ps, p.1 < i * w + w

theorem Represents.none_closed (hcut : w ∣ cut) (h : ∀ p ∈ ps, cut ≤ p.1) :
    Represents op w cut ps [] where
  timed := List.Pairwise.nil
  aligned := hcut
  starts b hb := absurd hb List.not_mem_nil
  spans a b _ _ hb := by
    rw [spanMerged_eq_none op (fun p hp => absurd hp List.not_mem_nil)]
    refine (spanMerged_eq_none op fun p hp => ?_).symm
    have := h p hp
    omega

theorem Represents.concat [Std.Associative op] (h : Represents op w cut ps bs) (hp : cut ≤ p.1) :
    Represents op w cut (ps ++ [p]) bs where
  timed := h.timed
  aligned := h.aligned
  starts := h.starts
  spans a b ha hb hcut := by
    rw [h.spans a b ha hb hcut, spanMerged_append, spanMerged_singleton, if_neg (by omega),
      Option.merge_none_right]

theorem Represents.close [Std.Associative op] (hps : Timed ps) (h : Represents op w (i * w) ps bs)
    (hm : spanMerged op (i * w) (i * w + w) ps = some m) (hall : ∀ p ∈ ps, p.1 < i * w + w)
    (hw : 0 < w) (hij : i < j) : Represents op w (j * w) ps (bs ++ [(i * w, m)]) where
  timed := by
    rw [Timed, List.map_append, List.pairwise_append]
    refine ⟨h.timed, List.pairwise_singleton _ _, fun s hs s' hs' => ?_⟩
    obtain ⟨b, hb, rfl⟩ := List.mem_map.1 hs
    rw [List.map_singleton, List.mem_singleton] at hs'
    rw [hs']
    exact (h.starts b hb).2
  aligned := Dvd.intro_left j rfl
  starts b hb := by
    have hlt : i * w + w ≤ j * w := by
      rw [← Nat.succ_mul]
      exact Nat.mul_le_mul_right w hij
    obtain hb | hb := List.mem_append.1 hb
    · have := (h.starts b hb).2
      exact ⟨(h.starts b hb).1, by omega⟩
    · rw [List.mem_singleton] at hb
      subst hb
      exact ⟨Dvd.intro_left i rfl, by omega⟩
  spans a b ha hb hcut := by
    rw [spanMerged_append, spanMerged_singleton]
    by_cases hbi : b ≤ i * w
    · rw [if_neg (by omega), Option.merge_none_right, h.spans a b ha hb hbi]
    · have hbw : i * w + w ≤ b := next_multiple hb (by omega)
      by_cases hai : a ≤ i * w
      · have hbefore : spanMerged op a b bs = spanMerged op a (i * w) ps := by
          rw [← h.spans a (i * w) ha h.aligned le_rfl]
          refine spanMerged_congr op fun q hq => ?_
          have := (h.starts q hq).2
          omega
        have hafter : spanMerged op (i * w) b ps = some m := by
          rw [← hm]
          refine spanMerged_congr op fun q hq => ?_
          have := hall q hq
          omega
        rw [if_pos ⟨hai, by omega⟩, hbefore, spanMerged_split op hps hai
          (by omega : i * w ≤ b), hafter]
      · have haw : i * w + w ≤ a := next_multiple ha (by omega)
        rw [if_neg (by omega), Option.merge_none_right, spanMerged_eq_none, spanMerged_eq_none]
        · intro q hq
          have := hall q hq
          omega
        · intro q hq
          have := (h.starts q hq).2
          omega

theorem Tier.Holds.feed [Std.Associative op] {tier : Tier M} (hw : 0 < w) (hps : Timed ps)
    (h : tier.Holds op w ps) (hp : ∀ q ∈ ps, q.1 < p.1) :
    (tier.feed op w p).Holds op w (ps ++ [p]) := by
  have hle : p.1 / w * w ≤ p.1 := Nat.div_mul_le_self ..
  have hlt : p.1 < p.1 / w * w + w := Nat.lt_div_mul_add hw
  have hconcat (i : Nat) (h : ∀ q ∈ ps, q.1 < i * w + w) (hp : p.1 < i * w + w) :
      ∀ q ∈ ps ++ [p], q.1 < i * w + w := by
    intro q hq
    obtain hq | hq := List.mem_append.1 hq
    · exact h q hq
    · exact List.mem_singleton.1 hq ▸ hp
  unfold Tier.Holds at h
  unfold Tier.feed
  cases hlast : tier.last with
  | none =>
    simp only [hlast] at h
    obtain ⟨rfl, hclosed⟩ := h
    simp only [Tier.Holds, hclosed, List.nil_append]
    refine ⟨.none_closed op (Dvd.intro_left _ rfl) fun q hq => List.mem_singleton.1 hq ▸ hle, ?_,
      fun q hq => List.mem_singleton.1 hq ▸ hlt⟩
    rw [spanMerged_singleton, if_pos ⟨hle, hlt⟩]
  | some last =>
    obtain ⟨i, m⟩ := last
    simp only [hlast] at h
    obtain ⟨hreps, hm, hall⟩ := h
    by_cases hnext : i < p.1 / w
    · have hiw : i * w + w ≤ p.1 / w * w := by
        rw [← Nat.succ_mul]
        exact Nat.mul_le_mul_right w hnext
      simp only [Tier.Holds, if_pos hnext]
      refine ⟨(hreps.close op hps hm hall hw hnext).concat op hle, ?_, ?_⟩
      · rw [spanMerged_append, spanMerged_singleton, if_pos ⟨hle, hlt⟩, spanMerged_eq_none,
          Option.merge_none_left]
        intro q hq
        have := hall q hq
        omega
      · refine hconcat _ (fun q hq => ?_) hlt
        have := hall q hq
        omega
    · have hnotBefore : i * w ≤ p.1 := by
        obtain ⟨q, hq, hge, -⟩ := exists_of_spanMerged op hm
        have := hp q hq
        omega
      have hi : p.1 / w = i :=
        le_antisymm (not_lt.1 hnext) ((Nat.le_div_iff_mul_le hw).2 hnotBefore)
      simp only [Tier.Holds, if_neg hnext, if_neg (by omega : ¬p.1 / w < i)]
      refine ⟨hreps.concat op hnotBefore, ?_, hconcat _ hall (hi ▸ hlt)⟩
      rw [spanMerged_append, hm, spanMerged_singleton, if_pos ⟨hnotBefore, hi ▸ hlt⟩]
      rfl

theorem Tier.holds_foldl [Std.Associative op] (hw : 0 < w) (hps : Timed ps) :
    (ps.foldl (Tier.feed op w) Tier.empty).Holds op w ps := by
  induction ps using List.reverseRecOn with
  | nil => exact ⟨rfl, rfl⟩
  | append_singleton ps p ih =>
    rw [Timed, List.map_append, List.pairwise_append] at hps
    rw [List.foldl_append]
    refine Tier.Holds.feed op hw hps.1 (ih hps.1) fun q hq => ?_
    exact hps.2.2 _ (List.mem_map_of_mem hq) _ (List.mem_singleton.2 rfl)

theorem Represents.trans (h : Represents op w cut ps bs) (h' : Represents op w' cut' bs bs')
    (hw : w ∣ w') (hcut : cut' ≤ cut) : Represents op w' cut' ps bs' where
  timed := h'.timed
  aligned := h'.aligned
  starts := h'.starts
  spans a b ha hb hb' := by
    rw [h'.spans a b ha hb hb', h.spans a b (hw.trans ha) (hw.trans hb) (hb'.trans hcut)]

theorem Represents.refl (hps : Timed ps) (hcut : ∀ p ∈ ps, p.1 < cut) :
    Represents op 1 cut ps ps where
  timed := hps
  aligned := one_dvd cut
  starts p hp := ⟨one_dvd p.1, hcut p hp⟩
  spans _ _ _ _ _ := rfl

theorem Represents.mem [Std.Associative op] (hw : 0 < w) (h : Represents op w cut ps bs)
    (hb : (s, m) ∈ bs) :
    spanMerged op s (s + w) ps = some m := by
  have hs := h.starts _ hb
  obtain ⟨i, rfl⟩ : ∃ i, s = i * w := by
    obtain ⟨i, hi⟩ := hs.1
    exact ⟨i, hi.trans (Nat.mul_comm w i)⟩
  rw [← h.spans _ _ hs.1 (Nat.dvd_add hs.1 dvd_rfl) (next_multiple h.aligned hs.2)]
  obtain ⟨l, r, rfl⟩ := List.append_of_mem hb
  have htimed := h.timed
  rw [Timed, List.map_append, List.map_cons, List.pairwise_append, List.pairwise_cons] at htimed
  obtain ⟨-, ⟨hr, -⟩, hl⟩ := htimed
  have hbefore : spanMerged op (i * w) (i * w + w) l = none := by
    refine spanMerged_eq_none op fun q hq => ?_
    have := hl q.1 (List.mem_map_of_mem hq) (i * w) List.mem_cons_self
    omega
  have hafter : spanMerged op (i * w) (i * w + w) r = none := by
    refine spanMerged_eq_none op fun q hq => ?_
    have hlt := hr q.1 (List.mem_map_of_mem hq)
    have := next_multiple (h.starts q (List.mem_append_right l (List.mem_cons_of_mem _ hq))).1 hlt
    omega
  have hcons := spanMerged_append op (i * w) (i * w + w) [(i * w, m)] r
  rw [List.singleton_append] at hcons
  rw [spanMerged_append, hcons, hbefore, hafter, spanMerged_singleton, Option.merge_none_left,
    Option.merge_none_right]
  exact if_pos ⟨le_rfl, Nat.lt_add_of_pos_right hw⟩

/-- What a quantity that merging adds up comes to. -/
def amount (f : M → Int) (o : Option M) : Int := (o.map f).getD 0

def total (f : M → Int) (ps : List (Nat × M)) : Int := (ps.map fun p => f p.2).sum

theorem amount_merge {f : M → Int} (hf : ∀ m m', f (op m m') = f m + f m') (o o' : Option M) :
    amount f (Option.merge op o o') = amount f o + amount f o' := by
  cases o with
  | none => simp [amount]
  | some m =>
    cases o' with
    | none => simp [amount]
    | some m' => exact hf m m'

theorem amount_spanMerged [Std.Associative op] {f : M → Int} (hf : ∀ m m', f (op m m') = f m + f m')
    (h : ∀ p ∈ ps, a ≤ p.1 ∧ p.1 < b) : amount f (spanMerged op a b ps) = total f ps := by
  induction ps with
  | nil => rfl
  | cons p ps ih =>
    have hcons := spanMerged_append op a b [p] ps
    rw [List.singleton_append] at hcons
    rw [hcons, amount_merge op hf, ih fun q hq => h q (List.mem_cons_of_mem _ hq),
      spanMerged_singleton, if_pos (h p List.mem_cons_self), total, total, List.map_cons,
        List.sum_cons]
    rfl

/-- The bucket that a tier is filling. -/
def Tier.filling (tier : Tier M) : Option M := tier.last.map Prod.snd

theorem Tier.Holds.timed {tier : Tier M} (h : tier.Holds op w ps) : Timed tier.closed := by
  unfold Tier.Holds at h
  split at h
  · rw [h.2]
    exact List.Pairwise.nil
  · exact h.1.timed

theorem Tier.Holds.total [Std.Associative op] {tier : Tier M} {f : M → Int}
    (hf : ∀ m m', f (op m m') = f m + f m') (hps : Timed ps) (h : tier.Holds op w ps) :
    Cascade.total f tier.closed + amount f tier.filling = Cascade.total f ps := by
  unfold Tier.Holds at h
  unfold Tier.filling
  cases hlast : tier.last with
  | none =>
    simp only [hlast] at h
    rw [h.1, h.2]
    rfl
  | some last =>
    obtain ⟨i, m⟩ := last
    simp only [hlast] at h
    obtain ⟨hreps, hm, hall⟩ := h
    rw [← amount_spanMerged op hf (fun b hb => ⟨Nat.zero_le b.1, (hreps.starts b hb).2⟩),
      ← amount_spanMerged op hf (fun p hp => ⟨Nat.zero_le p.1, hall p hp⟩),
      spanMerged_split op hps (Nat.zero_le (i * w)) (Nat.le_add_right _ w), amount_merge op hf,
      hreps.spans 0 _ ⟨0, rfl⟩ hreps.aligned le_rfl, hm]
    rfl

/-- Tiers of growing width, each fed the buckets that the one before it closes. -/
def ladder : List Nat → List (Nat × M) → List (Tier M)
  | [], _ => []
  | w :: ws, ps =>
    let tier := ps.foldl (Tier.feed op w) Tier.empty
    tier :: ladder ws tier.closed

theorem ladder_represents [Std.Associative op] {tier : Tier M} {w k : Nat}
    (hpos : ∀ w ∈ ws, 0 < w) (hdvd : List.IsChain (· ∣ ·) (w₀ :: ws))
    (h : Represents op w₀ cut points ps)
    (htier : (ladder op ws ps)[k]? = some tier) (hw : ws[k]? = some w) :
    ∃ cut, Represents op w cut points tier.closed ∧
      ∀ i m, tier.last = some (i, m) → cut = i * w := by
  induction ws generalizing w₀ cut ps k with
  | nil => cases hw
  | cons w₁ ws ih =>
    obtain ⟨hdvd₁, hdvd⟩ := List.isChain_cons_cons.1 hdvd
    have hholds := Tier.holds_foldl op (hpos w₁ List.mem_cons_self) h.timed
    obtain ⟨cut', hrep, hcut'⟩ : ∃ cut', Represents op w₁ cut' points
        (ps.foldl (Tier.feed op w₁) Tier.empty).closed ∧
        ∀ i m, (ps.foldl (Tier.feed op w₁) Tier.empty).last = some (i, m) → cut' = i * w₁ := by
      unfold Tier.Holds at hholds
      split at hholds
      · rename_i hlast
        obtain ⟨rfl, hclosed⟩ := hholds
        rw [hclosed]
        refine ⟨0, .none_closed op ⟨0, rfl⟩ fun p _ => Nat.zero_le p.1, fun i m h => ?_⟩
        rw [hlast] at h
        cases h
      · rename_i i m hlast
        obtain ⟨hreps, hm, -⟩ := hholds
        obtain ⟨q, hq, hge, -⟩ := exists_of_spanMerged op hm
        have := (h.starts q hq).2
        refine ⟨_, h.trans op hreps hdvd₁ (by omega), fun i' m' h => ?_⟩
        rw [hlast] at h
        cases h
        rfl
    cases k with
    | zero =>
      obtain rfl := Option.some.inj htier
      obtain rfl := Option.some.inj hw
      exact ⟨cut', hrep, hcut'⟩
    | succ k => exact ih (fun w hw => hpos w (List.mem_cons_of_mem _ hw)) hdvd hrep htier hw

theorem ladder_total [Std.Associative op] {f : M → Int} {tier : Tier M}
    (hf : ∀ m m', f (op m m') = f m + f m') (hpos : ∀ w ∈ ws, 0 < w) (hps : Timed ps)
    (htier : (ladder op ws ps)[k]? = some tier) :
    total f tier.closed +
      (((ladder op ws ps).take (k + 1)).map fun tier => amount f tier.filling).sum =
        total f ps := by
  induction ws generalizing ps k with
  | nil => cases htier
  | cons w ws ih =>
    have hholds := Tier.holds_foldl op (hpos w List.mem_cons_self) hps
    have htotal := hholds.total op hf hps
    rw [ladder, List.take_succ_cons, List.map_cons, List.sum_cons]
    cases k with
    | zero =>
      obtain rfl := Option.some.inj htier
      rw [List.take_zero, List.map_nil, List.sum_nil, Int.add_zero, htotal]
    | succ k =>
      have hrest := ih (fun w hw => hpos w (List.mem_cons_of_mem _ hw)) hholds.timed htier
      rw [← htotal, ← hrest]
      omega

end

end ProxyForward.Cascade

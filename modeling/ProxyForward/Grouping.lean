import Mathlib.Data.List.Induction
import Mathlib.Data.List.ModifyLast
import Mathlib.Order.Lattice
import ProxyForward.Cascade

namespace ProxyForward.Grouping
set_option autoImplicit true

open Cascade

/-! Items in key order, merged key by key in one pass. -/

section

variable {ι κ M : Type} [LinearOrder κ] (op : M → M → M) (key : ι → κ) (val : ι → M)

/-- An item joins the last group if it has its key, and starts one otherwise. -/
def turn (gs : List (κ × M)) (i : ι) : List (κ × M) :=
  if gs.getLast?.map Prod.fst = some (key i) then
    gs.modifyLast fun g => (g.1, op g.2 (val i))
  else gs ++ [(key i, val i)]

def groups (l : List ι) : List (κ × M) := l.foldl (turn op key val) []

/-- What a pass over `l` leaves. -/
structure Grouped (l : List ι) (gs : List (κ × M)) : Prop where
  increasing : (gs.map Prod.fst).Pairwise (· < ·)
  keys : ∀ k, k ∈ gs.map Prod.fst ↔ ∃ i ∈ l, key i = k
  values : ∀ g ∈ gs, merged op ((l.filter fun i => key i = g.1).map val) = some g.2

variable {op key val}

theorem merged_concat (ms : List M) (m : M) :
    merged op (ms ++ [m]) = Option.merge op (merged op ms) (some m) := by
  rw [merged, List.foldl_append]
  rfl

theorem merged_eq_none {ms : List M} : merged op ms = none ↔ ms = [] := by
  constructor
  · intro h
    rcases List.eq_nil_or_concat ms with rfl | ⟨ms, m, rfl⟩
    · rfl
    · rw [List.concat_eq_append, merged_concat] at h
      cases hm : merged op ms with
      | none =>
        rw [hm] at h
        cases h
      | some m' =>
        rw [hm] at h
        cases h
  · rintro rfl
    rfl

theorem filter_concat_of_ne {l : List ι} {i : ι} (h : key i ≠ k) :
    (l ++ [i]).filter (fun j => key j = k) = l.filter fun j => key j = k := by
  rw [List.filter_append, List.filter_singleton, decide_eq_false h]
  exact List.append_nil _

theorem filter_concat_of_eq {l : List ι} {i : ι} (h : key i = k) :
    (l ++ [i]).filter (fun j => key j = k) = (l.filter fun j => key j = k) ++ [i] := by
  rw [List.filter_append, List.filter_singleton, decide_eq_true h]
  rfl

theorem Grouped.start {l : List ι} {gs : List (κ × M)} {i : ι} (h : Grouped op key val l gs)
    (hnew : ∀ k ∈ gs.map Prod.fst, k < key i) :
    Grouped op key val (l ++ [i]) (gs ++ [(key i, val i)]) where
  increasing := by
    rw [List.map_append, List.pairwise_append]
    refine ⟨h.increasing, List.pairwise_singleton _ _, fun k hk k' hk' => ?_⟩
    rw [List.mem_singleton.1 hk']
    exact hnew k hk
  keys k := by
    simp only [List.map_append, List.mem_append, h.keys, List.map_singleton, List.mem_singleton,
      or_and_right, exists_or, exists_eq_left]
    exact or_congr Iff.rfl eq_comm
  values g hg := by
    rcases List.mem_append.1 hg with hg | hg
    · have hlt := hnew _ (List.mem_map_of_mem hg)
      rw [filter_concat_of_ne hlt.ne', h.values g hg]
    · obtain rfl := List.mem_singleton.1 hg
      have hnil : l.filter (fun j => key j = key i) = [] := by
        rw [List.filter_eq_nil_iff]
        intro j hj hk
        have hmem := (h.keys (key i)).2 ⟨j, hj, of_decide_eq_true hk⟩
        exact absurd (hnew _ hmem) (lt_irrefl _)
      rw [filter_concat_of_eq rfl, hnil]
      rfl

theorem Grouped.join {l : List ι} {gs : List (κ × M)} {i : ι} {m : M}
    (h : Grouped op key val l (gs ++ [(key i, m)])) :
    Grouped op key val (l ++ [i]) (gs ++ [(key i, op m (val i))]) where
  increasing := by
    have hsame := h.increasing
    rwa [List.map_append] at hsame ⊢
  keys k := by
    have hsame := h.keys k
    simp only [List.map_append, List.map_singleton, List.mem_append, List.mem_singleton,
      or_and_right, exists_or, exists_eq_left] at hsame ⊢
    constructor
    · exact fun hk => .inl (hsame.1 hk)
    · rintro (hk | hk)
      · exact hsame.2 hk
      · exact .inr hk.symm
  values g hg := by
    rcases List.mem_append.1 hg with hg | hg
    · have hincreasing := h.increasing
      rw [List.map_append, List.pairwise_append] at hincreasing
      have hlt := hincreasing.2.2 g.1 (List.mem_map_of_mem hg) (key i) List.mem_cons_self
      rw [filter_concat_of_ne hlt.ne', h.values g (List.mem_append_left _ hg)]
    · obtain rfl := List.mem_singleton.1 hg
      have hvalue := h.values (key i, m) (List.mem_append_right _ List.mem_cons_self)
      rw [filter_concat_of_eq rfl, List.map_append, List.map_singleton, merged_concat, hvalue]
      rfl

theorem turn_same {gs : List (κ × M)} {g : κ × M} {i : ι} (h : g.1 = key i) :
    turn op key val (gs ++ [g]) i = gs ++ [(g.1, op g.2 (val i))] := by
  have hlast : (gs ++ [g]).getLast?.map Prod.fst = some (key i) := by
    rw [List.getLast?_concat]
    exact congrArg some h
  rw [turn, if_pos hlast, List.modifyLast_concat]

theorem turn_next {gs : List (κ × M)} {g : κ × M} {i : ι} (h : g.1 ≠ key i) :
    turn op key val (gs ++ [g]) i = gs ++ [g] ++ [(key i, val i)] := by
  have hlast : (gs ++ [g]).getLast?.map Prod.fst ≠ some (key i) := by
    rw [List.getLast?_concat]
    exact fun he => h (Option.some.inj he)
  rw [turn, if_neg hlast]

theorem turn_grouped {l : List ι} {gs : List (κ × M)} {i : ι} (h : Grouped op key val l gs)
    (hle : ∀ j ∈ l, key j ≤ key i) : Grouped op key val (l ++ [i]) (turn op key val gs i) := by
  rcases List.eq_nil_or_concat gs with rfl | ⟨gs, ⟨k, m⟩, rfl⟩
  · exact h.start fun k hk => absurd hk List.not_mem_nil
  · rw [List.concat_eq_append] at h ⊢
    by_cases hk : k = key i
    · rw [turn_same hk]
      subst hk
      exact h.join
    · rw [turn_next hk]
      refine h.start fun k' hk' => ?_
      obtain ⟨j, hj, hjk⟩ := (h.keys k).1 (by simp)
      have hlast : k < key i := lt_of_le_of_ne (hjk ▸ hle j hj) hk
      have hincreasing := h.increasing
      rw [List.map_append, List.pairwise_append] at hincreasing
      rw [List.map_append, List.mem_append] at hk'
      rcases hk' with hk' | hk'
      · exact (hincreasing.2.2 _ hk' k List.mem_cons_self).trans hlast
      · rw [List.mem_singleton.1 hk']
        exact hlast

theorem groups_grouped {l : List ι} (h : (l.map key).Pairwise (· ≤ ·)) :
    Grouped op key val l (groups op key val l) := by
  induction l using List.reverseRecOn with
  | nil => exact ⟨.nil, fun k => by simp [groups], fun g hg => absurd hg List.not_mem_nil⟩
  | append_singleton l i ih =>
    rw [List.map_append, List.pairwise_append] at h
    rw [groups, List.foldl_append]
    refine turn_grouped (ih h.1) fun j hj => ?_
    exact h.2.2 _ (List.mem_map_of_mem hj) _ List.mem_cons_self

end

end ProxyForward.Grouping

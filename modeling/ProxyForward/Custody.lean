import Mathlib.Data.List.Nodup
import Mathlib.Data.List.Perm.Basic

/-- A queue whose items are queued, held while room is made, taken or dropped. -/
structure Custody (α : Type) where
  entered : List α
  queued : List α
  held : Option α
  taken : List α
  dropped : List α

namespace Custody
set_option autoImplicit true

def empty (α : Type) : Custody α := ⟨[], [], none, [], []⟩

/-- The items taken, in turn, and those queued. -/
def line (s : Custody α) : List α := s.taken ++ s.queued

/-- Of the items lifted from the head, a pinned one goes back to the end and another is dropped. -/
inductive Step (pinned : α → Bool) : Custody α → Custody α → Prop
  | enter (h : a ∉ s.entered) :
    Step pinned s { s with entered := s.entered ++ [a], queued := s.queued ++ [a] }
  | take (h : s.queued = a :: rest) :
    Step pinned s { s with queued := rest, taken := s.taken ++ [a] }
  | lift (h : s.queued = a :: rest) (hfree : s.held = none) :
    Step pinned s { s with queued := rest, held := some a }
  | put (h : s.held = some a) (hpin : pinned a = true) :
    Step pinned s { s with queued := s.queued ++ [a], held := none }
  | drop (h : s.held = some a) (hpin : pinned a = false) :
    Step pinned s { s with dropped := s.dropped ++ [a], held := none }

structure Inv (pinned : α → Bool) (s : Custody α) : Prop where
  nodup : s.entered.Nodup
  perm : s.entered.Perm (s.line ++ s.held.toList ++ s.dropped)
  free : ∀ a ∈ s.dropped, pinned a = false
  order : (s.line.filter fun a => !pinned a).Sublist s.entered
  /-- No unpinned item is in line behind one that entered after it. -/
  ahead : s.line.Pairwise fun b a => pinned a = true ∨ ¬[a, b].Sublist s.entered

theorem pair_of_append_singleton {l : List α} (h : [a, b].Sublist (l ++ [c])) (hb : b ≠ c) :
    [a, b].Sublist l := by
  obtain ⟨l₁, l₂, heq, h₁, h₂⟩ := List.sublist_append_iff.mp h
  rcases List.sublist_singleton.mp h₂ with rfl | rfl
  · rw [heq, List.append_nil]
    exact h₁
  · have hlast := congrArg List.getLast? heq
    rw [List.getLast?_append, List.getLast?_singleton] at hlast
    exact absurd (Option.some.inj hlast) hb

theorem inv_empty (pinned : α → Bool) : Inv pinned (empty α) :=
  ⟨List.nodup_nil, .refl _, fun _ h => absurd h List.not_mem_nil, .refl _, .nil⟩

/-- Each item is as often at the four places as it entered. -/
theorem perm_iff_counts [DecidableEq α] (s : Custody α) :
    s.entered.Perm (s.line ++ s.held.toList ++ s.dropped) ↔
      ∀ x, s.entered.count x =
        s.taken.count x + s.queued.count x + s.held.toList.count x + s.dropped.count x := by
  simp only [List.perm_iff_count, line, List.count_append]

theorem Inv.mem_entered {s : Custody α} (h : Inv pinned s) (ha : a ∈ s.line) :
    a ∈ s.entered :=
  h.perm.symm.subset (List.mem_append_left _ (List.mem_append_left _ ha))

theorem Inv.enter {s : Custody α} (h : Inv pinned s) (ha : a ∉ s.entered) :
    Inv pinned { s with entered := s.entered ++ [a], queued := s.queued ++ [a] } where
  nodup := List.nodup_append.mpr ⟨h.nodup, List.nodup_singleton a, by
    intro x hx y hy hxy
    rw [List.mem_singleton] at hy
    subst hxy hy
    exact ha hx⟩
  perm := by
    classical
    rw [perm_iff_counts]
    intro x
    have hx := (perm_iff_counts s).mp h.perm x
    simp only [List.count_append]
    omega
  free := h.free
  order := by
    simp only [line, ← List.append_assoc, List.filter_append]
    have hold := h.order
    rw [line, List.filter_append] at hold
    exact hold.append List.filter_sublist
  ahead := by
    have hnew : ∀ b ∈ s.line, b ≠ a := by
      intro b hb heq
      subst heq
      exact ha (h.mem_entered hb)
    simp only [line, ← List.append_assoc]
    refine List.pairwise_append.mpr ⟨?_, List.pairwise_singleton _ a, ?_⟩
    · refine h.ahead.imp_of_mem ?_
      intro b c hb hc hbc
      exact hbc.imp_right fun hlate hpair => hlate (pair_of_append_singleton hpair (hnew b hb))
    · intro b hb c hc
      rw [List.mem_singleton] at hc
      subst hc
      refine Or.inr fun hpair => ?_
      have hin := pair_of_append_singleton hpair (hnew b hb)
      exact ha (hin.subset List.mem_cons_self)

theorem Inv.take {s : Custody α} (h : Inv pinned s) (hq : s.queued = a :: rest) :
    Inv pinned { s with queued := rest, taken := s.taken ++ [a] } := by
  have hline : line { s with queued := rest, taken := s.taken ++ [a] } = s.line := by
    simp only [line, hq, List.append_assoc, List.singleton_append]
  exact ⟨h.nodup, hline ▸ h.perm, h.free, hline ▸ h.order, hline ▸ h.ahead⟩

theorem Inv.lift {s : Custody α} (h : Inv pinned s) (hq : s.queued = a :: rest)
    (hfree : s.held = none) : Inv pinned { s with queued := rest, held := some a } := by
  have hline : (line { s with queued := rest, held := some a }).Sublist s.line := by
    simp only [line, hq]
    exact (List.sublist_cons_self a rest).append_left s.taken
  refine ⟨h.nodup, ?_, h.free, (hline.filter _).trans h.order, h.ahead.sublist hline⟩
  classical
  rw [perm_iff_counts]
  intro x
  have hx := (perm_iff_counts s).mp h.perm x
  simp only [hq, hfree, Option.toList, List.count_cons, List.count_nil] at hx ⊢
  omega

theorem Inv.put {s : Custody α} (h : Inv pinned s) (hheld : s.held = some a)
    (hpin : pinned a = true) :
    Inv pinned { s with queued := s.queued ++ [a], held := none } where
  nodup := h.nodup
  perm := by
    classical
    rw [perm_iff_counts]
    intro x
    have hx := (perm_iff_counts s).mp h.perm x
    simp only [hheld, Option.toList, List.count_append, List.count_nil] at hx ⊢
    omega
  free := h.free
  order := by
    have hold := h.order
    rw [line, List.filter_append] at hold
    simpa only [line, ← List.append_assoc, List.filter_append, List.filter_singleton, hpin,
      Bool.not_true, cond_false, List.append_nil] using hold
  ahead := by
    simp only [line, ← List.append_assoc]
    refine List.pairwise_append.mpr ⟨h.ahead, List.pairwise_singleton _ a, ?_⟩
    intro b hb c hc
    rw [List.mem_singleton] at hc
    subst hc
    exact Or.inl hpin

theorem Inv.drop {s : Custody α} (h : Inv pinned s) (hheld : s.held = some a)
    (hpin : pinned a = false) :
    Inv pinned { s with dropped := s.dropped ++ [a], held := none } where
  nodup := h.nodup
  perm := by
    classical
    rw [perm_iff_counts]
    intro x
    have hx := (perm_iff_counts s).mp h.perm x
    simp only [hheld, Option.toList, List.count_append, List.count_nil] at hx ⊢
    omega
  free := by
    intro b hb
    rcases List.mem_append.mp hb with hold | hnew
    · exact h.free b hold
    · rw [List.mem_singleton.mp hnew]
      exact hpin
  order := h.order
  ahead := h.ahead

theorem Inv.step {s t : Custody α} (h : Inv pinned s) (hstep : Step pinned s t) :
    Inv pinned t := by
  cases hstep with
  | enter ha => exact h.enter ha
  | take hq => exact h.take hq
  | lift hq hfree => exact h.lift hq hfree
  | put hheld hpin => exact h.put hheld hpin
  | drop hheld hpin => exact h.drop hheld hpin

/-- What was ahead of a taken item when it entered is no longer queued behind it. -/
theorem Inv.ahead_of {s : Custody α} (h : Inv pinned s) (hline : s.line = front ++ back)
    (hb : b ∈ front) (hpin : pinned a = false) (hpair : [a, b].Sublist s.entered) :
    a ∈ front ∨ s.held = some a ∨ a ∈ s.dropped := by
  have hin := h.perm.subset (hpair.subset List.mem_cons_self)
  rw [hline] at hin
  have hahead := h.ahead
  rw [hline] at hahead
  simp only [List.mem_append, Option.mem_toList] at hin
  rcases hin with ((hfront | hback) | hheld) | hdropped
  · exact Or.inl hfront
  · rcases (List.pairwise_append.mp hahead).2.2 b hb a hback with hpinned | hlate
    · rw [hpin] at hpinned
      cases hpinned
    · exact absurd hpair hlate
  · exact Or.inr (Or.inl hheld)
  · exact Or.inr (Or.inr hdropped)

end Custody

import Mathlib.Data.List.Sort
import Mathlib.Order.Basic

namespace FirstBest
set_option autoImplicit true

/-- The first of a list in an order. -/
def best (r : α → α → Prop) [DecidableRel r] (l : List α) : Option α := (l.insertionSort r).head?

/-- The best of a new round takes the place of the one that holds, if its value is greater. -/
def challenge [LT β] [DecidableLT β] (v : α → β) (holder new : Option α) : Option α :=
  match holder, new with
  | none, new => new
  | holder, none => holder
  | some a, some b => if v a < v b then some b else some a

/-- Of all rounds, one of the greatest value, in the first round that has it, and there the first in
the order. -/
def Leads [LinearOrder β] (r : α → α → Prop) (v : α → β) (rounds : List (List α)) (a : α) : Prop :=
  ∃ before round after, rounds = before ++ round :: after ∧ (a ∈ round ∧ ∀ b ∈ round, r a b) ∧
    (∀ l ∈ before, ∀ b ∈ l, v b < v a) ∧ ∀ l ∈ after, ∀ b ∈ l, v b ≤ v a

/-- Who holds after some rounds. -/
def Holds [LinearOrder β] (r : α → α → Prop) (v : α → β) (rounds : List (List α)) :
    Option α → Prop
  | none => ∀ l ∈ rounds, l = []
  | some a => Leads r v rounds a

section
variable {r : α → α → Prop} {l : List α} [LinearOrder β] {v : α → β} {rounds : List (List α)}
  {holder : Option α}

theorem holds_nil : Holds r v [] none := nofun

/-- Nothing of the rounds is above who holds. -/
theorem Leads.le (hv : ∀ a b, r a b → v b ≤ v a) (h : Leads r v rounds a) :
    ∀ l ∈ rounds, ∀ b ∈ l, v b ≤ v a := by
  obtain ⟨before, round, after, rfl, ⟨-, hround⟩, hbefore, hafter⟩ := h
  intro l hl b hb
  obtain hin | hin := List.mem_append.1 hl
  · exact (hbefore l hin b hb).le
  · obtain rfl | hin := List.mem_cons.1 hin
    · exact hv a b (hround b hb)
    · exact hafter l hin b hb

variable [DecidableRel r]

theorem best_none (h : best r l = none) : l = [] := by
  rw [best, List.head?_eq_none_iff] at h
  exact List.length_eq_zero_iff.1 ((List.length_insertionSort r l).symm.trans
    (List.length_eq_zero_iff.2 h))

variable [IsTrans α r] [Std.Total r]

theorem best_some (h : best r l = some a) : a ∈ l ∧ ∀ b ∈ l, r a b := by
  obtain ⟨rest, hrest⟩ := List.head?_eq_some_iff.1 h
  have hsorted := List.pairwise_insertionSort r l
  rw [hrest, List.pairwise_cons] at hsorted
  have hmem (b : α) : b ∈ l ↔ b ∈ a :: rest := by rw [← hrest, List.mem_insertionSort]
  refine ⟨(hmem a).2 List.mem_cons_self, fun b hb => ?_⟩
  obtain rfl | hin := List.mem_cons.1 ((hmem b).1 hb)
  · exact (Std.Total.total b b).elim id id
  · exact hsorted.1 b hin

theorem Holds.challenge (hv : ∀ a b, r a b → v b ≤ v a) (h : Holds r v rounds holder)
    (l : List α) : Holds r v (rounds ++ [l]) (challenge v holder (best r l)) := by
  cases holder with
  | none =>
    have hempty : ∀ l ∈ rounds, l = [] := h
    cases hbest : best r l with
    | none =>
      intro m hm
      obtain hold | hnew := List.mem_append.1 hm
      · exact hempty m hold
      · rw [List.mem_singleton.1 hnew]
        exact best_none hbest
    | some b =>
      refine ⟨rounds, l, [], rfl, best_some hbest, fun m hm x hx => ?_, nofun⟩
      rw [hempty m hm] at hx
      cases hx
  | some a =>
    obtain ⟨before, round, after, rfl, hround, hbefore, hafter⟩ := id h
    cases hbest : best r l with
    | none =>
      refine ⟨before, round, after ++ [l], ?_, hround, hbefore, fun m hm x hx => ?_⟩
      · rw [List.append_assoc, List.cons_append]
      · obtain hold | hnew := List.mem_append.1 hm
        · exact hafter m hold x hx
        · rw [List.mem_singleton.1 hnew, best_none hbest] at hx
          cases hx
    | some b =>
      obtain ⟨hb, hbest⟩ := best_some hbest
      by_cases hlt : v a < v b
      · simp only [FirstBest.challenge, if_pos hlt]
        refine ⟨_, l, [], rfl, ⟨hb, hbest⟩, fun m hm x hx => ?_, nofun⟩
        exact (Leads.le hv h m hm x hx).trans_lt hlt
      · simp only [FirstBest.challenge, if_neg hlt]
        refine ⟨before, round, after ++ [l], ?_, hround, hbefore, fun m hm x hx => ?_⟩
        · rw [List.append_assoc, List.cons_append]
        · obtain hold | hnew := List.mem_append.1 hm
          · exact hafter m hold x hx
          · rw [List.mem_singleton.1 hnew] at hx
            exact (hv b x (hbest x hx)).trans (not_lt.1 hlt)

end

end FirstBest

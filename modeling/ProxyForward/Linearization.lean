import Mathlib.Data.List.Permutation
import ProxyForward.Runs

namespace Runs
set_option autoImplicit true

/-- The calls of `order`, each run whole and in turn, give the recorded replies and lead from the
first state to the second. -/
def Sequentially (whole : σ → κ → ρ × σ) : σ → List (κ × ρ) → σ → Prop
  | s, [], t => s = t
  | s, e :: order, t => (whole s e.1).1 = e.2 ∧ Sequentially whole (whole s e.1).2 order t

variable {whole : σ → κ → ρ × σ}

theorem sequentially_append :
    Sequentially whole s (before ++ after) t ↔
      ∃ u, Sequentially whole s before u ∧ Sequentially whole u after t := by
  induction before generalizing s with
  | nil => exact ⟨fun h => ⟨s, rfl, h⟩, fun ⟨_, hs, h⟩ => hs ▸ h⟩
  | cons e before ih =>
    simp only [List.cons_append, Sequentially, ih]
    exact ⟨fun ⟨he, u, hb, ha⟩ => ⟨u, ⟨he, hb⟩, ha⟩, fun ⟨u, ⟨he, hb⟩, ha⟩ => ⟨he, u, hb, ha⟩⟩

theorem Sequentially.functional (h : Sequentially whole s order t)
    (h' : Sequentially whole s order t') : t = t' := by
  induction order generalizing s with
  | nil => exact h.symm.trans h'
  | cons e order ih => exact ih h.2 h'.2

theorem Sequentially.snoc (h : Sequentially whole s order t) (hw : whole t call = (reply, u)) :
    Sequentially whole s (order ++ [(call, reply)]) u := by
  refine sequentially_append.2 ⟨t, h, ?_⟩
  simp only [Sequentially, hw, and_self]

/-- Some order of the calls that are over, each run whole, gives their replies and the state. -/
def Linear (whole : σ → κ → ρ × σ) (s : σ) (done : List (κ × ρ)) (t : σ) : Prop :=
  ∃ order : List (κ × ρ), order.Perm done ∧ Sequentially whole s order t

/-- As `Linear`, with every state of `seen` passed on the way. -/
def LinearThrough (whole : σ → κ → ρ × σ) (s : σ) (done : List (κ × ρ)) (t : σ)
    (seen : σ → Prop) : Prop :=
  ∃ order : List (κ × ρ), order.Perm done ∧ Sequentially whole s order t ∧
    ∀ u, seen u → ∃ before after, order = before ++ after ∧ Sequentially whole s before u

theorem LinearThrough.linear (h : LinearThrough whole s done t seen) : Linear whole s done t := by
  obtain ⟨order, hp, hs, -⟩ := h
  exact ⟨order, hp, hs⟩

theorem linearThrough_nil (s : σ) : LinearThrough whole s [] s fun _ => False :=
  ⟨[], .nil, rfl, fun _ h => h.elim⟩

theorem LinearThrough.mono (h : LinearThrough whole s done t seen)
    (hseen : ∀ u, seen' u → seen u ∨ u = t) : LinearThrough whole s done t seen' := by
  obtain ⟨order, hp, hs, hthrough⟩ := h
  refine ⟨order, hp, hs, fun u hu => ?_⟩
  obtain hu | rfl := hseen u hu
  · exact hthrough u hu
  · exact ⟨order, [], (List.append_nil _).symm, hs⟩

/-- A call that takes effect now goes last. -/
theorem LinearThrough.now (h : LinearThrough whole s done t seen)
    (hw : whole t call = (reply, u)) :
    LinearThrough whole s ((call, reply) :: done) u seen := by
  obtain ⟨order, hp, hs, hthrough⟩ := h
  refine ⟨order ++ [(call, reply)], ?_, hs.snoc hw, fun v hv => ?_⟩
  · exact (List.perm_append_singleton _ _).trans (hp.cons _)
  · obtain ⟨before, after, rfl, hb⟩ := hthrough v hv
    exact ⟨before, after ++ [(call, reply)], List.append_assoc _ _ _, hb⟩

/-- A call that changed nothing in a state passed on the way goes right there. -/
theorem LinearThrough.then (h : LinearThrough whole s done t seen) (hv : seen v)
    (hw : whole v call = (reply, v)) :
    LinearThrough whole s ((call, reply) :: done) t seen := by
  obtain ⟨order, hp, hs, hthrough⟩ := h
  obtain ⟨before, after, rfl, hb⟩ := hthrough v hv
  obtain ⟨v', hb', ha⟩ := sequentially_append.1 hs
  obtain rfl := hb.functional hb'
  have hbe : Sequentially whole s (before ++ [(call, reply)]) v := hb.snoc hw
  refine ⟨before ++ (call, reply) :: after, List.perm_middle.trans (hp.cons _), ?_, fun u hu => ?_⟩
  · exact sequentially_append.2 ⟨v, hb, by simpa only [Sequentially, hw, true_and] using ha⟩
  · obtain ⟨first, rest, hsplit, hfirst⟩ := hthrough u hu
    obtain ⟨mid, rfl, rfl⟩ | ⟨mid, rfl, rfl⟩ := List.append_eq_append_iff.1 hsplit
    · refine ⟨before ++ (call, reply) :: mid, rest, ?_, ?_⟩
      · rw [List.append_assoc, List.cons_append]
      · obtain ⟨w, hw₁, hw₂⟩ := sequentially_append.1 hfirst
        obtain rfl := hb.functional hw₁
        exact sequentially_append.2 ⟨v, hb, by simpa only [Sequentially, hw, true_and] using hw₂⟩
    · exact ⟨first, mid ++ (call, reply) :: after, List.append_assoc _ _ _, hfirst⟩

/-- Two calls that are alike leave one order only: the replies are the first and the second. -/
theorem Linear.twins (h : Linear whole s [(call, r₁), (call, r₂)] t) :
    (whole s call).1 = r₁ ∧ (whole (whole s call).2 call).1 = r₂ ∨
      (whole s call).1 = r₂ ∧ (whole (whole s call).2 call).1 = r₁ := by
  obtain ⟨order, hp, hs⟩ := h
  obtain rfl | rfl := List.perm_pair.1 hp
  · exact .inl ⟨hs.1, hs.2.1⟩
  · exact .inr ⟨hs.1, hs.2.1⟩

end Runs

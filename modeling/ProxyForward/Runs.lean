import Mathlib.Data.List.Basic

namespace Runs
set_option autoImplicit true

/-- The labels `ls` are all enabled in turn and lead from the first state to the second. -/
inductive Reaches (step : σ → ι → Option σ) : σ → List ι → σ → Prop
  | nil (s) : Reaches step s [] s
  | cons (h : step s l = some t) (hr : Reaches step t ls u) : Reaches step s (l :: ls) u

/-- `P` holds at every step the labels take, in the state before it and for its label. The first
disabled label ends the run. -/
def Along (step : σ → ι → Option σ) (P : σ → ι → Prop) (s : σ) : List ι → Prop
  | [] => True
  | l :: ls =>
    match step s l with
    | none => True
    | some t => P s l ∧ Along step P t ls

/-- `Q` holds of every state the labels reach, the first one included. -/
def Always (step : σ → ι → Option σ) (Q : σ → Prop) (s : σ) : List ι → Prop
  | [] => Q s
  | l :: ls =>
    match step s l with
    | none => Q s
    | some t => Q s ∧ Always step Q t ls

variable {step : σ → ι → Option σ}

theorem Along.cons (h : Along step P s (l :: ls)) (hs : step s l = some t) :
    P s l ∧ Along step P t ls := by
  simpa only [Along, hs] using h

theorem along_cons (hs : step s l = some t) (hP : P s l) (h : Along step P t ls) :
    Along step P s (l :: ls) := by
  simp only [Along, hs]
  exact ⟨hP, h⟩

theorem along_disabled (hs : step s l = none) : Along step P s (l :: ls) := by
  simp only [Along, hs]

theorem along_iff (hs : step s l = some t) :
    Along step P s (l :: ls) ↔ P s l ∧ Along step P t ls := by
  simp only [Along, hs]

theorem always_iff (hs : step s l = some t) :
    Always step Q s (l :: ls) ↔ Q s ∧ Always step Q t ls := by
  simp only [Always, hs]

theorem always_disabled (hs : step s l = none) : Always step Q s (l :: ls) ↔ Q s := by
  simp only [Always, hs]

theorem along_of_forall {P : ι → Prop} (h : ∀ l ∈ ls, P l) (s : σ) :
    Along step (fun _ l => P l) s ls := by
  induction ls generalizing s with
  | nil => trivial
  | cons l ls ih =>
    cases hs : step s l with
    | none => exact along_disabled hs
    | some t =>
      exact along_cons hs (h l List.mem_cons_self)
        (ih (fun l hl => h l (List.mem_cons_of_mem _ hl)) t)

instance decidableAlong {P : σ → ι → Prop} [∀ s l, Decidable (P s l)] (s : σ) :
    (ls : List ι) → Decidable (Along step P s ls)
  | [] => .isTrue trivial
  | l :: ls =>
    match h : step s l with
    | none => .isTrue (along_disabled h)
    | some t =>
      have := decidableAlong (P := P) t ls
      decidable_of_iff (P s l ∧ Along step P t ls) (along_iff h).symm

instance decidableAlways {Q : σ → Prop} [DecidablePred Q] (s : σ) :
    (ls : List ι) → Decidable (Always step Q s ls)
  | [] => inferInstanceAs (Decidable (Q s))
  | l :: ls =>
    match h : step s l with
    | none => decidable_of_iff (Q s) (always_disabled h).symm
    | some t =>
      have := decidableAlways (Q := Q) t ls
      decidable_of_iff (Q s ∧ Always step Q t ls) (always_iff h).symm

/-- The state the labels lead to, if they are all enabled in turn. -/
def final (step : σ → ι → Option σ) (s : σ) : List ι → Option σ
  | [] => some s
  | l :: ls => (step s l).bind fun t => final step t ls

theorem reaches_of_final (h : final step s ls = some t) : Reaches step s ls t := by
  induction ls generalizing s with
  | nil =>
    cases h
    exact .nil _
  | cons l ls ih =>
    obtain ⟨u, hu, hr⟩ := Option.bind_eq_some_iff.1 h
    exact .cons hu (ih hr)

/-- An invariant carried by the steps that meet `C` holds in the last state of every run whose steps
all meet `C`. -/
theorem Reaches.invariant_of_along {I : σ → Prop} {C : σ → ι → Prop}
    (hstep : ∀ s l t, I s → C s l → step s l = some t → I t)
    (hr : Reaches step s ls t) (hs : I s) (hC : Along step C s ls) : I t := by
  induction hr with
  | nil => exact hs
  | cons h hr ih =>
    obtain ⟨hc, hC⟩ := hC.cons h
    exact ih (hstep _ _ _ hs hc h) hC

theorem Reaches.invariant {I : σ → Prop}
    (hstep : ∀ s l t, I s → step s l = some t → I t)
    (hr : Reaches step s ls t) (hs : I s) : I t := by
  induction hr with
  | nil => exact hs
  | cons h hr ih => exact ih (hstep _ _ _ hs h)

/-- What each step guarantees under an invariant and a condition holds along the run. -/
theorem along_of_invariant {I : σ → Prop} {C P : σ → ι → Prop}
    (hstep : ∀ s l t, I s → C s l → step s l = some t → I t ∧ P s l)
    (hs : I s) (hC : Along step C s ls) : Along step P s ls := by
  induction ls generalizing s with
  | nil => trivial
  | cons l ls ih =>
    cases h : step s l with
    | none => exact along_disabled h
    | some t =>
      obtain ⟨hc, hC⟩ := hC.cons h
      obtain ⟨ht, hP⟩ := hstep _ _ _ hs hc h
      exact along_cons h hP (ih ht hC)

/-- An invariant that implies `Q` makes `Q` hold in every state of the run. -/
theorem always_of_invariant {I Q : σ → Prop} {C : σ → ι → Prop}
    (hstep : ∀ s l t, I s → C s l → step s l = some t → I t)
    (hQ : ∀ s, I s → Q s) (hs : I s) (hC : Along step C s ls) : Always step Q s ls := by
  induction ls generalizing s with
  | nil => exact hQ _ hs
  | cons l ls ih =>
    simp only [Always]
    cases h : step s l with
    | none => exact hQ _ hs
    | some t =>
      obtain ⟨hc, hC⟩ := hC.cons h
      exact ⟨hQ _ hs, ih (hstep _ _ _ hs hc h) hC⟩

theorem Always.head (h : Always step Q s ls) : Q s := by
  cases ls with
  | nil => exact h
  | cons l ls =>
    cases hs : step s l with
    | none => exact (always_disabled hs).1 h
    | some t => exact ((always_iff hs).1 h).1

/-- What holds of every state holds of the one that the first of the labels lead to. -/
theorem Always.at_prefix (h : Always step Q s (ls ++ ls')) (hr : Reaches step s ls t) : Q t := by
  induction hr with
  | nil => exact h.head
  | cons hs _ ih => exact ih ((always_iff hs).1 h).2

theorem Always.final (h : Always step Q s ls) (hr : Reaches step s ls t) : Q t := by
  rw [← List.append_nil ls] at h
  exact h.at_prefix hr

theorem Reaches.append (hr : Reaches step s ls t) (hr' : Reaches step t ls' u) :
    Reaches step s (ls ++ ls') u := by
  induction hr with
  | nil => exact hr'
  | cons h _ ih => exact .cons h (ih hr')

theorem Reaches.split (hr : Reaches step s (ls ++ ls') u) :
    ∃ t, Reaches step s ls t ∧ Reaches step t ls' u := by
  induction ls generalizing s with
  | nil => exact ⟨s, .nil s, hr⟩
  | cons l ls ih =>
    cases hr with
    | cons h hr =>
      obtain ⟨t, hls, hls'⟩ := ih hr
      exact ⟨t, .cons h hls, hls'⟩

/-- A system of which each step is some steps of a second one: the second follows its runs. -/
theorem Reaches.followed {step' : τ → κ → Option τ} {R : τ → σ → Prop}
    (hstep : ∀ a s l t, R a s → step s l = some t → ∃ ks b, Reaches step' a ks b ∧ R b t)
    (hr : Reaches step s ls t) (h : R a s) : ∃ ks b, Reaches step' a ks b ∧ R b t := by
  induction hr generalizing a with
  | nil => exact ⟨[], a, .nil a, h⟩
  | cons hs _ ih =>
    obtain ⟨ks, b, hks, hb⟩ := hstep _ _ _ _ h hs
    obtain ⟨ks', c, hks', hc⟩ := ih hb
    exact ⟨ks ++ ks', c, hks.append hks', hc⟩

/-- A property along a run holds at a step that goes on from its end. -/
theorem Along.at_last (h : Along step P s (ls ++ [l])) (hr : Reaches step s ls t)
    (ht : step t l = some u) : P t l := by
  induction hr with
  | nil => exact (h.cons ht).1
  | cons hs _ ih => exact ih (h.cons hs).2 ht

/-- While `S` holds, and under an invariant that implies `Q` and that the steps with `P` keep, `Q`
holds in every state exactly when every step has `P`, if each step without `P` breaks `Q`. -/
theorem always_iff_along_while {I S Q : σ → Prop} {P : σ → ι → Prop} (hQ : ∀ s, I s → Q s)
    (hstep : ∀ s l t, I s → S s → S t → step s l = some t → (P s l → I t) ∧ (Q t → P s l))
    (hs : I s) (hS : Always step S s ls) : Always step Q s ls ↔ Along step P s ls := by
  induction ls generalizing s with
  | nil => exact iff_of_true (hQ s hs) trivial
  | cons l ls ih =>
    cases hl : step s l with
    | none => exact iff_of_true ((always_disabled hl).2 (hQ s hs)) (along_disabled hl)
    | some t =>
      obtain ⟨hSs, hSt⟩ := (always_iff hl).1 hS
      obtain ⟨hI, hP⟩ := hstep s l t hs hSs hSt.head hl
      rw [always_iff hl, along_iff hl]
      constructor
      · rintro ⟨-, ht⟩
        have hp := hP ht.head
        exact ⟨hp, (ih (hI hp) hSt).1 ht⟩
      · rintro ⟨hp, ht⟩
        exact ⟨hQ s hs, (ih (hI hp) hSt).2 ht⟩

/-- Under an invariant that implies `Q` and that the steps with `P` keep, `Q` holds in every state
exactly when every step has `P`, if each step without `P` breaks `Q`. -/
theorem always_iff_along {I Q : σ → Prop} {P : σ → ι → Prop} (hQ : ∀ s, I s → Q s)
    (hstep : ∀ s l t, I s → step s l = some t → (P s l → I t) ∧ (Q t → P s l)) (hs : I s) :
    Always step Q s ls ↔ Along step P s ls := by
  have htrue : Always step (fun _ => True) s ls :=
    always_of_invariant (I := fun _ => True) (C := fun _ _ => True) (fun _ _ _ _ _ _ => trivial)
      (fun _ _ => trivial) trivial (along_of_forall (fun _ _ => trivial) s)
  exact always_iff_along_while hQ (fun s l t hs _ _ => hstep s l t hs) hs htrue

/-- Two step properties agree along every run when they agree under an invariant, and the steps that
have them keep it. -/
theorem along_congr_while {I : σ → Prop} {P Q : σ → ι → Prop}
    (hstep : ∀ s l t, I s → step s l = some t → (P s l ↔ Q s l) ∧ (Q s l → I t)) (hs : I s) :
    Along step P s ls ↔ Along step Q s ls := by
  induction ls generalizing s with
  | nil => exact Iff.rfl
  | cons l ls ih =>
    simp only [Along]
    cases h : step s l with
    | none => exact Iff.rfl
    | some t =>
      obtain ⟨hPQ, ht⟩ := hstep _ _ _ hs h
      rw [hPQ]
      exact and_congr_right fun hQ => ih (ht hQ)

theorem along_congr {I : σ → Prop} {P Q : σ → ι → Prop}
    (hstep : ∀ s l t, I s → step s l = some t → I t ∧ (P s l ↔ Q s l)) (hs : I s) :
    Along step P s ls ↔ Along step Q s ls := by
  refine along_congr_while (fun s l t hs ht => ?_) hs
  obtain ⟨hI, hPQ⟩ := hstep s l t hs ht
  exact ⟨hPQ, fun _ => hI⟩

end Runs

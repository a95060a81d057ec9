import Mathlib.Logic.Function.Basic

namespace ProxyForward
set_option autoImplicit true

/-- A keyed table: the row of each key that has one. -/
abbrev Table (κ ρ : Type) := κ → Option ρ

namespace Table

variable {κ α β ρ : Type}

/-- `INSERT … ON CONFLICT DO UPDATE`: a row that is there merges with the new one. -/
def upsert [DecidableEq κ] (t : Table κ ρ) (k : κ) (row : ρ) (merge : ρ → ρ → ρ) : Table κ ρ :=
  Function.update t k (Option.merge merge (t k) (some row))

/-- `INSERT … SELECT … ON CONFLICT DO UPDATE`: the rows of `src` go to `dst`. -/
def insertFrom [DecidableEq α] (t : Table (α × β) ρ) (dst src : α) (merge : ρ → ρ → ρ) :
    Table (α × β) ρ :=
  fun k => if k.1 = dst then Option.merge merge (t k) (t (src, k.2)) else t k

/-- `DELETE` of the rows of `a`. -/
def deleteFrom [DecidableEq α] (t : Table (α × β) ρ) (a : α) : Table (α × β) ρ :=
  fun k => if k.1 = a then none else t k

@[simp] theorem upsert_self [DecidableEq κ] (t : Table κ ρ) (k : κ) (row : ρ) (merge : ρ → ρ → ρ) :
    t.upsert k row merge k = Option.merge merge (t k) (some row) :=
  Function.update_self ..

theorem upsert_of_ne [DecidableEq κ] {k k' : κ} (h : k' ≠ k) (t : Table κ ρ) (row : ρ)
    (merge : ρ → ρ → ρ) : t.upsert k row merge k' = t k' :=
  Function.update_of_ne h ..

theorem upsert_upsert [DecidableEq κ] (t : Table κ ρ) (k : κ) {row : ρ} {merge : ρ → ρ → ρ}
    (hnew : merge row row = row) (hold : ∀ old, merge (merge old row) row = merge old row) :
    (t.upsert k row merge).upsert k row merge = t.upsert k row merge := by
  have hself : Option.merge merge (Option.merge merge (t k) (some row)) (some row) =
      Option.merge merge (t k) (some row) := by
    cases t k with
    | none => exact congrArg some hnew
    | some old => exact congrArg some (hold old)
  rw [upsert, upsert_self, hself, upsert, Function.update_idem]

theorem deleteFrom_insertFrom [DecidableEq α] (t : Table (α × β) ρ) (dst src : α)
    (merge : ρ → ρ → ρ) (a : α) (b : β) :
    ((t.insertFrom dst src merge).deleteFrom src) (a, b) =
      if a = src then none
      else if a = dst then Option.merge merge (t (dst, b)) (t (src, b)) else t (a, b) := by
  simp only [deleteFrom, insertFrom]
  by_cases hsrc : a = src
  · rw [if_pos hsrc, if_pos hsrc]
  · rw [if_neg hsrc, if_neg hsrc]
    by_cases hdst : a = dst
    · rw [if_pos hdst, if_pos hdst, hdst]
    · rw [if_neg hdst, if_neg hdst]

theorem upsert_moved [DecidableEq α] [DecidableEq β] (t : Table (α × β) ρ) {dst src : α}
    (h : dst ≠ src) (merge : ρ → ρ → ρ) (row : ρ) (b b' : β) :
    (((t.insertFrom dst src merge).deleteFrom src).upsert (dst, b') row merge) (dst, b) =
      Option.merge merge (Option.merge merge (t (dst, b)) (t (src, b)))
        (if b = b' then some row else none) := by
  have hmoved := deleteFrom_insertFrom t dst src merge dst b
  rw [if_neg h, if_pos rfl] at hmoved
  by_cases hb : b = b'
  · subst hb
    rw [upsert_self, hmoved, if_pos rfl]
  · rw [upsert_of_ne fun heq => hb (Prod.mk.inj heq).2, hmoved, if_neg hb, Option.merge_none_right]

end Table

end ProxyForward

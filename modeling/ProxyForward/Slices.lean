import Mathlib.Data.List.Basic
import Mathlib.Data.List.TakeDrop

namespace Slices
set_option autoImplicit true

/-- The first `len` elements of the array at an address. -/
structure Slice where
  array : Nat
  len : Nat
  deriving DecidableEq, Repr

/-- The arrays allocated so far, each with all of its capacity. -/
abbrev Heap (α : Type _) := List (List α)

namespace Heap

def cells (h : Heap α) (a : Nat) : List α := h[a]?.getD []

def read (h : Heap α) (s : Slice) : List α := (h.cells s.array).take s.len

/-- What a slice holds; the nil slice holds nothing. -/
def readNil (h : Heap α) : Option Slice → List α
  | none => []
  | some s => h.read s

def Fits (h : Heap α) (s : Slice) : Prop :=
  s.array < h.length ∧ s.len ≤ (h.cells s.array).length

/-- One pass over the next cells to read that moves those that satisfy `p` to the front: `i` is the
cell to read and `k` the cell to write. -/
def compact (p : α → Bool) (cells : List α) (i k : Nat) : Nat → List α × Nat
  | 0 => (cells, k)
  | n + 1 =>
    match cells[i]? with
    | none => (cells, k)
    | some x =>
      if p x then compact p (cells.set k x) (i + 1) (k + 1) n
      else compact p cells (i + 1) k n

/-- `keep := s[:0]`, then `keep = append(keep, x)` for every `x` of `s` with `p x`. -/
def filterInPlace (h : Heap α) (p : α → Bool) (s : Slice) : Heap α × Slice :=
  let (cells, k) := compact p (h.cells s.array) 0 0 s.len
  (h.set s.array cells, ⟨s.array, k⟩)

/-- `append(s, x)`: in place while the array has room, else in a new array, whose capacity beyond
the new length is up to `spare`. -/
def append (h : Heap α) (spare : List α → List α) (s : Option Slice) (x : α) :
    Heap α × Slice :=
  match s with
  | none => (List.append h [x :: spare [x]], ⟨h.length, 1⟩)
  | some s =>
    if s.len < (h.cells s.array).length then
      (h.set s.array ((h.cells s.array).set s.len x), ⟨s.array, s.len + 1⟩)
    else
      let xs := h.read s ++ [x]
      (List.append h [xs ++ spare xs], ⟨h.length, s.len + 1⟩)

theorem cells_set (h : Heap α) (xs : List α) (b : Nat) (ha : a < h.length) :
    cells (h.set a xs) b = if b = a then xs else h.cells b := by
  unfold cells
  rw [List.getElem?_set]
  by_cases hab : a = b
  · subst hab
    rw [if_pos rfl, if_pos ha, if_pos rfl]
    rfl
  · rw [if_neg hab, if_neg (Ne.symm hab)]

theorem cells_append_lt (h : Heap α) (hb : b < h.length) :
    cells (List.append h [xs]) b = h.cells b := by
  unfold cells
  rw [List.append_eq, List.getElem?_append_left hb]

theorem cells_append_new (h : Heap α) : cells (List.append h [xs]) h.length = xs := by
  unfold cells
  rw [List.append_eq, List.getElem?_append_right (Nat.le_refl _), Nat.sub_self]
  rfl

theorem take_succ_set (cells : List α) (hk : k < cells.length) :
    (cells.set k x).take (k + 1) = cells.take k ++ [x] := by
  rw [List.take_succ_eq_append_getElem (by rw [List.length_set]; exact hk),
    List.take_set_of_le (Nat.le_refl _), List.getElem_set_self]

/-- The invariant of the pass: what is kept so far, then what passes of the cells to read. -/
theorem compact_spec (p : α → Bool) (cells : List α) (hk : k ≤ i) (hn : i + n ≤ cells.length) :
    (compact p cells i k n).1.length = cells.length ∧
      (compact p cells i k n).2 ≤ i + n ∧
      (compact p cells i k n).1.take (compact p cells i k n).2 =
        cells.take k ++ ((cells.drop i).take n).filter p := by
  induction n generalizing cells i k with
  | zero =>
    refine ⟨rfl, hk, ?_⟩
    rw [List.take_zero, List.filter_nil, List.append_nil]
    rfl
  | succ n ih =>
    have hi : i < cells.length := by omega
    have hread : cells[i]? = some cells[i] := List.getElem?_eq_getElem hi
    have hdrop : (cells.drop i).take (n + 1) = cells[i] :: (cells.drop (i + 1)).take n := by
      rw [List.drop_eq_getElem_cons hi, List.take_succ_cons]
    simp only [compact, hread]
    rw [hdrop]
    by_cases hp : p cells[i] = true
    · have hlen : (cells.set k cells[i]).length = cells.length := List.length_set
      obtain ⟨h1, h2, h3⟩ := ih (cells.set k cells[i]) (i := i + 1) (k := k + 1)
        (by omega) (by omega)
      rw [if_pos hp]
      refine ⟨h1.trans hlen, by omega, ?_⟩
      rw [h3, take_succ_set cells (by omega), List.drop_set_of_lt (by omega),
        List.filter_cons_of_pos hp, List.append_assoc, List.singleton_append]
    · obtain ⟨h1, h2, h3⟩ := ih cells (i := i + 1) (k := k) (by omega) (by omega)
      rw [if_neg hp]
      refine ⟨h1, by omega, ?_⟩
      rw [h3, List.filter_cons_of_neg hp]

section filterInPlace

variable {h : Heap α} {s : Slice} (hf : h.Fits s) (p : α → Bool)
include hf

theorem filterInPlace_fits : (h.filterInPlace p s).1.Fits (h.filterInPlace p s).2 := by
  obtain ⟨hlen, hle, -⟩ := compact_spec p (h.cells s.array) (Nat.le_refl 0)
    (show 0 + s.len ≤ (h.cells s.array).length by rw [Nat.zero_add]; exact hf.2)
  constructor
  · exact (List.length_set).symm ▸ hf.1
  · have hc := cells_set h (compact p (h.cells s.array) 0 0 s.len).1 s.array hf.1
    rw [if_pos rfl] at hc
    have h2 := hf.2
    change (compact p (h.cells s.array) 0 0 s.len).2 ≤
      (cells (h.set s.array (compact p (h.cells s.array) 0 0 s.len).1) s.array).length
    rw [hc, hlen]
    omega

theorem read_filterInPlace :
    (h.filterInPlace p s).1.read (h.filterInPlace p s).2 = (h.read s).filter p := by
  obtain ⟨-, -, htake⟩ := compact_spec p (h.cells s.array) (Nat.le_refl 0)
    (show 0 + s.len ≤ (h.cells s.array).length by rw [Nat.zero_add]; exact hf.2)
  have hc := cells_set h (compact p (h.cells s.array) 0 0 s.len).1 s.array hf.1
  rw [if_pos rfl] at hc
  change (cells (h.set s.array (compact p (h.cells s.array) 0 0 s.len).1) s.array).take
    (compact p (h.cells s.array) 0 0 s.len).2 = _
  rw [hc, htake, List.take_zero, List.nil_append, List.drop_zero]
  rfl

theorem cells_filterInPlace (hb : b ≠ s.array) :
    (h.filterInPlace p s).1.cells b = h.cells b := by
  have hc := cells_set h (compact p (h.cells s.array) 0 0 s.len).1 b hf.1
  rw [if_neg hb] at hc
  exact hc

end filterInPlace

theorem length_filterInPlace (h : Heap α) (p : α → Bool) (s : Slice) :
    (h.filterInPlace p s).1.length = h.length := List.length_set

/-- A slice in another array reads as before. -/
theorem read_congr {h h' : Heap α} (hc : h'.cells s.array = h.cells s.array) :
    h'.read s = h.read s := by
  unfold read
  rw [hc]

theorem Fits.congr {h h' : Heap α} (hf : h.Fits s) (hl : h.length ≤ h'.length)
    (hc : h'.cells s.array = h.cells s.array) : h'.Fits s := by
  refine ⟨Nat.lt_of_lt_of_le hf.1 hl, ?_⟩
  rw [hc]
  exact hf.2

section append

variable {h : Heap α} {s : Option Slice} (hf : ∀ t ∈ s, h.Fits t) (spare : List α → List α) (x : α)

theorem append_array :
    (∃ t ∈ s, (h.append spare s x).2.array = t.array) ∨
      (h.append spare s x).2.array = h.length := by
  cases s with
  | none => exact .inr rfl
  | some t =>
    by_cases hr : t.len < (h.cells t.array).length
    · refine .inl ⟨t, rfl, ?_⟩
      simp only [append, if_pos hr]
    · refine .inr ?_
      simp only [append, if_neg hr]

theorem length_append : h.length ≤ (h.append spare s x).1.length := by
  cases s with
  | none =>
    simp only [append, List.append_eq, List.length_append]
    omega
  | some t =>
    by_cases hr : t.len < (h.cells t.array).length
    · simp only [append, if_pos hr, List.length_set, Nat.le_refl]
    · simp only [append, if_neg hr, List.append_eq, List.length_append]
      omega

include hf

theorem cells_append (hb : b < h.length) (hne : b ≠ (h.append spare s x).2.array) :
    (h.append spare s x).1.cells b = h.cells b := by
  cases s with
  | none => exact cells_append_lt h hb
  | some t =>
    by_cases hr : t.len < (h.cells t.array).length
    · simp only [append, if_pos hr] at hne ⊢
      rw [cells_set h _ _ (hf t rfl).1, if_neg hne]
    · simp only [append, if_neg hr] at hne ⊢
      exact cells_append_lt h hb

theorem append_fits : (h.append spare s x).1.Fits (h.append spare s x).2 := by
  cases s with
  | none =>
    refine ⟨?_, ?_⟩
    · simp only [append, List.append_eq, List.length_append, List.length_singleton]
      omega
    · simp only [append]
      rw [cells_append_new, List.length_cons]
      omega
  | some t =>
    have ht := hf t rfl
    by_cases hr : t.len < (h.cells t.array).length
    · simp only [append, if_pos hr]
      refine ⟨List.length_set.symm ▸ ht.1, ?_⟩
      rw [cells_set h _ _ ht.1, if_pos rfl, List.length_set]
      exact hr
    · simp only [append, if_neg hr]
      refine ⟨?_, ?_⟩
      · simp only [List.append_eq, List.length_append, List.length_singleton]
        omega
      · have hlen : (h.read t).length = t.len := List.length_take_of_le ht.2
        rw [cells_append_new, List.length_append, List.length_append, List.length_singleton, hlen]
        exact Nat.le_add_right _ _

theorem read_append :
    (h.append spare s x).1.read (h.append spare s x).2 = h.readNil s ++ [x] := by
  cases s with
  | none =>
    simp only [append, read, readNil]
    rw [cells_append_new, List.take_succ_cons, List.take_zero, List.nil_append]
  | some t =>
    have ht := hf t rfl
    by_cases hr : t.len < (h.cells t.array).length
    · simp only [append, if_pos hr, read, readNil]
      rw [cells_set h _ _ ht.1, if_pos rfl, take_succ_set _ hr]
    · have hlen : (h.read t ++ [x]).length = t.len + 1 := by
        rw [List.length_append, List.length_singleton, read, List.length_take_of_le ht.2]
      simp only [append, if_neg hr, readNil]
      unfold read at hlen ⊢
      rw [cells_append_new, ← hlen, List.take_left]

end append

end Heap
end Slices

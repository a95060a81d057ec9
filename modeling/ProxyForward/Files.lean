import Mathlib.Logic.Function.Basic

namespace Files
set_option autoImplicit true

/-- Names for numbered files. A name is of a file that exists, and a number not yet used has no
content. -/
structure FS where
  names : String → Option Nat
  content : Nat → List UInt8
  next : Nat
  named_lt : ∀ n i, names n = some i → i < next
  unused_nil : ∀ i, next ≤ i → content i = []

namespace FS

def empty : FS := ⟨fun _ => none, fun _ => [], 0, nofun, fun _ _ => rfl⟩

def remove (fs : FS) (n : String) : FS where
  names := Function.update fs.names n none
  content := fs.content
  next := fs.next
  named_lt m i h := by
    by_cases hm : m = n
    · rw [hm, Function.update_self] at h
      cases h
    · rw [Function.update_of_ne hm] at h
      exact fs.named_lt m i h
  unused_nil := fs.unused_nil

/-- The file, if there is one, takes the name `b` from whatever had it. -/
def rename (fs : FS) (a b : String) : FS :=
  match ha : fs.names a with
  | none => fs
  | some i =>
    { names := Function.update (Function.update fs.names a none) b (some i)
      content := fs.content
      next := fs.next
      named_lt := by
        intro m j h
        by_cases hb : m = b
        · rw [hb, Function.update_self] at h
          cases h
          exact fs.named_lt a i ha
        · rw [Function.update_of_ne hb] at h
          by_cases hm : m = a
          · rw [hm, Function.update_self] at h
            cases h
          · rw [Function.update_of_ne hm] at h
            exact fs.named_lt m j h
      unused_nil := fs.unused_nil }

/-- Opening a name to append to it; a name that does not exist gets an empty file. -/
def openAppend (fs : FS) (n : String) : Nat × FS :=
  match fs.names n with
  | some i => (i, fs)
  | none =>
    (fs.next,
      { names := Function.update fs.names n (some fs.next)
        content := fs.content
        next := fs.next + 1
        named_lt := by
          intro m i h
          by_cases hm : m = n
          · rw [hm, Function.update_self] at h
            cases h
            exact Nat.lt_succ_self _
          · rw [Function.update_of_ne hm] at h
            exact Nat.lt_succ_of_lt (fs.named_lt m i h)
        unused_nil := fun i h => fs.unused_nil i (Nat.le_of_succ_le h) })

def append (fs : FS) (i : Nat) (bytes : List UInt8) : FS where
  names := fs.names
  content := Function.update fs.content i (fs.content i ++ bytes)
  next := max fs.next (i + 1)
  named_lt m j h := Nat.lt_of_lt_of_le (fs.named_lt m j h) (Nat.le_max_left _ _)
  unused_nil j h := by
    have hj : j ≠ i := by omega
    rw [Function.update_of_ne hj]
    exact fs.unused_nil j (by omega)

@[simp] theorem content_remove (fs : FS) (n : String) : (fs.remove n).content = fs.content := rfl

@[simp] theorem content_rename (fs : FS) (a b : String) :
    (fs.rename a b).content = fs.content := by
  unfold rename
  split <;> rfl

@[simp] theorem content_openAppend (fs : FS) (n : String) :
    (fs.openAppend n).2.content = fs.content := by
  unfold openAppend
  split <;> rfl

@[simp] theorem content_append (fs : FS) (i : Nat) (bytes : List UInt8) :
    (fs.append i bytes).content = Function.update fs.content i (fs.content i ++ bytes) := rfl

@[simp] theorem names_append (fs : FS) (i : Nat) (bytes : List UInt8) :
    (fs.append i bytes).names = fs.names := rfl

theorem names_openAppend (fs : FS) (n : String) :
    (fs.openAppend n).2.names n = some (fs.openAppend n).1 := by
  unfold openAppend
  split
  · assumption
  · exact Function.update_self _ _ _

end FS
end Files

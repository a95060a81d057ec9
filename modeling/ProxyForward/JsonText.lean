import Mathlib.Algebra.BigOperators.Group.List.Basic
import Mathlib.Algebra.Order.BigOperators.Group.List
import Mathlib.Algebra.GroupWithZero.Nat
import Mathlib.Algebra.Order.Group.Nat

namespace JsonText
set_option autoImplicit true

/-- The UTF-8 encoding of a text. -/
def bytes (cs : List Char) : List UInt8 := cs.flatMap String.utf8EncodeChar

/-- How many bytes a text takes. -/
def size (cs : List Char) : Nat := (cs.map Char.utf8Size).sum

theorem length_bytes (cs : List Char) : (bytes cs).length = size cs := by
  rw [bytes, List.length_flatMap, size]
  congr 1
  exact List.map_congr_left fun c _ => String.length_utf8EncodeChar c

theorem bytes_append (cs ds : List Char) : bytes (cs ++ ds) = bytes cs ++ bytes ds :=
  List.flatMap_append

@[simp] theorem size_nil : size [] = 0 := rfl

@[simp] theorem size_cons (c : Char) (cs : List Char) : size (c :: cs) = c.utf8Size + size cs :=
  List.sum_cons

@[simp] theorem size_append (cs ds : List Char) : size (cs ++ ds) = size cs + size ds := by
  rw [size, List.map_append, List.sum_append]
  rfl

theorem size_replicate (n : Nat) (c : Char) : size (List.replicate n c) = n * c.utf8Size := by
  rw [size, List.map_replicate, List.sum_replicate_nat]

theorem length_le_size (cs : List Char) : cs.length ≤ size cs := by
  induction cs with
  | nil => exact Nat.le_refl 0
  | cons c cs ih =>
    have hpos : 0 < c.utf8Size := Char.utf8Size_pos c
    rw [size_cons, List.length_cons]
    omega

/-- Plain characters take a byte each. -/
theorem size_of_ascii {cs : List Char} (h : ∀ c ∈ cs, c.utf8Size = 1) : size cs = cs.length := by
  rw [size, List.map_congr_left h, List.map_const', List.sum_replicate_nat, Nat.mul_one]

/-- Texts with commas between them. -/
def joined : List (List Char) → List Char
  | [] => []
  | [x] => x
  | x :: y :: rest => x ++ ',' :: joined (y :: rest)

theorem size_joined (xs : List (List Char)) :
    size (joined xs) = (xs.map size).sum + (xs.length - 1) := by
  induction xs with
  | nil => rfl
  | cons x xs ih =>
    cases xs with
    | nil => exact (Nat.add_zero _).symm
    | cons y rest =>
      have hcomma : (',' : Char).utf8Size = 1 := rfl
      rw [joined, size_append, size_cons, ih, hcomma]
      simp only [List.map_cons, List.sum_cons, List.length_cons]
      omega

def array (items : List (List Char)) : List Char := '[' :: (joined items ++ [']'])

def object (fields : List (List Char)) : List Char := '\x7b' :: (joined fields ++ ['\x7d'])

/-- A field whose name needs no escape. -/
def field (name : String) (value : List Char) : List Char :=
  '"' :: (name.toList ++ '"' :: ':' :: value)

/-- A field left out when its value is the empty one. -/
def omitting (empty : Bool) (field : List Char) : List (List Char) := if empty then [] else [field]

theorem size_array (items : List (List Char)) :
    size (array items) = (items.map size).sum + (items.length - 1) + 2 := by
  have hopen : ('[' : Char).utf8Size = 1 := rfl
  have hclose : (']' : Char).utf8Size = 1 := rfl
  rw [array, size_cons, size_append, size_joined, size_cons, size_nil, hopen, hclose]
  omega

theorem size_object (fields : List (List Char)) :
    size (object fields) = (fields.map size).sum + (fields.length - 1) + 2 := by
  have hopen : ('\x7b' : Char).utf8Size = 1 := rfl
  have hclose : ('\x7d' : Char).utf8Size = 1 := rfl
  rw [object, size_cons, size_append, size_joined, size_cons, size_nil, hopen, hclose]
  omega

theorem size_field (name : String) (value : List Char) :
    size (field name value) = size name.toList + size value + 3 := by
  have hquote : ('"' : Char).utf8Size = 1 := rfl
  have hcolon : (':' : Char).utf8Size = 1 := rfl
  rw [field, size_cons, size_append, size_cons, size_cons, hquote, hcolon]
  omega

/-- The texts' sizes, with a separator each. -/
def weight (xs : List (List Char)) : Nat := (xs.map fun x => size x + 1).sum

@[simp] theorem weight_nil : weight [] = 0 := rfl

@[simp] theorem weight_cons (x : List Char) (xs : List (List Char)) :
    weight (x :: xs) = size x + 1 + weight xs :=
  List.sum_cons

@[simp] theorem weight_append (xs ys : List (List Char)) :
    weight (xs ++ ys) = weight xs + weight ys := by
  rw [weight, List.map_append, List.sum_append]
  rfl

theorem weight_eq (xs : List (List Char)) : weight xs = (xs.map size).sum + xs.length := by
  induction xs with
  | nil => rfl
  | cons x xs ih =>
    rw [weight_cons, ih, List.map_cons, List.sum_cons, List.length_cons]
    omega

theorem size_object_of_ne (h : fields ≠ []) : size (object fields) = weight fields + 1 := by
  have hpos : 0 < fields.length := List.length_pos_iff.2 h
  rw [size_object, weight_eq]
  omega

theorem size_array_of_ne (h : items ≠ []) : size (array items) = weight items + 1 := by
  have hpos : 0 < items.length := List.length_pos_iff.2 h
  rw [size_array, weight_eq]
  omega

/-- An array with some of the items takes no more room. -/
theorem size_array_sublist {xs ys : List (List Char)} (h : xs.Sublist ys) :
    size (array xs) ≤ size (array ys) := by
  have hsum : (xs.map size).sum ≤ (ys.map size).sum :=
    (h.map size).sum_le_sum fun _ _ => Nat.zero_le _
  have hlen := h.length_le
  rw [size_array, size_array]
  omega

end JsonText

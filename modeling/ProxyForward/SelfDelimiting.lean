import Mathlib.Data.List.Basic
import Mathlib.Logic.Function.Basic

namespace SelfDelimiting
set_option autoImplicit true

/-- In front of texts with `P`, the code of a value can be told from the text behind it. -/
def Delimited (P : List σ → Prop) (enc : α → List σ) : Prop :=
  ∀ a b x y, P x → P y → enc a ++ x = enc b ++ y → a = b ∧ x = y

/-- Any text may follow. -/
def Anything : List σ → Prop := fun _ => True

variable {enc : α → List σ}

/-- A code that can be read back in front of anything. -/
theorem delimited_of_decode (dec : List σ → Option (α × List σ))
    (h : ∀ a x, dec (enc a ++ x) = some (a, x)) : Delimited Anything enc := by
  intro a b x y _ _ he
  have hboth := h a x
  rw [he, h b y] at hboth
  obtain ⟨hb, hy⟩ := Prod.mk.inj (Option.some.inj hboth)
  exact ⟨hb.symm, hy.symm⟩

/-- A code of marked symbols, in front of a text that starts with an unmarked one. -/
theorem delimited_of_marked (p : σ → Bool) (hp : ∀ a, ∀ c ∈ enc a, p c = true)
    (hinj : Function.Injective enc) : Delimited (fun x => ∀ c ∈ x.head?, p c = false) enc := by
  have htake (a : α) (x : List σ) (hx : ∀ c ∈ x.head?, p c = false) :
      (enc a ++ x).takeWhile p = enc a := by
    rw [List.takeWhile_append_of_pos (hp a)]
    cases x with
    | nil => rw [List.takeWhile_nil, List.append_nil]
    | cons c x =>
      rw [List.takeWhile_cons_of_neg (by rw [hx c rfl]; exact Bool.false_ne_true), List.append_nil]
  intro a b x y hx hy he
  have hcode : enc a = enc b := by rw [← htake a x hx, he, htake b y hy]
  rw [hcode] at he
  exact ⟨hinj hcode, List.append_cancel_left he⟩

theorem Delimited.comap {f : β → α} (h : Delimited P enc) (hf : Function.Injective f) :
    Delimited P fun b => enc (f b) := by
  intro a b x y hx hy he
  obtain ⟨hab, hxy⟩ := h _ _ x y hx hy he
  exact ⟨hf hab, hxy⟩

/-- A fixed text in front of a code. -/
theorem Delimited.labelled (h : Delimited P enc) (label : List σ) :
    Delimited P fun a => label ++ enc a := by
  intro a b x y hx hy he
  rw [List.append_assoc, List.append_assoc] at he
  exact h a b x y hx hy (List.append_cancel_left he)

/-- A labelled code, or nothing. -/
def optional (label : List σ) (enc : α → List σ) : Option α → List σ
  | none => []
  | some a => label ++ enc a

/-- In front of a text without its label, it can be told whether the code is there. -/
theorem Delimited.optional (h : Delimited P enc) (label : List σ) :
    Delimited (fun x => P x ∧ ¬label <+: x) (optional label enc) := by
  intro a b x y hx hy he
  cases a with
  | none =>
    cases b with
    | none => exact ⟨rfl, he⟩
    | some b =>
      rw [SelfDelimiting.optional, SelfDelimiting.optional, List.append_assoc] at he
      exact absurd ⟨_, he.symm⟩ hx.2
  | some a =>
    cases b with
    | none =>
      rw [SelfDelimiting.optional, SelfDelimiting.optional, List.append_assoc] at he
      exact absurd ⟨_, he⟩ hy.2
    | some b =>
      obtain ⟨rfl, hxy⟩ := h.labelled label a b x y hx.1 hy.1 he
      exact ⟨rfl, hxy⟩

/-- A label that is incomparable with another one starts no text of that one. -/
theorem not_prefix_optional {label lit : List σ} (h : ¬lit <+: label) (h' : ¬label <+: lit)
    (hx : ¬lit <+: x) (a : Option α) : ¬lit <+: optional label enc a ++ x := by
  cases a with
  | none => exact hx
  | some a =>
    intro hp
    have hl : label <+: optional label enc (some a) ++ x := by
      rw [optional, List.append_assoc]
      exact List.prefix_append _ _
    obtain hc | hc := List.prefix_or_prefix_of_prefix hp hl
    · exact h hc
    · exact h' hc

theorem head_optional {label : List σ} {p : σ → Bool} (hl : ∃ c s, label = c :: s ∧ p c = false)
    (hx : ∀ c ∈ x.head?, p c = false) (a : Option α) :
    ∀ c ∈ (optional label enc a ++ x).head?, p c = false := by
  cases a with
  | none => exact hx
  | some a =>
    obtain ⟨c, s, rfl, hc⟩ := hl
    rintro d ⟨⟩
    exact hc

/-- A list of codes in a row, ended by a symbol that starts none of them. -/
theorem Delimited.terminated (h : Delimited Anything enc) (q : σ)
    (hq : ∀ a, ∃ c s, enc a = c :: s ∧ c ≠ q) :
    Delimited Anything fun l : List α => l.flatMap enc ++ [q] := by
  intro l m x y _ _ he
  simp only [List.append_assoc, List.singleton_append] at he
  induction l generalizing m with
  | nil =>
    cases m with
    | nil => exact ⟨rfl, (List.cons.inj he).2⟩
    | cons b m =>
      obtain ⟨c, s, hb, hc⟩ := hq b
      rw [List.flatMap_nil, List.flatMap_cons, hb] at he
      exact absurd (List.cons.inj he).1.symm hc
  | cons a l ih =>
    cases m with
    | nil =>
      obtain ⟨c, s, ha, hc⟩ := hq a
      rw [List.flatMap_nil, List.flatMap_cons, ha] at he
      exact absurd (List.cons.inj he).1 hc
    | cons b m =>
      rw [List.flatMap_cons, List.flatMap_cons, List.append_assoc, List.append_assoc] at he
      obtain ⟨rfl, hrest⟩ := h a b _ _ trivial trivial he
      obtain ⟨rfl, hxy⟩ := ih m hrest
      exact ⟨rfl, hxy⟩

/-- Codes in a row determine the list they encode. -/
theorem Delimited.flatMap_injective (h : Delimited Anything enc) (hne : ∀ a, enc a ≠ []) :
    Function.Injective fun l : List α => l.flatMap enc := by
  intro l m he
  simp only at he
  induction l generalizing m with
  | nil =>
    cases m with
    | nil => rfl
    | cons b m =>
      rw [List.flatMap_nil, List.flatMap_cons] at he
      exact absurd (List.append_eq_nil_iff.1 he.symm).1 (hne b)
  | cons a l ih =>
    cases m with
    | nil =>
      rw [List.flatMap_nil, List.flatMap_cons] at he
      exact absurd (List.append_eq_nil_iff.1 he).1 (hne a)
    | cons b m =>
      rw [List.flatMap_cons, List.flatMap_cons] at he
      obtain ⟨rfl, hrest⟩ := h a b _ _ trivial trivial he
      rw [ih hrest]

end SelfDelimiting

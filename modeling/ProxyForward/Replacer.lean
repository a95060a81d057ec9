import Mathlib.Data.List.Infix

namespace ProxyForward
set_option autoImplicit true

/-! Replacement of several patterns in one pass: from left to right, without overlap, and at each
place the first listed pattern that begins there. -/

namespace Replacer

variable {α : Type}

abbrev Pairs (α : Type) := List (List α × List α)

inductive Piece (α : Type)
  | kept (c : α)
  | put (old new : List α)
  deriving DecidableEq, Repr

namespace Piece

def source : Piece α → List α
  | .kept c => [c]
  | .put old _ => old

def text : Piece α → List α
  | .kept c => [c]
  | .put _ new => new

def isPut : Piece α → Bool
  | .kept _ => false
  | .put _ _ => true

end Piece

def sources (ps : List (Piece α)) : List α := ps.flatMap Piece.source

def texts (ps : List (Piece α)) : List α := ps.flatMap Piece.text

@[simp] theorem sources_nil : sources ([] : List (Piece α)) = [] := rfl

@[simp] theorem texts_nil : texts ([] : List (Piece α)) = [] := rfl

@[simp] theorem sources_cons (p : Piece α) (ps) : sources (p :: ps) = p.source ++ sources ps :=
  List.flatMap_cons

@[simp] theorem texts_cons (p : Piece α) (ps) : texts (p :: ps) = p.text ++ texts ps :=
  List.flatMap_cons

@[simp] theorem sources_append (ps qs : List (Piece α)) :
    sources (ps ++ qs) = sources ps ++ sources qs := List.flatMap_append

@[simp] theorem texts_append (ps qs : List (Piece α)) : texts (ps ++ qs) = texts ps ++ texts qs :=
  List.flatMap_append

theorem texts_map_kept (s : List α) : texts (s.map .kept) = s := by
  induction s with
  | nil => rfl
  | cons c s ih => rw [List.map_cons, texts_cons, ih, Piece.text, List.singleton_append]

theorem exists_last {ps : List (Piece α)} (hv : v ≠ []) (h : texts ps = v ++ post) :
    ∃ mid q ps₂ b, ps = mid ++ q :: ps₂ ∧ b ≠ [] ∧ b <+: q.text ∧ v = texts mid ++ b := by
  induction ps generalizing v with
  | nil => exact absurd (List.append_eq_nil_iff.1 h.symm).1 hv
  | cons q ps ih =>
    rw [texts_cons] at h
    obtain ⟨b, rfl, hb⟩ | ⟨b, hb, -⟩ := List.append_eq_append_iff.1 h
    · by_cases hempty : b = []
      · subst hempty
        rw [List.append_nil] at hv
        exact ⟨[], q, ps, q.text, rfl, hv, List.prefix_rfl, List.append_nil _⟩
      · obtain ⟨mid, q', ps₂, b', rfl, hne, hpre, rfl⟩ := ih hempty hb
        refine ⟨q :: mid, q', ps₂, b', rfl, hne, hpre, ?_⟩
        rw [texts_cons, List.append_assoc]
    · exact ⟨[], q, ps, v, rfl, hv, hb ▸ List.prefix_append v b, rfl⟩

theorem occurrence_cases {ps : List (Piece α)} (hv : v ≠ []) (h : texts ps = pre ++ v ++ post) :
    (∃ ps₁ p ps₂ front back, ps = ps₁ ++ p :: ps₂ ∧ pre = texts ps₁ ++ front ∧
      p.text = front ++ v ++ back) ∨
    ∃ ps₁ p mid q ps₂ a b, ps = ps₁ ++ (p :: mid ++ [q]) ++ ps₂ ∧ a ≠ [] ∧ b ≠ [] ∧ a <:+ p.text ∧
      b <+: q.text ∧ v = a ++ texts mid ++ b := by
  induction ps generalizing pre with
  | nil => exact absurd (List.append_eq_nil_iff.1 (List.append_eq_nil_iff.1 h.symm).1).2 hv
  | cons p ps ih =>
    rw [texts_cons, List.append_assoc] at h
    have later {pre' : List α} (hpre : pre = p.text ++ pre') (h' : texts ps = pre' ++ (v ++ post)) :
        (∃ ps₁ x ps₂ front back, p :: ps = ps₁ ++ x :: ps₂ ∧ pre = texts ps₁ ++ front ∧
          x.text = front ++ v ++ back) ∨
        ∃ ps₁ x mid q ps₂ a b, p :: ps = ps₁ ++ (x :: mid ++ [q]) ++ ps₂ ∧ a ≠ [] ∧ b ≠ [] ∧
          a <:+ x.text ∧ b <+: q.text ∧ v = a ++ texts mid ++ b := by
      rw [← List.append_assoc] at h'
      obtain ⟨ps₁, x, ps₂, front, back, rfl, rfl, hx⟩ | ⟨ps₁, x, mid, q, ps₂, a, b, rfl, hrest⟩ :=
        ih h'
      · refine .inl ⟨p :: ps₁, x, ps₂, front, back, rfl, ?_, hx⟩
        rw [hpre, texts_cons, List.append_assoc]
      · exact .inr ⟨p :: ps₁, x, mid, q, ps₂, a, b, rfl, hrest⟩
    obtain ⟨pre', hpre, h'⟩ | ⟨a, hp, h'⟩ := List.append_eq_append_iff.1 h
    · exact later hpre h'
    · by_cases hempty : a = []
      · subst hempty
        rw [List.append_nil] at hp
        exact @later [] (by rw [hp, List.append_nil]) h'.symm
      · obtain ⟨b, rfl, htexts⟩ | ⟨back, rfl, -⟩ := List.append_eq_append_iff.1 h'.symm
        · by_cases hb : b = []
          · subst hb
            exact .inl ⟨[], p, ps, pre, [], rfl, rfl, by rw [hp, List.append_nil, List.append_nil]⟩
          · obtain ⟨mid, q, ps₂, b', rfl, hne, hpre, rfl⟩ := exists_last hb htexts
            refine .inr ⟨[], p, mid, q, ps₂, a, b', ?_, hempty, hne, hp ▸ List.suffix_append pre a,
              hpre, ?_⟩
            · simp only [List.nil_append, List.cons_append, List.append_assoc]
            · rw [List.append_assoc]
        · exact .inl ⟨[], p, ps, pre, back, rfl, rfl, by rw [hp, List.append_assoc]⟩

variable [DecidableEq α]

def firstMatch (pairs : Pairs α) (s : List α) : Option (List α × List α) :=
  pairs.find? fun p => p.1.isPrefixOf s

/-- The pieces of a text; the number counts what a pattern still covers. -/
def scan (pairs : Pairs α) : Nat → List α → List (Piece α)
  | _, [] => []
  | n + 1, _ :: s => scan pairs n s
  | 0, c :: s =>
    match firstMatch pairs (c :: s) with
    | some (old, new) => .put old new :: scan pairs (old.length - 1) s
    | none => .kept c :: scan pairs 0 s

def replace (pairs : Pairs α) (s : List α) : List α := texts (scan pairs 0 s)

/-- The value stands inside one replacement. -/
def Inside (ps : List (Piece α)) (pre v : List α) : Prop :=
  ∃ ps₁ old new ps₂ front back, ps = ps₁ ++ .put old new :: ps₂ ∧ pre = texts ps₁ ++ front ∧
    new = front ++ v ++ back

/-- Wherever the value occurs after the replacement, it is inside what was put there. -/
def Hides (pairs : Pairs α) (v s : List α) : Prop :=
  ∀ pre post, replace pairs s = pre ++ v ++ post → Inside (scan pairs 0 s) pre v

/-- Pieces that a replacement makes. -/
inductive Reads (pairs : Pairs α) : List (Piece α) → Prop
  | nil : Reads pairs []
  | kept : firstMatch pairs (c :: sources ps) = none → Reads pairs ps → Reads pairs (.kept c :: ps)
  | put : firstMatch pairs (old ++ sources ps) = some (old, new) → Reads pairs ps →
      Reads pairs (.put old new :: ps)

/-- The value is spelled across the edge of a replacement: it ends in one piece, begins in another,
and one of the pieces it goes through was put there. -/
def Spells (pairs : Pairs α) (v : List α) : Prop :=
  ∃ p mid q a b, Reads pairs (p :: mid ++ [q]) ∧ (∃ x ∈ p :: mid ++ [q], x.isPut = true) ∧
    a ≠ [] ∧ b ≠ [] ∧ a <:+ p.text ∧ b <+: q.text ∧ v = a ++ texts mid ++ b

theorem firstMatch_mem {pairs : Pairs α} (h : firstMatch pairs s = some (old, new)) :
    (old, new) ∈ pairs := List.mem_of_find?_eq_some h

theorem firstMatch_prefix {pairs : Pairs α} (h : firstMatch pairs s = some (old, new)) :
    old <+: s := by
  have hpre := List.find?_some h
  exact List.isPrefixOf_iff_prefix.1 hpre

theorem firstMatch_none {pairs : Pairs α} :
    firstMatch pairs s = none ↔ ∀ p ∈ pairs, ¬p.1 <+: s := by
  simp only [firstMatch, List.find?_eq_none, List.isPrefixOf_iff_prefix]

theorem firstMatch_none_left {pairs : Pairs α} (h : firstMatch pairs (s ++ t) = none) :
    firstMatch pairs s = none :=
  firstMatch_none.2 fun p hp hs => firstMatch_none.1 h p hp (hs.trans (List.prefix_append s t))

theorem firstMatch_left {pairs : Pairs α} (h : firstMatch pairs (s ++ t) = some (old, new))
    (hold : old <+: s) : firstMatch pairs s = some (old, new) := by
  obtain ⟨-, before, after, hpairs, hbefore⟩ := List.find?_eq_some_iff_append.1 h
  refine List.find?_eq_some_iff_append.2 ⟨List.isPrefixOf_iff_prefix.2 hold, before, after,
    hpairs, ?_⟩
  intro p hp
  have hnot := hbefore p hp
  simp only [Bool.not_eq_true', ← Bool.not_eq_true, List.isPrefixOf_iff_prefix] at hnot ⊢
  exact fun hs => hnot (hs.trans (List.prefix_append s t))

variable {pairs : Pairs α}

theorem scan_skip (n : Nat) (s : List α) : scan pairs n s = scan pairs 0 (s.drop n) := by
  induction n generalizing s with
  | zero => rfl
  | succ n ih =>
    cases s with
    | nil => rfl
    | cons c s => exact ih s

theorem scan_put (hmatch : firstMatch pairs (old ++ s) = some (old, new)) (hold : old ≠ []) :
    scan pairs 0 (old ++ s) = .put old new :: scan pairs 0 s := by
  obtain ⟨c, old, rfl⟩ := List.exists_cons_of_ne_nil hold
  rw [List.cons_append] at hmatch ⊢
  rw [scan, hmatch]
  simp only [List.length_cons, Nat.add_sub_cancel, scan_skip old.length, List.drop_left]

theorem scan_kept (hmatch : firstMatch pairs (c :: s) = none) :
    scan pairs 0 (c :: s) = .kept c :: scan pairs 0 s := by
  rw [scan, hmatch]

theorem scan_of_reads (hne : ∀ p ∈ pairs, p.1 ≠ []) (h : Reads pairs ps) :
    scan pairs 0 (sources ps) = ps := by
  induction h with
  | nil => rfl
  | kept hmatch _ ih => rw [sources_cons, Piece.source, List.singleton_append, scan_kept hmatch, ih]
  | put hmatch _ ih =>
    rw [sources_cons, Piece.source, scan_put hmatch (hne _ (firstMatch_mem hmatch)), ih]

theorem exists_reads (hne : ∀ p ∈ pairs, p.1 ≠ []) (s : List α) :
    ∃ ps, Reads pairs ps ∧ sources ps = s := by
  induction hlen : s.length using Nat.strong_induction_on generalizing s with
  | _ n ih =>
    subst hlen
    cases s with
    | nil => exact ⟨[], .nil, rfl⟩
    | cons c s =>
      cases hmatch : firstMatch pairs (c :: s) with
      | none =>
        obtain ⟨ps, hps, hsource⟩ := ih s.length (by simp) s rfl
        subst hsource
        exact ⟨.kept c :: ps, .kept hmatch hps, rfl⟩
      | some pair =>
        obtain ⟨old, new⟩ := pair
        obtain ⟨rest, hrest⟩ := firstMatch_prefix hmatch
        have hold := List.length_pos_iff.2 (hne (old, new) (firstMatch_mem hmatch))
        have hlen := congrArg List.length hrest
        rw [List.length_append, List.length_cons] at hlen
        simp only at hold
        obtain ⟨ps, hps, rfl⟩ := ih rest.length (by simp only [List.length_cons]; omega) rest rfl
        exact ⟨.put old new :: ps, .put (hrest ▸ hmatch) hps, hrest⟩

theorem reads_scan (hne : ∀ p ∈ pairs, p.1 ≠ []) (s : List α) :
    Reads pairs (scan pairs 0 s) ∧ sources (scan pairs 0 s) = s := by
  obtain ⟨ps, hps, rfl⟩ := exists_reads hne s
  rw [scan_of_reads hne hps]
  exact ⟨hps, rfl⟩

namespace Reads

theorem right (h : Reads pairs (ps ++ qs)) : Reads pairs qs := by
  induction ps with
  | nil => exact h
  | cons p ps ih =>
    cases h with
    | kept _ h => exact ih h
    | put _ h => exact ih h

theorem left (h : Reads pairs (ps ++ qs)) : Reads pairs ps := by
  induction ps with
  | nil => exact .nil
  | cons p ps ih =>
    rw [List.cons_append] at h
    cases h with
    | kept hmatch h =>
      rw [sources_append, ← List.cons_append] at hmatch
      exact .kept (firstMatch_none_left hmatch) (ih h)
    | put hmatch h =>
      rw [sources_append, ← List.append_assoc] at hmatch
      exact .put (firstMatch_left hmatch (List.prefix_append _ _)) (ih h)

theorem mem_pairs (h : Reads pairs ps) (hmem : .put old new ∈ ps) : (old, new) ∈ pairs := by
  induction h with
  | nil => cases hmem
  | kept _ _ ih => exact ih ((List.mem_cons.1 hmem).resolve_left nofun)
  | put hmatch _ ih =>
    rcases List.mem_cons.1 hmem with heq | hmem
    · cases heq
      exact firstMatch_mem hmatch
    · exact ih hmem

theorem not_infix (h : Reads pairs ps) (hkept : ∀ p ∈ ps, p.isPut = false) (hp : p ∈ pairs)
    (hne : p.1 ≠ []) : ¬p.1 <:+: texts ps := by
  induction h with
  | nil => exact fun hin => hne (List.infix_nil.1 hin)
  | put => exact absurd (hkept _ List.mem_cons_self) nofun
  | @kept c ps hmatch _ ih =>
    obtain ⟨-, hkept⟩ := List.forall_mem_cons.1 hkept
    have hsame : sources ps = texts ps := by
      apply List.flatMap_congr
      intro q hq
      cases q with
      | kept c => rfl
      | put old new => exact absurd (hkept _ hq) nofun
    rw [texts_cons, Piece.text, List.singleton_append, List.infix_cons_iff, not_or]
    rw [hsame] at hmatch
    exact ⟨firstMatch_none.1 hmatch p hp, ih hkept⟩

end Reads

theorem scan_of_not_infix (h : ∀ p ∈ pairs, ¬p.1 <:+: s) : scan pairs 0 s = s.map .kept := by
  induction s with
  | nil => rfl
  | cons c s ih =>
    rw [scan_kept (firstMatch_none.2 fun p hp hpre => h p hp hpre.isInfix), ih, List.map_cons]
    exact fun p hp hin => h p hp (List.infix_cons hin)

/-- A value is hidden in every text if and only if a pattern occurs in it and it is not spelled
across the edge of a replacement. -/
theorem hides_iff (hne : ∀ p ∈ pairs, p.1 ≠ []) (hv : v ≠ []) :
    (∀ s, Hides pairs v s) ↔ (∃ p ∈ pairs, p.1 <:+: v) ∧ ¬Spells pairs v := by
  constructor
  · intro h
    constructor
    · by_contra hnone
      have hfree : ∀ p ∈ pairs, ¬p.1 <:+: v := fun p hp hin => hnone ⟨p, hp, hin⟩
      have hscan := scan_of_not_infix hfree
      obtain ⟨ps₁, old, new, ps₂, -, -, heq, -⟩ := h v [] [] (by
        rw [replace, hscan, texts_map_kept, List.append_nil, List.nil_append])
      have hmem : Piece.put old new ∈ v.map Piece.kept := by
        rw [← hscan, heq]
        exact List.mem_append_right _ List.mem_cons_self
      obtain ⟨c, -, hc⟩ := List.mem_map.1 hmem
      exact absurd hc nofun
    · rintro ⟨p, mid, q, a, b, hreads, -, ha, hb, ⟨front, hp⟩, ⟨back, hq⟩, rfl⟩
      have hscan := scan_of_reads hne hreads
      obtain ⟨ps₁, old, new, ps₂, front', back', heq, hfront, hnew⟩ :=
        h (sources (p :: mid ++ [q])) front back (by
          rw [replace, hscan]
          simp only [texts_append, texts_cons, texts_nil, ← hp, ← hq, List.append_assoc,
            List.append_nil, List.cons_append])
      rw [hscan] at heq
      have hlen := congrArg List.length hp
      have hlenNew := congrArg List.length hnew
      have hlenFront := congrArg List.length hfront
      have hpos := List.length_pos_iff.2 ha
      have hpos' := List.length_pos_iff.2 hb
      simp only [List.length_append] at hlen hlenNew hlenFront
      cases ps₁ with
      | nil =>
        obtain ⟨rfl, -⟩ := List.cons.inj heq
        simp only [Piece.text, texts_nil, List.length_nil] at hlen hlenFront
        omega
      | cons x ps₁ =>
        obtain ⟨rfl, -⟩ := List.cons.inj heq
        simp only [texts_cons, List.length_append] at hlenFront
        omega
  · rintro ⟨⟨p, hp, hin⟩, hspells⟩ s pre post h
    obtain ⟨hreads, -⟩ := reads_scan hne s
    have hin_kept {ps : List (Piece α)} (hps : Reads pairs ps) (hkept : ∀ x ∈ ps, x.isPut = false)
        (hvps : v <:+: texts ps) : False :=
      hps.not_infix hkept hp (hne p hp) (hin.trans hvps)
    obtain ⟨ps₁, x, ps₂, front, back, heq, hpre, hx⟩ | ⟨ps₁, x, mid, q, ps₂, a, b, heq, ha, hb, hax,
      hbq, rfl⟩ :=
      occurrence_cases hv h
    · cases x with
      | put old new => exact ⟨ps₁, old, new, ps₂, front, back, heq, hpre, hx⟩
      | kept c =>
        rw [heq] at hreads
        have hone : Reads pairs [.kept c] := hreads.right.left
        refine (hin_kept hone (by simp [Piece.isPut]) ⟨front, back, ?_⟩).elim
        rw [← hx, texts_cons, texts_nil, List.append_nil]
    · rw [heq] at hreads
      have hrun := hreads.left.right
      by_cases hput : ∃ y ∈ x :: mid ++ [q], y.isPut = true
      · exact absurd ⟨x, mid, q, a, b, hrun, hput, ha, hb, hax, hbq, rfl⟩ hspells
      · refine (hin_kept hrun (fun y hy => Bool.not_eq_true _ ▸ fun hy' => hput ⟨y, hy, hy'⟩)
          ?_).elim
        obtain ⟨front, hfront⟩ := hax
        obtain ⟨back, hback⟩ := hbq
        refine ⟨front, back, ?_⟩
        simp only [texts_append, texts_cons, texts_nil, ← hfront, ← hback, List.append_assoc,
          List.append_nil, List.cons_append]

theorem not_spells (hedge : ∀ p ∈ pairs, p.2.head? = some c ∧ p.2.getLast? = some d) (hc : c ∉ v)
    (hd : d ∉ v) :
    ¬Spells pairs v := by
  rintro ⟨p, mid, q, a, b, hreads, ⟨x, hx, hput⟩, ha, hb, ⟨front, hp⟩, ⟨back, hq⟩, rfl⟩
  simp only [List.mem_append, not_or] at hc hd
  cases x with
  | kept c => exact absurd hput nofun
  | put old new =>
    obtain ⟨hhead, hlast⟩ := hedge _ (hreads.mem_pairs hx)
    rcases List.mem_append.1 hx with hx | hx
    · rcases List.mem_cons.1 hx with rfl | hx
      · apply hd.1.1
        rw [Piece.text] at hp
        rw [← hp, List.getLast?_append_of_ne_nil _ ha] at hlast
        exact List.mem_of_getLast? hlast
      · exact hc.1.2 (List.mem_flatMap.2 ⟨_, hx, List.mem_of_head? hhead⟩)
    · obtain rfl := List.mem_singleton.1 hx
      apply hc.2
      rw [Piece.text] at hq
      rw [← hq, List.head?_append_of_ne_nil _ hb] at hhead
      exact List.mem_of_head? hhead

end Replacer

end ProxyForward

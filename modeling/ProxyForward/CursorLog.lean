import Mathlib.Data.List.Basic
import Mathlib.Data.List.Induction
import Mathlib.Data.List.Pairwise
import Mathlib.Data.List.TakeDrop

namespace CursorLog
set_option autoImplicit true

/-- The last elements of a list, as many as there is room for. -/
def newest (cap : Nat) (es : List E) : List E := es.drop (es.length - cap)

theorem length_newest (cap : Nat) (es : List E) : (newest cap es).length = min es.length cap := by
  rw [newest, List.length_drop]
  omega

theorem newest_of_le (h : es.length ≤ cap) : newest cap es = es := by
  rw [newest, Nat.sub_eq_zero_of_le h, List.drop_zero]

/-- An element more drops what there is no more room for. -/
theorem newest_concat (cap : Nat) (es : List E) (e : E) :
    newest cap (es ++ [e]) = (newest cap es ++ [e]).drop ((newest cap es).length + 1 - cap) := by
  have hdrop : newest cap es ++ [e] = (es ++ [e]).drop (es.length - cap) := by
    rw [List.drop_append_of_le_length (Nat.sub_le _ _), newest]
  rw [hdrop, List.drop_drop, length_newest, newest, List.length_append, List.length_singleton]
  congr 1
  omega

/-- In a full list the oldest goes. -/
theorem newest_full (hcap : 0 < cap) (h : cap ≤ es.length) :
    newest cap (es ++ [e]) = (newest cap es).drop 1 ++ [e] := by
  have hlen : (newest cap es).length = cap := by
    rw [length_newest]
    omega
  rw [newest_concat, hlen, Nat.add_sub_cancel_left, List.drop_append_of_le_length (by omega)]

/-- A full circular buffer, oldest first: from the insertion index on, then round. -/
def unrolled (buf : List E) (next : Nat) : List E := buf.drop next ++ buf.take next

theorem take_set_succ {buf : List E} (room : next < buf.length) :
    (buf.set next e).take (next + 1) = buf.take next ++ [e] := by
  rw [List.take_add_one, List.take_set_of_le (Nat.le_refl _), List.getElem?_set_self room]
  rfl

/-- An element takes the place of the oldest. -/
theorem unrolled_set {buf : List E} (room : next < buf.length) :
    unrolled (buf.set next e) ((next + 1) % buf.length) = (unrolled buf next).drop 1 ++ [e] := by
  have hdrop : (unrolled buf next).drop 1 = buf.drop (next + 1) ++ buf.take next := by
    rw [unrolled, List.drop_append_of_le_length (by rw [List.length_drop]; omega), List.drop_drop]
  rw [hdrop, List.append_assoc, ← take_set_succ room,
    ← List.drop_set_of_lt (l := buf) (a := e) (Nat.lt_add_one next)]
  by_cases hwrap : next + 1 = buf.length
  · -- the last place: the insertion index goes back to the first
    rw [hwrap, Nat.mod_self, unrolled, List.drop_zero, List.take_zero, List.append_nil,
      List.drop_of_length_le (Nat.le_of_eq List.length_set), List.nil_append,
      List.take_of_length_le (Nat.le_of_eq List.length_set)]
  · rw [Nat.mod_eq_of_lt (by omega), unrolled]

section Entries

variable (stamp : Nat → E → E)

/-- The entries of a log, numbered from 1 in the order they were pushed. -/
def numbered (es : List E) : List E := es.mapIdx fun i e => stamp (i + 1) e

/-- The newest of them, as many as there is room for. -/
def retained (cap : Nat) (es : List E) : List E := newest cap (numbered stamp es)

theorem length_numbered (es : List E) : (numbered stamp es).length = es.length :=
  List.length_mapIdx

theorem numbered_concat (es : List E) (e : E) :
    numbered stamp (es ++ [e]) = numbered stamp es ++ [stamp (es.length + 1) e] :=
  List.mapIdx_concat

theorem retained_of_le (h : es.length ≤ cap) : retained stamp cap es = numbered stamp es :=
  newest_of_le (by rwa [length_numbered])

theorem retained_eq_drop (cap : Nat) (es : List E) :
    retained stamp cap es = (numbered stamp es).drop (es.length - cap) := by
  rw [retained, newest, length_numbered]

variable {seq : E → Nat} (hseq : ∀ n e, seq (stamp n e) = n)

include hseq

theorem seqs_numbered (es : List E) : (numbered stamp es).map seq = List.range' 1 es.length := by
  refine List.ext_getElem ?_ fun i hi _ => ?_
  · rw [List.length_map, length_numbered, List.length_range']
  · simp only [numbered, List.getElem_map, List.getElem_mapIdx, hseq, List.getElem_range',
      Nat.one_mul, Nat.add_comm]

/-- The numbers of the retained entries run up to the number of pushes. -/
theorem mem_seqs_retained {k : Nat} : k ∈ (retained stamp cap es).map seq ↔
    es.length - cap < k ∧ k ≤ es.length := by
  rw [retained_eq_drop, List.map_drop, seqs_numbered stamp hseq, List.drop_range',
    List.mem_range'_1]
  omega

/-- Polling a log leaves out its head. -/
theorem filter_retained (cap c : Nat) (es : List E) :
    ((retained stamp cap es).filter fun e => c < seq e) =
      (numbered stamp es).drop (max c (es.length - cap)) := by
  have hget {i : Nat} (hi : i < (numbered stamp es).length) : seq
    (numbered stamp es)[i] = i + 1 := by
    simp only [numbered, List.getElem_mapIdx, hseq]
  have hsplit : retained stamp cap es =
      ((numbered stamp es).drop (es.length - cap)).take (c - (es.length - cap)) ++
        (numbered stamp es).drop (max c (es.length - cap)) := by
    have hdrop : (numbered stamp es).drop (max c (es.length - cap)) =
        ((numbered stamp es).drop (es.length - cap)).drop (c - (es.length - cap)) := by
      rw [List.drop_drop]
      congr 1
      omega
    rw [hdrop, List.take_append_drop, retained_eq_drop]
  rw [hsplit, List.filter_append, List.filter_eq_nil_iff.2, List.nil_append, List.filter_eq_self.2]
  · intro e he
    obtain ⟨i, hi, rfl⟩ := List.getElem_of_mem he
    rw [List.getElem_drop, hget]
    exact decide_eq_true (by omega)
  · intro e he
    obtain ⟨i, hi, rfl⟩ := List.getElem_of_mem he
    rw [List.length_take] at hi
    rw [List.getElem_take, List.getElem_drop, hget, decide_eq_true_eq]
    omega

end Entries

/-- What can happen to a log that is polled. -/
inductive Act (E : Type u) where
  | push (e : E)
  | poll

/-- A ring, and its reader with the last number it received. -/
structure Poller (R : Type u) (E : Type v) where
  ring : R
  cursor : Nat
  received : List E

def pushed (acts : List (Act E)) : List E :=
  acts.filterMap fun
    | .push e => some e
    | .poll => none

section Polls

variable (push : R → E → R) (since : R → Nat → List E) (seq : E → Nat)

def Poller.step (p : Poller R E) : Act E → Poller R E
  | .push e => { p with ring := push p.ring e }
  | .poll =>
    let out := since p.ring p.cursor
    { p with cursor := (out.getLast?.map seq).getD p.cursor, received := p.received ++ out }

def Poller.run (p : Poller R E) (acts : List (Act E)) : Poller R E :=
  acts.foldl (Poller.step push since seq) p

/-- The ring keeps the newest entries of a log, as many as it has room for, and a poll returns the
kept ones above its cursor. -/
structure IsLog (stamp : Nat → E → E) (cap : Nat) (ring : R) (held : R → List E) : Prop where
  held : ∀ es, held (es.foldl push ring) = retained stamp cap es
  since : ∀ es c, since (es.foldl push ring) c = (retained stamp cap es).filter fun e => c < seq e

end Polls

/-- The reader received entries of the log in order and each once, and of those pushed exactly the
ones that were still there at one of its polls. -/
structure Followed (seq : E → Nat) (stamp : Nat → E → E) (cap : Nat) (acts : List (Act E))
    (received : List E) : Prop where
  ordered : received.Sublist (numbered stamp (pushed acts))
  once : (received.map seq).Nodup
  seen : ∀ k, k ∈ received.map seq ↔ ∃ pre post, acts = pre ++ .poll :: post ∧
    k ∈ (retained stamp cap (pushed pre)).map seq

theorem pushed_push (acts : List (Act E)) (e : E) :
    pushed (acts ++ [.push e]) = pushed acts ++ [e] :=
  List.filterMap_append

theorem pushed_poll (acts : List (Act E)) : pushed (acts ++ [.poll]) = pushed acts :=
  List.filterMap_append.trans (List.append_nil _)

/-- The polls of a run that goes on. -/
theorem polls_concat {P : List (Act E) → Prop} {acts : List (Act E)} {act : Act E} :
    (∃ pre post, acts ++ [act] = pre ++ .poll :: post ∧ P pre) ↔
      (∃ pre post, acts = pre ++ .poll :: post ∧ P pre) ∨ act = .poll ∧ P acts := by
  constructor
  · rintro ⟨pre, post, heq, hP⟩
    obtain rfl | ⟨post, last, rfl⟩ := List.eq_nil_or_concat' post
    · obtain ⟨rfl, hact⟩ := List.append_inj' heq rfl
      exact .inr ⟨List.singleton_inj.1 hact, hP⟩
    · rw [← List.cons_append, ← List.append_assoc] at heq
      obtain ⟨rfl, -⟩ := List.append_inj' heq rfl
      exact .inl ⟨pre, post, rfl, hP⟩
  · rintro (⟨pre, post, rfl, hP⟩ | ⟨rfl, hP⟩)
    · exact ⟨pre, post ++ [act], by rw [List.append_assoc, List.cons_append], hP⟩
    · exact ⟨acts, [], rfl, hP⟩

section Following

variable {push : R → E → R} {since : R → Nat → List E} {seq : E → Nat} {stamp : Nat → E → E}
  {held : R → List E} {ring : R}

/-- The reader is level with its cursor: what it has received stands below it, and what is still
kept below it has been received. -/
structure Level (push : R → E → R) (seq : E → Nat) (stamp : Nat → E → E) (cap : Nat) (ring : R)
    (acts : List (Act E)) (p : Poller R E) : Prop where
  ring : p.ring = (pushed acts).foldl push ring
  bound : p.cursor ≤ (pushed acts).length
  ordered : p.received.Sublist ((numbered stamp (pushed acts)).take p.cursor)
  kept : ∀ k, (pushed acts).length - cap < k → k ≤ p.cursor → k ∈ p.received.map seq
  seen : ∀ k, k ∈ p.received.map seq ↔ ∃ pre post, acts = pre ++ .poll :: post ∧
    k ∈ (retained stamp cap (pushed pre)).map seq

theorem Level.after_push (h : Level push seq stamp cap ring acts p)
    (since : R → Nat → List E) (e : E) :
    Level push seq stamp cap ring (acts ++ [.push e]) (p.step push since seq (.push e)) := by
  have hbound := h.bound
  constructor
  · rw [pushed_push, List.foldl_append, ← h.ring]
    rfl
  · rw [pushed_push, List.length_append]
    exact Nat.le_trans hbound (Nat.le_add_right _ _)
  · rw [pushed_push, numbered_concat,
      List.take_append_of_le_length (by rw [length_numbered]; exact hbound)]
    exact h.ordered
  · intro k hk
    rw [pushed_push, List.length_append, List.length_singleton] at hk
    exact h.kept k (by omega)
  · intro k
    rw [polls_concat]
    refine (h.seen k).trans ⟨Or.inl, ?_⟩
    rintro (hseen | ⟨hpoll, -⟩)
    · exact hseen
    · cases hpoll

theorem Level.after_poll (h : Level push seq stamp cap ring acts p)
    (hseq : ∀ n e, seq (stamp n e) = n) (hlog : IsLog push since seq stamp cap ring held) :
    Level push seq stamp cap ring (acts ++ [.poll]) (p.step push since seq .poll) := by
  have hbound := h.bound
  have hlen := length_numbered stamp (pushed acts)
  have hout : since p.ring p.cursor = (numbered stamp (pushed acts)).drop
      (max p.cursor ((pushed acts).length - cap)) := by
    rw [h.ring, hlog.since, filter_retained stamp hseq]
  have hseqs : (since p.ring p.cursor).map seq = List.range'
      (1 + max p.cursor ((pushed acts).length - cap))
      ((pushed acts).length - max p.cursor ((pushed acts).length - cap)) := by
    rw [hout, List.map_drop, seqs_numbered stamp hseq, List.drop_range', Nat.mul_one]
  have hreceived (k : Nat) : k ∈ (p.step push since seq .poll).received.map seq ↔
      k ∈ p.received.map seq ∨
        max p.cursor ((pushed acts).length - cap) < k ∧ k ≤ (pushed acts).length := by
    simp only [Poller.step]
    rw [List.map_append, List.mem_append, hseqs, List.mem_range'_1]
    refine or_congr_right ?_
    omega
  have hcursor : (p.step push since seq .poll).cursor =
      if max p.cursor ((pushed acts).length - cap) < (pushed acts).length then
        (pushed acts).length else p.cursor := by
    simp only [Poller.step]
    rw [← List.getLast?_map, hseqs, List.getLast?_range']
    by_cases hlt : max p.cursor ((pushed acts).length - cap) < (pushed acts).length
    · rw [if_neg (by omega), if_pos hlt, Option.getD_some]
      omega
    · rw [if_pos (by omega), if_neg hlt, Option.getD_none]
  constructor
  · rw [pushed_poll]
    exact h.ring
  · rw [pushed_poll, hcursor]
    split
    · exact Nat.le_refl _
    · exact hbound
  · rw [pushed_poll, hcursor]
    simp only [Poller.step]
    rw [hout]
    split
    · rw [List.take_of_length_le (Nat.le_of_eq hlen),
        ← List.take_append_drop p.cursor (numbered stamp (pushed acts))]
      refine h.ordered.append ?_
      rw [List.take_append_drop]
      exact List.drop_sublist_drop_left _ (Nat.le_max_left _ _)
    · rw [List.drop_of_length_le (by omega), List.append_nil]
      exact h.ordered
  · intro k hk
    rw [pushed_poll] at hk
    rw [hcursor, hreceived]
    intro hle
    by_cases hold : k ≤ p.cursor
    · exact .inl (h.kept k hk hold)
    · split at hle
      · exact .inr (by omega)
      · exact absurd hle hold
  · intro k
    rw [polls_concat, hreceived, mem_seqs_retained stamp hseq, ← h.seen]
    constructor
    · rintro (hold | ⟨hlt, hle⟩)
      · exact .inl hold
      · exact .inr ⟨rfl, by omega, hle⟩
    · rintro (hold | ⟨-, hlt, hle⟩)
      · exact .inl hold
      · by_cases hk : k ≤ p.cursor
        · exact .inl (h.kept k hlt hk)
        · exact .inr ⟨by omega, hle⟩

/-- What reading a log by its cursor gets, in every run. -/
theorem IsLog.followed (hlog : IsLog push since seq stamp cap ring held)
    (hseq : ∀ n e, seq (stamp n e) = n) (acts : List (Act E)) :
    Followed seq stamp cap acts (Poller.run push since seq ⟨ring, 0, []⟩ acts).received := by
  have hlevel : Level push seq stamp cap ring acts
      (Poller.run push since seq ⟨ring, 0, []⟩ acts) := by
    induction acts using List.reverseRecOn with
    | nil =>
      refine ⟨rfl, Nat.le_refl 0, List.Sublist.refl _, fun k hk hle => ?_, fun k => ?_⟩
      · exact absurd hle (Nat.not_le_of_lt (Nat.lt_of_le_of_lt (Nat.zero_le _) hk))
      · refine ⟨fun hk => absurd hk List.not_mem_nil, ?_⟩
        rintro ⟨pre, post, heq, -⟩
        exact absurd heq.symm (List.append_ne_nil_of_right_ne_nil _ (List.cons_ne_nil _ _))
    | append_singleton acts act ih =>
      rw [Poller.run, List.foldl_append]
      cases act with
      | push e => exact ih.after_push since e
      | poll => exact ih.after_poll hseq hlog
  have hordered := hlevel.ordered.trans (List.take_sublist _ _)
  refine ⟨hordered, ?_, hlevel.seen⟩
  refine (hordered.map seq).nodup ?_
  rw [seqs_numbered stamp hseq]
  exact List.nodup_range'

end Following

end CursorLog

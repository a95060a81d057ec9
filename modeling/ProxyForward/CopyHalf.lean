import ProxyForward.Packet
import ProxyForward.Splice

namespace ProxyForward
set_option autoImplicit true

/-- An operation of a copy half, with what came back. -/
inductive HalfOp
  | read (data : Bytes) (rerr : Option NetError)
  | waitN (n : Nat) (werr : Option NetError)
  | write (data : Bytes) (wn : Nat) (werr : Option NetError)
  | closeSrc
  | closeWrite
  deriving DecidableEq, Repr

inductive CopyPhase
  | reading
  | waiting (data : Bytes) (rerr : Option NetError)
  | writing (data : Bytes) (rerr : Option NetError)
  | returned (err : Option NetError)
  deriving DecidableEq, Repr

/-- A half that copies, and the operations it has done. -/
structure CopyHalf where
  limited : Bool
  /-- The bytes counted, if they are. -/
  count : Option Nat
  phase : CopyPhase
  ops : List HalfOp
  deriving DecidableEq, Repr

/-- What an operation comes back with; `fin` is what `CloseWrite` returns if it comes to that. -/
inductive CopyStep
  | read (data : Bytes) (rerr fin : Option NetError)
  | wait (werr : Option NetError)
  | write (wn : Nat) (werr fin : Option NetError)
  deriving DecidableEq, Repr

namespace CopyHalf

def start (limited : Bool) (count : Option Nat) : CopyHalf := ⟨limited, count, .reading, []⟩

def does (s : CopyHalf) (op : HalfOp) (phase : CopyPhase) : CopyHalf :=
  { s with phase, ops := s.ops ++ [op] }

/-- The source is closed, and the half returns the error. -/
def fail (s : CopyHalf) (e : NetError) : CopyHalf := s.does .closeSrc (.returned (some e))

/-- What is done about the error of a read once its bytes are through. -/
def afterChunk (s : CopyHalf) (rerr fin : Option NetError) : CopyHalf :=
  match rerr with
  | none => { s with phase := .reading }
  | some .eof => s.does .closeWrite (.returned fin)
  | some e => s.does .closeWrite (.returned (some e))

def counted (s : CopyHalf) (wn : Nat) : CopyHalf := { s with count := s.count.map (· + wn) }

/-- A read returns no more than the buffer holds, and a write no more than it was given. -/
def step (s : CopyHalf) : CopyStep → Option CopyHalf
  | .read data rerr fin =>
    match s.phase with
    | .reading =>
      if data.length ≤ bufSize then
        if data = [] then some ((s.does (.read data rerr) .reading).afterChunk rerr fin)
        else if s.limited then some (s.does (.read data rerr) (.waiting data rerr))
        else some (s.does (.read data rerr) (.writing data rerr))
      else none
    | _ => none
  | .wait werr =>
    match s.phase with
    | .waiting data rerr =>
      match werr with
      | none => some (s.does (.waitN data.length none) (.writing data rerr))
      | some e => some ((s.does (.waitN data.length (some e)) .reading).fail e)
    | _ => none
  | .write wn werr fin =>
    match s.phase with
    | .writing data rerr =>
      if wn ≤ data.length then
        let s := (s.does (.write data wn werr) .reading).counted wn
        match werr with
        | some e => some (s.fail e)
        | none =>
          if wn < data.length then some (s.fail .shortWrite) else some (s.afterChunk rerr fin)
      else none
    | _ => none

end CopyHalf

/-- A wait or a write that did not go through. -/
def HalfOp.failed : HalfOp → Bool
  | .waitN _ werr => werr.isSome
  | .write data wn werr => werr.isSome || wn < data.length
  | .read .. | .closeSrc | .closeWrite => false

def HalfOp.isWrite : HalfOp → Bool
  | .write .. => true
  | .read .. | .waitN .. | .closeSrc | .closeWrite => false

/-- The bytes an operation took from the source. -/
def HalfOp.taken : HalfOp → Bytes
  | .read data _ => data
  | .waitN .. | .write .. | .closeSrc | .closeWrite => []

/-- The bytes the destination accepted in an operation. -/
def HalfOp.given : HalfOp → Bytes
  | .write data wn _ => data.take wn
  | .read .. | .waitN .. | .closeSrc | .closeWrite => []

/-- Each write comes right after a granted wait for its length. -/
def Paced (ops : List HalfOp) : Prop :=
  ∀ pre data wn werr post, ops = pre ++ .write data wn werr :: post →
    ∃ pre', pre = pre' ++ [.waitN data.length none]

/-- Nothing is written after a failed wait or write. -/
def StopsOnFailure (ops : List HalfOp) : Prop :=
  ∀ pre op post, ops = pre ++ op :: post → op.failed = true → ∀ op' ∈ post, op'.isWrite = false

namespace CopyHalf

def bytesRead (s : CopyHalf) : Bytes := s.ops.flatMap HalfOp.taken

def accepted (s : CopyHalf) : Bytes := s.ops.flatMap HalfOp.given

/-- What a half whose counter was at `c` owes to its source, destination, counter and limiter. -/
structure Faithful (c : Option Nat) (s : CopyHalf) : Prop where
  inOrder : s.accepted <+: s.bytesRead
  counts : s.count = c.map (· + s.accepted.length)
  paced : s.limited = true → Paced s.ops
  within : ∀ n werr, .waitN n werr ∈ s.ops → n ≤ bufSize
  stops : StopsOnFailure s.ops
  /-- A half that a read ended, with every wait and write gone through. -/
  complete : ∀ err, s.phase = .returned err → (∀ op ∈ s.ops, op.failed = false) →
    s.accepted = s.bytesRead ∧ ∃ pre, s.ops = pre ++ [.closeWrite] ∧ .closeWrite ∉ pre

end CopyHalf

theorem split_concat {l pre post : List α} (h : l ++ [a] = pre ++ x :: post) :
    (pre = l ∧ x = a ∧ post = []) ∨ ∃ post', post = post' ++ [a] ∧ l = pre ++ x :: post' := by
  obtain rfl | ⟨post', b, rfl⟩ := List.eq_nil_or_concat post
  · obtain ⟨rfl, hx⟩ := List.append_inj' h rfl
    obtain ⟨rfl, -⟩ := List.cons.inj hx
    exact .inl ⟨rfl, rfl, rfl⟩
  · have h : l ++ [a] = (pre ++ x :: post') ++ [b] := by
      rw [h, List.append_assoc, List.cons_append, List.concat_eq_append]
    obtain ⟨rfl, hb⟩ := List.append_inj' h rfl
    obtain ⟨rfl, -⟩ := List.cons.inj hb
    exact .inr ⟨post', List.concat_eq_append .., rfl⟩

theorem Paced.concat (h : Paced ops)
    (hop : ∀ data wn werr, op = .write data wn werr →
    ∃ pre, ops = pre ++ [.waitN data.length none]) :
    Paced (ops ++ [op]) := by
  intro pre data wn werr post hsplit
  obtain ⟨rfl, rfl, -⟩ | ⟨post', -, hold⟩ := split_concat hsplit
  · exact hop data wn werr rfl
  · exact h pre data wn werr post' hold

theorem StopsOnFailure.concat (h : StopsOnFailure ops)
    (hop : op.isWrite = true → ∀ op' ∈ ops, op'.failed = false) : StopsOnFailure (ops ++ [op]) := by
  intro pre x post hsplit hfailed y hy
  obtain ⟨-, -, rfl⟩ | ⟨post', rfl, rfl⟩ := split_concat hsplit
  · exact absurd hy List.not_mem_nil
  · obtain hy | hy := List.mem_append.1 hy
    · exact h pre x post' rfl hfailed y hy
    · obtain rfl := List.mem_singleton.1 hy
      cases hwrite : y.isWrite with
      | false => rfl
      | true =>
        have hx := hop hwrite x (List.mem_append_right _ List.mem_cons_self)
        exact nomatch hx.symm.trans hfailed

namespace CopyHalf

/-- What holds of the operations at every point. -/
structure Steady (s : CopyHalf) : Prop where
  paced : s.limited = true → Paced s.ops
  within : ∀ n werr, .waitN n werr ∈ s.ops → n ≤ bufSize
  stops : StopsOnFailure s.ops

/-- Nothing failed yet, and the half has not ended. -/
def Going (s : CopyHalf) : Prop := ∀ op ∈ s.ops, op.failed = false ∧ op ≠ .closeWrite

/-- What is between the bytes read and the bytes accepted, by phase. -/
def Balanced (s : CopyHalf) : Prop :=
  match s.phase with
  | .reading => s.Going ∧ s.bytesRead = s.accepted
  | .waiting data _ => s.Going ∧ s.bytesRead = s.accepted ++ data ∧ data.length ≤ bufSize
  | .writing data _ => s.Going ∧ s.bytesRead = s.accepted ++ data ∧
      (s.limited = true → ∃ pre, s.ops = pre ++ [.waitN data.length none])
  | .returned _ => s.accepted <+: s.bytesRead ∧ ((∀ op ∈ s.ops, op.failed = false) →
      s.accepted = s.bytesRead ∧ ∃ pre, s.ops = pre ++ [.closeWrite] ∧ .closeWrite ∉ pre)

@[simp] theorem phase_does (s : CopyHalf) (op : HalfOp) (phase : CopyPhase) :
    (s.does op phase).phase = phase := rfl

@[simp] theorem ops_does (s : CopyHalf) (op : HalfOp) (phase : CopyPhase) :
    (s.does op phase).ops = s.ops ++ [op] := rfl

@[simp] theorem bytesRead_does (s : CopyHalf) (op : HalfOp) (phase : CopyPhase) :
    (s.does op phase).bytesRead = s.bytesRead ++ op.taken := by
  simp only [bytesRead, does, List.flatMap_append, List.flatMap_singleton]

@[simp] theorem accepted_does (s : CopyHalf) (op : HalfOp) (phase : CopyPhase) :
    (s.does op phase).accepted = s.accepted ++ op.given := by
  simp only [accepted, does, List.flatMap_append, List.flatMap_singleton]

theorem Steady.does {s : CopyHalf} (h : s.Steady) (phase : CopyPhase)
    (hwithin : ∀ n werr, op = .waitN n werr → n ≤ bufSize)
    (hwrite : ∀ data wn werr, op = .write data wn werr → s.Going ∧
      (s.limited = true → ∃ pre, s.ops = pre ++ [.waitN data.length none])) :
    (s.does op phase).Steady where
  paced hlimited := (h.paced hlimited).concat fun data wn werr hop =>
    (hwrite data wn werr hop).2 hlimited
  within n werr hmem := by
    obtain hmem | hmem := List.mem_append.1 hmem
    · exact h.within n werr hmem
    · exact hwithin n werr (List.mem_singleton.1 hmem).symm
  stops := h.stops.concat fun hop op' hop' => by
    cases op with
    | write data wn werr => exact ((hwrite data wn werr rfl).1 op' hop').1
    | read data rerr => exact nomatch hop
    | waitN n werr => exact nomatch hop
    | closeSrc => exact nomatch hop
    | closeWrite => exact nomatch hop

theorem Steady.closes {s : CopyHalf} (h : s.Steady) (phase : CopyPhase) :
    (s.does .closeSrc phase).Steady ∧ (s.does .closeWrite phase).Steady :=
  ⟨h.does phase nofun nofun, h.does phase nofun nofun⟩

theorem Going.does {s : CopyHalf} (h : s.Going) (hop : op.failed = false ∧ op ≠ .closeWrite)
    (phase : CopyPhase) : (s.does op phase).Going := by
  intro op' hop'
  obtain hop' | hop' := List.mem_append.1 hop'
  · exact h op' hop'
  · exact List.mem_singleton.1 hop' ▸ hop

theorem afterChunk_ok {s : CopyHalf} (h : s.Steady) (hgoing : s.Going)
    (hbytes : s.bytesRead = s.accepted)
    (rerr fin : Option NetError) : (s.afterChunk rerr fin).Steady ∧
    (s.afterChunk rerr fin).Balanced ∧
      (s.afterChunk rerr fin).count = s.count ∧ (s.afterChunk rerr fin).accepted = s.accepted := by
  have hend (err : Option NetError) : (s.does .closeWrite (.returned err)).Balanced := by
    simp only [Balanced, phase_does, accepted_does, bytesRead_does, ops_does, HalfOp.taken,
      HalfOp.given, List.append_nil, hbytes]
    exact ⟨List.prefix_rfl, fun _ => ⟨trivial, s.ops, rfl, fun hmem => (hgoing _ hmem).2 rfl⟩⟩
  have hcloses (err : Option NetError) :
    (s.does .closeWrite (.returned err)).accepted = s.accepted := by
    rw [accepted_does, HalfOp.given, List.append_nil]
  unfold afterChunk
  split
  · exact ⟨⟨h.paced, h.within, h.stops⟩, ⟨hgoing, hbytes⟩, rfl, rfl⟩
  · exact ⟨(h.closes _).2, hend _, rfl, hcloses _⟩
  · exact ⟨(h.closes _).2, hend _, rfl, hcloses _⟩

theorem fail_ok {s : CopyHalf} (h : s.Steady) (hpre : s.accepted <+: s.bytesRead)
    (hfailed : ∃ op ∈ s.ops, op.failed = true) (e : NetError) : (s.fail e).Steady ∧
    (s.fail e).Balanced ∧
      (s.fail e).count = s.count ∧ (s.fail e).accepted = s.accepted := by
  refine ⟨(h.closes _).1, ?_, rfl, ?_⟩
  · simp only [fail, Balanced, phase_does, accepted_does, bytesRead_does, ops_does, HalfOp.taken,
      HalfOp.given, List.append_nil]
    refine ⟨hpre, fun hall => ?_⟩
    obtain ⟨op, hop, hfailed⟩ := hfailed
    exact nomatch (hall op (List.mem_append_left _ hop)).symm.trans hfailed
  · rw [fail, accepted_does, HalfOp.given, List.append_nil]

/-- What a half whose counter was at `c` keeps. -/
structure Inv (c : Option Nat) (s : CopyHalf) : Prop where
  steady : s.Steady
  balanced : s.Balanced
  counts : s.count = c.map (· + s.accepted.length)

theorem Inv.start (limited : Bool) (c : Option Nat) : (start limited c).Inv c := by
  refine ⟨⟨fun _ => ?_, nofun, ?_⟩, ⟨nofun, rfl⟩, ?_⟩
  · intro pre data wn werr post h
    exact absurd h.symm (List.append_ne_nil_of_right_ne_nil _ (List.cons_ne_nil _ _))
  · intro pre op post h
    exact absurd h.symm (List.append_ne_nil_of_right_ne_nil _ (List.cons_ne_nil _ _))
  · cases c <;> rfl

theorem Inv.read {s t : CopyHalf} (h : s.Inv c) (hs : s.step (.read data rerr fin) = some t) :
    t.Inv c := by
  simp only [step] at hs
  split at hs
  · rename_i hphase
    obtain ⟨hlen, hs⟩ := Option.ite_none_right_eq_some.1 hs
    have hbalanced := h.balanced
    simp only [Balanced, hphase] at hbalanced
    obtain ⟨hgoing, hbytes⟩ := hbalanced
    have hread (phase : CopyPhase) : (s.does (.read data rerr) phase).Steady ∧
        (s.does (.read data rerr) phase).Going ∧
          (s.does (.read data rerr) phase).accepted = s.accepted ∧
        (s.does (.read data rerr) phase).bytesRead = s.accepted ++ data := by
      refine ⟨h.steady.does phase nofun nofun, hgoing.does ⟨rfl, HalfOp.noConfusion⟩ phase, ?_, ?_⟩
      · exact (accepted_does ..).trans (List.append_nil _)
      · exact (bytesRead_does ..).trans (congrArg (· ++ data) hbytes)
    split at hs
    · rename_i hdata
      obtain rfl := Option.some.inj hs
      obtain ⟨hsteady, hgoing, haccepted, hbytes⟩ := hread .reading
      rw [hdata, List.append_nil, ← haccepted] at hbytes
      obtain ⟨hsteady, hbalanced, hcount, haccepted'⟩ := afterChunk_ok hsteady hgoing
        (hdata ▸ hbytes) rerr fin
      exact ⟨hsteady, hbalanced, by rw [hcount, haccepted', haccepted]; exact h.counts⟩
    · split at hs
      · obtain rfl := Option.some.inj hs
        obtain ⟨hsteady, hgoing, haccepted, hbytes⟩ := hread (.waiting data rerr)
        exact ⟨hsteady, ⟨hgoing, haccepted.symm ▸ hbytes, hlen⟩, haccepted.symm ▸ h.counts⟩
      · rename_i hlimited
        obtain rfl := Option.some.inj hs
        obtain ⟨hsteady, hgoing, haccepted, hbytes⟩ := hread (.writing data rerr)
        exact ⟨hsteady, ⟨hgoing, haccepted.symm ▸ hbytes, fun hlim => absurd hlim hlimited⟩,
          haccepted.symm ▸ h.counts⟩
  · exact nomatch hs

theorem Inv.wait {s t : CopyHalf} (h : s.Inv c) (hs : s.step (.wait werr) = some t) : t.Inv c := by
  simp only [step] at hs
  split at hs
  · rename_i data rerr hphase
    have hbalanced := h.balanced
    simp only [Balanced, hphase] at hbalanced
    obtain ⟨hgoing, hbytes, hlen⟩ := hbalanced
    have hwait (werr : Option NetError) (phase : CopyPhase) :
        (s.does (.waitN data.length werr) phase).Steady ∧
        (s.does (.waitN data.length werr) phase).accepted = s.accepted ∧
        (s.does (.waitN data.length werr) phase).bytesRead = s.accepted ++ data := by
      refine ⟨h.steady.does phase (fun n _ hop => ?_) nofun, ?_, ?_⟩
      · obtain ⟨rfl, -⟩ := HalfOp.waitN.inj hop
        exact hlen
      · exact (accepted_does ..).trans (List.append_nil _)
      · exact (bytesRead_does ..).trans ((List.append_nil _).trans hbytes)
    cases werr with
    | none =>
      obtain rfl := Option.some.inj hs
      obtain ⟨hsteady, haccepted, hbytes⟩ := hwait none (.writing data rerr)
      have hgoing : (s.does (.waitN data.length none) (.writing data rerr)).Going :=
        hgoing.does ⟨rfl, HalfOp.noConfusion⟩ _
      exact ⟨hsteady, ⟨hgoing, haccepted.symm ▸ hbytes, fun _ => ⟨s.ops, rfl⟩⟩,
        haccepted.symm ▸ h.counts⟩
    | some e =>
      obtain rfl := Option.some.inj hs
      obtain ⟨hsteady, haccepted, hbytes⟩ := hwait (some e) .reading
      have hfailed : ∃ op ∈ (s.does (.waitN data.length (some e)) .reading).ops, op.failed = true :=
        ⟨_, List.mem_append_right _ List.mem_cons_self, rfl⟩
      obtain ⟨hsteady, hbalanced, hcount, haccepted'⟩ :=
        fail_ok hsteady (by rw [hbytes, haccepted]; exact List.prefix_append ..) hfailed e
      exact ⟨hsteady, hbalanced, by rw [hcount, haccepted', haccepted]; exact h.counts⟩
  · exact nomatch hs

theorem Inv.write {s t : CopyHalf} (h : s.Inv c) (hs : s.step (.write wn werr fin) = some t) :
    t.Inv c := by
  simp only [step] at hs
  split at hs
  · rename_i data rerr hphase
    obtain ⟨hle, hs⟩ := Option.ite_none_right_eq_some.1 hs
    have hbalanced := h.balanced
    simp only [Balanced, hphase] at hbalanced
    obtain ⟨hgoing, hbytes, hpaced⟩ := hbalanced
    have hsteady : ((s.does (.write data wn werr) .reading).counted wn).Steady := by
      have hdoes : (s.does (.write data wn werr) .reading).Steady := by
        refine h.steady.does .reading nofun fun data' wn' werr' hop => ?_
        obtain ⟨rfl, -⟩ := HalfOp.write.inj hop
        exact ⟨hgoing, hpaced⟩
      exact ⟨hdoes.paced, hdoes.within, hdoes.stops⟩
    have haccepted : ((s.does (.write data wn werr) .reading).counted wn).accepted =
        s.accepted ++ data.take wn := accepted_does _ _ .reading
    have hread : ((s.does (.write data wn werr) .reading).counted wn).bytesRead =
        s.accepted ++ data :=
      (bytesRead_does _ _ .reading).trans ((List.append_nil _).trans hbytes)
    have hpre : ((s.does (.write data wn werr) .reading).counted wn).accepted <+:
        ((s.does (.write data wn werr) .reading).counted wn).bytesRead := by
      rw [haccepted, hread]
      exact (List.prefix_append_right_inj _).2 (List.take_prefix ..)
    have hcounts : ((s.does (.write data wn werr) .reading).counted wn).count =
        c.map (· + (s.accepted ++ data.take wn).length) := by
      change s.count.map (· + wn) = _
      rw [h.counts, Option.map_map, List.length_append, List.length_take_of_le hle]
      exact congrArg (Option.map · c) (funext fun n => Nat.add_assoc ..)
    have hmem : .write data wn werr ∈ ((s.does (.write data wn werr) .reading).counted wn).ops :=
      List.mem_append_right _ List.mem_cons_self
    cases werr with
    | some e =>
      obtain rfl := Option.some.inj hs
      obtain ⟨hsteady, hbalanced, hcount, haccepted'⟩ := fail_ok hsteady hpre ⟨_, hmem, rfl⟩ e
      exact ⟨hsteady, hbalanced, by rw [hcount, haccepted', haccepted]; exact hcounts⟩
    | none =>
      simp only at hs
      split at hs
      · rename_i hshort
        obtain rfl := Option.some.inj hs
        have hfailed : (HalfOp.write data wn none).failed = true := decide_eq_true hshort
        obtain ⟨hsteady, hbalanced, hcount, haccepted'⟩ := fail_ok hsteady hpre ⟨_, hmem, hfailed⟩
          .shortWrite
        exact ⟨hsteady, hbalanced, by rw [hcount, haccepted', haccepted]; exact hcounts⟩
      · rename_i hfull
        obtain rfl := Option.some.inj hs
        have hthrough : (HalfOp.write data wn none).failed = false := decide_eq_false hfull
        have hgoing : ((s.does (.write data wn none) .reading).counted wn).Going :=
          hgoing.does ⟨hthrough, HalfOp.noConfusion⟩ .reading
        have hbytes : ((s.does (.write data wn none) .reading).counted wn).bytesRead =
            ((s.does (.write data wn none) .reading).counted wn).accepted := by
          rw [hread, haccepted, List.take_of_length_le (Nat.le_of_not_lt hfull)]
        obtain ⟨hsteady, hbalanced, hcount, haccepted'⟩ := afterChunk_ok hsteady hgoing hbytes
          rerr fin
        exact ⟨hsteady, hbalanced, by rw [hcount, haccepted', haccepted]; exact hcounts⟩
  · exact nomatch hs

theorem Inv.step {s t : CopyHalf} (h : s.Inv c) (hs : s.step l = some t) : t.Inv c := by
  cases l with
  | read data rerr fin => exact h.read hs
  | wait werr => exact h.wait hs
  | write wn werr fin => exact h.write hs

theorem Inv.faithful {s : CopyHalf} (h : s.Inv c) : s.Faithful c := by
  have hbalanced := h.balanced
  refine ⟨?_, h.counts, h.steady.paced, h.steady.within, h.steady.stops, fun err herr => ?_⟩
  · unfold Balanced at hbalanced
    split at hbalanced
    · exact hbalanced.2 ▸ List.prefix_rfl
    · exact hbalanced.2.1 ▸ List.prefix_append ..
    · exact hbalanced.2.1 ▸ List.prefix_append ..
    · exact hbalanced.1
  · simp only [Balanced, herr] at hbalanced
    exact hbalanced.2

/-- Whatever the reads, waits and writes of a half come back with. -/
theorem always_faithful (limited : Bool) (c : Option Nat) (ls : List CopyStep) :
    Runs.Always CopyHalf.step (Faithful c) (.start limited c) ls :=
  Runs.always_of_invariant (C := fun _ _ => True) (fun _ _ _ h _ hs => Inv.step h hs)
    (fun _ h => h.faithful) (Inv.start limited c) (Runs.along_of_forall (fun _ _ => trivial) _)

end CopyHalf

end ProxyForward

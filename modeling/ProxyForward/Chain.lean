import ProxyForward.CopyHalf

namespace ProxyForward
set_option autoImplicit true

/-- The bytes that a step takes from the source. -/
def CopyStep.drawn : CopyStep → Bytes
  | .read data _ _ => data
  | .wait _ | .write .. => []

/-- How many bytes the destination accepts in a step. -/
def CopyStep.put : CopyStep → Nat
  | .write wn _ _ => wn
  | .read .. | .wait _ => 0

/-- A step that comes back with the end of the source. -/
def CopyStep.AtEnd : CopyStep → Prop
  | .read _ rerr _ => rerr = some .eof
  | .wait _ | .write .. => False

instance : DecidablePred CopyStep.AtEnd
  | .read _ rerr _ => inferInstanceAs (Decidable (rerr = some .eof))
  | .wait _ => .isFalse id
  | .write .. => .isFalse id

/-- What a read may come back with while `rest` is unread: the bytes in order, and the end once its
writer is through and all is read, or early where the way was lost. Other errors may come at any
time. -/
def CopyStep.Draws (rest : Bytes) (through lost : Bool) (l : CopyStep) : Prop :=
  l.drawn <+: rest ∧ (l.AtEnd → lost = true ∨ through = true ∧ l.drawn = rest)

instance (rest : Bytes) (through lost : Bool) (l : CopyStep) :
    Decidable (l.Draws rest through lost) :=
  inferInstanceAs (Decidable (_ ∧ (_ → _)))

namespace CopyHalf

/-- The half has seen the end of its source. -/
def SawEnd (s : CopyHalf) : Prop := ∃ data, .read data (some .eof) ∈ s.ops

/-- What an error in hand comes from, and what a half without an error has done. -/
def Ended (s : CopyHalf) : Prop :=
  match s.phase with
  | .reading => True
  | .waiting _ rerr | .writing _ rerr => rerr = some .eof → s.SawEnd
  | .returned err => err = none → s.SawEnd ∧ ∀ op ∈ s.ops, op.failed = false

end CopyHalf

/-- Two copy halves in a row. What a sender writes goes through the first into a leg that the second
reads from. The leg may be closed, and the session that carries it may go down: what was written
before is then still read (`cut`), or what was under way is lost (`lost`). -/
structure Chain where
  sent : Bytes
  ended : Bool
  first : CopyHalf
  cut : Bool
  lost : Bool
  second : CopyHalf
  deriving DecidableEq, Repr

inductive ChainStep
  | send (bs : Bytes)
  | finish
  | first (l : CopyStep)
  | cut
  | lose
  | second (l : CopyStep)
  deriving DecidableEq, Repr

namespace Chain

def start (limited limited' : Bool) (count count' : Option Nat) : Chain :=
  ⟨[], false, .start limited count, false, false, .start limited' count'⟩

/-- Nothing more comes through the leg. -/
def closed (s : Chain) : Bool := s.cut || decide (.closeWrite ∈ s.first.ops)

def step (s : Chain) : ChainStep → Option Chain
  | .send bs => if s.ended then none else some { s with sent := s.sent ++ bs }
  | .finish => some { s with ended := true }
  | .cut => some { s with cut := true }
  | .lose => some { s with lost := true }
  | .first l =>
    if l.Draws (s.sent.drop s.first.bytesRead.length) s.ended false ∧
      (s.cut = true → l.put = 0) then
      (s.first.step l).map fun first => { s with first }
    else none
  | .second l =>
    if l.Draws (s.first.accepted.drop s.second.bytesRead.length) s.closed s.lost then
      (s.second.step l).map fun second => { s with second }
    else none

/-- The receiver has a prefix of what was sent. Unless the leg was lost, a second half that ended
well has passed on all that came through the leg; if both have, that is all there is. -/
structure Delivers (s : Chain) : Prop where
  inOrder : s.second.accepted <+: s.first.accepted ∧ s.first.accepted <+: s.sent
  through : s.second.phase = .returned none → s.lost = false →
    s.second.accepted = s.first.accepted ∧ s.closed = true
  whole : s.first.phase = .returned none → s.second.phase = .returned none → s.lost = false →
    s.second.accepted = s.sent ∧ s.ended = true

end Chain

namespace CopyHalf

variable {s t : CopyHalf}

theorem afterChunk_ops (s : CopyHalf) (rerr fin : Option NetError) :
    ∃ ops, (s.afterChunk rerr fin).ops = s.ops ++ ops ∧ (ops = [] ∨ ops = [.closeWrite]) ∧
      ((s.afterChunk rerr fin).phase = .reading ∨
        ∃ err, (s.afterChunk rerr fin).phase = .returned err ∧
          (err = none → rerr = some .eof)) := by
  unfold afterChunk
  split
  · exact ⟨[], (List.append_nil _).symm, .inl rfl, .inl rfl⟩
  · exact ⟨_, rfl, .inr rfl, .inr ⟨fin, rfl, fun _ => rfl⟩⟩
  · rename_i e _
    exact ⟨_, rfl, .inr rfl, .inr ⟨some e, rfl, fun h => nomatch h⟩⟩

theorem step_ops (hs : s.step l = some t) :
    ∃ op closing, t.ops = s.ops ++ op :: closing ∧
      (closing = [] ∨ closing = [.closeWrite] ∨ closing = [.closeSrc]) ∧
      op.taken = l.drawn ∧ op.given.length = l.put ∧
      (l.AtEnd ↔ op = .read l.drawn (some .eof)) := by
  have hafter {u : CopyHalf} {op : HalfOp} (hu : u.ops = s.ops ++ [op])
      (rerr fin : Option NetError) : ∃ closing, (u.afterChunk rerr fin).ops = s.ops ++
        op :: closing ∧
        (closing = [] ∨ closing = [.closeWrite] ∨ closing = [.closeSrc]) := by
    obtain ⟨ops, hops, hcases, -⟩ := u.afterChunk_ops rerr fin
    refine ⟨ops, ?_, hcases.imp_right .inl⟩
    rw [hops, hu, List.append_assoc, List.singleton_append]
  have hfail {u : CopyHalf} {op : HalfOp} (hu : u.ops = s.ops ++ [op]) (e : NetError) :
      (u.fail e).ops = s.ops ++ op :: [.closeSrc] := by
    rw [fail, ops_does, hu, List.append_assoc, List.singleton_append]
  cases l with
  | read data rerr fin =>
    have hend : CopyStep.AtEnd (.read data rerr fin) ↔
        HalfOp.read data rerr = .read data (some .eof) := by
      simp only [CopyStep.AtEnd, HalfOp.read.injEq, true_and]
    simp only [step] at hs
    split at hs
    · obtain ⟨-, hs⟩ := Option.ite_none_right_eq_some.1 hs
      split at hs
      · obtain rfl := Option.some.inj hs
        obtain ⟨closing, hops, hclosing⟩ := hafter (s.ops_does (.read data rerr) _) rerr fin
        exact ⟨_, closing, hops, hclosing, rfl, rfl, hend⟩
      · split at hs
        · obtain rfl := Option.some.inj hs
          exact ⟨_, [], rfl, .inl rfl, rfl, rfl, hend⟩
        · obtain rfl := Option.some.inj hs
          exact ⟨_, [], rfl, .inl rfl, rfl, rfl, hend⟩
    · cases hs
  | wait werr =>
    have hend (n : Nat) : CopyStep.AtEnd (.wait werr) ↔
        HalfOp.waitN n werr = .read [] (some .eof) := by
      simp only [CopyStep.AtEnd, reduceCtorEq]
    simp only [step] at hs
    split at hs
    · rename_i data rerr _
      split at hs
      · obtain rfl := Option.some.inj hs
        exact ⟨_, [], rfl, .inl rfl, rfl, rfl, hend _⟩
      · rename_i e
        obtain rfl := Option.some.inj hs
        exact ⟨_, _, hfail (s.ops_does (.waitN data.length (some e)) _) e, .inr (.inr rfl),
          rfl, rfl, hend _⟩
    · cases hs
  | write wn werr fin =>
    simp only [step] at hs
    split at hs
    · rename_i data rerr _
      obtain ⟨hle, hs⟩ := Option.ite_none_right_eq_some.1 hs
      have hgiven : (HalfOp.write data wn werr).given.length = wn := List.length_take_of_le hle
      have hend : CopyStep.AtEnd (.write wn werr fin) ↔
          HalfOp.write data wn werr = .read [] (some .eof) := by
        simp only [CopyStep.AtEnd, reduceCtorEq]
      have hwrote : ((s.does (.write data wn werr) .reading).counted wn).ops =
          s.ops ++ [.write data wn werr] := rfl
      split at hs
      · obtain rfl := Option.some.inj hs
        exact ⟨_, _, hfail hwrote _, .inr (.inr rfl), rfl, hgiven, hend⟩
      · split at hs
        · obtain rfl := Option.some.inj hs
          exact ⟨_, _, hfail hwrote _, .inr (.inr rfl), rfl, hgiven, hend⟩
        · obtain rfl := Option.some.inj hs
          obtain ⟨closing, hops, hclosing⟩ := hafter hwrote rerr fin
          exact ⟨_, closing, hops, hclosing, rfl, hgiven, hend⟩
    · cases hs

theorem step_bytes (hs : s.step l = some t) :
    t.bytesRead = s.bytesRead ++ l.drawn ∧
      (∃ given, t.accepted = s.accepted ++ given ∧ given.length = l.put) ∧
      (t.SawEnd ↔ s.SawEnd ∨ l.AtEnd) := by
  obtain ⟨op, closing, hops, hclosing, htaken, hgiven, hend⟩ := step_ops hs
  have hsilent : closing.flatMap HalfOp.taken = [] ∧ closing.flatMap HalfOp.given = [] ∧
      ∀ data rerr, HalfOp.read data rerr ∉ closing := by
    rcases hclosing with rfl | rfl | rfl
    · exact ⟨rfl, rfl, nofun⟩
    · exact ⟨rfl, rfl, by simp⟩
    · exact ⟨rfl, rfl, by simp⟩
  obtain ⟨hnotaken, hnogiven, hnoread⟩ := hsilent
  refine ⟨?_, ⟨op.given, ?_, hgiven⟩, ?_⟩
  · rw [bytesRead, hops, List.flatMap_append, List.flatMap_cons, hnotaken, htaken, List.append_nil]
    rfl
  · rw [accepted, hops, List.flatMap_append, List.flatMap_cons, hnogiven, List.append_nil]
    rfl
  · unfold SawEnd
    rw [hend, hops]
    constructor
    · rintro ⟨data, hmem⟩
      rcases List.mem_append.1 hmem with hmem | hmem
      · exact .inl ⟨data, hmem⟩
      · rcases List.mem_cons.1 hmem with rfl | hmem
        · exact .inr (by rw [← htaken]; rfl)
        · exact absurd hmem (hnoread _ _)
    · rintro (⟨data, hmem⟩ | hop)
      · exact ⟨data, List.mem_append_left _ hmem⟩
      · exact ⟨l.drawn, List.mem_append_right _ (hop ▸ List.mem_cons_self)⟩

theorem returned_of_closeWrite (h : s.Inv c) (hmem : .closeWrite ∈ s.ops) :
    ∃ err, s.phase = .returned err := by
  have hbalanced := h.balanced
  unfold Balanced at hbalanced
  split at hbalanced
  · exact absurd rfl (hbalanced.1 _ hmem).2
  · exact absurd rfl (hbalanced.1 _ hmem).2
  · exact absurd rfl (hbalanced.1 _ hmem).2
  · rename_i err hphase
    exact ⟨err, hphase⟩

theorem step_of_returned (h : s.phase = .returned err) (l : CopyStep) : s.step l = none := by
  cases l <;> simp only [step, h]

theorem ended_afterChunk (hend : rerr = some .eof → s.SawEnd)
    (hok : ∀ op ∈ s.ops, op.failed = false) (fin : Option NetError) :
    (s.afterChunk rerr fin).Ended := by
  have hclose (hsaw : s.SawEnd) (err : Option NetError) :
      (s.does .closeWrite (.returned err)).Ended := by
    intro _
    obtain ⟨data, hmem⟩ := hsaw
    refine ⟨⟨data, List.mem_append_left _ hmem⟩, fun op hop => ?_⟩
    rcases List.mem_append.1 hop with hop | hop
    · exact hok op hop
    · rw [List.mem_singleton.1 hop]
      rfl
  unfold afterChunk
  split
  · trivial
  · exact hclose (hend rfl) fin
  · intro hnone
    cases hnone

theorem ended_fail (s : CopyHalf) (e : NetError) : (s.fail e).Ended := by
  intro hnone
  cases hnone

theorem Ended.step (h : s.Inv c) (he : s.Ended) (hs : s.step l = some t) : t.Ended := by
  have hbalanced := h.balanced
  unfold Balanced at hbalanced
  unfold Ended at he
  have hgrow {op : HalfOp} (hgoing : s.Going) (hop : op.failed = false) :
      ∀ op' ∈ s.ops ++ [op], op'.failed = false := by
    intro op' hop'
    rcases List.mem_append.1 hop' with hop' | hop'
    · exact (hgoing op' hop').1
    · rw [List.mem_singleton.1 hop']
      exact hop
  cases l with
  | read data rerr fin =>
    simp only [CopyHalf.step] at hs
    split at hs
    · rename_i hphase
      rw [hphase] at hbalanced
      obtain ⟨-, hs⟩ := Option.ite_none_right_eq_some.1 hs
      have hsaw (phase : CopyPhase) : rerr = some .eof →
        (s.does (.read data rerr) phase).SawEnd := by
        rintro rfl
        exact ⟨data, List.mem_append_right _ List.mem_cons_self⟩
      split at hs
      · obtain rfl := Option.some.inj hs
        exact ended_afterChunk (hsaw _) (hgrow hbalanced.1 rfl) fin
      · split at hs
        · obtain rfl := Option.some.inj hs
          exact hsaw _
        · obtain rfl := Option.some.inj hs
          exact hsaw _
    · cases hs
  | wait werr =>
    simp only [CopyHalf.step] at hs
    split at hs
    · rename_i data rerr hphase
      rw [hphase] at he
      split at hs
      · obtain rfl := Option.some.inj hs
        intro heof
        obtain ⟨data', hmem⟩ := he heof
        exact ⟨data', List.mem_append_left _ hmem⟩
      · obtain rfl := Option.some.inj hs
        exact ended_fail _ _
    · cases hs
  | write wn werr fin =>
    simp only [CopyHalf.step] at hs
    split at hs
    · rename_i data rerr hphase
      rw [hphase] at he hbalanced
      obtain ⟨-, hs⟩ := Option.ite_none_right_eq_some.1 hs
      split at hs
      · obtain rfl := Option.some.inj hs
        exact ended_fail _ _
      · split at hs
        · obtain rfl := Option.some.inj hs
          exact ended_fail _ _
        · rename_i hfull
          obtain rfl := Option.some.inj hs
          have hthrough : (HalfOp.write data wn none).failed = false := decide_eq_false hfull
          have hok : ∀ op ∈ ((s.does (.write data wn none) .reading).counted wn).ops,
              op.failed = false := hgrow hbalanced.1 hthrough
          refine ended_afterChunk ?_ hok fin
          intro heof
          obtain ⟨data', hmem⟩ := he heof
          exact ⟨data', List.mem_append_left _ hmem⟩
    · cases hs

theorem Ended.clean (h : s.Inv c) (he : s.Ended) (hphase : s.phase = .returned none) :
    s.SawEnd ∧ s.accepted = s.bytesRead ∧ .closeWrite ∈ s.ops := by
  unfold Ended at he
  rw [hphase] at he
  obtain ⟨hsaw, hok⟩ := he rfl
  obtain ⟨hbytes, pre, hops, -⟩ := h.faithful.complete none hphase hok
  exact ⟨hsaw, hbytes, hops ▸ List.mem_append_right _ List.mem_cons_self⟩

end CopyHalf

namespace Chain

/-- What each half has of its source, and what it knows of its end. -/
structure Inv (c c' : Option Nat) (s : Chain) : Prop where
  first : s.first.Inv c ∧ s.first.Ended
  second : s.second.Inv c' ∧ s.second.Ended
  read : s.first.bytesRead <+: s.sent
  readEnd : s.first.SawEnd → s.ended = true ∧ s.first.bytesRead = s.sent
  leg : s.second.bytesRead <+: s.first.accepted
  legEnd : s.second.SawEnd → s.lost = true ∨
    s.closed = true ∧ s.second.bytesRead = s.first.accepted

theorem draws_prefix {l : CopyStep} {src read : Bytes} {through lost : Bool}
    (h : l.Draws (src.drop read.length) through lost) (hread : read <+: src) :
    read ++ l.drawn <+: src ∧
      (l.AtEnd → lost = true ∨ through = true ∧ read ++ l.drawn = src) := by
  obtain ⟨rest, rfl⟩ := hread
  rw [CopyStep.Draws, List.drop_left] at h
  refine ⟨(List.prefix_append_right_inj read).2 h.1, fun hend => ?_⟩
  exact (h.2 hend).imp_right fun hall => ⟨hall.1, congrArg (read ++ ·) hall.2⟩

theorem reads_nothing {read more src : Bytes} (hread : read ++ more <+: src) (hall : read = src) :
    read ++ more = src := by
  refine hread.eq_of_length_le ?_
  rw [← hall, List.length_append]
  exact Nat.le_add_right ..

theorem Inv.first_step {s : Chain} {first : CopyHalf} (h : s.Inv c c')
    (hdraws : l.Draws (s.sent.drop s.first.bytesRead.length) s.ended false)
    (hcut : s.cut = true → l.put = 0) (hs : s.first.step l = some first) :
    Inv c c' { s with first } := by
  obtain ⟨hbytes, ⟨given, hgiven, hput⟩, hsaw⟩ := CopyHalf.step_bytes hs
  obtain ⟨hread, hend⟩ := draws_prefix hdraws h.read
  have hleg : s.first.accepted <+: first.accepted := hgiven ▸ List.prefix_append ..
  refine ⟨⟨h.first.1.step hs, h.first.2.step h.first.1 hs⟩, h.second, ?_, ?_, h.leg.trans hleg, ?_⟩
  · exact hbytes ▸ hread
  · intro hsees
    rcases hsaw.1 hsees with hsees | hsees
    · obtain ⟨hended, hall⟩ := h.readEnd hsees
      exact ⟨hended, hbytes.trans (reads_nothing hread hall)⟩
    · obtain ⟨hended, hall⟩ := (hend hsees).resolve_left Bool.false_ne_true
      exact ⟨hended, hbytes.trans hall⟩
  · intro hsees
    refine (h.legEnd hsees).imp_right fun ⟨hover, hall⟩ => ?_
    -- the leg is cut, as a half that has closed its side takes no step
    have hiscut : s.cut = true := by
      rcases Bool.or_eq_true_iff.1 hover with hiscut | hclosed
      · exact hiscut
      · obtain ⟨err, hphase⟩ := CopyHalf.returned_of_closeWrite h.first.1
          (of_decide_eq_true hclosed)
        cases hs.symm.trans (CopyHalf.step_of_returned hphase l)
    have hnone : given = [] := List.length_eq_zero_iff.1 (hput.trans (hcut hiscut))
    rw [hnone, List.append_nil] at hgiven
    exact ⟨Bool.or_eq_true_iff.2 (.inl hiscut), hall.trans hgiven.symm⟩

theorem Inv.second_step {s : Chain} {second : CopyHalf} (h : s.Inv c c')
    (hdraws : l.Draws (s.first.accepted.drop s.second.bytesRead.length) s.closed s.lost)
    (hs : s.second.step l = some second) : Inv c c' { s with second } := by
  obtain ⟨hbytes, -, hsaw⟩ := CopyHalf.step_bytes hs
  obtain ⟨hread, hend⟩ := draws_prefix hdraws h.leg
  refine ⟨h.first, ⟨h.second.1.step hs, h.second.2.step h.second.1 hs⟩, h.read, h.readEnd, ?_, ?_⟩
  · exact hbytes ▸ hread
  · intro hsees
    rcases hsaw.1 hsees with hsees | hsees
    · refine (h.legEnd hsees).imp_right fun ⟨hclosed, hall⟩ => ?_
      exact ⟨hclosed, hbytes.trans (reads_nothing hread hall)⟩
    · refine (hend hsees).imp_right fun ⟨hclosed, hall⟩ => ?_
      exact ⟨hclosed, hbytes.trans hall⟩

theorem Inv.step {s t : Chain} (h : s.Inv c c') (hs : s.step l = some t) : t.Inv c c' := by
  cases l with
  | send bs =>
    simp only [Chain.step] at hs
    split at hs
    · cases hs
    · rename_i hended
      obtain rfl := Option.some.inj hs
      exact ⟨h.first, h.second, h.read.trans (List.prefix_append ..),
        fun hsaw => absurd (h.readEnd hsaw).1 hended, h.leg, h.legEnd⟩
  | finish =>
    obtain rfl := Option.some.inj hs
    exact ⟨h.first, h.second, h.read, fun hsaw => ⟨rfl, (h.readEnd hsaw).2⟩, h.leg, h.legEnd⟩
  | cut =>
    obtain rfl := Option.some.inj hs
    exact ⟨h.first, h.second, h.read, h.readEnd, h.leg,
      fun hsaw => (h.legEnd hsaw).imp_right fun hall => ⟨rfl, hall.2⟩⟩
  | lose =>
    obtain rfl := Option.some.inj hs
    exact ⟨h.first, h.second, h.read, h.readEnd, h.leg, fun _ => .inl rfl⟩
  | first l =>
    obtain ⟨⟨hdraws, hcut⟩, hs⟩ := Option.ite_none_right_eq_some.1 hs
    obtain ⟨first, hfirst, rfl⟩ := Option.map_eq_some_iff.1 hs
    exact h.first_step hdraws hcut hfirst
  | second l =>
    obtain ⟨hdraws, hs⟩ := Option.ite_none_right_eq_some.1 hs
    obtain ⟨second, hsecond, rfl⟩ := Option.map_eq_some_iff.1 hs
    exact h.second_step hdraws hsecond

theorem Inv.start (limited limited' : Bool) (c c' : Option Nat) :
    (start limited limited' c c').Inv c c' where
  first := ⟨.start limited c, trivial⟩
  second := ⟨.start limited' c', trivial⟩
  read := List.prefix_rfl
  readEnd := fun ⟨_, hmem⟩ => absurd hmem List.not_mem_nil
  leg := List.prefix_rfl
  legEnd := fun ⟨_, hmem⟩ => absurd hmem List.not_mem_nil

theorem Inv.delivers {s : Chain} (h : s.Inv c c') : s.Delivers where
  inOrder := ⟨h.second.1.faithful.inOrder.trans h.leg, h.first.1.faithful.inOrder.trans h.read⟩
  through hsecond hlost := by
    obtain ⟨hsaw, hbytes, -⟩ := h.second.2.clean h.second.1 hsecond
    obtain ⟨hclosed, hall⟩ := (h.legEnd hsaw).resolve_left (hlost ▸ Bool.false_ne_true)
    exact ⟨hbytes.trans hall, hclosed⟩
  whole hfirst hsecond hlost := by
    obtain ⟨hsaw, hbytes, -⟩ := h.second.2.clean h.second.1 hsecond
    obtain ⟨hsaw', hbytes', -⟩ := h.first.2.clean h.first.1 hfirst
    obtain ⟨-, hall⟩ := (h.legEnd hsaw).resolve_left (hlost ▸ Bool.false_ne_true)
    obtain ⟨hended, hall'⟩ := h.readEnd hsaw'
    exact ⟨hbytes.trans (hall.trans (hbytes'.trans hall')), hended⟩

end Chain

end ProxyForward

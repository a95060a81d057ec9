import ProxyForward.Conflict
import ProxyForward.CursorLog

namespace ProxyForward
open CursorLog
set_option autoImplicit true

namespace Logging

/-- One formatted log line held for the GUI. -/
structure Entry where
  Seq : Nat
  TimeMs : Int
  Level : String
  Msg : String
  Attrs : String
  deriving DecidableEq, Repr

/-- A log buffer of fixed capacity, with the insertion index. -/
structure Ring where
  buf : List Entry
  next : Nat
  full : Bool
  seq : Nat
  room : next < buf.length

/-- A ring has room for one line at least. -/
def NewRing (capacity : Int) : Ring where
  buf := List.replicate (if capacity < 1 then 1 else capacity).toNat ⟨0, 0, "", "", ""⟩
  next := 0
  full := false
  seq := 0
  room := by
    rw [List.length_replicate]
    split <;> omega

namespace Ring

def append (r : Ring) (e : Entry) : Ring where
  buf := r.buf.set r.next { e with Seq := r.seq + 1 }
  next := (r.next + 1) % r.buf.length
  full := r.full || (r.next + 1) % r.buf.length == 0
  seq := r.seq + 1
  room := by
    rw [List.length_set]
    exact Nat.mod_lt _ (Nat.zero_lt_of_lt r.room)

/-- The lines in the ring, oldest first. -/
def held (r : Ring) : List Entry :=
  (if r.full then r.buf.drop r.next else []) ++ r.buf.take r.next

def EntriesSince (r : Ring) (since : Nat) : List Entry := r.held.filter fun e => since < e.Seq

end Ring

def stampEntry (seq : Nat) (e : Entry) : Entry := { e with Seq := seq }

/-- The ring after some lines: the insertion index goes round, and the ring is full once it has come
round. -/
structure Ring.Holds (r : Ring) (capacity : Nat) (es : List Entry) : Prop where
  size : r.buf.length = capacity
  seq : r.seq = es.length
  full : r.full = true ↔ capacity ≤ es.length
  start : r.full = false → r.next = es.length
  held : r.held = retained stampEntry capacity es

theorem Ring.held_append (r : Ring) (e : Entry) :
    (r.append e).held =
      (if r.full then r.held.drop 1 else r.held) ++ [stampEntry (r.seq + 1) e] := by
  obtain ⟨buf, next, full, seq, room⟩ := r
  cases full with
  | true =>
    simp only [held, append, Bool.true_or, if_true]
    exact unrolled_set room
  | false =>
    have htake := take_set_succ (e := stampEntry (seq + 1) e) room
    by_cases hwrap : next + 1 = buf.length
    · -- the last place: the ring is full now, from its first place on
      rw [List.take_of_length_le (by rw [List.length_set, hwrap])] at htake
      simp only [held, append, hwrap, Nat.mod_self, beq_self_eq_true, Bool.or_true, if_true,
        List.drop_zero, List.take_zero, List.append_nil]
      exact htake
    · have hnext : (next + 1) % buf.length = next + 1 := Nat.mod_eq_of_lt (by omega)
      have hne : (next + 1 == 0) = false := rfl
      simp only [held, append, hnext, hne, Bool.or_false]
      exact htake

theorem Ring.holds_new (capacity : Int) : (NewRing capacity).Holds (max 1 capacity.toNat) [] where
  size := by
    rw [NewRing, List.length_replicate]
    split <;> omega
  seq := rfl
  full := by
    refine iff_of_false Bool.false_ne_true ?_
    rw [List.length_nil]
    omega
  start _ := rfl
  held := by
    rw [retained_of_le stampEntry (Nat.zero_le _)]
    rfl

theorem Ring.Holds.append {r : Ring} (h : r.Holds capacity es) (e : Entry) :
    (r.append e).Holds capacity (es ++ [e]) := by
  have hroom := r.room
  rw [h.size] at hroom
  have hlen : (es ++ [e]).length = es.length + 1 := List.length_append
  have hheld := r.held_append e
  rw [h.seq] at hheld
  cases hfull : r.full with
  | true =>
    have hle := h.full.1 hfull
    refine ⟨?_, ?_, ?_, ?_, ?_⟩
    · exact List.length_set.trans h.size
    · exact (congrArg (· + 1) h.seq).trans hlen.symm
    · refine iff_of_true ?_ (by omega)
      simp only [Ring.append, hfull, Bool.true_or]
    · simp only [Ring.append, hfull, Bool.true_or]
      exact fun hf => absurd hf.symm Bool.false_ne_true
    · rw [hheld, hfull, if_pos rfl, h.held, retained, retained, numbered_concat,
        newest_full (by omega) (by rwa [length_numbered])]
  | false =>
    have hstart := h.start hfull
    have hlt : es.length < capacity := by omega
    refine ⟨?_, ?_, ?_, ?_, ?_⟩
    · exact List.length_set.trans h.size
    · exact (congrArg (· + 1) h.seq).trans hlen.symm
    · simp only [Ring.append, hfull, Bool.false_or, beq_iff_eq, hstart, h.size, hlen]
      constructor
      · intro hmod
        by_contra hnot
        rw [Nat.mod_eq_of_lt (by omega)] at hmod
        exact absurd hmod (Nat.succ_ne_zero _)
      · intro hle
        rw [show es.length + 1 = capacity by omega, Nat.mod_self]
    · simp only [Ring.append, hfull, Bool.false_or, beq_eq_false_iff_ne, hstart, h.size, hlen]
      intro hmod
      refine Nat.mod_eq_of_lt (Nat.lt_of_le_of_ne hlt fun heq => hmod ?_)
      rw [heq, Nat.mod_self]
    · rw [hheld, hfull, if_neg Bool.false_ne_true, h.held, retained_of_le stampEntry (by omega),
        retained_of_le stampEntry (by omega), numbered_concat]

theorem Ring.Holds.foldl {r : Ring} (h : r.Holds capacity es) (more : List Entry) :
    (more.foldl Ring.append r).Holds capacity (es ++ more) := by
  induction more generalizing r es with
  | nil =>
    rw [List.append_nil]
    exact h
  | cons e more ih =>
    rw [List.append_cons]
    exact ih (h.append e)

theorem ring_isLog (capacity : Int) : IsLog Ring.append Ring.EntriesSince Entry.Seq stampEntry
    (max 1 capacity.toNat) (NewRing capacity) Ring.held := by
  have hrun (es : List Entry) := ((Ring.holds_new capacity).foldl es).held
  constructor
  · exact hrun
  · intro es c
    rw [Ring.EntriesSince, hrun]
    rfl

end Logging

def stampEvent (seq : Nat) (ev : GatewayEvent) : GatewayEvent := { ev with seq := seq }

/-- The events of a ring after some pushes. -/
structure EventRing.Holds (r : EventRing) (capacity : Nat) (evs : List GatewayEvent) : Prop where
  cap : r.cap = capacity
  nextSeq : r.nextSeq = evs.length
  events : r.events = retained stampEvent capacity evs

theorem EventRing.Holds.push {r : EventRing} (h : r.Holds capacity evs) (ev : GatewayEvent) :
    (r.push ev).Holds capacity (evs ++ [ev]) := by
  refine ⟨h.cap, ?_, ?_⟩
  · rw [List.length_append, ← h.nextSeq]
    rfl
  · rw [retained, numbered_concat, newest_concat, ← retained, ← h.events, ← h.nextSeq, ← h.cap]
    simp only [EventRing.push, stampEvent, List.length_append, List.length_singleton]

theorem EventRing.Holds.foldl {r : EventRing} (h : r.Holds capacity evs)
    (more : List GatewayEvent) :
    (more.foldl EventRing.push r).Holds capacity (evs ++ more) := by
  induction more generalizing r evs with
  | nil =>
    rw [List.append_nil]
    exact h
  | cons ev more ih =>
    rw [List.append_cons]
    exact ih (h.push ev)

theorem eventRing_isLog (capacity : Nat) : IsLog EventRing.push EventRing.since GatewayEvent.seq
    stampEvent capacity (newEventRing capacity) EventRing.events := by
  have hnew : (newEventRing capacity).Holds capacity [] :=
    ⟨rfl, rfl, List.drop_nil.symm⟩
  have hrun (evs : List GatewayEvent) := (hnew.foldl evs).events
  constructor
  · exact hrun
  · intro evs c
    rw [EventRing.since, hrun]
    rfl

/-- Both rings are one log of the last entries pushed, and a reader that polls either by the last
number it received follows it. A log ring has room for one line at least. -/
theorem cursor_rings_follow_log (capacity : Nat) :
    (IsLog EventRing.push EventRing.since GatewayEvent.seq stampEvent capacity
        (newEventRing capacity) EventRing.events ∧
      ∀ acts, Followed GatewayEvent.seq stampEvent capacity acts
        (Poller.run EventRing.push EventRing.since GatewayEvent.seq
          ⟨newEventRing capacity, 0, []⟩ acts).received) ∧
    IsLog Logging.Ring.append Logging.Ring.EntriesSince Logging.Entry.Seq Logging.stampEntry
        (max 1 capacity) (Logging.NewRing capacity) Logging.Ring.held ∧
      ∀ acts, Followed Logging.Entry.Seq Logging.stampEntry (max 1 capacity) acts
        (Poller.run Logging.Ring.append Logging.Ring.EntriesSince Logging.Entry.Seq
          ⟨Logging.NewRing capacity, 0, []⟩ acts).received := by
  have hevents := eventRing_isLog capacity
  have hlines := Logging.ring_isLog capacity
  rw [Int.toNat_natCast] at hlines
  exact ⟨⟨hevents, hevents.followed fun _ _ => rfl⟩, hlines, hlines.followed fun _ _ => rfl⟩

/-- A log ring made for no line keeps one all the same. -/
theorem log_ring_keeps_one : ¬∀ (capacity : Nat) (es : List Logging.Entry),
    (es.foldl Logging.Ring.append (Logging.NewRing capacity)).held =
      retained Logging.stampEntry capacity es := by
  intro h
  exact absurd (h 0 [⟨0, 0, "INFO", "started", ""⟩]) (by decide)

end ProxyForward

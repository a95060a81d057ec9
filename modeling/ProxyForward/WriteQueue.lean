import Mathlib.Logic.Function.Basic
import ProxyForward.Custody
import ProxyForward.Runs

namespace ProxyForward.WriteQueue
set_option autoImplicit true
open Runs

def writeQueueCap : Nat := 4096

def batchMax : Nat := 256

/-- One queued write; `call` tells the calls apart. A barrier has `done` and no `fn`. -/
structure Op (Fn : Type) where
  call : Nat
  name : String
  fn : Option Fn
  done : Bool
  deriving DecidableEq, Repr

/-- Where a call of `Enqueue` or `Barrier` stands. -/
inductive Thread (Fn : Type) where
  | idle
  /-- `Enqueue` before its first select. -/
  | fast (o : Op Fn)
  /-- Waiting for `qmu`. -/
  | locking (o : Op Fn)
  /-- In the loop, before the send and before the receive. -/
  | sending (o : Op Fn)
  | popping (o : Op Fn)
  | holding (o victim : Op Fn)
  /-- `Barrier` before its send and before `done` is closed. -/
  | barring (o : Op Fn)
  | waiting
  | returned
  | gaveUp

/-- Where `runBatch` stands. -/
inductive Stage (Fn : Type) where
  | opening
  | running (left : List (Op Fn))
  | closing (left : List (Op Fn))

/-- Where the writer stands, with its `pending` writes. -/
inductive Writer (Fn : Type) where
  | collecting (pending : List (Op Fn))
  | draining (pending : List (Op Fn))
  | batch (ops : List (Op Fn)) (stage : Stage Fn) (stopping : Bool)
  | stopped

structure Queue (Fn : Type) where
  calls : Nat
  threads : Nat → Thread Fn
  writeC : List (Op Fn)
  qmu : Option Nat
  stopC : Bool
  dropped : Nat
  writer : Writer Fn
  /-- The operations in the order they entered the channel, and what became of them. -/
  entered : List (Op Fn)
  taken : List (Op Fn)
  discarded : List (Op Fn)
  ran : List (Op Fn)
  /-- The batches ended; the flag says that the commit was attempted. -/
  batches : List (Bool × List (Op Fn))
  /-- The calls whose `done` is closed. -/
  closed : List Nat

/-- The cases of the writer's selects, of which it takes any that is ready. -/
inductive WriterLabel where
  | take
  | tick
  | stop
  | drained
  /-- The next step of the batch and whether it succeeds. -/
  | batch (ok : Bool)

inductive Label (Fn : Type) where
  | enqueue (name : String) (fn : Option Fn)
  | barrier
  /-- The next step of a call. -/
  | run (c : Nat)
  /-- A call of `Barrier` sees the writer gone. -/
  | quit (c : Nat)
  | close
  | write (l : WriterLabel)

namespace Queue

def fresh (Fn : Type) : Queue Fn :=
  ⟨0, fun _ => .idle, [], none, false, 0, .collecting [], [], [], [], [], [], []⟩

def goTo (s : Queue Fn) (c : Nat) (th : Thread Fn) : Queue Fn :=
  { s with threads := Function.update s.threads c th }

def start (s : Queue Fn) (th : Thread Fn) : Queue Fn :=
  { s.goTo s.calls th with calls := s.calls + 1 }

/-- A send to the channel with room. -/
def enter (s : Queue Fn) (o : Op Fn) : Queue Fn :=
  { s with writeC := s.writeC ++ [o], entered := s.entered ++ [o] }

def room (s : Queue Fn) : Bool := s.writeC.length < writeQueueCap

/-- The next step of a call of `Enqueue` or `Barrier`. -/
def callStep (s : Queue Fn) (c : Nat) : Option (Queue Fn) :=
  match s.threads c with
  | .idle | .returned | .gaveUp => none
  | .fast o =>
    if s.room then some ((s.enter o).goTo c .returned) else some (s.goTo c (.locking o))
  | .locking o =>
    if s.qmu = none then some { s.goTo c (.sending o) with qmu := some c } else none
  | .sending o =>
    if s.room then some { (s.enter o).goTo c .returned with qmu := none }
    else some (s.goTo c (.popping o))
  | .popping o =>
    match s.writeC with
    -- the writer drained the queue between the two selects
    | [] => some (s.goTo c (.sending o))
    | victim :: rest => some { s.goTo c (.holding o victim) with writeC := rest }
  | .holding o victim =>
    if victim.done then
      if s.room then some { s.goTo c (.sending o) with writeC := s.writeC ++ [victim] } else none
    else
      some { s.goTo c (.sending o) with
        dropped := s.dropped + 1, discarded := s.discarded ++ [victim] }
  | .barring o => if s.room then some ((s.enter o).goTo c .waiting) else none
  | .waiting => if c ∈ s.closed then some (s.goTo c .returned) else none

def quitStep (s : Queue Fn) (c : Nat) : Option (Queue Fn) :=
  match s.writer, s.threads c with
  | .stopped, .barring _ => some (s.goTo c .gaveUp)
  | .stopped, .waiting => some (s.goTo c .returned)
  | _, _ => none

/-- The writer appends an operation to its pending ones. -/
def takes (s : Queue Fn) (o : Op Fn) (rest : List (Op Fn)) (w : Writer Fn) : Queue Fn :=
  { s with writeC := rest, taken := s.taken ++ [o], writer := w }

/-- A flush without pending writes does nothing. -/
def flush (s : Queue Fn) (pending : List (Op Fn)) (stopping : Bool) (idle : Writer Fn) :
    Queue Fn :=
  { s with writer := if pending.isEmpty then idle else .batch pending .opening stopping }

def batchStep (s : Queue Fn) (ok : Bool) (ops : List (Op Fn)) (stage : Stage Fn)
    (stopping : Bool) : Queue Fn :=
  match stage with
  | .opening =>
    if ok then { s with writer := .batch ops (.running ops) stopping }
    else { s with batches := s.batches ++ [(false, ops)],
                  writer := .batch ops (.closing ops) stopping }
  -- a write that fails is logged and skipped
  | .running (o :: left) =>
    { s with ran := if o.fn.isSome then s.ran ++ [o] else s.ran,
             writer := .batch ops (.running left) stopping }
  -- so is a commit that fails
  | .running [] =>
    { s with batches := s.batches ++ [(true, ops)], writer := .batch ops (.closing ops) stopping }
  | .closing (o :: left) =>
    { s with closed := if o.done then s.closed ++ [o.call] else s.closed,
             writer := .batch ops (.closing left) stopping }
  | .closing [] => { s with writer := if stopping then .stopped else .collecting [] }

def writerStep (s : Queue Fn) : WriterLabel → Option (Queue Fn)
  | .take =>
    match s.writer, s.writeC with
    | .collecting pending, o :: rest =>
      let pending := pending ++ [o]
      if o.done || batchMax ≤ pending.length then
        some (s.takes o rest (.batch pending .opening false))
      else some (s.takes o rest (.collecting pending))
    | .draining pending, o :: rest => some (s.takes o rest (.draining (pending ++ [o])))
    | _, _ => none
  | .tick =>
    match s.writer with
    | .collecting pending => some (s.flush pending false (.collecting []))
    | _ => none
  | .stop =>
    match s.writer, s.stopC with
    | .collecting pending, true => some { s with writer := .draining pending }
    | _, _ => none
  | .drained =>
    match s.writer, s.writeC with
    | .draining pending, [] => some (s.flush pending true .stopped)
    | _, _ => none
  | .batch ok =>
    match s.writer with
    | .batch ops stage stopping => some (s.batchStep ok ops stage stopping)
    | _ => none

def step (s : Queue Fn) : Label Fn → Option (Queue Fn)
  | .enqueue name fn => some (s.start (.fast ⟨s.calls, name, fn, false⟩))
  | .barrier => some (s.start (.barring ⟨s.calls, "barrier", none, true⟩))
  | .run c => s.callStep c
  | .quit c => s.quitStep c
  | .close => some { s with stopC := true }
  | .write l => s.writerStep l

end Queue

/-- The operation of a call that has not entered the channel. -/
def Thread.unsent : Thread Fn → Option (Op Fn)
  | .fast o | .locking o | .sending o | .popping o | .holding o _ | .barring o => some o
  | .idle | .waiting | .returned | .gaveUp => none

/-- The call is between `Lock` and `Unlock`. -/
def Thread.locked : Thread Fn → Bool
  | .sending _ | .popping _ | .holding _ _ => true
  | _ => false

def Thread.inHand : Thread Fn → Option (Op Fn)
  | .holding _ victim => some victim
  | _ => none

/-- The call is over, or a barrier is in the channel: its operation has entered. -/
def Thread.landed : Thread Fn → Bool
  | .returned | .waiting => true
  | _ => false

namespace Queue

/-- The operation that the producer with the lock has received and has not yet put back or
counted. -/
def held (s : Queue Fn) : Option (Op Fn) := s.qmu.bind fun c => (s.threads c).inHand

def custodyWith (s : Queue Fn) (held : Option (Op Fn)) : Custody (Op Fn) :=
  ⟨s.entered, s.writeC, held, s.taken, s.discarded⟩

/-- Where the operations are. -/
def custody (s : Queue Fn) : Custody (Op Fn) := s.custodyWith s.held

end Queue

/-- What the calls made so far have entered and which of them has the lock. -/
structure Calls (calls : Nat) (threads : Nat → Thread Fn) (entered : List (Op Fn))
    (qmu : Option Nat) : Prop where
  idle : ∀ c, calls ≤ c → threads c = .idle
  made : ∀ o ∈ entered, o.call < calls
  unique : (entered.map Op.call).Nodup
  unsent : ∀ c o, (threads c).unsent = some o → o.call = c ∧ ∀ x ∈ entered, x.call ≠ c
  locked : ∀ c, (threads c).locked = true ↔ qmu = some c
  landed : ∀ c, (threads c).landed = true → ∃ o ∈ entered, o.call = c

namespace Calls

variable {threads : Nat → Thread Fn} {entered : List (Op Fn)}

theorem fresh (Fn : Type) : Calls 0 (fun _ => (.idle : Thread Fn)) [] none where
  idle _ _ := rfl
  made _ h := absurd h List.not_mem_nil
  unique := List.nodup_nil
  unsent _ _ h := nomatch h
  locked _ := Iff.intro (fun h => nomatch h) (fun h => nomatch h)
  landed _ h := nomatch h

theorem made_of_unsent (h : Calls calls threads entered qmu)
    (ho : (threads c).unsent = some o) : c < calls := by
  by_contra hc
  rw [h.idle c (Nat.le_of_not_lt hc)] at ho
  cases ho

theorem new_of_unsent (h : Calls calls threads entered qmu)
    (ho : (threads c).unsent = some o) : o ∉ entered :=
  fun hin => (h.unsent c o ho).2 o hin (h.unsent c o ho).1

theorem eq_of_call {x y : Op Fn} (h : Calls calls threads entered qmu) (hx : x ∈ entered)
    (hy : y ∈ entered) (hcall : x.call = y.call) : x = y :=
  List.inj_on_of_nodup_map h.unique hx hy hcall

theorem start (h : Calls calls threads entered qmu) (ho : th.unsent = some o)
    (hcall : o.call = calls) (hlock : th.locked = false) (hland : th.landed = false) :
    Calls (calls + 1) (Function.update threads calls th) entered qmu where
  idle c hc := by
    rw [Function.update_of_ne (by omega)]
    exact h.idle c (by omega)
  made x hx := Nat.lt_succ_of_lt (h.made x hx)
  unique := h.unique
  unsent c x hx := by
    by_cases hc : c = calls
    · subst hc
      rw [Function.update_self, ho, Option.some.injEq] at hx
      subst hx
      exact ⟨hcall, fun y hy => Nat.ne_of_lt (h.made y hy)⟩
    · rw [Function.update_of_ne hc] at hx
      exact h.unsent c x hx
  locked c := by
    by_cases hc : c = calls
    · subst hc
      rw [Function.update_self, hlock, ← h.locked, h.idle c (Nat.le_refl c)]
      exact Iff.rfl
    · rw [Function.update_of_ne hc]
      exact h.locked c
  landed c hc := by
    by_cases heq : c = calls
    · subst heq
      rw [Function.update_self, hland] at hc
      cases hc
    · rw [Function.update_of_ne heq] at hc
      exact h.landed c hc

theorem lock_kept {th : Thread Fn} (h : Calls calls threads entered qmu)
    (hsame : th.locked = (threads c).locked) :
    th.locked = true ↔ qmu = some c := by
  rw [hsame]
  exact h.locked c

theorem others_lock (hfree : qmu = none) (c' : Nat) (hc' : c' ≠ c) :
    some c = some c' ↔ qmu = some c' := by
  rw [hfree, Option.some.injEq]
  exact ⟨fun heq => absurd heq.symm hc', fun heq => nomatch heq⟩

theorem others_unlock (hmine : qmu = some c) (c' : Nat) (hc' : c' ≠ c) :
    none = some c' ↔ qmu = some c' := by
  rw [hmine, Option.some.injEq]
  exact ⟨fun heq => (nomatch heq), fun heq => absurd heq.symm hc'⟩

theorem locked_update {th : Thread Fn} (h : Calls calls threads entered qmu)
    (hlock : th.locked = true ↔ qmu' = some c)
    (hothers : ∀ c', c' ≠ c → (qmu' = some c' ↔ qmu = some c')) (c' : Nat) :
    (Function.update threads c th c').locked = true ↔ qmu' = some c' := by
  by_cases heq : c' = c
  · subst heq
    rw [Function.update_self]
    exact hlock
  · rw [Function.update_of_ne heq, h.locked, hothers c' heq]

/-- A call moves on with the same operation, or without one, and may take or give back the lock. -/
theorem move (h : Calls calls threads entered qmu) (hc : c < calls)
    (ho : ∀ o, th.unsent = some o → (threads c).unsent = some o)
    (hlock : th.locked = true ↔ qmu' = some c)
    (hothers : ∀ c', c' ≠ c → (qmu' = some c' ↔ qmu = some c'))
    (hland : th.landed = true → ∃ o ∈ entered, o.call = c) :
    Calls calls (Function.update threads c th) entered qmu' where
  idle c' hc' := by
    rw [Function.update_of_ne (by omega)]
    exact h.idle c' hc'
  made := h.made
  unique := h.unique
  unsent c' o ho' := by
    by_cases heq : c' = c
    · subst heq
      rw [Function.update_self] at ho'
      exact h.unsent c' o (ho o ho')
    · rw [Function.update_of_ne heq] at ho'
      exact h.unsent c' o ho'
  locked := h.locked_update hlock hothers
  landed c' hland' := by
    by_cases heq : c' = c
    · subst heq
      rw [Function.update_self] at hland'
      exact hland hland'
    · rw [Function.update_of_ne heq] at hland'
      exact h.landed c' hland'

theorem enter (h : Calls calls threads entered qmu) (ho : (threads c).unsent = some o)
    (hsent : th.unsent = none) (hlock : th.locked = true ↔ qmu' = some c)
    (hothers : ∀ c', c' ≠ c → (qmu' = some c' ↔ qmu = some c')) :
    Calls calls (Function.update threads c th) (entered ++ [o]) qmu' where
  idle c' hc' := by
    have hc := h.made_of_unsent ho
    rw [Function.update_of_ne (by omega)]
    exact h.idle c' hc'
  made x hx := by
    rcases List.mem_append.mp hx with hold | hnew
    · exact h.made x hold
    · rw [List.mem_singleton.mp hnew, (h.unsent c o ho).1]
      exact h.made_of_unsent ho
  unique := by
    rw [List.map_append, List.map_singleton, List.nodup_append]
    refine ⟨h.unique, List.nodup_singleton _, ?_⟩
    intro x hx y hy
    obtain ⟨z, hz, rfl⟩ := List.mem_map.mp hx
    rw [List.mem_singleton.mp hy, (h.unsent c o ho).1]
    exact (h.unsent c o ho).2 z hz
  unsent c' x hx := by
    by_cases heq : c' = c
    · subst heq
      rw [Function.update_self, hsent] at hx
      cases hx
    · rw [Function.update_of_ne heq] at hx
      refine ⟨(h.unsent c' x hx).1, ?_⟩
      intro y hy
      rcases List.mem_append.mp hy with hold | hnew
      · exact (h.unsent c' x hx).2 y hold
      · rw [List.mem_singleton.mp hnew, (h.unsent c o ho).1]
        exact Ne.symm heq
  locked := h.locked_update hlock hothers
  landed c' hland := by
    by_cases heq : c' = c
    · subst heq
      exact ⟨o, List.mem_append_right _ (List.mem_singleton.mpr rfl), (h.unsent c' o ho).1⟩
    · rw [Function.update_of_ne heq] at hland
      obtain ⟨x, hx, hcall⟩ := h.landed c' hland
      exact ⟨x, List.mem_append_left _ hx, hcall⟩

end Calls

namespace Queue

/-- The calls' part of the invariant. -/
def CallsInv (s : Queue Fn) : Prop := Calls s.calls s.threads s.entered s.qmu

theorem held_goTo (s : Queue Fn) (h : th.inHand = (s.threads c).inHand) :
    (s.goTo c th).held = s.held := by
  unfold held goTo
  cases s.qmu with
  | none => rfl
  | some c' =>
    by_cases heq : c' = c
    · subst heq
      simp only [Option.bind_some, Function.update_self, h]
    · simp only [Option.bind_some, Function.update_of_ne heq]

/-- What a step of a call does to the custody of the operations. -/
def CustodyMoves (s t : Queue Fn) : Prop :=
  t.custody = s.custody ∨ Custody.Step Op.done s.custody t.custody

/-- What a step of a call can do. -/
inductive CallMoved (s : Queue Fn) (c : Nat) : Queue Fn → Prop
  | enqueued (hth : s.threads c = .fast o) (hroom : s.room = true) :
    CallMoved s c ((s.enter o).goTo c .returned)
  | full (hth : s.threads c = .fast o) (hroom : s.room = false) :
    CallMoved s c (s.goTo c (.locking o))
  | lock (hth : s.threads c = .locking o) (hfree : s.qmu = none) :
    CallMoved s c { s.goTo c (.sending o) with qmu := some c }
  | sent (hth : s.threads c = .sending o) (hroom : s.room = true) :
    CallMoved s c { (s.enter o).goTo c .returned with qmu := none }
  | pop (hth : s.threads c = .sending o) (hroom : s.room = false) :
    CallMoved s c (s.goTo c (.popping o))
  | emptied (hth : s.threads c = .popping o) (hq : s.writeC = []) :
    CallMoved s c (s.goTo c (.sending o))
  | hold (hth : s.threads c = .popping o) (hq : s.writeC = victim :: rest) :
    CallMoved s c { s.goTo c (.holding o victim) with writeC := rest }
  | putBack (hth : s.threads c = .holding o victim) (hdone : victim.done = true)
    (hroom : s.room = true) :
    CallMoved s c { s.goTo c (.sending o) with writeC := s.writeC ++ [victim] }
  | drop (hth : s.threads c = .holding o victim) (hdone : victim.done = false) :
    CallMoved s c { s.goTo c (.sending o) with
      dropped := s.dropped + 1, discarded := s.discarded ++ [victim] }
  | barred (hth : s.threads c = .barring o) (hroom : s.room = true) :
    CallMoved s c ((s.enter o).goTo c .waiting)
  | woken (hth : s.threads c = .waiting) (hclosed : c ∈ s.closed) :
    CallMoved s c (s.goTo c .returned)

theorem callStep_moved {s t : Queue Fn} (hstep : s.callStep c = some t) : s.CallMoved c t := by
  unfold callStep at hstep
  cases hth : s.threads c with
  | idle | returned | gaveUp =>
    rw [hth] at hstep
    cases hstep
  | fast o =>
    simp only [hth] at hstep
    split at hstep <;> cases hstep
    next hroom => exact .enqueued hth hroom
    next hroom => exact .full hth (Bool.eq_false_iff.mpr hroom)
  | locking o =>
    simp only [hth] at hstep
    split at hstep <;> cases hstep
    next hfree => exact .lock hth hfree
  | sending o =>
    simp only [hth] at hstep
    split at hstep <;> cases hstep
    next hroom => exact .sent hth hroom
    next hroom => exact .pop hth (Bool.eq_false_iff.mpr hroom)
  | popping o =>
    simp only [hth] at hstep
    cases hq : s.writeC with
    | nil =>
      simp only [hq] at hstep
      cases hstep
      exact .emptied hth hq
    | cons victim rest =>
      simp only [hq] at hstep
      cases hstep
      exact .hold hth hq
  | holding o victim =>
    simp only [hth] at hstep
    split at hstep
    next hdone =>
      split at hstep <;> cases hstep
      next hroom => exact .putBack hth hdone hroom
    next hdone =>
      cases hstep
      exact .drop hth (Bool.eq_false_iff.mpr hdone)
  | barring o =>
    simp only [hth] at hstep
    split at hstep <;> cases hstep
    next hroom => exact .barred hth hroom
  | waiting =>
    simp only [hth] at hstep
    split at hstep <;> cases hstep
    next hclosed => exact .woken hth hclosed

theorem Calls.goOn {s : Queue Fn} (h : s.CallsInv) (ho : (s.threads c).unsent = some o)
    (hkeep : th.unsent = (s.threads c).unsent) (hlock : th.locked = (s.threads c).locked)
    (hland : th.landed = false) :
    Calls s.calls (Function.update s.threads c th) s.entered s.qmu :=
  h.move (h.made_of_unsent ho) (fun _ ho' => hkeep ▸ ho') (h.lock_kept hlock)
    (fun _ _ => Iff.rfl) (fun hl => absurd (hland ▸ hl) Bool.false_ne_true)

theorem callStep_calls {s t : Queue Fn} (h : s.CallsInv) (hstep : s.callStep c = some t) :
    t.CallsInv := by
  have hlock := h.locked c
  cases callStep_moved hstep with
  | enqueued hth =>
    exact h.enter (by rw [hth]; rfl) rfl (h.lock_kept (by rw [hth]; rfl)) fun _ _ => Iff.rfl
  | full hth =>
    exact Calls.goOn h (by rw [hth]; rfl) (by rw [hth]; rfl) (by rw [hth]; rfl) rfl
  | lock hth hfree =>
    exact h.move (h.made_of_unsent (by rw [hth]; rfl)) (fun o ho => by rw [hth]; exact ho)
      ⟨fun _ => rfl, fun _ => rfl⟩ (Calls.others_lock hfree) (fun hl => nomatch hl)
  | sent hth =>
    exact h.enter (by rw [hth]; rfl) rfl ⟨fun hl => (nomatch hl), fun hl => (nomatch hl)⟩
      (Calls.others_unlock (hlock.mp (by rw [hth]; rfl)))
  | pop hth =>
    exact Calls.goOn h (by rw [hth]; rfl) (by rw [hth]; rfl) (by rw [hth]; rfl) rfl
  | emptied hth =>
    exact Calls.goOn h (by rw [hth]; rfl) (by rw [hth]; rfl) (by rw [hth]; rfl) rfl
  | hold hth =>
    exact Calls.goOn h (by rw [hth]; rfl) (by rw [hth]; rfl) (by rw [hth]; rfl) rfl
  | putBack hth =>
    exact Calls.goOn h (by rw [hth]; rfl) (by rw [hth]; rfl) (by rw [hth]; rfl) rfl
  | drop hth =>
    exact Calls.goOn h (by rw [hth]; rfl) (by rw [hth]; rfl) (by rw [hth]; rfl) rfl
  | barred hth =>
    exact h.enter (by rw [hth]; rfl) rfl (h.lock_kept (by rw [hth]; rfl)) fun _ _ => Iff.rfl
  | woken hth =>
    have hland := h.landed c (by rw [hth]; rfl)
    have hc : c < s.calls := by
      obtain ⟨o, ho, hcall⟩ := hland
      exact hcall ▸ h.made o ho
    exact h.move hc (fun o ho => nomatch ho) (h.lock_kept (by rw [hth]; rfl))
      (fun _ _ => Iff.rfl) fun _ => hland

theorem held_of_lock {s : Queue Fn} (h : s.qmu = some c) :
    s.held = (s.threads c).inHand := by
  rw [held, h, Option.bind_some]

theorem held_goTo_of_lock {s : Queue Fn} (h : s.qmu = some c) (th : Thread Fn) :
    (s.goTo c th).held = th.inHand := by
  simp only [held, goTo, h, Option.bind_some, Function.update_self]

theorem enter_custody {s : Queue Fn} (h : s.CallsInv) (ho : (s.threads c).unsent = some o)
    (hheld : held' = s.held) :
    Custody.Step Op.done s.custody ((s.enter o).custodyWith held') := by
  subst hheld
  exact .enter (h.new_of_unsent ho)

theorem lift_custody {s : Queue Fn} (hq : s.writeC = victim :: rest) (hfree : s.held = none)
    (hheld : held' = some victim) :
    Custody.Step Op.done s.custody (custodyWith { s with writeC := rest } held') := by
  subst hheld
  exact .lift hq hfree

theorem put_custody {s : Queue Fn} (hmine : s.held = some victim) (hdone : victim.done = true)
    (hheld : held' = none) :
    Custody.Step Op.done s.custody
      (custodyWith { s with writeC := s.writeC ++ [victim] } held') := by
  subst hheld
  exact .put hmine hdone

theorem drop_custody {s : Queue Fn} (hmine : s.held = some victim) (hdone : victim.done = false)
    (hheld : held' = none) :
    Custody.Step Op.done s.custody
      (custodyWith { s with discarded := s.discarded ++ [victim] } held') := by
  subst hheld
  exact .drop hmine hdone

theorem callStep_custody {s t : Queue Fn} (h : s.CallsInv) (hstep : s.callStep c = some t) :
    s.CustodyMoves t := by
  have hlock := h.locked c
  cases callStep_moved hstep with
  | enqueued hth =>
    exact Or.inr (enter_custody h (by rw [hth]; rfl) (s.held_goTo (by rw [hth]; rfl)))
  | full hth => exact Or.inl (congrArg s.custodyWith (s.held_goTo (by rw [hth]; rfl)))
  | lock hth hfree =>
    have hbefore : s.held = none := by rw [held, hfree, Option.bind_none]
    refine Or.inl (congrArg s.custodyWith (Eq.trans ?_ hbefore.symm))
    simp only [held, goTo, Option.bind_some, Function.update_self, Thread.inHand]
  | sent hth =>
    have hbefore : s.held = none := by
      rw [held_of_lock (hlock.mp (by rw [hth]; rfl)), hth]
      rfl
    exact Or.inr (enter_custody h (by rw [hth]; rfl) hbefore.symm)
  | pop hth => exact Or.inl (congrArg s.custodyWith (s.held_goTo (by rw [hth]; rfl)))
  | emptied hth => exact Or.inl (congrArg s.custodyWith (s.held_goTo (by rw [hth]; rfl)))
  | hold hth hq =>
    have hmine := hlock.mp (by rw [hth]; rfl)
    have hbefore : s.held = none := by
      rw [held_of_lock hmine, hth]
      rfl
    exact Or.inr (lift_custody hq hbefore (held_goTo_of_lock hmine (.holding _ _)))
  | @putBack o victim hth hdone =>
    have hmine := hlock.mp (by rw [hth]; rfl)
    have hbefore : s.held = some victim := by
      rw [held_of_lock hmine, hth]
      rfl
    exact Or.inr (put_custody hbefore hdone (held_goTo_of_lock hmine (.sending o)))
  | @drop o victim hth hdone =>
    have hmine := hlock.mp (by rw [hth]; rfl)
    have hbefore : s.held = some victim := by
      rw [held_of_lock hmine, hth]
      rfl
    exact Or.inr (drop_custody hbefore hdone (held_goTo_of_lock hmine (.sending o)))
  | barred hth =>
    exact Or.inr (enter_custody h (by rw [hth]; rfl) (s.held_goTo (by rw [hth]; rfl)))
  | woken hth => exact Or.inl (congrArg s.custodyWith (s.held_goTo (by rw [hth]; rfl)))

theorem callStep_frame {s t : Queue Fn} (hstep : s.callStep c = some t) :
    t.writer = s.writer ∧ t.taken = s.taken ∧ t.ran = s.ran ∧ t.batches = s.batches ∧
      t.closed = s.closed := by
  cases callStep_moved hstep <;> exact ⟨rfl, rfl, rfl, rfl, rfl⟩

theorem callStep_counts {s t : Queue Fn} (hcount : s.dropped = s.discarded.length)
    (hstep : s.callStep c = some t) : t.dropped = t.discarded.length := by
  cases callStep_moved hstep with
  | drop =>
    rw [List.length_append]
    exact congrArg (· + 1) hcount
  | _ => exact hcount

end Queue

/-- The operations taken whose batch has not ended. -/
def Writer.unsettled : Writer Fn → List (Op Fn)
  | .collecting pending | .draining pending => pending
  | .batch ops .opening _ | .batch ops (.running _) _ => ops
  | .batch _ (.closing _) _ | .stopped => []

/-- A batch has run what it has passed, and closes what is settled. -/
def Writer.Sound (settled ran : List (Op Fn)) : Writer Fn → Prop
  | .batch ops (.running left) _ =>
    ∃ passed, ops = passed ++ left ∧ ∀ o ∈ passed, o.fn.isSome → o ∈ ran
  | .batch _ (.closing left) _ => ∀ o ∈ left, o ∈ settled
  | _ => True

namespace Queue

def settled (s : Queue Fn) : List (Op Fn) := s.batches.flatMap Prod.snd

structure WriterInv (s : Queue Fn) : Prop where
  taken : s.taken = s.settled ++ s.writer.unsettled
  ran : ∀ ops, (true, ops) ∈ s.batches → ∀ o ∈ ops, o.fn.isSome → o ∈ s.ran
  sound : s.writer.Sound s.settled s.ran
  closed : ∀ c ∈ s.closed, ∃ b ∈ s.settled, b.call = c

theorem settled_append (batches : List (Bool × List (Op Fn))) (b : Bool × List (Op Fn)) :
    (batches ++ [b]).flatMap Prod.snd = batches.flatMap Prod.snd ++ b.2 := by
  rw [List.flatMap_append, List.flatMap_singleton]

theorem WriterInv.frame {s t : Queue Fn} (h : s.WriterInv)
    (hsame : t.writer = s.writer ∧ t.taken = s.taken ∧ t.ran = s.ran ∧ t.batches = s.batches ∧
      t.closed = s.closed) : t.WriterInv := by
  obtain ⟨hwriter, htaken, hran, hbatches, hclosed⟩ := hsame
  constructor
  · rw [htaken, settled, hbatches, hwriter]
    exact h.taken
  · rw [hbatches, hran]
    exact h.ran
  · rw [settled, hbatches, hwriter, hran]
    exact h.sound
  · rw [settled, hbatches, hclosed]
    exact h.closed

theorem WriterInv.ended {s : Queue Fn} (h : s.WriterInv) (hops : s.writer.unsettled = ops)
    (attempted : Bool)
    (hran : attempted = true → ∀ o ∈ ops, o.fn.isSome → o ∈ s.ran) :
    WriterInv { s with
      batches := s.batches ++ [(attempted, ops)],
      writer := .batch ops (.closing ops) stopping } where
  taken := by
    simp only [settled, settled_append, Writer.unsettled, List.append_nil]
    rw [← hops]
    exact h.taken
  ran := by
    intro ops' hmem
    rcases List.mem_append.mp hmem with hold | hnew
    · exact h.ran ops' hold
    · rw [List.mem_singleton, Prod.mk.injEq] at hnew
      rw [hnew.2]
      exact hran hnew.1.symm
  sound := by
    intro o ho
    simp only [settled, settled_append]
    exact List.mem_append_right _ ho
  closed := by
    intro c hc
    obtain ⟨b, hb, hcall⟩ := h.closed c hc
    refine ⟨b, ?_, hcall⟩
    simp only [settled, settled_append]
    exact List.mem_append_left _ hb

theorem WriterInv.batchStep {s : Queue Fn} (h : s.WriterInv)
    (hw : s.writer = .batch ops stage stopping) :
    (s.batchStep ok ops stage stopping).WriterInv := by
  have htaken := h.taken
  have hsound := h.sound
  rw [hw] at htaken hsound
  cases stage with
  | opening =>
    cases ok with
    | true => exact ⟨htaken, h.ran, ⟨[], rfl, fun _ ho => absurd ho List.not_mem_nil⟩, h.closed⟩
    | false => exact h.ended (by rw [hw]; rfl) false (fun hf => nomatch hf)
  | running left =>
    obtain ⟨passed, hops, hpassed⟩ := hsound
    cases left with
    | nil =>
      refine h.ended (by rw [hw]; rfl) true (fun _ => ?_)
      rw [hops, List.append_nil]
      exact hpassed
    | cons o left =>
      have hran : ∀ x ∈ s.ran, x ∈ if o.fn.isSome then s.ran ++ [o] else s.ran := by
        intro x hx
        split
        · exact List.mem_append_left _ hx
        · exact hx
      refine ⟨htaken, fun ops' hops' x hx hfn => hran x (h.ran ops' hops' x hx hfn), ?_, h.closed⟩
      refine ⟨passed ++ [o], by rw [hops, List.append_assoc, List.singleton_append], ?_⟩
      intro x hx hfn
      rcases List.mem_append.mp hx with hold | hnew
      · exact hran x (hpassed x hold hfn)
      · rw [List.mem_singleton] at hnew
        subst hnew
        simp only [Queue.batchStep, hfn, if_true]
        exact List.mem_append_right _ (List.mem_singleton.mpr rfl)
  | closing left =>
    cases left with
    | nil =>
      have hnone : ∀ w : Writer Fn, w = .stopped ∨ w = .collecting [] →
          WriterInv { s with writer := w } := by
        intro w hcase
        rcases hcase with rfl | rfl
        · exact ⟨htaken, h.ran, trivial, h.closed⟩
        · exact ⟨htaken, h.ran, trivial, h.closed⟩
      cases stopping with
      | true => exact hnone _ (Or.inl rfl)
      | false => exact hnone _ (Or.inr rfl)
    | cons o left =>
      refine ⟨htaken, h.ran, fun x hx => hsound x (List.mem_cons_of_mem _ hx), ?_⟩
      intro c hc
      simp only [Queue.batchStep] at hc
      split at hc
      · rcases List.mem_append.mp hc with hold | hnew
        · exact h.closed c hold
        · exact ⟨o, hsound o List.mem_cons_self, (List.mem_singleton.mp hnew).symm⟩
      · exact h.closed c hc

theorem WriterInv.takes {s : Queue Fn} (h : s.WriterInv)
    (hw : w.unsettled = s.writer.unsettled ++ [o]) (hsound : w.Sound s.settled s.ran) :
    (s.takes o rest w).WriterInv := by
  refine ⟨?_, h.ran, hsound, h.closed⟩
  simp only [Queue.takes]
  rw [hw, ← List.append_assoc]
  exact congrArg (· ++ [o]) h.taken

theorem WriterInv.flush {s : Queue Fn} (h : s.WriterInv) (hw : s.writer.unsettled = pending)
    (hidle : idle.unsettled = []) (hsound : idle.Sound s.settled s.ran) :
    (s.flush pending stopping idle).WriterInv := by
  have htaken := h.taken
  rw [hw] at htaken
  unfold Queue.flush
  split
  next hempty =>
    rw [List.isEmpty_iff] at hempty
    refine ⟨?_, h.ran, hsound, h.closed⟩
    rw [hempty] at htaken
    simp only [hidle]
    exact htaken
  next hsome => exact ⟨htaken, h.ran, trivial, h.closed⟩

theorem writerStep_inv {s t : Queue Fn} (h : s.WriterInv) (hstep : s.writerStep l = some t) :
    t.WriterInv := by
  cases l with
  | take =>
    simp only [writerStep] at hstep
    split at hstep
    next pending o rest hw hq =>
      split at hstep <;> cases hstep
      · exact h.takes (by rw [hw]; rfl) trivial
      · exact h.takes (by rw [hw]; rfl) trivial
    next pending o rest hw hq =>
      cases hstep
      exact h.takes (by rw [hw]; rfl) trivial
    · cases hstep
  | tick =>
    simp only [writerStep] at hstep
    split at hstep
    next pending hw =>
      cases hstep
      exact h.flush (by rw [hw]; rfl) rfl trivial
    · cases hstep
  | stop =>
    simp only [writerStep] at hstep
    split at hstep
    next pending hw hstop =>
      cases hstep
      have htaken := h.taken
      rw [hw] at htaken
      exact ⟨htaken, h.ran, trivial, h.closed⟩
    · cases hstep
  | drained =>
    simp only [writerStep] at hstep
    split at hstep
    next pending hw hq =>
      cases hstep
      exact h.flush (by rw [hw]; rfl) rfl trivial
    · cases hstep
  | batch ok =>
    simp only [writerStep] at hstep
    split at hstep
    next ops stage stopping hw =>
      cases hstep
      exact h.batchStep hw
    · cases hstep

/-- The calls' part of the state is the same. -/
def SameCalls (s t : Queue Fn) : Prop :=
  t.calls = s.calls ∧ t.threads = s.threads ∧ t.entered = s.entered ∧ t.qmu = s.qmu ∧
    t.dropped = s.dropped ∧ t.discarded = s.discarded

theorem batchStep_frame (s : Queue Fn) (ok : Bool) (ops : List (Op Fn)) (stage : Stage Fn)
    (stopping : Bool) :
    s.SameCalls (s.batchStep ok ops stage stopping) ∧
      (s.batchStep ok ops stage stopping).custody = s.custody := by
  cases stage with
  | opening => cases ok <;> exact ⟨⟨rfl, rfl, rfl, rfl, rfl, rfl⟩, rfl⟩
  | running left => cases left <;> exact ⟨⟨rfl, rfl, rfl, rfl, rfl, rfl⟩, rfl⟩
  | closing left => cases left <;> exact ⟨⟨rfl, rfl, rfl, rfl, rfl, rfl⟩, rfl⟩

theorem writerStep_frame {s t : Queue Fn} (hstep : s.writerStep l = some t) :
    s.SameCalls t ∧ s.CustodyMoves t := by
  have hsame : s.SameCalls s := ⟨rfl, rfl, rfl, rfl, rfl, rfl⟩
  have htakes : ∀ o rest w, s.writeC = o :: rest →
      s.SameCalls (s.takes o rest w) ∧ s.CustodyMoves (s.takes o rest w) :=
    fun o rest w hq => ⟨hsame, Or.inr (Custody.Step.take (s := s.custody) hq)⟩
  cases l with
  | take =>
    simp only [writerStep] at hstep
    split at hstep
    next pending o rest hw hq =>
      split at hstep <;> cases hstep
      · exact htakes _ _ _ hq
      · exact htakes _ _ _ hq
    next pending o rest hw hq =>
      cases hstep
      exact htakes _ _ _ hq
    · cases hstep
  | tick =>
    simp only [writerStep] at hstep
    split at hstep <;> cases hstep
    exact ⟨hsame, Or.inl rfl⟩
  | stop =>
    simp only [writerStep] at hstep
    split at hstep <;> cases hstep
    exact ⟨hsame, Or.inl rfl⟩
  | drained =>
    simp only [writerStep] at hstep
    split at hstep <;> cases hstep
    exact ⟨hsame, Or.inl rfl⟩
  | batch ok =>
    simp only [writerStep] at hstep
    split at hstep <;> cases hstep
    obtain ⟨hcalls, hcustody⟩ := batchStep_frame s ok _ _ _
    exact ⟨hcalls, Or.inl hcustody⟩

theorem quitStep_frame {s t : Queue Fn} (h : s.CallsInv) (hstep : s.quitStep c = some t) :
    ∃ th, t = s.goTo c th ∧ t.CallsInv ∧ t.custody = s.custody := by
  unfold quitStep at hstep
  split at hstep
  next o hw hth =>
    cases hstep
    have hc := h.made_of_unsent (c := c) (o := o) (by rw [hth]; rfl)
    exact ⟨_, rfl, h.move hc (fun o ho => nomatch ho) (h.lock_kept (by rw [hth]; rfl))
      (fun _ _ => Iff.rfl) (fun hl => nomatch hl),
      congrArg s.custodyWith (s.held_goTo (by rw [hth]; rfl))⟩
  next hw hth =>
    cases hstep
    have hland := h.landed c (by rw [hth]; rfl)
    have hc : c < s.calls := by
      obtain ⟨o, ho, hcall⟩ := hland
      exact hcall ▸ h.made o ho
    exact ⟨_, rfl, h.move hc (fun o ho => nomatch ho) (h.lock_kept (by rw [hth]; rfl))
      (fun _ _ => Iff.rfl) (fun _ => hland),
      congrArg s.custodyWith (s.held_goTo (by rw [hth]; rfl))⟩
  · cases hstep

structure Inv (s : Queue Fn) : Prop where
  calls : s.CallsInv
  custody : s.custody.Inv Op.done
  counted : s.dropped = s.discarded.length
  writer : s.WriterInv

theorem inv_fresh (Fn : Type) : (fresh Fn).Inv where
  calls := Calls.fresh Fn
  custody := Custody.inv_empty Op.done
  counted := rfl
  writer := ⟨rfl, fun _ h => absurd h List.not_mem_nil, trivial,
    fun _ h => absurd h List.not_mem_nil⟩

theorem CustodyMoves.inv {s t : Queue Fn} (h : s.CustodyMoves t)
    (hs : s.custody.Inv Op.done) : t.custody.Inv Op.done := by
  rcases h with hsame | hstep
  · rw [hsame]
    exact hs
  · exact hs.step hstep

theorem Inv.start {s : Queue Fn} (h : s.Inv) (ho : th.unsent = some o) (hcall : o.call = s.calls)
    (hlock : th.locked = false) (hland : th.landed = false) (hhand : th.inHand = none) :
    (s.start th).Inv where
  calls := h.calls.start ho hcall hlock hland
  custody := by
    have hheld : (s.goTo s.calls th).held = s.held :=
      s.held_goTo (by rw [hhand, h.calls.idle s.calls (Nat.le_refl _)]; rfl)
    have hsame : (s.start th).custody = s.custody := congrArg s.custodyWith hheld
    rw [hsame]
    exact h.custody
  counted := h.counted
  writer := h.writer.frame ⟨rfl, rfl, rfl, rfl, rfl⟩

theorem Inv.step {s t : Queue Fn} (h : s.Inv) (hstep : s.step l = some t) : t.Inv := by
  cases l with
  | enqueue name fn =>
    cases hstep
    exact h.start rfl rfl rfl rfl rfl
  | barrier =>
    cases hstep
    exact h.start rfl rfl rfl rfl rfl
  | run c =>
    exact ⟨callStep_calls h.calls hstep, (callStep_custody h.calls hstep).inv h.custody,
      callStep_counts h.counted hstep, h.writer.frame (callStep_frame hstep)⟩
  | quit c =>
    obtain ⟨th, rfl, hcalls, hcustody⟩ := quitStep_frame h.calls hstep
    exact ⟨hcalls, hcustody ▸ h.custody, h.counted, h.writer.frame ⟨rfl, rfl, rfl, rfl, rfl⟩⟩
  | close =>
    cases hstep
    exact ⟨h.calls, h.custody, h.counted, h.writer.frame ⟨rfl, rfl, rfl, rfl, rfl⟩⟩
  | write l =>
    obtain ⟨⟨hc, hth, he, hq, hd, hdisc⟩, hcustody⟩ := writerStep_frame hstep
    refine ⟨?_, hcustody.inv h.custody, ?_, writerStep_inv h.writer hstep⟩
    · unfold CallsInv
      rw [hc, hth, he, hq]
      exact h.calls
    · rw [hd, hdisc]
      exact h.counted

/-- Where every operation that entered the channel is, and what the counter says. -/
structure Accounted (s : Queue Fn) : Prop where
  /-- No operation is at two places or at none. -/
  once : (s.writeC ++ s.held.toList ++ s.taken ++ s.discarded).Nodup ∧
    ∀ o, o ∈ s.entered ↔ o ∈ s.writeC ∨ s.held = some o ∨ o ∈ s.taken ∨ o ∈ s.discarded
  landed : ∀ c, s.threads c = .returned → ∃ o ∈ s.entered, o.call = c
  counted : s.dropped = s.discarded.length
  kept : ∀ o ∈ s.discarded, o.done = false
  ordered : (s.taken.filter fun o => !o.done).Sublist s.entered

/-- Every write that entered before the barrier of a call, and is neither dropped nor in hand to be
dropped, is in a batch that ended: it ran and the commit was attempted, unless the transaction could
not begin. -/
def Covered (s : Queue Fn) (c : Nat) : Prop :=
  ∀ b o, b.call = c → o.done = false → [o, b].Sublist s.entered →
    o ∈ s.discarded ∨ s.held = some o ∨
      (∃ ops, (true, ops) ∈ s.batches ∧ o ∈ ops ∧ (o.fn.isSome → o ∈ s.ran)) ∨
      ∃ ops, (false, ops) ∈ s.batches ∧ o ∈ ops

/-- A barrier whose call returns while the writer runs covers what was ahead of it. -/
def BarrierCovers (s : Queue Fn) (l : Label Fn) : Prop :=
  ∀ c, l = .run c ∨ l = .quit c → s.threads c = .waiting → s.writer ≠ .stopped → s.Covered c

theorem Inv.accounted {s : Queue Fn} (h : s.Inv) : s.Accounted where
  once := by
    have hperm := h.custody.perm
    have hswap : (s.taken ++ s.writeC ++ s.held.toList ++ s.discarded).Perm
        (s.writeC ++ s.held.toList ++ s.taken ++ s.discarded) := by
      refine List.Perm.append_right _ ?_
      rw [List.append_assoc]
      exact List.perm_append_comm
    have hall : s.entered.Perm (s.writeC ++ s.held.toList ++ s.taken ++ s.discarded) :=
      hperm.trans hswap
    refine ⟨hall.nodup_iff.mp h.custody.nodup, ?_⟩
    intro o
    rw [hall.mem_iff]
    simp only [List.mem_append, Option.mem_toList, or_assoc]
  landed c hc := h.calls.landed c (by rw [hc]; rfl)
  counted := h.counted
  kept := h.custody.free
  ordered := by
    have horder := h.custody.order
    rw [Custody.line, List.filter_append] at horder
    exact (List.sublist_append_left _ _).trans horder

theorem Inv.covered {s : Queue Fn} (h : s.Inv) (hc : c ∈ s.closed) : s.Covered c := by
  intro b o hb ho hpair
  have hline : s.custody.line = s.settled ++ (s.writer.unsettled ++ s.writeC) := by
    rw [← List.append_assoc, ← h.writer.taken]
    rfl
  obtain ⟨b', hb', hcall⟩ := h.writer.closed c hc
  have hentered : b' ∈ s.entered :=
    h.custody.mem_entered (by rw [hline]; exact List.mem_append_left _ hb')
  have hsame := h.calls.eq_of_call (hpair.subset (List.mem_cons_of_mem _ List.mem_cons_self))
    hentered (hb.trans hcall.symm)
  rw [← hsame] at hb'
  rcases h.custody.ahead_of hline hb' ho hpair with hsettled | hheld | hdropped
  · obtain ⟨⟨attempted, ops⟩, hbatch, hin⟩ := List.mem_flatMap.mp hsettled
    cases attempted with
    | true => exact Or.inr (Or.inr (Or.inl ⟨ops, hbatch, hin, h.writer.ran ops hbatch o hin⟩))
    | false => exact Or.inr (Or.inr (Or.inr ⟨ops, hbatch, hin⟩))
  · exact Or.inr (Or.inl hheld)
  · exact Or.inl hdropped

theorem Inv.barrierCovers {s t : Queue Fn} (h : s.Inv) (hstep : s.step l = some t) :
    s.BarrierCovers l := by
  intro c hl hth hrunning
  rcases hl with rfl | rfl
  · simp only [Queue.step, callStep, hth] at hstep
    split at hstep
    next hclosed => exact h.covered hclosed
    · cases hstep
  · simp only [Queue.step, quitStep, hth] at hstep
    split at hstep
    next hbarring => cases hbarring
    next hstopped _ => exact absurd hstopped hrunning
    · cases hstep

theorem queue_loses_only_counted (ls : List (Label Fn)) :
    Always step Accounted (fresh Fn) ls ∧ Along step BarrierCovers (fresh Fn) ls := by
  have htrue : Along step (fun (_ : Queue Fn) _ => True) (fresh Fn) ls :=
    along_of_forall (P := fun _ => True) (fun _ _ => trivial) _
  exact ⟨always_of_invariant (fun s l t hs _ ht => hs.step ht) (fun s hs => hs.accounted)
      (inv_fresh Fn) htrue,
    along_of_invariant (fun s l t hs _ ht => ⟨hs.step ht, hs.barrierCovers ht⟩) (inv_fresh Fn)
      htrue⟩

/-- Each operation that entered is queued, taken or dropped. -/
def Placed (s : Queue Fn) : Prop :=
  ∀ o ∈ s.entered, o ∈ s.writeC ∨ o ∈ s.taken ∨ o ∈ s.discarded

/-- A barrier whose call returns while the writer runs has every write ahead of it, unless dropped,
in a batch whose commit was attempted. -/
def CommitAttempted (s : Queue Fn) (l : Label Fn) : Prop :=
  ∀ c, l = .run c ∨ l = .quit c → s.threads c = .waiting → s.writer ≠ .stopped →
    ∀ b o, b.call = c → o.done = false → [o, b].Sublist s.entered → o ∉ s.discarded →
      ∃ ops, (true, ops) ∈ s.batches ∧ o ∈ ops

/-- Calls of `Enqueue`, from a call number on, each of which sends before the next starts. -/
def sends (c : Nat) : Nat → List (Label Unit)
  | 0 => []
  | n + 1 => .enqueue "session open" (some ()) :: .run c :: sends (c + 1) n

theorem reaches_sends (n : Nat) (s : Queue Unit) (hroom : s.writeC.length + n ≤ writeQueueCap) :
    ∃ t new, Reaches step s (sends s.calls n) t ∧ t.writeC = s.writeC ++ new ∧
      new.length = n ∧ t.calls = s.calls + n ∧ t.qmu = s.qmu ∧ t.taken = s.taken ∧
      t.discarded = s.discarded ∧ s.entered ⊆ t.entered := by
  induction n generalizing s with
  | zero => exact ⟨s, [], .nil s, (List.append_nil _).symm, rfl, rfl, rfl, rfl, rfl, fun _ h => h⟩
  | succ n ih =>
    let o : Op Unit := ⟨s.calls, "session open", some (), false⟩
    let u := ((s.start (.fast o)).enter o).goTo s.calls .returned
    have hrun : (s.start (.fast o)).callStep s.calls = some u := by
      have hth : (s.start (.fast o)).threads s.calls = .fast o := Function.update_self ..
      have hlength : s.writeC.length < writeQueueCap := by omega
      have hempty : (s.start (.fast o)).room = true := decide_eq_true hlength
      simp only [callStep, hth, hempty, if_true]
      rfl
    obtain ⟨t, new, hreach, hqueue, hlength, hcalls, hqmu, htaken, hdisc, hsub⟩ := ih u (by
      simp only [u, goTo, enter, start, List.length_append, List.length_singleton]
      omega)
    refine ⟨t, o :: new, .cons rfl (.cons hrun hreach), ?_, by rw [List.length_cons, hlength],
      ?_, hqmu, htaken, hdisc, ?_⟩
    · rw [hqueue, ← List.singleton_append, ← List.append_assoc]
      rfl
    · rw [hcalls]
      simp only [u, goTo, enter, start]
      omega
    · intro x hx
      exact hsub (List.mem_append_left _ hx)

theorem reaches_in_hand (s : Queue Fn) (hfull : s.room = false) (hfree : s.qmu = none)
    (hqueue : s.writeC = victim :: rest) (name : String) (fn : Option Fn) :
    ∃ t, Reaches step s [.enqueue name fn, .run s.calls, .run s.calls, .run s.calls,
        .run s.calls] t ∧
      t.held = some victim ∧ t.writeC = rest ∧ t.entered = s.entered ∧ t.taken = s.taken ∧
      t.discarded = s.discarded := by
  let o : Op Fn := ⟨s.calls, name, fn, false⟩
  let s₁ := s.start (.fast o)
  let s₂ := s₁.goTo s.calls (.locking o)
  let s₃ := { s₂.goTo s.calls (.sending o) with qmu := some s.calls }
  let s₄ := s₃.goTo s.calls (.popping o)
  let s₅ := { s₄.goTo s.calls (.holding o victim) with writeC := rest }
  have h₂ : s₁.callStep s.calls = some s₂ := by
    have hth : s₁.threads s.calls = .fast o := Function.update_self ..
    have hroom : s₁.room = false := hfull
    simp only [callStep, hth, hroom, Bool.false_eq_true, if_false]
    rfl
  have h₃ : s₂.callStep s.calls = some s₃ := by
    have hth : s₂.threads s.calls = .locking o := Function.update_self ..
    have hlock : s₂.qmu = none := hfree
    simp only [callStep, hth, hlock, if_true]
    rfl
  have h₄ : s₃.callStep s.calls = some s₄ := by
    have hth : s₃.threads s.calls = .sending o := Function.update_self ..
    have hroom : s₃.room = false := hfull
    simp only [callStep, hth, hroom, Bool.false_eq_true, if_false]
    rfl
  have h₅ : s₄.callStep s.calls = some s₅ := by
    have hth : s₄.threads s.calls = .popping o := Function.update_self ..
    have hhead : s₄.writeC = victim :: rest := hqueue
    simp only [callStep, hth, hhead]
    rfl
  refine ⟨s₅, .cons rfl (.cons h₂ (.cons h₃ (.cons h₄ (.cons h₅ (.nil _))))), ?_, rfl, rfl,
    rfl, rfl⟩
  exact held_goTo_of_lock (s := s₄) rfl (.holding o victim)

/-- A barrier enters first, then writes fill the channel, and the next call of `Enqueue` receives
the barrier to make room. -/
def barrierInHand : List (Label Unit) :=
  [.barrier, .run 0] ++ (sends 1 (writeQueueCap - 1) ++
    [.enqueue "session open" (some ()), .run writeQueueCap, .run writeQueueCap,
      .run writeQueueCap, .run writeQueueCap])

/-- A write and a barrier are taken into a batch that cannot begin, and `Barrier` returns. -/
def batchLost : List (Label Unit) :=
  [.enqueue "session open" (some ()), .run 0, .barrier, .run 1, .write .take, .write .take,
    .write (.batch false), .write (.batch true), .write (.batch true)]

theorem not_placed_in_hand : ¬ Always step Placed (fresh Unit) barrierInHand := by
  intro halways
  let b : Op Unit := ⟨0, "barrier", none, true⟩
  let s := (((fresh Unit).start (.barring b)).enter b).goTo 0 .waiting
  have hs : Reaches step (fresh Unit) [.barrier, .run 0] s := .cons rfl (.cons rfl (.nil s))
  obtain ⟨t, new, ht, hqueue, hlength, hcalls, hqmu, -, -, hsub⟩ :=
    reaches_sends (writeQueueCap - 1) s (by decide)
  have hcalls' : t.calls = writeQueueCap := hcalls
  have hfull : t.room = false := by
    refine decide_eq_false ?_
    rw [hqueue, List.length_append, hlength]
    exact Nat.lt_irrefl _
  obtain ⟨u, hu, hheld, -, hentered, -, -⟩ :=
    reaches_in_hand t hfull hqmu hqueue "session open" (some ())
  rw [hcalls'] at hu
  have hreach : Reaches step (fresh Unit) barrierInHand u := hs.append (ht.append hu)
  have hinv : u.Inv := hreach.invariant (fun _ _ _ hi hstep => hi.step hstep) (inv_fresh Unit)
  have hin : b ∈ u.entered := by
    rw [hentered]
    exact hsub List.mem_cons_self
  have honce := hinv.accounted.once.1
  rw [hheld] at honce
  have hplaces := halways.final hreach b hin
  simp only [Option.toList, List.nodup_append, List.mem_append, List.mem_singleton] at honce
  grind

theorem not_attempted_when_lost :
    ¬ Along step CommitAttempted (fresh Unit) (batchLost ++ [.run 1]) := by
  intro halong
  let s := (final step (fresh Unit) batchLost).get rfl
  have hs : final step (fresh Unit) batchLost = some s := rfl
  have hreturn : step s (.run 1) = some (s.goTo 1 .returned) := rfl
  have hattempted := halong.at_last (reaches_of_final hs) hreturn
  obtain ⟨ops, hops, -⟩ := hattempted 1 (Or.inl rfl) rfl (fun hstopped => nomatch hstopped)
    ⟨1, "barrier", none, true⟩ ⟨0, "session open", some (), false⟩ rfl rfl (.refl _)
    List.not_mem_nil
  have hbatches : s.batches.map Prod.fst = [false] := rfl
  have hin := List.mem_map_of_mem (f := Prod.fst) hops
  rw [hbatches] at hin
  exact Bool.noConfusion (List.mem_singleton.mp hin)

/-- Neither law holds as such: a barrier in hand is at none of the three places, and `Barrier`
returns over a batch that could not begin. -/
theorem in_hand_and_lost :
    ¬ Always step Placed (fresh Unit) barrierInHand ∧
      ¬ Along step CommitAttempted (fresh Unit) (batchLost ++ [.run 1]) :=
  ⟨not_placed_in_hand, not_attempted_when_lost⟩

end Queue

end ProxyForward.WriteQueue

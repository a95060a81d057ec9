import Mathlib.Logic.Function.Basic
import ProxyForward.Runs

namespace ProxyForward
set_option autoImplicit true

/-- The two connections of a splice. -/
inductive Leg
  | a | b
  deriving DecidableEq, Repr

def Leg.other : Leg → Leg
  | .a => .b
  | .b => .a

@[simp] theorem Leg.other_other (e : Leg) : e.other.other = e := by
  cases e <;> rfl

@[simp] theorem Leg.other_ne (e : Leg) : e.other ≠ e := by
  cases e <;> exact Leg.noConfusion

theorem Leg.eq_or_other (e e' : Leg) : e' = e ∨ e' = e.other := by
  cases e <;> cases e' <;> decide

/-- What an operation on a connection or a wait for tokens fails with. -/
inductive NetError
  | eof | closed | connReset | connAborted | canceled | deadlineExceeded | shortWrite | stalled
  | other (text : String)
  deriving DecidableEq, Repr

def isExpectedCloseErr : Option NetError → Bool
  | none | some .eof | some .closed | some .connReset | some .connAborted | some .canceled
  | some .deadlineExceeded => true
  | some .shortWrite | some .stalled | some (.other _) => false

def bufSize : Nat := 128 * 1024

/-- Where a copy half is. `rerr` is the error its last read returned beside the bytes. -/
inductive HalfPhase
  | reading
  | waiting (n : Nat) (rerr : Option NetError)
  | writing (n : Nat) (rerr : Option NetError)
  | returned (err : Option NetError)
  deriving DecidableEq, Repr

/-- A running splice. The half of a leg copies what it reads from this leg to the other one; its
limiter, its counter and its result are kept under the same leg. -/
structure Splice where
  limited : Leg → Bool
  parentDone : Bool
  childDone : Bool
  closed : Leg → Bool
  writeClosed : Leg → Bool
  phase : Leg → HalfPhase
  count : Leg → Nat
  result : Option (List NetError)

namespace Splice

def start (limited : Leg → Bool) : Splice where
  limited := limited
  parentDone := false
  childDone := false
  closed _ := false
  writeClosed _ := false
  phase _ := .reading
  count _ := 0
  result := none

def capped (s : Splice) : Bool := s.limited .a || s.limited .b

/-- The context the limiters wait on: the child one of a capped splice. -/
def ctxDone (s : Splice) : Bool := s.parentDone || s.childDone

def moveTo (s : Splice) (src : Leg) (p : HalfPhase) : Splice :=
  { s with phase := Function.update s.phase src p }

def close (s : Splice) (e : Leg) : Splice :=
  { s with closed := Function.update s.closed e true }

/-- A half's goroutine returns. An error cancels the child context, which is there only when one of
the directions is limited. -/
def finish (s : Splice) (src : Leg) (err : Option NetError) : Splice :=
  { s.moveTo src (.returned err) with childDone := s.childDone || (s.capped && err.isSome) }

/-- The bytes a write got through are counted even when it fails. -/
def counted (s : Splice) (src : Leg) (wn : Nat) : Splice :=
  { s with count := Function.update s.count src (s.count src + wn) }

def closeWrite (s : Splice) (e : Leg) : Splice :=
  { s with writeClosed := Function.update s.writeClosed e true }

/-- What a half does about the error of its read once the bytes are through. `fin` is what
`CloseWrite` returns if it comes to that. -/
def afterChunk (s : Splice) (src : Leg) (rerr fin : Option NetError) : Splice :=
  match rerr with
  | none => s.moveTo src .reading
  | some .eof => (s.closeWrite src.other).finish src fin
  | some e => (s.closeWrite src.other).finish src (some e)

end Splice

/-- One operation of a half comes back, or something outside the splice acts on it. -/
inductive SpliceStep
  | read (src : Leg) (n : Nat) (rerr fin : Option NetError)
  | wait (src : Leg) (werr : Option NetError)
  | write (src : Leg) (wn : Nat) (werr fin : Option NetError)
  | join
  | cancelParent
  | close (e : Leg)
  deriving DecidableEq, Repr

namespace Splice

/-- Reads and writes of a closed connection only fail; a wait may still be granted when its context
is done. -/
def step (s : Splice) : SpliceStep → Option Splice
  | .read src n rerr fin =>
    match s.phase src with
    | .reading =>
      if n ≤ bufSize ∧ (s.closed src = true → n = 0 ∧ rerr ≠ none) then
        if n = 0 then some (s.afterChunk src rerr fin)
        else if s.limited src then some (s.moveTo src (.waiting n rerr))
        else some (s.moveTo src (.writing n rerr))
      else none
    | _ => none
  | .wait src werr =>
    match s.phase src with
    | .waiting n rerr =>
      match werr with
      | none => some (s.moveTo src (.writing n rerr))
      | some e => some ((s.close src).finish src (some e))
    | _ => none
  | .write src wn werr fin =>
    match s.phase src with
    | .writing n rerr =>
      if wn ≤ n ∧ (s.closed src.other = true → werr ≠ none) then
        match werr with
        | some e => some (((s.counted src wn).close src).finish src (some e))
        | none =>
          if wn < n then some (((s.counted src wn).close src).finish src (some .shortWrite))
          else some ((s.counted src wn).afterChunk src rerr fin)
      else none
    | _ => none
  | .join =>
    match s.phase .a, s.phase .b with
    | .returned errA, .returned errB =>
      some { (s.close .a).close .b with
        result := some ([errA, errB].filterMap fun e => if isExpectedCloseErr e then none else e) }
    | _, _ => none
  | .cancelParent => some { s with parentDone := true }
  | .close e => some (s.close e)

/-- The operation a half is blocked in. -/
inductive BlockingOp
  | read (e : Leg)
  | wait
  | write (e : Leg)

def blockedIn (s : Splice) (src : Leg) : Option BlockingOp :=
  match s.phase src with
  | .reading => some (.read src)
  | .waiting .. => some .wait
  | .writing .. => some (.write src.other)
  | .returned _ => none

/-- The operation is on a connection already closed or on a context already done. -/
def Cut (s : Splice) : BlockingOp → Prop
  | .read e | .write e => s.closed e = true
  | .wait => s.ctxDone = true

end Splice

/-- The half a step belongs to. -/
def SpliceStep.half : SpliceStep → Option Leg
  | .read src .. | .wait src _ | .write src .. => some src
  | .join | .cancelParent | .close _ => none

namespace Splice

/-- A half has returned, or the operation it is in is cut and so is every one it enters next. -/
def Released (s : Splice) (src : Leg) : Prop :=
  (∃ err, s.phase src = .returned err) ∨
    (∀ op ∈ s.blockedIn src, s.Cut op) ∧
      ∀ l t, l.half = some src → s.step l = some t → ∀ op ∈ t.blockedIn src, t.Cut op

/-- A half that has returned an error leaves a released partner. -/
def NeverParks (s : Splice) : Prop :=
  ∀ src e, s.phase src = .returned (some e) → s.Released src.other

/-- Whether a read that came with this error ends its half with an error. -/
def badEnd (rerr fin : Option NetError) : Bool :=
  match rerr with
  | none => false
  | some .eof => fin.isSome
  | some _ => true

/-- The half a step ends with an error, and whether it closes the half's source. -/
def failure (s : Splice) : SpliceStep → Option (Leg × Bool)
  | .read src n rerr fin => if n = 0 ∧ badEnd rerr fin = true then some (src, false) else none
  | .wait src werr => if werr.isSome then some (src, true) else none
  | .write src wn werr fin =>
    match s.phase src with
    | .writing n rerr =>
      if werr.isSome ∨ wn < n then some (src, true)
      else if badEnd rerr fin = true then some (src, false)
      else none
    | _ => none
  | .join | .cancelParent | .close _ => none

/-- A half fails only while its partner has returned, reads a connection that is closed, or has
bytes in hand for one that is closed or that the failing half closes on its way out. -/
def FailsOntoPartner (s : Splice) (l : SpliceStep) : Prop :=
  ∀ f ∈ s.failure l,
    match s.phase f.1.other with
    | .returned _ => True
    | .reading => s.closed f.1.other = true
    | .waiting .. | .writing .. => f.2 = true ∨ s.closed f.1 = true

/-- Only a limited direction waits. -/
def WaitsLimited (s : Splice) : Prop :=
  ∀ src n rerr, s.phase src = .waiting n rerr → s.limited src = true

variable {s t : Splice} {src e : Leg}

/-- What every step keeps. -/
structure Extends (s t : Splice) : Prop where
  limited : t.limited = s.limited
  closed : ∀ e, s.closed e = true → t.closed e = true
  done : s.ctxDone = true → t.ctxDone = true

theorem Extends.trans (h : s.Extends t) (h' : t.Extends u) : s.Extends u :=
  ⟨h'.limited.trans h.limited, fun e he => h'.closed e (h.closed e he),
    fun hd => h'.done (h.done hd)⟩

theorem extends_close (s : Splice) (e : Leg) : s.Extends (s.close e) := by
  refine ⟨rfl, fun e' h => ?_, fun h => h⟩
  simp only [close, Function.update_apply, h, ite_self]

theorem extends_finish (s : Splice) (src : Leg) (err : Option NetError) :
    s.Extends (s.finish src err) := by
  refine ⟨rfl, fun _ h => h, fun h => ?_⟩
  simp only [ctxDone, finish, moveTo, Bool.or_eq_true] at h ⊢
  exact h.imp_right .inl

theorem extends_afterChunk (s : Splice) (src : Leg) (rerr fin : Option NetError) :
    s.Extends (s.afterChunk src rerr fin) := by
  have hclose : s.Extends (s.closeWrite src.other) := ⟨rfl, fun _ h => h, fun h => h⟩
  unfold afterChunk
  split
  · exact ⟨rfl, fun _ h => h, fun h => h⟩
  · exact hclose.trans (extends_finish _ src fin)
  · exact hclose.trans (extends_finish _ src _)

/-- How one operation leaves a half that goes on or returns without an error. -/
inductive GoesOn (s : Splice) (src : Leg) : HalfPhase → HalfPhase → Prop
  | idle (h : s.closed src = false) : GoesOn s src .reading .reading
  | wait (h : s.closed src = false) (hl : s.limited src = true) :
    GoesOn s src .reading (.waiting n rerr)
  | read (h : s.closed src = false) : GoesOn s src .reading (.writing n rerr)
  | eof : GoesOn s src .reading (.returned none)
  | granted : GoesOn s src (.waiting n rerr) (.writing n rerr)
  | wrote (h : s.closed src.other = false) : GoesOn s src (.writing n rerr) .reading
  | last : GoesOn s src (.writing n rerr) (.returned none)

/-- The half has returned an error, after closing its source if `closes` says so. -/
structure Failed (s t : Splice) (src : Leg) (closes : Bool) : Prop where
  returned : ∃ e, t.phase src = .returned (some e)
  done : s.capped = true → t.ctxDone = true
  closed : ∀ e, t.closed e = true ↔ s.closed e = true ∨ closes = true ∧ e = src

theorem failed_finish (s : Splice) (src : Leg) (e : NetError) :
    s.Failed (s.finish src (some e)) src false := by
  refine ⟨⟨e, Function.update_self _ _ _⟩, fun hc => ?_, fun e' => ?_⟩
  · simp only [ctxDone, finish, hc, Option.isSome_some, Bool.and_self, Bool.or_true]
  · exact ⟨.inl, fun h => h.elim id fun h => Bool.noConfusion h.1⟩

theorem failed_close (s : Splice) (src : Leg) (e : NetError) :
    s.Failed ((s.close src).finish src (some e)) src true := by
  obtain ⟨hret, hdone, hclosed⟩ := (s.close src).failed_finish src e
  refine ⟨hret, hdone, fun e' => (hclosed e').trans ?_⟩
  simp only [close, Function.update_apply]
  by_cases he : e' = src
  · simp [he]
  · simp [he]

theorem failed_afterChunk (s : Splice) (src : Leg) (h : badEnd rerr fin = true) :
    s.Failed (s.afterChunk src rerr fin) src false := by
  have hclose (e : NetError) :
      s.Failed ((s.closeWrite src.other).finish src (some e)) src false := by
    obtain ⟨hret, hdone, hclosed⟩ := (s.closeWrite src.other).failed_finish src e
    exact ⟨hret, hdone, hclosed⟩
  cases rerr with
  | none => cases h
  | some e =>
    cases e with
    | eof =>
      cases fin with
      | none => cases h
      | some e => exact hclose e
    | _ => exact hclose _

theorem afterChunk_phase (s : Splice) (src : Leg) (h : badEnd rerr fin = false) :
    (s.afterChunk src rerr fin).phase src = .reading ∧ rerr = none ∨
      (s.afterChunk src rerr fin).phase src = .returned none := by
  cases rerr with
  | none => exact .inl ⟨Function.update_self _ _ _, rfl⟩
  | some e =>
    cases e with
    | eof =>
      cases fin with
      | none => exact .inr (Function.update_self _ _ _)
      | some e => cases h
    | _ => cases h

theorem afterChunk_other (s : Splice) (src : Leg) (rerr fin : Option NetError) :
    (s.afterChunk src rerr fin).phase src.other = s.phase src.other := by
  unfold afterChunk
  split <;> exact Function.update_of_ne src.other_ne _ _

/-- What a step does that belongs to the half of `src`: the half goes on or fails, and the other
half is left where it is. -/
structure HalfStep (s t : Splice) (l : SpliceStep) (src : Leg) : Prop where
  keeps : s.Extends t
  other : t.phase src.other = s.phase src.other
  moves : s.failure l = none ∧ s.GoesOn src (s.phase src) (t.phase src) ∨
    ∃ closes, s.failure l = some (src, closes) ∧ s.Failed t src closes

theorem halfStep_of_moveTo (h : s.GoesOn src (s.phase src) p) (hf : s.failure l = none) :
    s.HalfStep (s.moveTo src p) l src where
  keeps := ⟨rfl, fun _ h => h, fun h => h⟩
  other := Function.update_of_ne src.other_ne _ _
  moves := .inl ⟨hf, by simpa only [moveTo, Function.update_self] using h⟩

theorem Failed.counted (h : (s.counted src wn).Failed t src closes) : s.Failed t src closes :=
  ⟨h.returned, h.done, h.closed⟩

theorem extends_counted (s : Splice) (src : Leg) (wn : Nat) : s.Extends (s.counted src wn) :=
  ⟨rfl, fun _ h => h, fun h => h⟩

theorem halfStep_of_read (hs : s.step (.read src n rerr fin) = some t) :
    s.HalfStep t (.read src n rerr fin) src := by
  simp only [step] at hs
  split at hs
  on_goal 2 => cases hs
  rename_i hp
  split at hs
  on_goal 2 => cases hs
  rename_i hr
  have hopen (h : n ≠ 0 ∨ rerr = none) : s.closed src = false := by
    refine Bool.eq_false_iff.2 fun hc => ?_
    obtain ⟨hn, he⟩ := hr.2 hc
    exact h.elim (fun h => h hn) he
  split at hs
  · rename_i hn
    cases hs
    refine ⟨extends_afterChunk .., afterChunk_other .., ?_⟩
    cases hb : badEnd rerr fin with
    | true => exact .inr ⟨false, by simp [failure, hn, hb], failed_afterChunk s src hb⟩
    | false =>
      refine .inl ⟨by simp [failure, hb], ?_⟩
      obtain ⟨h, he⟩ | h := afterChunk_phase s src hb
      · rw [h, hp]
        exact .idle (hopen (.inr he))
      · rw [h, hp]
        exact .eof
  · rename_i hn
    have hf : s.failure (.read src n rerr fin) = none := by simp [failure, hn]
    split at hs
    · rename_i hlim
      cases hs
      exact halfStep_of_moveTo (hp ▸ .wait (hopen (.inl hn)) hlim) hf
    · cases hs
      exact halfStep_of_moveTo (hp ▸ .read (hopen (.inl hn))) hf

theorem halfStep_of_wait (hs : s.step (.wait src werr) = some t) :
    s.HalfStep t (.wait src werr) src := by
  simp only [step] at hs
  split at hs
  on_goal 2 => cases hs
  rename_i hp
  cases werr with
  | none =>
    cases hs
    exact halfStep_of_moveTo (hp ▸ .granted) rfl
  | some e =>
    cases hs
    exact ⟨(extends_close s src).trans (extends_finish ..), Function.update_of_ne src.other_ne _ _,
      .inr ⟨true, rfl, failed_close s src e⟩⟩

theorem halfStep_of_write (hs : s.step (.write src wn werr fin) = some t) :
    s.HalfStep t (.write src wn werr fin) src := by
  simp only [step] at hs
  split at hs
  on_goal 2 => cases hs
  rename_i n rerr hp
  split at hs
  on_goal 2 => cases hs
  rename_i hw
  have hcount := extends_counted s src wn
  have hclosing (e : NetError) (hf : werr.isSome = true ∨ wn < n) :
      s.HalfStep (((s.counted src wn).close src).finish src (some e))
        (.write src wn werr fin) src :=
    ⟨hcount.trans ((extends_close _ src).trans (extends_finish ..)),
      Function.update_of_ne src.other_ne _ _,
      .inr ⟨true, by simp [failure, hp, hf], (failed_close (s.counted src wn) src e).counted⟩⟩
  cases werr with
  | some e =>
    cases hs
    exact hclosing e (.inl rfl)
  | none =>
    simp only at hs
    split at hs
    · rename_i hshort
      cases hs
      exact hclosing .shortWrite (.inr hshort)
    · rename_i hfull
      cases hs
      refine ⟨hcount.trans (extends_afterChunk ..), afterChunk_other .., ?_⟩
      cases hb : badEnd rerr fin with
      | true =>
        exact .inr ⟨false, by simp [failure, hp, hfull, hb],
          (failed_afterChunk (s.counted src wn) src hb).counted⟩
      | false =>
        refine .inl ⟨by simp [failure, hp, hfull, hb], ?_⟩
        obtain ⟨h, -⟩ | h := afterChunk_phase (s.counted src wn) src hb
        · rw [h, hp]
          exact .wrote (Bool.eq_false_iff.2 fun hc => hw.2 hc rfl)
        · rw [h, hp]
          exact .last

theorem halfStep_of_step (hs : s.step l = some t) (hl : l.half = some src) :
    s.HalfStep t l src := by
  cases l with
  | read =>
    obtain rfl := Option.some.inj hl
    exact halfStep_of_read hs
  | wait =>
    obtain rfl := Option.some.inj hl
    exact halfStep_of_wait hs
  | write =>
    obtain rfl := Option.some.inj hl
    exact halfStep_of_write hs
  | join => cases hl
  | cancelParent => cases hl
  | close e => cases hl

theorem apart_of_step (hs : s.step l = some t) (hl : l.half = none) :
    s.Extends t ∧ t.phase = s.phase ∧ s.failure l = none := by
  cases l with
  | read => cases hl
  | wait => cases hl
  | write => cases hl
  | join =>
    simp only [step] at hs
    split at hs
    · cases hs
      obtain ⟨hlim, hclosed, hdone⟩ := (extends_close s .a).trans (extends_close (s.close .a) .b)
      exact ⟨⟨hlim, hclosed, hdone⟩, rfl, rfl⟩
    · cases hs
  | cancelParent =>
    cases hs
    exact ⟨⟨rfl, fun _ h => h, fun _ => rfl⟩, rfl, rfl⟩
  | close e =>
    cases hs
    exact ⟨extends_close s e, rfl, rfl⟩

/-- A half reading a closed connection, or with bytes in hand for a closed one, is released. -/
def Doomed (s : Splice) (src : Leg) : Prop :=
  match s.phase src with
  | .returned _ => True
  | .reading => s.closed src = true
  | .waiting .. => s.ctxDone = true ∧ s.closed src.other = true
  | .writing .. => s.closed src.other = true

theorem returned_of_goesOn (h : s.GoesOn src p q) (hp : p = .reading → s.closed src = true)
    (hw : ∀ n rerr, p = .writing n rerr → s.closed src.other = true) :
    (∃ err, q = .returned err) ∨ ∃ n rerr, p = .waiting n rerr ∧ q = .writing n rerr := by
  cases h with
  | idle h | wait h | read h => exact absurd ((hp rfl).symm.trans h) Bool.noConfusion
  | eof | last => exact .inl ⟨_, rfl⟩
  | granted => exact .inr ⟨_, _, rfl, rfl⟩
  | wrote h => exact absurd ((hw _ _ rfl).symm.trans h) Bool.noConfusion

theorem Doomed.reading (h : s.Doomed src) (hp : s.phase src = .reading) : s.closed src = true := by
  simpa only [Doomed, hp] using h

theorem Doomed.writing (h : s.Doomed src) (hp : s.phase src = .writing n rerr) :
    s.closed src.other = true := by
  simpa only [Doomed, hp] using h

theorem Doomed.waiting (h : s.Doomed src) (hp : s.phase src = .waiting n rerr) :
    s.ctxDone = true ∧ s.closed src.other = true := by
  simpa only [Doomed, hp] using h

theorem Doomed.keep (h : s.Doomed src) (hk : s.Extends t) (hp : t.phase src = s.phase src) :
    t.Doomed src := by
  unfold Doomed at h ⊢
  rw [hp]
  split at h
  · trivial
  · exact hk.closed _ h
  · exact ⟨hk.done h.1, hk.closed _ h.2⟩
  · exact hk.closed _ h

theorem Doomed.halfStep (h : s.Doomed src) (hs : s.HalfStep t l src) : t.Doomed src := by
  obtain ⟨hk, -, ⟨-, hgo⟩ | ⟨closes, -, ⟨e, he⟩, -, -⟩⟩ := hs
  · obtain ⟨err, hret⟩ | ⟨n, rerr, hp, hq⟩ := returned_of_goesOn hgo h.reading fun _ _ => h.writing
    · simp only [Doomed, hret]
    · have hc := hk.closed _ (h.waiting hp).2
      simpa only [Doomed, hq] using hc
  · simp only [Doomed, he]

theorem Doomed.step (h : s.Doomed src) (hs : s.step l = some t) : t.Doomed src := by
  cases hl : l.half with
  | none =>
    obtain ⟨hk, hp, -⟩ := apart_of_step hs hl
    exact h.keep hk (by rw [hp])
  | some src' =>
    have hstep := halfStep_of_step hs hl
    obtain rfl | rfl := src'.eq_or_other src
    · exact h.halfStep hstep
    · exact h.keep hstep.keeps hstep.other

theorem cut_of_doomed (h : s.Doomed src) : ∀ op ∈ s.blockedIn src, s.Cut op := by
  unfold Doomed at h
  unfold blockedIn
  intro op hop
  split at h
  · rename_i hp
    rw [hp] at hop
    exact absurd hop (Option.not_mem_none op)
  · rename_i hp
    rw [hp] at hop
    obtain rfl := Option.some.inj hop
    exact h
  · rename_i hp
    rw [hp] at hop
    obtain rfl := Option.some.inj hop
    exact h.1
  · rename_i hp
    rw [hp] at hop
    obtain rfl := Option.some.inj hop
    exact h

theorem released_iff : s.Released src ↔ s.Doomed src := by
  constructor
  · rintro (⟨err, h⟩ | ⟨hcut, hnext⟩)
    · simp only [Doomed, h]
    · unfold Doomed
      cases hp : s.phase src with
      | returned err => trivial
      | reading => exact hcut (.read src) (by simp only [blockedIn, hp, Option.mem_def])
      | writing n rerr =>
        exact hcut (.write src.other) (by simp only [blockedIn, hp, Option.mem_def])
      | waiting n rerr =>
        refine ⟨hcut .wait (by simp only [blockedIn, hp, Option.mem_def]), ?_⟩
        have hgrant : s.step (.wait src none) = some (s.moveTo src (.writing n rerr)) := by
          simp only [step, hp]
        exact hnext (.wait src none) _ rfl hgrant (.write src.other)
          (by simp only [blockedIn, moveTo, Function.update_self, Option.mem_def])
  · intro h
    exact .inr ⟨cut_of_doomed h, fun l t hl hs =>
      cut_of_doomed (h.halfStep (halfStep_of_step hs hl))⟩

theorem WaitsLimited.step (h : s.WaitsLimited) (hs : s.step l = some t) : t.WaitsLimited := by
  intro src n rerr hp
  cases hl : l.half with
  | none =>
    obtain ⟨hk, hphase, -⟩ := apart_of_step hs hl
    rw [hk.limited]
    exact h src n rerr (hphase ▸ hp)
  | some src' =>
    obtain ⟨hk, hother, hmoves⟩ := halfStep_of_step hs hl
    rw [hk.limited]
    obtain rfl | rfl := src'.eq_or_other src
    · obtain ⟨-, hgo⟩ | ⟨closes, -, ⟨e, he⟩, -, -⟩ := hmoves
      · rw [hp] at hgo
        generalize s.phase src = p at hgo
        cases hgo with
        | wait _ hlim => exact hlim
      · exact HalfPhase.noConfusion (hp.symm.trans he)
    · exact h _ n rerr (hother ▸ hp)

theorem capped_of_limited (h : s.limited src = true) : s.capped = true := by
  cases src <;> simp [capped, h]

theorem failsOntoPartner_iff (hw : s.WaitsLimited) (hs : s.HalfStep t l src)
    (hf : s.failure l = some (src, closes)) (hfail : s.Failed t src closes) :
    s.FailsOntoPartner l ↔ t.Doomed src.other := by
  have hsrc : t.closed src = true ↔ closes = true ∨ s.closed src = true := by
    rw [hfail.closed src]
    simp only [and_true]
    exact or_comm
  have hother : t.closed src.other = true ↔ s.closed src.other = true := by
    rw [hfail.closed src.other]
    simp only [Leg.other_ne, and_false, or_false]
  unfold FailsOntoPartner Doomed
  simp only [hf, Option.mem_def, Option.some.injEq, forall_eq', hs.other, Leg.other_other]
  cases hp : s.phase src.other with
  | returned err => exact Iff.rfl
  | reading => exact hother.symm
  | writing n rerr => exact hsrc.symm
  | waiting n rerr =>
    have hdone := hfail.done (capped_of_limited (hw _ _ _ hp))
    simp only [hdone, true_and]
    exact hsrc.symm

/-- A step keeps partners from parking exactly when the failure it makes, if any, does. -/
theorem neverParks_step (hw : s.WaitsLimited) (h : s.NeverParks) (hs : s.step l = some t) :
    t.NeverParks ↔ s.FailsOntoPartner l := by
  have hkeep (src : Leg) (e : NetError) (he : s.phase src = .returned (some e)) :
      t.Released src.other := released_iff.2 ((released_iff.1 (h src e he)).step hs)
  cases hl : l.half with
  | none =>
    obtain ⟨-, hphase, hf⟩ := apart_of_step hs hl
    refine iff_of_true (fun src e he => hkeep src e (hphase ▸ he)) fun f hf' => ?_
    exact absurd (hf ▸ hf') (Option.not_mem_none f)
  | some src =>
    have hstep := halfStep_of_step hs hl
    obtain ⟨hf, hgo⟩ | ⟨closes, hf, hfail⟩ := hstep.moves
    · refine iff_of_true (fun src' e he => ?_) fun f hf' => ?_
      · obtain rfl | rfl := src.eq_or_other src'
        · rw [he] at hgo
          generalize s.phase src' = p at hgo
          cases hgo
        · exact hkeep _ e (hstep.other ▸ he)
      · exact absurd (hf ▸ hf') (Option.not_mem_none f)
    · rw [failsOntoPartner_iff hw hstep hf hfail, ← released_iff]
      constructor
      · intro ht
        obtain ⟨e, he⟩ := hfail.returned
        exact ht src e he
      · intro ht src' e he
        obtain rfl | rfl := src.eq_or_other src'
        · exact ht
        · exact hkeep _ e (hstep.other ▸ he)

/-- In every run of a splice, under any limiters, no half is left on a silent peer after its partner
failed exactly when every failure falls on a partner that it unblocks. -/
theorem splice_neverParks_iff (limited : Leg → Bool) (ls : List SpliceStep) :
    Runs.Always step NeverParks (start limited) ls ↔
      Runs.Along step FailsOntoPartner (start limited) ls := by
  refine Runs.always_iff_along (I := fun s => s.WaitsLimited ∧ s.NeverParks) (fun s h => h.2)
    (fun s l t hI hs => ?_) ?_
  · obtain ⟨hw, h⟩ := hI
    have hiff := neverParks_step hw h hs
    exact ⟨fun hC => ⟨hw.step hs, hiff.2 hC⟩, hiff.1⟩
  · exact ⟨fun _ _ _ h => HalfPhase.noConfusion h, fun _ _ h => HalfPhase.noConfusion h⟩

/-- The write to `b` stalls; the half that reads `b` goes on reading it. -/
theorem splice_parks : ¬∀ limited ls t, Runs.Reaches step (start limited) ls t → t.NeverParks := by
  intro h
  let ls : List SpliceStep := [.read .a 1 none none, .write .a 0 (some .stalled) none]
  obtain ⟨t, ht⟩ : ∃ t, Runs.final step (start fun _ => false) ls = some t :=
    Option.isSome_iff_exists.1 (by decide)
  have hfacts : ∀ t ∈ Runs.final step (start fun _ => false) ls,
      t.phase .a = .returned (some .stalled) ∧ t.phase .b = .reading ∧ t.closed .b = false := by
    decide
  obtain ⟨ha, hb, hopen⟩ := hfacts t ht
  have hdoomed := released_iff.1 (h _ ls t (Runs.reaches_of_final ht) .a _ ha)
  exact Bool.noConfusion ((hdoomed.reading hb).symm.trans hopen)

end Splice

end ProxyForward

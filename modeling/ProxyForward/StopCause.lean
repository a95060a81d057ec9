import Mathlib.Data.List.Nodup
import ProxyForward.Runs

namespace ProxyForward.StopCause
set_option autoImplicit true
open Runs

/-- What `ipc.Serve` returns. -/
inductive Served (ε : Type) where
  | ended
  | unsupported
  | failed (e : ε)
  deriving DecidableEq, Repr

inductive RunError (ε : Type) where
  | plain (e : ε)
  /-- `ipc pipe failed (is another proxyforward daemon running?)`, wrapped around the error. -/
  | pipeFailed (e : ε)
  deriving DecidableEq, Repr

inductive Side where
  | pipe
  | role
  deriving DecidableEq, Repr

/-- What a goroutine sends on `errCh`; `Run` does not see the side. -/
structure Report (ε : Type) where
  side : Side
  err : Option (RunError ε)
  deriving DecidableEq, Repr

/-- Where `Run` is, with what it has received. -/
inductive Main (ε : Type) where
  | first
  | cancels (r : Report ε)
  | second (r : Report ε)
  | drains (r r' : Report ε)
  | returned (r r' : Report ε) (res : Option (RunError ε))
  deriving DecidableEq, Repr

structure Run (ε : Type) where
  ctxDone : Bool
  cancelled : Bool
  pipe : Option (Served ε)
  pipeReported : Bool
  role : Option (Option ε)
  roleReported : Bool
  errCh : List (Report ε)
  samplerDone : Bool
  resolverDone : Bool
  metricsDone : Bool
  main : Main ε

/-- What `Run` does not decide: the caller's context, and when the two sides return what. -/
inductive Env (ε : Type) where
  | ctxCancelled
  | pipeReturns (r : Served ε)
  | roleReturns (r : Option ε)
  deriving DecidableEq, Repr

inductive Label (ε : Type) where
  | env (e : Env ε)
  | pipeReports
  | roleReports
  | receive
  | cancels
  | samplerEnds
  | resolverEnds
  | metricsEnds
  | returns
  deriving DecidableEq, Repr

def Label.env? : Label ε → Option (Env ε)
  | .env e => some e
  | _ => none

namespace Run

def start : Run ε := ⟨false, false, none, false, none, false, [], false, false, false, .first⟩

/-- `runCtx.Err() != nil`. -/
def runCtxDone (s : Run ε) : Bool := s.ctxDone || s.cancelled

/-- What the pipe's goroutine makes of the end of `Serve`. -/
def pipeErr (s : Run ε) : Served ε → Option (RunError ε)
  | .ended => none
  | .unsupported => none
  | .failed e => some (if s.runCtxDone then .plain e else .pipeFailed e)

def step (s : Run ε) : Label ε → Option (Run ε)
  | .env .ctxCancelled => some { s with ctxDone := true }
  | .env (.pipeReturns r) =>
    match s.pipe with
    | none => some { s with pipe := some r }
    | some _ => none
  | .env (.roleReturns r) =>
    match s.role with
    | none => some { s with role := some r }
    | some _ => none
  | .pipeReports =>
    match s.pipe, s.pipeReported with
    | some r, false =>
      some { s with pipeReported := true, errCh := s.errCh ++ [⟨.pipe, s.pipeErr r⟩] }
    | _, _ => none
  | .roleReports =>
    match s.role, s.roleReported with
    | some r, false =>
      some { s with roleReported := true, errCh := s.errCh ++ [⟨.role, r.map .plain⟩] }
    | _, _ => none
  | .receive =>
    match s.main, s.errCh with
    | .first, r :: errCh => some { s with main := .cancels r, errCh }
    | .second r, r' :: errCh => some { s with main := .drains r r', errCh }
    | _, _ => none
  | .cancels =>
    match s.main with
    | .cancels r => some { s with cancelled := true, main := .second r }
    | _ => none
  | .samplerEnds => if s.runCtxDone then some { s with samplerDone := true } else none
  | .resolverEnds => some { s with resolverDone := true }
  | .metricsEnds => some { s with metricsDone := true }
  | .returns =>
    match s.main with
    | .drains r r' =>
      if s.samplerDone && s.resolverDone && s.metricsDone then
        let err := if r.err.isNone then r'.err else r.err
        some { s with main := .returned r r' (if s.ctxDone then none else err) }
      else none
    | _ => none

/-- What may stop a run: its context, the role engine's return, or a failure of the pipe. -/
def Cause (s : Run ε) : Prop :=
  s.ctxDone = true ∨ s.role.isSome = true ∨ ∃ e, s.pipe = some (.failed e)

/-- The error is of a side that failed, and there is none only when none has. -/
def OfFailed (s : Run ε) : Option (RunError ε) → Prop
  | none => (∀ e, s.pipe ≠ some (.failed e)) ∧ ∀ e, s.role ≠ some (some e)
  | some err =>
    (∃ e, s.pipe = some (.failed e) ∧ (err = .plain e ∨ err = .pipeFailed e)) ∨
      ∃ e, s.role = some (some e) ∧ err = .plain e

/-- Nothing is cancelled without a cause, and what is returned before the caller's context is
cancelled is the error of the side that failed. -/
def StopsForCause (s : Run ε) : Prop :=
  (s.cancelled = true → s.Cause) ∧
    ∀ r r' res, s.main = .returned r r' res → s.ctxDone = false → s.OfFailed res

def received (s : Run ε) : List (Report ε) :=
  match s.main with
  | .first => []
  | .cancels r => [r]
  | .second r => [r]
  | .drains r r' => [r, r']
  | .returned r r' _ => [r, r']

/-- The report tells what its side has returned. -/
def Genuine (s : Run ε) (r : Report ε) : Prop :=
  match r.side with
  | .pipe => s.pipeReported = true ∧
    ((r.err = none ∧ (s.pipe = some .ended ∨ s.pipe = some .unsupported)) ∨
      ∃ e, s.pipe = some (.failed e) ∧ (r.err = some (.plain e) ∨ r.err = some (.pipeFailed e)))
  | .role => s.roleReported = true ∧ ∃ r', s.role = some r' ∧ r.err = r'.map .plain

/-- What holds between the steps. -/
structure Inv (s : Run ε) : Prop where
  genuine : ∀ r ∈ s.received ++ s.errCh, s.Genuine r
  sides : ((s.received ++ s.errCh).map Report.side).Nodup
  result : ∀ r r' res, s.main = .returned r r' res → s.ctxDone = false →
    res = if r.err.isNone then r'.err else r.err

/-- Nothing has happened yet. -/
structure Idle (s : Run ε) : Prop where
  ctx : s.ctxDone = false
  pipe : s.pipe = none
  role : s.role = none
  errCh : s.errCh = []
  main : s.main = .first
  cancelled : s.cancelled = false

end Run

/-- The pipe ends without a failure. -/
def Env.Quiet : Env ε → Prop
  | .pipeReturns .ended => True
  | .pipeReturns .unsupported => True
  | _ => False

namespace Run

theorem inv_start : Inv (start : Run ε) := ⟨nofun, List.nodup_nil, nofun⟩

theorem idle_start : Idle (start : Run ε) := ⟨rfl, rfl, rfl, rfl, rfl, rfl⟩

theorem Genuine.mono {s t : Run ε} (h : s.Genuine r)
    (hpipe : ∀ r, s.pipe = some r → t.pipe = some r)
    (hrole : ∀ r, s.role = some r → t.role = some r)
    (hpr : s.pipeReported = true → t.pipeReported = true)
    (hrr : s.roleReported = true → t.roleReported = true) : t.Genuine r := by
  unfold Genuine at h ⊢
  cases hside : r.side with
  | pipe =>
    rw [hside] at h
    obtain ⟨hreported, ⟨hnone, hend | hend⟩ | ⟨e, hfail, he⟩⟩ := h
    · exact ⟨hpr hreported, .inl ⟨hnone, .inl (hpipe _ hend)⟩⟩
    · exact ⟨hpr hreported, .inl ⟨hnone, .inr (hpipe _ hend)⟩⟩
    · exact ⟨hpr hreported, .inr ⟨e, hpipe _ hfail, he⟩⟩
  | role =>
    rw [hside] at h
    obtain ⟨hreported, r', hr', he⟩ := h
    exact ⟨hrr hreported, r', hrole _ hr', he⟩

theorem Inv.same {s t : Run ε} (h : Inv s) (hmain : t.main = s.main) (herrCh : t.errCh = s.errCh)
    (hctx : t.ctxDone = false → s.ctxDone = false)
    (hpipe : ∀ r, s.pipe = some r → t.pipe = some r)
    (hrole : ∀ r, s.role = some r → t.role = some r)
    (hpr : s.pipeReported = true → t.pipeReported = true)
    (hrr : s.roleReported = true → t.roleReported = true) : Inv t := by
  have hreceived : t.received = s.received := by
    unfold received
    rw [hmain]
  refine ⟨?_, ?_, ?_⟩
  · rw [hreceived, herrCh]
    exact fun r hr => (h.genuine r hr).mono hpipe hrole hpr hrr
  · rw [hreceived, herrCh]
    exact h.sides
  · rw [hmain]
    exact fun r r' res hres hctx' => h.result r r' res hres (hctx hctx')

theorem Inv.send {s t : Run ε} (h : Inv s) (hmain : t.main = s.main) {r : Report ε}
    (herrCh : t.errCh = s.errCh ++ [r]) (hctx : t.ctxDone = s.ctxDone)
    (hnew : ∀ r' ∈ s.received ++ s.errCh, r'.side ≠ r.side) (hr : t.Genuine r)
    (hpipe : t.pipe = s.pipe) (hrole : t.role = s.role)
    (hpr : s.pipeReported = true → t.pipeReported = true)
    (hrr : s.roleReported = true → t.roleReported = true) : Inv t := by
  have hreceived : t.received = s.received := by
    unfold received
    rw [hmain]
  have hkeep {r' : Report ε} (h' : s.Genuine r') : t.Genuine r' :=
    h'.mono (fun r hp => hpipe.trans hp) (fun r hp => hrole.trans hp) hpr hrr
  refine ⟨?_, ?_, ?_⟩
  · rw [hreceived, herrCh, ← List.append_assoc]
    intro r' hr'
    obtain hr' | hr' := List.mem_append.1 hr'
    · exact hkeep (h.genuine r' hr')
    · rw [List.mem_singleton.1 hr']
      exact hr
  · rw [hreceived, herrCh, ← List.append_assoc, List.map_append]
    refine List.nodup_append.2 ⟨h.sides, List.nodup_singleton _, ?_⟩
    intro a ha b hb
    obtain ⟨r', hr', rfl⟩ := List.mem_map.1 ha
    rw [List.mem_singleton.1 hb]
    exact hnew r' hr'
  · rw [hmain, hctx]
    exact h.result

theorem Inv.moved {s t : Run ε} (h : Inv s) (hall : t.received ++ t.errCh = s.received ++ s.errCh)
    (hpipe : t.pipe = s.pipe) (hrole : t.role = s.role) (hpr : t.pipeReported = s.pipeReported)
    (hrr : t.roleReported = s.roleReported)
    (hres : ∀ r r' res, t.main = .returned r r' res → t.ctxDone = false →
      res = if r.err.isNone then r'.err else r.err) : Inv t := by
  refine ⟨?_, ?_, hres⟩
  · rw [hall]
    exact fun r hr => (h.genuine r hr).mono (fun r hp => hpipe.trans hp)
      (fun r hp => hrole.trans hp) hpr.trans hrr.trans
  · rw [hall]
    exact h.sides

theorem genuine_pipe {s : Run ε} {r : Served ε} (hp : s.pipe = some r)
    (hreported : s.pipeReported = true) (b : Run ε) :
    s.Genuine ⟨.pipe, b.pipeErr r⟩ := by
  refine ⟨hreported, ?_⟩
  cases r with
  | ended => exact .inl ⟨rfl, .inl hp⟩
  | unsupported => exact .inl ⟨rfl, .inr hp⟩
  | failed e =>
    refine .inr ⟨e, hp, ?_⟩
    dsimp only [pipeErr]
    cases b.runCtxDone with
    | true => exact .inl rfl
    | false => exact .inr rfl

theorem Inv.step {s t : Run ε} {l : Label ε} (h : Inv s) (ht : s.step l = some t) : Inv t := by
  have hfresh (side : Side) (hnot : ∀ r, s.Genuine r → r.side ≠ side) :
      ∀ r' ∈ s.received ++ s.errCh, r'.side ≠ side := fun r' hr' => hnot r' (h.genuine r' hr')
  cases l with
  | env e =>
    cases e with
    | ctxCancelled =>
      cases ht
      exact h.same rfl rfl nofun (fun _ hr => hr) (fun _ hr => hr) id id
    | pipeReturns r =>
      unfold Run.step at ht
      simp only at ht
      split at ht
      · rename_i hp
        cases ht
        exact h.same rfl rfl id (fun r' hr' => nomatch hp.symm.trans hr') (fun _ hr => hr) id id
      · cases ht
    | roleReturns r =>
      unfold Run.step at ht
      simp only at ht
      split at ht
      · rename_i hp
        cases ht
        exact h.same rfl rfl id (fun _ hr => hr) (fun r' hr' => nomatch hp.symm.trans hr') id id
      · cases ht
  | pipeReports =>
    unfold Run.step at ht
    simp only at ht
    split at ht
    · rename_i r hp hreported
      cases ht
      refine h.send rfl rfl rfl (hfresh .pipe ?_) ?_ rfl rfl (fun _ => rfl) id
      · intro r' hr' hside
        unfold Genuine at hr'
        rw [hside] at hr'
        exact Bool.false_ne_true (hreported.symm.trans hr'.1)
      · apply genuine_pipe _ _ s
        · exact hp
        · rfl
    · cases ht
  | roleReports =>
    unfold Run.step at ht
    simp only at ht
    split at ht
    · rename_i r hp hreported
      cases ht
      refine h.send rfl rfl rfl (hfresh .role ?_) ⟨rfl, r, hp, rfl⟩ rfl rfl id (fun _ => rfl)
      intro r' hr' hside
      unfold Genuine at hr'
      rw [hside] at hr'
      exact Bool.false_ne_true (hreported.symm.trans hr'.1)
    · cases ht
  | receive =>
    unfold Run.step at ht
    simp only at ht
    split at ht
    · rename_i r errCh hmain herrCh
      cases ht
      refine h.moved ?_ rfl rfl rfl rfl nofun
      simp only [received, hmain, herrCh, List.nil_append, List.singleton_append]
    · rename_i r r' errCh hmain herrCh
      cases ht
      refine h.moved ?_ rfl rfl rfl rfl nofun
      simp only [received, hmain, herrCh, List.cons_append, List.nil_append]
    · cases ht
  | cancels =>
    unfold Run.step at ht
    simp only at ht
    split at ht
    · rename_i r hmain
      cases ht
      refine h.moved ?_ rfl rfl rfl rfl nofun
      simp only [received, hmain]
    · cases ht
  | samplerEnds =>
    unfold Run.step at ht
    simp only at ht
    split at ht
    · cases ht
      exact h.same rfl rfl id (fun _ hr => hr) (fun _ hr => hr) id id
    · cases ht
  | resolverEnds =>
    cases ht
    exact h.same rfl rfl id (fun _ hr => hr) (fun _ hr => hr) id id
  | metricsEnds =>
    cases ht
    exact h.same rfl rfl id (fun _ hr => hr) (fun _ hr => hr) id id
  | returns =>
    unfold Run.step at ht
    simp only at ht
    split at ht
    · rename_i r r' hmain
      split at ht
      · cases ht
        refine h.moved ?_ rfl rfl rfl rfl ?_
        · simp only [received, hmain]
        · intro r₁ r₁' res hres hctx
          cases hres
          rw [hctx]
          rfl
      · cases ht
    · cases ht

theorem Genuine.none_iff {s : Run ε} (h : s.Genuine r) (hnone : r.err = none) :
    (r.side = .pipe → ∀ e, s.pipe ≠ some (.failed e)) ∧
      (r.side = .role → ∀ e, s.role ≠ some (some e)) := by
  unfold Genuine at h
  constructor
  · intro hside e he
    rw [hside] at h
    obtain ⟨-, ⟨-, hend | hend⟩ | ⟨e', -, he' | he'⟩⟩ := h
    · cases he.symm.trans hend
    · cases he.symm.trans hend
    · cases hnone.symm.trans he'
    · cases hnone.symm.trans he'
  · intro hside e he
    rw [hside] at h
    obtain ⟨-, r', hr', herr⟩ := h
    cases he.symm.trans hr'
    cases hnone.symm.trans herr

theorem Genuine.ofFailed {s : Run ε} (h : s.Genuine r) (hsome : r.err = some err) :
    s.OfFailed (some err) := by
  unfold Genuine at h
  cases hside : r.side with
  | pipe =>
    rw [hside] at h
    obtain ⟨-, ⟨hnone, -⟩ | ⟨e, he, herr⟩⟩ := h
    · cases hsome.symm.trans hnone
    · left
      refine ⟨e, he, ?_⟩
      rw [hsome] at herr
      exact herr.imp Option.some.inj Option.some.inj
  | role =>
    rw [hside] at h
    obtain ⟨-, r', hr', herr⟩ := h
    rw [hsome] at herr
    obtain ⟨e, rfl, he⟩ := Option.map_eq_some_iff.1 herr.symm
    exact .inr ⟨e, hr', he.symm⟩

theorem Inv.ofFailed {s : Run ε} (h : Inv s) (hmain : s.main = .returned r r' res)
    (hctx : s.ctxDone = false) : s.OfFailed res := by
  have hreceived : s.received = [r, r'] := by
    unfold received
    rw [hmain]
  have hgenuine := h.genuine
  have hsides := h.sides
  rw [hreceived] at hgenuine hsides
  have hr : s.Genuine r := hgenuine r List.mem_cons_self
  have hr' : s.Genuine r' := hgenuine r' (List.mem_cons_of_mem _ List.mem_cons_self)
  have hne : r.side ≠ r'.side := by
    intro heq
    rw [List.map_append, List.nodup_append] at hsides
    simp [heq] at hsides
  rw [h.result r r' res hmain hctx]
  cases herr : r.err with
  | some err => exact hr.ofFailed herr
  | none =>
    cases herr' : r'.err with
    | some err => exact hr'.ofFailed herr'
    | none =>
      obtain ⟨hpipe, hrole⟩ := hr.none_iff herr
      obtain ⟨hpipe', hrole'⟩ := hr'.none_iff herr'
      cases hside : r.side with
      | pipe =>
        cases hside' : r'.side with
        | pipe => exact absurd (hside.trans hside'.symm) hne
        | role => exact ⟨hpipe hside, hrole' hside'⟩
      | role =>
        cases hside' : r'.side with
        | pipe => exact ⟨hpipe' hside', hrole hside⟩
        | role => exact absurd (hside.trans hside'.symm) hne

theorem step_outside {s t : Run ε} {l : Label ε} (ht : s.step l = some t) :
    (s.ctxDone = true → t.ctxDone = true) ∧ (∀ r, s.role = some r → t.role = some r) ∧
      ∀ r, s.pipe = some r → t.pipe = some r := by
  cases l with
  | env e =>
    cases e with
    | ctxCancelled =>
      cases ht
      exact ⟨fun _ => rfl, fun _ hr => hr, fun _ hr => hr⟩
    | pipeReturns r =>
      unfold Run.step at ht
      simp only at ht
      split at ht
      · rename_i hp
        cases ht
        exact ⟨id, fun _ hr => hr, fun r' hr' => nomatch hp.symm.trans hr'⟩
      · cases ht
    | roleReturns r =>
      unfold Run.step at ht
      simp only at ht
      split at ht
      · rename_i hp
        cases ht
        exact ⟨id, fun r' hr' => (nomatch hp.symm.trans hr'), fun _ hr => hr⟩
      · cases ht
  | _ =>
    unfold Run.step at ht
    simp only at ht
    repeat' split at ht
    all_goals cases ht
    all_goals exact ⟨id, fun _ hr => hr, fun _ hr => hr⟩

theorem Cause.step {s t : Run ε} {l : Label ε} (h : s.Cause) (ht : s.step l = some t) :
    t.Cause := by
  obtain ⟨hctx, hrole, hpipe⟩ := step_outside ht
  obtain hc | hr | ⟨e, he⟩ := h
  · exact .inl (hctx hc)
  · obtain ⟨r, hr⟩ := Option.isSome_iff_exists.1 hr
    exact .inr (.inl (Option.isSome_iff_exists.2 ⟨r, hrole r hr⟩))
  · exact .inr (.inr ⟨e, hpipe _ he⟩)

theorem Idle.env {s t : Run ε} (h : Idle s) {e : Env ε} (hloud : ¬e.Quiet)
    (ht : s.step (.env e) = some t) : t.Cause := by
  cases e with
  | ctxCancelled =>
    cases ht
    exact .inl rfl
  | pipeReturns r =>
    unfold Run.step at ht
    simp only [h.pipe, Option.some.injEq] at ht
    subst ht
    cases r with
    | ended => exact absurd trivial hloud
    | unsupported => exact absurd trivial hloud
    | failed e => exact .inr (.inr ⟨e, rfl⟩)
  | roleReturns r =>
    unfold Run.step at ht
    simp only [h.role, Option.some.injEq] at ht
    subst ht
    exact .inr (.inl rfl)

theorem Idle.step {s t : Run ε} (h : Idle s) {l : Label ε} (hl : l.env? = none)
    (ht : s.step l = some t) : Idle t := by
  have hdone : s.runCtxDone = false := by
    rw [runCtxDone, h.ctx, h.cancelled]
    rfl
  obtain ⟨hctx, hpipe, hrole, herrCh, hmain, hcancelled⟩ := h
  cases l with
  | env e => cases hl
  | resolverEnds =>
    cases ht
    exact ⟨hctx, hpipe, hrole, herrCh, hmain, hcancelled⟩
  | metricsEnds =>
    cases ht
    exact ⟨hctx, hpipe, hrole, herrCh, hmain, hcancelled⟩
  | samplerEnds =>
    unfold Run.step at ht
    simp only [hdone, Bool.false_eq_true, if_false, reduceCtorEq] at ht
  | pipeReports =>
    unfold Run.step at ht
    simp only [hpipe, reduceCtorEq] at ht
  | roleReports =>
    unfold Run.step at ht
    simp only [hrole, reduceCtorEq] at ht
  | receive =>
    unfold Run.step at ht
    simp only [hmain, herrCh, reduceCtorEq] at ht
  | cancels =>
    unfold Run.step at ht
    simp only [hmain, reduceCtorEq] at ht
  | returns =>
    unfold Run.step at ht
    simp only [hmain, reduceCtorEq] at ht

theorem stopsForCause_of_cause {s : Run ε} (h : Inv s) (hc : s.Cause) : s.StopsForCause :=
  ⟨fun _ => hc, fun _ _ _ hmain hctx => h.ofFailed hmain hctx⟩

theorem stopsForCause_of_idle {s : Run ε} (h : Idle s) : s.StopsForCause := by
  refine ⟨fun hcancelled => ?_, fun r r' res hmain => ?_⟩
  · exact absurd (h.cancelled.symm.trans hcancelled) Bool.false_ne_true
  · cases h.main.symm.trans hmain

theorem always_of_cause {s : Run ε} (h : Inv s) (hc : s.Cause) (ls : List (Label ε)) :
    Always step StopsForCause s ls := by
  apply always_of_invariant (I := fun s => Inv s ∧ s.Cause) (C := fun _ _ => True) _ _ ⟨h, hc⟩
    (along_of_forall (fun _ _ => trivial) s)
  · intro s l t hi _ ht
    exact ⟨hi.1.step ht, hi.2.step ht⟩
  · intro s hi
    exact stopsForCause_of_cause hi.1 hi.2

theorem always_of_idle {s : Run ε} (h : Inv s) (hidle : Idle s) (ls : List (Label ε))
    (hloud : ∀ e ∈ (ls.filterMap Label.env?).head?, ¬e.Quiet) : Always step StopsForCause s ls := by
  induction ls generalizing s with
  | nil => exact stopsForCause_of_idle hidle
  | cons l ls ih =>
    cases ht : s.step l with
    | none => exact (always_disabled ht).2 (stopsForCause_of_idle hidle)
    | some t =>
      refine (always_iff ht).2 ⟨stopsForCause_of_idle hidle, ?_⟩
      cases hl : l.env? with
      | none =>
        rw [List.filterMap_cons, hl] at hloud
        exact ih (h.step ht) (hidle.step hl ht) hloud
      | some e =>
        rw [List.filterMap_cons, hl] at hloud
        have he : l = .env e := by
          cases l with
          | env e' => exact congrArg Label.env (Option.some.inj hl)
          | _ => cases hl
        subst he
        exact always_of_cause (h.step ht) (hidle.env (hloud e rfl) ht) ls

/-- The steps by which a quiet end of the pipe cancels the role engine. -/
def quietStop (r : Served ε) : List (Label ε) :=
  [.env (.pipeReturns r), .pipeReports, .receive, .cancels]

theorem quiet_end_stops {r : Served ε} (hquiet : (Env.pipeReturns r).Quiet)
    (ls : List (Label ε)) : ¬Always step StopsForCause start (quietStop r ++ ls) := by
  intro h
  have hr : Reaches step (start : Run ε) (quietStop r)
      { start with
        pipe := some r
        pipeReported := true
        cancelled := true
        main := .second ⟨.pipe, none⟩ } := by
    apply reaches_of_final
    cases r with
    | ended => rfl
    | unsupported => rfl
    | failed e => exact absurd hquiet id
  obtain ⟨hcause, -⟩ := h.at_prefix hr
  obtain hctx | hrole | ⟨e, he⟩ := hcause rfl
  · cases hctx
  · cases hrole
  · cases he
    exact hquiet

end Run

/-- In every order of events outside of it, `Run` stops only for a cause and with the error of the
side that failed, exactly when the first event is not the end of the pipe without a failure. -/
theorem stops_for_cause_iff {ε : Type} (script : List (Env ε)) :
    (∀ ls, ls.filterMap Label.env? = script →
        Always Run.step Run.StopsForCause Run.start ls) ↔
      ∀ e ∈ script.head?, ¬e.Quiet := by
  constructor
  · intro h e he hquiet
    obtain ⟨script, rfl⟩ : ∃ rest, script = e :: rest := by
      cases script with
      | nil => cases he
      | cons e' rest =>
        cases he
        exact ⟨rest, rfl⟩
    cases e with
    | ctxCancelled => exact hquiet
    | roleReturns r => exact hquiet
    | pipeReturns r =>
      have hrest : (script.map Label.env).filterMap Label.env? = script := by
        rw [List.filterMap_map]
        exact List.filterMap_some
      apply Run.quiet_end_stops hquiet (script.map Label.env)
      apply h
      rw [List.filterMap_append, hrest]
      rfl
  · rintro hloud ls rfl
    exact Run.always_of_idle Run.inv_start Run.idle_start ls hloud

/-- The pipe is not available on this platform, and the engine stops with no error. -/
theorem unsupported_pipe_stops : ¬∀ ls : List (Label String),
    Always Run.step Run.StopsForCause Run.start ls := by
  intro h
  exact Run.quiet_end_stops (r := .unsupported) trivial [] (h _)

end ProxyForward.StopCause

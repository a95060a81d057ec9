import ProxyForward.ControlSession

namespace ProxyForward
set_option autoImplicit true

/-- How far `closeAll` of an evicted session is: not called, about to load the transport, about to
close the one it loaded, about to close the raw conn, or through. -/
inductive Closing where
  | idle
  | load
  | session
  | conn
  | done
  deriving DecidableEq, Repr

/-- How far the accept path of a session is: before the actor, admitted, with its transport
attached, in `serveControl`, returning with its transport closed, or through. -/
inductive Handler where
  | fresh
  | admitted
  | attached
  | serving
  | leaving
  | gone
  deriving DecidableEq, Repr

def Handler.setUp : Handler → Bool
  | .fresh | .admitted | .attached => false
  | .serving | .leaving | .gone => true

/-- The gateway and one session's way into it. `raw` is set for the TCP path, where the session
holds the conn from the start; `attached` when `setSession` has stored the transport. `received` are
the frames of the control stream that the transport has taken in, in its buffers or read by
`ReadMsg`, and that `handleControlMsg` has not been given yet. -/
structure Evicting where
  gateway : GatewayState
  raw : Bool
  handler : Handler
  attached : Bool
  closing : Closing
  closed : Bool
  received : List AgentFrame

inductive EvictingStep where
  | admitSession
  | attach
  | serve
  | receive (f : AgentFrame)
  | handle (written : Bool)
  | leave
  | disconnected
  | command (c : Command)
  | closeAll
  deriving DecidableEq, Repr

def EvictingStep.handles : EvictingStep → Bool
  | .handle _ => true
  | _ => false

namespace Evicting

def start (store : AgentStore) (raw : Bool) : Evicting :=
  ⟨GatewayState.start store, raw, .fresh, false, .idle, false, []⟩

/-- The gateway moves on; an eviction of the session goes on to `closeAll`. -/
def become (s : Evicting) (sess : AgentSession) (st : GatewayState) : Evicting :=
  { s with
    gateway := st
    closing :=
      if sess ∈ st.actor.evicted ∧ sess ∉ s.gateway.actor.evicted then .load else s.closing }

/-- The actor goroutine takes no command while it runs `closeAll`. -/
def actorFree (s : Evicting) : Bool := s.closing = .idle || s.closing = .done

/-- One step of `closeAll`. -/
def closeAll (s : Evicting) : Option Evicting :=
  match s.closing with
  | .load => some { s with closing := if s.attached then .session else .conn }
  | .session => some { s with closed := true, closing := .conn }
  | .conn => some { s with closed := s.closed || s.raw, closing := .done }
  | .idle | .done => none

def step (g : Gateway) (sess : AgentSession) (s : Evicting) : EvictingStep → Option Evicting
  | .admitSession =>
    if s.handler = .fresh ∧ s.actorFree then
      let t := s.become sess (g.exec s.gateway (.admitSession sess))
      match (s.gateway.actor.admitSession g.env sess).1 with
      | .ok _ => some { t with handler := .admitted }
      | .error _ => some { t with handler := .gone, closed := true }
    else none
  | .attach =>
    if s.handler = .admitted then some { s with handler := .attached, attached := true } else none
  | .serve =>
    if s.handler = .attached then
      some { s.become sess (g.serveControl s.gateway sess).2 with handler := .serving }
    else none
  | .receive f => if ¬s.closed then some { s with received := s.received ++ [f] } else none
  | .handle written =>
    -- between the read and the handling nothing looks at the transport or the evicted flag
    match s.received with
    | [] => none
    | f :: rest =>
      if s.handler = .serving then
        some { s.become sess (g.handleControlMsg s.gateway sess written f).2 with received := rest }
      else none
  | .leave =>
    if s.handler = .admitted ∧ s.raw ∨ s.handler = .attached ∨ s.handler = .serving then
      some { s with handler := .leaving, closed := true }
    else none
  | .disconnected =>
    if s.handler = .leaving ∧ s.actorFree then
      some { s.become sess (g.exec s.gateway (.disconnected sess)) with handler := .gone }
    else none
  | .command c =>
    if c ≠ .admitSession sess ∧ c ≠ .disconnected sess ∧ s.actorFree then
      some (s.become sess (g.exec s.gateway c))
    else none
  | .closeAll => s.closeAll

/-- What is left of `closeAll` closes the transport. -/
def willClose (s : Evicting) : Bool :=
  match s.closing with
  | .load => s.attached || s.raw
  | .session => true
  | .conn => s.raw
  | .idle | .done => false

/-- An evicted session that is set up is closed, or a call of `closeAll` is about to close it. -/
def ClosedOrClosing (sess : AgentSession) (s : Evicting) : Prop :=
  sess ∈ s.gateway.actor.evicted → s.handler.setUp = true → s.closed = true ∨ s.willClose = true

/-- A frame of an evicted session is received only while `closeAll` is about to close it, and
handled only then or with the transport closed. -/
def ServesLive (sess : AgentSession) (s : Evicting) : EvictingStep → Prop
  | .receive _ => sess ∈ s.gateway.actor.evicted → s.handler.setUp = true → s.willClose = true
  | .handle _ => sess ∈ s.gateway.actor.evicted → s.closed = true ∨ s.willClose = true
  | _ => True

/-- Once the transport is closed, what is still handled was received before. -/
def ServesOut (g : Gateway) (sess : AgentSession) (s : Evicting) : Prop :=
  s.closed = true → ∀ ls t, Runs.Reaches (step g sess) s ls t →
    ∃ handled, s.received = handled ++ t.received ∧
      ls.countP EvictingStep.handles = handled.length

/-- Without a raw conn the transport is attached before `closeAll` looks for it. -/
def AttachedInTime (s : Evicting) : EvictingStep → Prop
  | .attach => s.raw = true ∨ s.closing = .idle ∨ s.closing = .load
  | _ => True

instance (sess : AgentSession) (s : Evicting) : Decidable (s.ClosedOrClosing sess) :=
  inferInstanceAs (Decidable (_ → _ → _))

instance (sess : AgentSession) (s : Evicting) (l : EvictingStep) :
    Decidable (s.ServesLive sess l) :=
  match l with
  | .receive _ => inferInstanceAs (Decidable (_ → _ → _))
  | .handle _ => inferInstanceAs (Decidable (_ → _))
  | .admitSession | .attach | .serve | .leave | .disconnected | .command _ | .closeAll =>
    .isTrue trivial

instance (s : Evicting) (l : EvictingStep) : Decidable (s.AttachedInTime l) :=
  match l with
  | .attach => inferInstanceAs (Decidable (_ ∨ _))
  | .admitSession | .receive _ | .handle _ | .serve | .leave | .disconnected | .command _
  | .closeAll =>
    .isTrue trivial

/-- Wherever `closeAll` has got, what it passed is closed. -/
structure Inv (sess : AgentSession) (s : Evicting) : Prop where
  called : sess ∈ s.gateway.actor.evicted → s.closing ≠ .idle
  attached : s.handler = .attached ∨ s.handler = .serving → s.attached = true
  ended : s.handler = .leaving ∨ s.handler = .gone → s.closed = true
  session : s.attached = true → s.raw = false → s.closing = .conn ∨ s.closing = .done →
    s.closed = true
  conn : s.raw = true → s.closing = .done → s.closed = true

variable {sess : AgentSession} {s t : Evicting}

theorem inv_start (sess : AgentSession) (store : AgentStore) (raw : Bool) :
    (start store raw).Inv sess where
  called := fun h => absurd h List.not_mem_nil
  attached := by rintro (h | h) <;> cases h
  ended := by rintro (h | h) <;> cases h
  session := fun h => absurd h Bool.false_ne_true
  conn := fun _ h => by cases h

theorem become_closing (s : Evicting) (sess : AgentSession) (st : GatewayState) :
    (s.become sess st).closing = .load ∨ (s.become sess st).closing = s.closing ∧
      (sess ∈ st.actor.evicted → sess ∈ s.gateway.actor.evicted) := by
  simp only [become]
  split
  · exact .inl rfl
  · rename_i h
    refine .inr ⟨rfl, fun hin => ?_⟩
    by_contra hout
    exact h ⟨hin, hout⟩

theorem Inv.become (h : s.Inv sess) (st : GatewayState) : (s.become sess st).Inv sess := by
  obtain hload | ⟨hsame, hold⟩ := become_closing s sess st
  · refine ⟨fun _ => ?_, h.attached, h.ended, fun _ _ hc => ?_, fun _ hc => ?_⟩
    · rw [hload]
      exact Closing.noConfusion
    · rw [hload] at hc
      obtain hc | hc := hc <;> cases hc
    · rw [hload] at hc
      cases hc
  · refine ⟨fun hin => ?_, h.attached, h.ended, fun ha hr hc => ?_, fun hr hc => ?_⟩
    · rw [hsame]
      exact h.called (hold hin)
    · rw [hsame] at hc
      exact h.session ha hr hc
    · rw [hsame] at hc
      exact h.conn hr hc

theorem Inv.closeAll (h : s.Inv sess) (hs : s.closeAll = some t) : t.Inv sess := by
  unfold Evicting.closeAll at hs
  cases hc : s.closing with
  | idle | done => simp only [hc, reduceCtorEq] at hs
  | load =>
    simp only [hc, Option.some.injEq] at hs
    subst t
    by_cases ha : s.attached = true
    · refine ⟨fun _ => ?_, h.attached, h.ended, fun _ _ hd => ?_, fun _ hd => ?_⟩ <;>
        simp only [ha, if_true, reduceCtorEq, not_false_eq_true, ne_eq, or_self] at *
    · refine ⟨fun _ => ?_, h.attached, h.ended, fun hat => absurd hat ha, fun _ hd => ?_⟩ <;>
        simp only [ha, Bool.false_eq_true, if_false, reduceCtorEq, not_false_eq_true, ne_eq] at *
  | session =>
    simp only [hc, Option.some.injEq] at hs
    subst t
    exact ⟨fun _ => Closing.noConfusion, h.attached, fun _ => rfl, fun _ _ _ => rfl, fun _ _ => rfl⟩
  | conn =>
    simp only [hc, Option.some.injEq] at hs
    subst t
    refine ⟨fun _ => Closing.noConfusion, h.attached, fun he => ?_, fun ha hr _ => ?_,
      fun hr _ => ?_⟩
    · simp only [h.ended he, Bool.true_or]
    · simp only [h.session ha hr (.inl hc), Bool.true_or]
    · rw [hr]
      exact Bool.or_true _

theorem Inv.step {g : Gateway} (h : s.Inv sess) (hC : s.AttachedInTime l)
    (hs : s.step g sess l = some t) : t.Inv sess := by
  cases l with
  | closeAll => exact h.closeAll hs
  | admitSession =>
    simp only [Evicting.step] at hs
    split at hs
    · rename_i hf
      have hb := h.become (g.exec s.gateway (.admitSession sess))
      split at hs <;> obtain rfl := Option.some.inj hs
      · refine ⟨hb.called, fun he => ?_, fun he => ?_, hb.session, hb.conn⟩
        · obtain he | he := he <;> cases he
        · obtain he | he := he <;> cases he
      · refine ⟨hb.called, fun he => ?_, fun _ => rfl, fun _ _ _ => rfl, fun _ _ => rfl⟩
        obtain he | he := he <;> cases he
    · cases hs
  | attach =>
    simp only [Evicting.step] at hs
    split at hs
    · obtain rfl := Option.some.inj hs
      refine ⟨h.called, fun _ => rfl, fun he => ?_, fun _ hr hc => ?_, h.conn⟩
      · obtain he | he := he <;> cases he
      · obtain hraw | hidle | hload := hC
        · exact absurd (hr.symm.trans hraw) Bool.false_ne_true
        · obtain hc | hc := hc <;> cases hidle.symm.trans hc
        · obtain hc | hc := hc <;> cases hload.symm.trans hc
    · cases hs
  | serve =>
    simp only [Evicting.step] at hs
    split at hs
    · rename_i ha
      obtain rfl := Option.some.inj hs
      have hb := h.become (g.serveControl s.gateway sess).2
      refine ⟨hb.called, fun _ => h.attached (.inl ha), fun he => ?_, hb.session, hb.conn⟩
      obtain he | he := he <;> cases he
    · cases hs
  | receive f =>
    simp only [Evicting.step] at hs
    split at hs
    · obtain rfl := Option.some.inj hs
      exact ⟨h.called, h.attached, h.ended, h.session, h.conn⟩
    · cases hs
  | handle written =>
    simp only [Evicting.step] at hs
    split at hs
    · cases hs
    · rename_i f rest _
      split at hs
      · obtain rfl := Option.some.inj hs
        have hb := h.become (g.handleControlMsg s.gateway sess written f).2
        exact ⟨hb.called, hb.attached, hb.ended, hb.session, hb.conn⟩
      · cases hs
  | leave =>
    simp only [Evicting.step] at hs
    split at hs
    · obtain rfl := Option.some.inj hs
      refine ⟨h.called, fun he => ?_, fun _ => rfl, fun _ _ _ => rfl, fun _ _ => rfl⟩
      obtain he | he := he <;> cases he
    · cases hs
  | disconnected =>
    simp only [Evicting.step] at hs
    split at hs
    · rename_i hl
      obtain rfl := Option.some.inj hs
      have hb := h.become (g.exec s.gateway (.disconnected sess))
      refine ⟨hb.called, fun he => ?_, fun _ => h.ended (.inl hl.1), hb.session, hb.conn⟩
      obtain he | he := he <;> cases he
    · cases hs
  | command c =>
    simp only [Evicting.step] at hs
    split at hs
    · obtain rfl := Option.some.inj hs
      exact h.become _
    · cases hs

theorem Inv.closedOrClosing (h : s.Inv sess) : s.ClosedOrClosing sess := by
  intro hev hset
  have hattached : s.handler ≠ .serving ∨ s.attached = true := by
    by_cases hv : s.handler = .serving
    · exact .inr (h.attached (.inr hv))
    · exact .inl hv
  have hended : s.handler ≠ .serving → s.closed = true := by
    intro hv
    cases hh : s.handler with
    | fresh | admitted | attached =>
      rw [hh] at hset
      cases hset
    | serving => exact absurd hh hv
    | leaving => exact h.ended (.inl hh)
    | gone => exact h.ended (.inr hh)
  obtain hv | ha := hattached
  · exact .inl (hended hv)
  · unfold willClose
    cases hc : s.closing with
    | idle => exact absurd hc (h.called hev)
    | load => exact .inr (by simp only [ha, Bool.true_or])
    | session => exact .inr rfl
    | conn =>
      cases hr : s.raw with
      | true => exact .inr rfl
      | false => exact .inl (h.session ha hr (.inl hc))
    | done =>
      cases hr : s.raw with
      | true => exact .inl (h.conn hr hc)
      | false => exact .inl (h.session ha hr (.inr hc))

theorem Inv.servesLive {g : Gateway} (h : s.Inv sess) (hs : s.step g sess l = some t) :
    s.ServesLive sess l := by
  cases l with
  | receive f =>
    intro hev hset
    simp only [Evicting.step] at hs
    split at hs
    · rename_i hopen
      obtain hclosed | hwill := h.closedOrClosing hev hset
      · exact absurd hclosed hopen
      · exact hwill
    · cases hs
  | handle written =>
    intro hev
    simp only [Evicting.step] at hs
    split at hs
    · cases hs
    · split at hs
      · rename_i hf
        exact h.closedOrClosing hev (hf ▸ rfl)
      · cases hs
  | admitSession | attach | serve | leave | disconnected | command | closeAll => trivial

theorem step_raw {g : Gateway} (hs : s.step g sess l = some t) : t.raw = s.raw := by
  cases l with
  | closeAll =>
    simp only [Evicting.step, Evicting.closeAll] at hs
    split at hs <;> cases hs <;> rfl
  | admitSession =>
    simp only [Evicting.step] at hs
    split at hs
    · split at hs <;> cases hs <;> rfl
    · cases hs
  | handle =>
    simp only [Evicting.step] at hs
    split at hs
    · cases hs
    · split at hs <;> cases hs
      rfl
  | attach | serve | receive | leave | disconnected | command =>
    simp only [Evicting.step] at hs
    split at hs <;> cases hs
    rfl

theorem step_closed {g : Gateway} (hc : s.closed = true) (hs : s.step g sess l = some t) :
    t.closed = true ∧
      (l.handles = false ∧ t.received = s.received ∨
        l.handles = true ∧ ∃ f, s.received = f :: t.received) := by
  cases l with
  | closeAll =>
    simp only [Evicting.step, Evicting.closeAll] at hs
    split at hs <;> cases hs
    · exact ⟨hc, .inl ⟨rfl, rfl⟩⟩
    · exact ⟨rfl, .inl ⟨rfl, rfl⟩⟩
    · exact ⟨by simp only [hc, Bool.true_or], .inl ⟨rfl, rfl⟩⟩
  | admitSession =>
    simp only [Evicting.step] at hs
    split at hs
    · split at hs <;> cases hs
      · exact ⟨hc, .inl ⟨rfl, rfl⟩⟩
      · exact ⟨rfl, .inl ⟨rfl, rfl⟩⟩
    · cases hs
  | receive f =>
    simp only [Evicting.step] at hs
    split at hs
    · exact absurd hc ‹_›
    · cases hs
  | handle written =>
    simp only [Evicting.step] at hs
    split at hs
    · cases hs
    · rename_i f rest hr
      split at hs <;> cases hs
      exact ⟨hc, .inr ⟨rfl, f, hr⟩⟩
  | leave =>
    simp only [Evicting.step] at hs
    split at hs <;> cases hs
    exact ⟨rfl, .inl ⟨rfl, rfl⟩⟩
  | attach | serve | disconnected | command =>
    simp only [Evicting.step] at hs
    split at hs <;> cases hs
    exact ⟨hc, .inl ⟨rfl, rfl⟩⟩

theorem servesOut (g : Gateway) (sess : AgentSession) (s : Evicting) : s.ServesOut g sess := by
  intro hc ls t hr
  induction hr with
  | nil => exact ⟨[], rfl, rfl⟩
  | @cons s l u ls t hs hr ih =>
    obtain ⟨hu, hsteps⟩ := step_closed hc hs
    obtain ⟨handled, hrec, hcount⟩ := ih hu
    obtain ⟨hl, hsame⟩ | ⟨hl, f, hf⟩ := hsteps
    · refine ⟨handled, hsame ▸ hrec, ?_⟩
      rw [List.countP_cons_of_neg (by rw [hl]; exact Bool.false_ne_true), hcount]
    · refine ⟨f :: handled, by rw [hf, hrec]; rfl, ?_⟩
      rw [List.countP_cons_of_pos hl, hcount]
      rfl

end Evicting

theorem raw_evicted_closed (g : Gateway) (sess : AgentSession) (store : AgentStore)
    (steps : List EvictingStep) :
    Runs.Always (Evicting.step g sess) (Evicting.ClosedOrClosing sess)
      (Evicting.start store true) steps := by
  have hstep (s : Evicting) (l : EvictingStep) (t : Evicting) (hs : s.Inv sess ∧ s.raw = true)
      (ht : s.step g sess l = some t) : t.Inv sess ∧ t.raw = true := by
    refine ⟨hs.1.step ?_ ht, (Evicting.step_raw ht).trans hs.2⟩
    cases l with
    | attach => exact .inl hs.2
    | admitSession | serve | receive | handle | leave | disconnected | command | closeAll => trivial
  exact Runs.always_of_invariant (C := fun _ _ => True) (fun s l t hs _ ht => hstep s l t hs ht)
    (fun _ hs => hs.1.closedOrClosing) ⟨Evicting.inv_start sess store true, rfl⟩
    (Runs.along_of_forall (fun _ _ => trivial) _)

/-- Along every run of one session's set-up, over either transport, with any commands of the others:
if the transport is attached before `closeAll` looks for it, an evicted session that is set up is
closed or about to be, a frame of it is received only until it is closed, and what is handled after
that was received before. -/
theorem evicted_closed (g : Gateway) (sess : AgentSession) (store : AgentStore) (raw : Bool)
    (steps : List EvictingStep)
    (h : Runs.Along (Evicting.step g sess) Evicting.AttachedInTime (Evicting.start store raw)
      steps) :
    Runs.Always (Evicting.step g sess) (Evicting.ClosedOrClosing sess)
        (Evicting.start store raw) steps ∧
      Runs.Along (Evicting.step g sess) (Evicting.ServesLive sess) (Evicting.start store raw)
        steps ∧
      Runs.Always (Evicting.step g sess) (Evicting.ServesOut g sess) (Evicting.start store raw)
        steps :=
  ⟨Runs.always_of_invariant (fun _ _ _ hi hC hs => hi.step hC hs) (fun _ hi => hi.closedOrClosing)
      (Evicting.inv_start sess store raw) h,
    Runs.along_of_invariant (fun _ _ _ hi hC hs => ⟨hi.step hC hs, hi.servesLive hs⟩)
      (Evicting.inv_start sess store raw) h,
    Runs.always_of_invariant (fun _ _ _ _ _ _ => trivial) (fun s _ => Evicting.servesOut g sess s)
      trivial h⟩

/-- A session whose transport is attached before a revocation is closed by it; the frame it had
received is handled after the close. -/
theorem evicted_closed_in_time :
    let sess := AgentSession.plain 1 "a"
    let steps : List EvictingStep := [.admitSession, .attach, .command (.revokeAgent "a" true),
      .closeAll, .serve, .receive (.configAck ⟨1, ""⟩), .closeAll, .closeAll, .handle true]
    Runs.Always (Evicting.step idleGateway sess) (Evicting.ClosedOrClosing sess)
        (Evicting.start (oneAgent []) false) steps ∧
      Runs.Along (Evicting.step idleGateway sess) (Evicting.ServesLive sess)
        (Evicting.start (oneAgent []) false) steps ∧
      Runs.Always (Evicting.step idleGateway sess) (Evicting.ServesOut idleGateway sess)
        (Evicting.start (oneAgent []) false) steps :=
  evicted_closed _ _ _ _ _ (by decide)

/-- A QUIC session is revoked between its admission and `setSession`: `closeAll` finds no transport
and no conn, and the session is then served. -/
theorem evicted_session_served :
    let sess := AgentSession.plain 1 "a"
    let steps : List EvictingStep := [.admitSession, .command (.revokeAgent "a" true), .closeAll,
      .closeAll, .attach, .serve, .receive (.configAck ⟨1, ""⟩), .handle true]
    ¬Runs.Always (Evicting.step idleGateway sess) (Evicting.ClosedOrClosing sess)
        (Evicting.start (oneAgent []) false) steps ∧
      ¬Runs.Along (Evicting.step idleGateway sess) (Evicting.ServesLive sess)
        (Evicting.start (oneAgent []) false) steps := by
  decide

end ProxyForward

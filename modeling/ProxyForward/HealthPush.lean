import Mathlib.Logic.Function.Basic
import ProxyForward.Runs

namespace ProxyForward
set_option autoImplicit true

/-- Where `probeTunnels` is. `todo` are the tunnels of the round still to probe. -/
inductive ProberPhase
  | resting
  | probing (todo : List String)
  | changed (id : String) (up : Bool) (todo : List String)
  | stored (id : String) (up : Bool) (todo : List String)
  | notifying (id : String) (up : Bool) (todo : List String) (sink : Option Nat)
  deriving DecidableEq, Repr

/-- Where the start of a session is: no session, its loop over the tunnels, or past it. -/
inductive StartPhase
  | disconnected
  | pushing (todo : List String)
  | loaded (id : String) (up : Bool) (todo : List String)
  | serving
  deriving DecidableEq, Repr

/-- A `health` frame. -/
structure Health where
  tunnelID : String
  localUp : Bool
  deriving DecidableEq, Repr

/-- An agent's health prober, its session `session`, and what the gateway holds for this session.
`inFlight` are the frames written and not yet handled, oldest first. -/
structure HealthRun where
  localUp : String → Option Bool
  healthSink : Option Nat
  prober : ProberPhase
  session : Nat
  phase : StartPhase
  inFlight : List Health
  health : String → Option Bool

inductive HealthStep
  | startRound
  | probe (up : Bool)
  | endRound
  | store
  | loadSink
  | notify
  | connect
  | load
  | push
  | startDone
  | deliver
  | disconnect
  deriving DecidableEq, Repr

namespace HealthRun

def start : HealthRun :=
  ⟨fun _ => none, none, .resting, 0, .disconnected, [], fun _ => none⟩

/-- `pushHealth` on a session; what is written to one that is gone is lost. -/
def pushHealth (s : HealthRun) (session : Nat) (id : String) (up : Bool) : HealthRun :=
  if session = s.session ∧ s.phase ≠ .disconnected then
    { s with inFlight := s.inFlight ++ [⟨id, up⟩] }
  else s

def proberStep (s : HealthRun) : HealthStep → ProberPhase → List String → Option HealthRun
  | .startRound, .resting, tunnels => some { s with prober := .probing tunnels }
  | .probe up, .probing (id :: todo), _ =>
    if s.localUp id = some up then some { s with prober := .probing todo }
    else some { s with prober := .changed id up todo }
  | .endRound, .probing [], _ => some { s with prober := .resting }
  | .store, .changed id up todo, _ => some { s with
      localUp := Function.update s.localUp id (some up)
      prober := .stored id up todo }
  | .loadSink, .stored id up todo, _ =>
    some { s with prober := .notifying id up todo s.healthSink }
  | .notify, .notifying id up todo sink, _ =>
    match sink with
    | some session => some { s.pushHealth session id up with prober := .probing todo }
    | none => some { s with prober := .probing todo }
  | _, _, _ => none

def startStep (s : HealthRun) : HealthStep → StartPhase → List String → Option HealthRun
  | .connect, .disconnected, tunnels => some { s with
      healthSink := some (s.session + 1)
      session := s.session + 1
      phase := .pushing tunnels
      inFlight := []
      health := fun _ => none }
  | .load, .pushing (id :: todo), _ =>
    match s.localUp id with
    | some up => some { s with phase := .loaded id up todo }
    | none => some { s with phase := .pushing todo }
  | .push, .loaded id up todo, _ =>
    some { s.pushHealth s.session id up with phase := .pushing todo }
  | .startDone, .pushing [], _ => some { s with phase := .serving }
  | .disconnect, .pushing _, _ | .disconnect, .loaded .., _ | .disconnect, .serving, _ =>
    some { s with healthSink := none, phase := .disconnected }
  | _, _, _ => none

/-- The gateway's `handleControlMsg` on the oldest frame. -/
def deliverStep (s : HealthRun) : Option HealthRun :=
  match s.inFlight with
  | [] => none
  | h :: rest => some { s with
      inFlight := rest
      health := Function.update s.health h.tunnelID (some h.localUp) }

def step (tunnels : List String) (s : HealthRun) (l : HealthStep) : Option HealthRun :=
  match l with
  | .startRound | .probe _ | .endRound | .store | .loadSink | .notify =>
    s.proberStep l s.prober tunnels
  | .connect | .load | .push | .startDone | .disconnect => s.startStep l s.phase tunnels
  | .deliver => s.deliverStep

/-- The prober is between two probes. -/
def ProberIdle (s : HealthRun) : Prop :=
  match s.prober with
  | .resting | .probing _ => True
  | .changed .. | .stored .. | .notifying .. => False

/-- A session is up and nothing is on its way. -/
def Settled (s : HealthRun) : Prop := s.ProberIdle ∧ s.phase = .serving ∧ s.inFlight = []

/-- In a settled state the gateway knows the agent's last observed state of every enabled tunnel. -/
def Agrees (tunnels : List String) (s : HealthRun) : Prop :=
  s.Settled → ∀ id ∈ tunnels, ∀ up, s.localUp id = some up → s.health id = some up

/-- The tunnel the prober is about to push to a session. Between the comparison and the load of the
sink this is to whichever session is up. -/
def ProberPhase.target (n : Nat) : ProberPhase → Option String
  | .changed id _ _ | .stored id _ _ => some id
  | .notifying id _ _ sink => if sink = some n then some id else none
  | .resting | .probing _ => none

def ProberPushes (s : HealthRun) (id : String) : Prop := ProberPhase.target s.session
    s.prober = some id

instance (s : HealthRun) (id : String) :
    Decidable (s.ProberPushes id) := inferInstanceAs (Decidable (_ = _))

def StartPhase.pending : StartPhase → Option (String × Bool)
  | .loaded id up _ => some (id, up)
  | .disconnected | .pushing _ | .serving => none

/-- A session start pushes a state that is still the agent's last one, or that the prober is about
to follow by the last one. -/
def PushesLast (s : HealthRun) (l : HealthStep) : Prop :=
  l = .push → ∀ p ∈ StartPhase.pending s.phase, s.localUp p.1 = some p.2 ∨ s.ProberPushes p.1

instance (s : HealthRun) (l : HealthStep) :
    Decidable (s.PushesLast l) := inferInstanceAs (Decidable (_ → _))

/-- The last word on a tunnel that the current session was sent. -/
def sent (health : String → Option Bool) (inFlight : List Health) (id : String) : Option Bool :=
  inFlight.foldl (fun v h => if h.tunnelID = id then some h.localUp else v) (health id)

/-- The session start has yet to read or to push this state of the tunnel. -/
def StartPushes (s : HealthRun) (id : String) (up : Bool) : Prop :=
  match s.phase with
  | .pushing todo => id ∈ todo
  | .loaded id' up' todo => (id' = id ∧ up' = up) ∨ id ∈ todo
  | .disconnected | .serving => False

/-- The state the prober has stored and not yet pushed. -/
def pending : ProberPhase → Option (String × Bool)
  | .stored id up _ | .notifying id up _ _ => some (id, up)
  | .resting | .probing _ | .changed .. => none

/-- While a session is up, every known state has been sent last or is still to be sent. -/
structure Inv (tunnels : List String) (s : HealthRun) : Prop where
  sink : s.phase ≠ .disconnected → s.healthSink = some s.session
  last : ∀ p ∈ pending s.prober, s.localUp p.1 = some p.2
  covered : s.phase ≠ .disconnected → ∀ id ∈ tunnels, ∀ up, s.localUp id = some up →
    sent s.health s.inFlight id = some up ∨ s.StartPushes id up ∨ s.ProberPushes id

variable {tunnels : List String} {s t : HealthRun} {id : String} {n : Nat}

theorem sent_append (health : String → Option Bool) (inFlight : List Health) (h : Health)
    (id : String) :
    sent health (inFlight ++ [h]) id =
      if h.tunnelID = id then some h.localUp else sent health inFlight id := by
  simp only [sent, List.foldl_append, List.foldl_cons, List.foldl_nil]

theorem sent_deliver (health : String → Option Bool) (h : Health) (rest : List Health)
    (id : String) :
    sent (Function.update health h.tunnelID (some h.localUp)) rest id = sent health
      (h :: rest) id := by
  simp only [sent, List.foldl_cons, Function.update_apply, eq_comm (a := id)]

theorem not_proberPushes (h : s.ProberIdle) (id : String) : ¬s.ProberPushes id := by
  unfold ProberIdle at h
  unfold ProberPushes
  split at h
  · rename_i hp
    simp only [hp, ProberPhase.target, reduceCtorEq, not_false_eq_true]
  · rename_i hp
    simp only [hp, ProberPhase.target, reduceCtorEq, not_false_eq_true]
  all_goals exact h.elim

theorem agrees_of_inv (h : s.Inv tunnels) : s.Agrees tunnels := by
  rintro ⟨hidle, hphase, hempty⟩ id hid up hup
  obtain hsent | hstart | hprober := h.covered (hphase ▸ StartPhase.noConfusion) id hid up hup
  · rwa [hempty] at hsent
  · simp only [StartPushes, hphase] at hstart
  · exact absurd hprober (not_proberPushes hidle id)

theorem Inv.moveProber (h : s.Inv tunnels) (hs : s.ProberIdle) (hp : pending p = none) :
    ({ s with prober := p } : HealthRun).Inv tunnels where
  sink := h.sink
  last q hq := absurd (hp ▸ hq) (Option.not_mem_none q)
  covered hlive id hid up hup := by
    obtain hsent | hstart | hprober := h.covered hlive id hid up hup
    · exact .inl hsent
    · exact .inr (.inl hstart)
    · exact absurd hprober (not_proberPushes hs id)

theorem Inv.store (h : s.Inv tunnels) (hp : s.prober = .changed id up todo) :
    ({ s with localUp := Function.update s.localUp id (some up)
              prober := .stored id up todo } : HealthRun).Inv tunnels where
  sink := h.sink
  last q hq := by
    obtain rfl := Option.some.inj hq
    exact Function.update_self _ _ _
  covered hlive id' hid up' hup := by
    by_cases he : id = id'
    · exact .inr (.inr (congrArg some he))
    · simp only [Function.update_of_ne (Ne.symm he)] at hup
      obtain hsent | hstart | hprober := h.covered hlive id' hid up' hup
      · exact .inl hsent
      · exact .inr (.inl hstart)
      · simp only [ProberPushes, hp, ProberPhase.target, Option.some.injEq] at hprober
        exact absurd hprober he

theorem Inv.loadSink (h : s.Inv tunnels) (hp : s.prober = .stored id up todo) :
    ({ s with prober := .notifying id up todo s.healthSink } : HealthRun).Inv tunnels where
  sink := h.sink
  last q hq := h.last q (by rw [hp]; exact hq)
  covered hlive id' hid up' hup := by
    obtain hsent | hstart | hprober := h.covered hlive id' hid up' hup
    · exact .inl hsent
    · exact .inr (.inl hstart)
    · simp only [ProberPushes, hp, ProberPhase.target] at hprober
      exact .inr (.inr ((if_pos (h.sink hlive)).trans hprober))

theorem sent_pushHealth (hlive : s.phase ≠ .disconnected) (id : String) (up : Bool) (id' : String) :
    sent (s.pushHealth s.session id up).health (s.pushHealth s.session id up).inFlight id' =
      if id = id' then some up else sent s.health s.inFlight id' := by
  rw [pushHealth, if_pos ⟨rfl, hlive⟩]
  exact sent_append _ _ _ _

theorem pushHealth_gone (hne : n ≠ s.session ∨ s.phase = .disconnected) (id : String) (up : Bool) :
    s.pushHealth n id up = s :=
  if_neg fun h => hne.elim (fun hne => hne h.1) h.2

theorem pushHealth_frame (s : HealthRun) (n : Nat) (id : String) (up : Bool) :
    (s.pushHealth n id up).localUp = s.localUp ∧ (s.pushHealth n id up).phase = s.phase ∧
      (s.pushHealth n id up).session = s.session ∧
      (s.pushHealth n id up).healthSink = s.healthSink ∧
      (s.pushHealth n id up).prober = s.prober := by
  unfold pushHealth
  split <;> exact ⟨rfl, rfl, rfl, rfl, rfl⟩

theorem Inv.notify (h : s.Inv tunnels) (hp : s.prober = .notifying id up todo (some n)) :
    ({ s.pushHealth n id up with prober := .probing todo } : HealthRun).Inv tunnels := by
  obtain ⟨hlocal, hphase, hsession, hsink, -⟩ := s.pushHealth_frame n id up
  have hlast := h.last (id, up) (by rw [hp]; rfl)
  refine ⟨fun hlive => ?_, fun q hq => absurd hq (Option.not_mem_none q),
    fun hlive id' hid up' hup => ?_⟩
  · simp only [hphase] at hlive
    simp only [hsink, hsession]
    exact h.sink hlive
  · simp only [hphase, hlocal] at hlive hup
    have hrest : s.ProberPushes id' → id = id' ∧ n = s.session := by
      intro hprober
      simp only [ProberPushes, hp, ProberPhase.target, Option.some.injEq] at hprober
      split at hprober
      · rename_i hn
        exact ⟨Option.some.inj hprober, hn⟩
      · cases hprober
    have hkeep : s.StartPushes id' up' →
      StartPushes { s.pushHealth n id up with prober := .probing todo } id' up' := by
      simp only [StartPushes, hphase, imp_self]
    by_cases hn : n = s.session
    · subst hn
      rw [sent_pushHealth hlive]
      by_cases he : id = id'
      · subst he
        exact .inl ((if_pos rfl).trans (hlast.symm.trans hup))
      · rw [if_neg he]
        obtain hsent | hstart | hprober := h.covered hlive id' hid up' hup
        · exact .inl hsent
        · exact .inr (.inl (hkeep hstart))
        · exact absurd (hrest hprober).1 he
    · rw [pushHealth_gone (.inl hn)] at hkeep ⊢
      obtain hsent | hstart | hprober := h.covered hlive id' hid up' hup
      · exact .inl hsent
      · exact .inr (.inl (hkeep hstart))
      · exact absurd (hrest hprober).2 hn

theorem Inv.notifyNone (h : s.Inv tunnels) (hp : s.prober = .notifying id up todo none) :
    ({ s with prober := .probing todo } : HealthRun).Inv tunnels where
  sink := h.sink
  last q hq := absurd hq (Option.not_mem_none q)
  covered hlive id' hid up' hup := by
    obtain hsent | hstart | hprober := h.covered hlive id' hid up' hup
    · exact .inl hsent
    · exact .inr (.inl hstart)
    · simp only [ProberPushes, hp, ProberPhase.target, reduceCtorEq, if_false] at hprober

theorem Inv.proberStep (h : s.Inv tunnels) (hs : s.proberStep l s.prober tunnels = some t) :
    t.Inv tunnels := by
  generalize hp : s.prober = p at hs
  unfold HealthRun.proberStep at hs
  split at hs
  · cases hs
    exact h.moveProber (by rw [ProberIdle, hp]; trivial) rfl
  · have hidle : s.ProberIdle := by
      rw [ProberIdle, hp]
      trivial
    split at hs
    · cases hs
      exact h.moveProber hidle rfl
    · cases hs
      exact h.moveProber hidle rfl
  · cases hs
    exact h.moveProber (by rw [ProberIdle, hp]; trivial) rfl
  · cases hs
    exact h.store hp
  · cases hs
    exact h.loadSink hp
  · split at hs
    · cases hs
      exact h.notify hp
    · cases hs
      exact h.notifyNone hp
  · cases hs

theorem Inv.connect (h : s.Inv tunnels) :
    ({ s with
        healthSink := some (s.session + 1)
        session := s.session + 1
        phase := .pushing tunnels
        inFlight := []
        health := fun _ => none } : HealthRun).Inv tunnels where
  sink _ := rfl
  last := h.last
  covered _ _ hid _ _ := .inr (.inl hid)

theorem Inv.load (h : s.Inv tunnels) (hp : s.phase = .pushing (id :: todo))
    (hup : s.localUp id = some up) :
    ({ s with phase := .loaded id up todo } : HealthRun).Inv tunnels := by
  have hlive : s.phase ≠ .disconnected := hp ▸ StartPhase.noConfusion
  refine ⟨fun _ => h.sink hlive, h.last, fun _ id' hid up' hup' => ?_⟩
  obtain hsent | hstart | hprober := h.covered hlive id' hid up' hup'
  · exact .inl hsent
  · refine .inr (.inl ?_)
    simp only [StartPushes, hp, List.mem_cons] at hstart ⊢
    obtain rfl | hmem := hstart
    · exact .inl ⟨rfl, Option.some.inj (hup.symm.trans hup')⟩
    · exact .inr hmem
  · exact .inr (.inr hprober)

theorem Inv.loadUnknown (h : s.Inv tunnels) (hp : s.phase = .pushing (id :: todo))
    (hup : s.localUp id = none) : ({ s with phase := .pushing todo } : HealthRun).Inv tunnels := by
  have hlive : s.phase ≠ .disconnected := hp ▸ StartPhase.noConfusion
  refine ⟨fun _ => h.sink hlive, h.last, fun _ id' hid up' hup' => ?_⟩
  obtain hsent | hstart | hprober := h.covered hlive id' hid up' hup'
  · exact .inl hsent
  · refine .inr (.inl ?_)
    simp only [StartPushes, hp, List.mem_cons] at hstart ⊢
    obtain rfl | hmem := hstart
    · cases hup.symm.trans hup'
    · exact hmem
  · exact .inr (.inr hprober)

theorem Inv.push (h : s.Inv tunnels) (hp : s.phase = .loaded id up todo)
    (hC : s.PushesLast .push) :
    ({ s.pushHealth s.session id up with phase := .pushing todo } : HealthRun).Inv tunnels := by
  obtain ⟨hlocal, -, hsession, hsink, hprober⟩ := s.pushHealth_frame s.session id up
  have hlive : s.phase ≠ .disconnected := hp ▸ StartPhase.noConfusion
  have hC := hC rfl (id, up) (by rw [hp]; rfl)
  refine ⟨fun _ => ?_, fun q hq => ?_, fun _ id' hid up' hup => ?_⟩
  · simp only [hsink, hsession]
    exact h.sink hlive
  · simp only [hprober, hlocal] at hq ⊢
    exact h.last q hq
  · simp only [hlocal] at hup
    have hkeep : s.ProberPushes id' →
        ProberPushes { s.pushHealth s.session id up with phase := .pushing todo } id' := by
      simp only [ProberPushes, hprober, hsession, imp_self]
    rw [sent_pushHealth hlive]
    by_cases he : id = id'
    · subst he
      obtain hfresh | hpushes := hC
      · exact .inl ((if_pos rfl).trans (hfresh.symm.trans hup))
      · exact .inr (.inr (hkeep hpushes))
    · rw [if_neg he]
      obtain hsent | hstart | hpushes := h.covered hlive id' hid up' hup
      · exact .inl hsent
      · simp only [StartPushes, hp, he, false_and, false_or] at hstart
        exact .inr (.inl hstart)
      · exact .inr (.inr (hkeep hpushes))

theorem Inv.startDone (h : s.Inv tunnels) (hp : s.phase = .pushing []) :
    ({ s with phase := .serving } : HealthRun).Inv tunnels := by
  have hlive : s.phase ≠ .disconnected := hp ▸ StartPhase.noConfusion
  refine ⟨fun _ => h.sink hlive, h.last, fun _ id hid up hup => ?_⟩
  obtain hsent | hstart | hprober := h.covered hlive id hid up hup
  · exact .inl hsent
  · simp only [StartPushes, hp, List.not_mem_nil] at hstart
  · exact .inr (.inr hprober)

theorem Inv.disconnect (h : s.Inv tunnels) :
    ({ s with healthSink := none, phase := .disconnected } : HealthRun).Inv tunnels where
  sink hlive := absurd rfl hlive
  last := h.last
  covered hlive := absurd rfl hlive

theorem Inv.startStep (h : s.Inv tunnels) (hs : s.startStep l s.phase tunnels = some t)
    (hC : s.PushesLast l) : t.Inv tunnels := by
  generalize hp : s.phase = p at hs
  unfold HealthRun.startStep at hs
  split at hs
  · cases hs
    exact h.connect
  · split at hs
    · rename_i hup
      cases hs
      exact h.load hp hup
    · rename_i hup
      cases hs
      exact h.loadUnknown hp hup
  · cases hs
    exact h.push hp hC
  · cases hs
    exact h.startDone hp
  · cases hs
    exact h.disconnect
  · cases hs
    exact h.disconnect
  · cases hs
    exact h.disconnect
  · cases hs

theorem Inv.deliver (h : s.Inv tunnels) (hs : s.deliverStep = some t) : t.Inv tunnels := by
  unfold deliverStep at hs
  split at hs
  · cases hs
  · rename_i f rest hf
    cases hs
    refine ⟨h.sink, h.last, fun hlive id hid up hup => ?_⟩
    obtain hsent | hrest := h.covered hlive id hid up hup
    · rw [hf] at hsent
      exact .inl ((sent_deliver _ _ _ _).trans hsent)
    · exact .inr hrest

theorem Inv.step (h : s.Inv tunnels) (hC : s.PushesLast l) (hs : s.step tunnels l = some t) :
    t.Inv tunnels := by
  cases l with
  | startRound | probe | endRound | store | loadSink | notify => exact h.proberStep hs
  | connect | load | push | startDone | disconnect => exact h.startStep hs hC
  | deliver => exact h.deliver hs

/-- If every session start pushes what is still the last state, or what the prober is about to
correct, then the gateway agrees with the agent in every settled state of the run. -/
theorem health_agrees (tunnels : List String) (ls : List HealthStep)
    (hC : Runs.Along (step tunnels) PushesLast start ls) :
    Runs.Always (step tunnels) (Agrees tunnels) start ls := by
  refine Runs.always_of_invariant (I := Inv tunnels) (fun s l t h hC hs => h.step hC hs)
    (fun s h => agrees_of_inv h)
    ⟨fun h => absurd rfl h, fun q hq => absurd hq (Option.not_mem_none q),
      fun h => absurd rfl h⟩ hC

/-- A flip that the prober pushes after the start's push of the old state. -/
theorem health_agrees_late_flip : Runs.Always (step ["t"]) (Agrees ["t"]) start
    [.startRound, .probe true, .store, .loadSink, .notify, .endRound, .connect, .startRound, .load,
      .probe false, .store, .loadSink, .push, .notify, .startDone, .deliver, .deliver] :=
  health_agrees ["t"] _ (by decide)

/-- A flip that the prober pushes between the start's read of the old state and its push. -/
theorem health_disagrees :
    ¬∀ tunnels ls t, Runs.Reaches (step tunnels) start ls t → t.Agrees tunnels := by
  intro h
  let ls : List HealthStep := [.startRound, .probe true, .store, .loadSink, .notify, .endRound,
    .connect, .startRound, .load, .probe false, .store, .loadSink, .notify, .endRound, .push,
    .startDone, .deliver, .deliver]
  obtain ⟨t, ht⟩ : ∃ t, Runs.final (step ["t"]) start ls = some t :=
    Option.isSome_iff_exists.1 (by decide)
  have hfacts : ∀ t ∈ Runs.final (step ["t"]) start ls, t.prober = .resting ∧ t.phase = .serving ∧
      t.inFlight = [] ∧ t.localUp "t" = some false ∧ t.health "t" = some true := by
    decide
  obtain ⟨hprober, hphase, hempty, hlocal, hhealth⟩ := hfacts t ht
  have hsettled : t.Settled := ⟨by rw [ProberIdle, hprober]; trivial, hphase, hempty⟩
  have hagree := h ["t"] ls t (Runs.reaches_of_final ht) hsettled "t" List.mem_cons_self
    false hlocal
  cases hhealth.symm.trans hagree

end HealthRun

end ProxyForward

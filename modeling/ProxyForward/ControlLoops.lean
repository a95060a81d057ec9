import ProxyForward.Ownership
import ProxyForward.Runs

namespace ProxyForward
set_option autoImplicit true

/-- Where the control loop of a session stands in handling a proposal: each constructor is one
separately locked step of `adoptProposal` further. -/
inductive LoopPhase where
  | idle
  | taken (proposed : List TunnelSpec)
  | read (proposed stored : List TunnelSpec) (storedGen : Nat)
  | checked (proposed : List TunnelSpec) (storedGen : Nat)
  | reconciled (resolved : List TunnelSpec) (storedGen : Nat)
  | adopted (resolved : List TunnelSpec) (gen : Nat)
  deriving DecidableEq, Repr

/-- The generation that the basis check is made against. -/
def LoopPhase.basis? : LoopPhase → Option Nat
  | .read _ _ gen | .checked _ gen | .reconciled _ gen => some gen
  | _ => none

/-- What a loop is about to adopt. -/
def LoopPhase.reconciled? : LoopPhase → Option (List TunnelSpec × Nat)
  | .reconciled resolved gen => some (resolved, gen)
  | _ => none

/-- The gateway with the control loops of all sessions, those of superseded and evicted ones
included. `seen` holds the sessions admitted so far and `sent` the frames written. -/
structure ControlLoops where
  gateway : GatewayState
  seen : List AgentSession
  phase : AgentSession → LoopPhase
  sent : List (AgentSession × PushConfig)

def ControlLoops.start (store : AgentStore) : ControlLoops :=
  ⟨GatewayState.start store, [], fun _ => .idle, []⟩

inductive LoopStep where
  | command (c : Command)
  | take (sess : AgentSession) (proposed : List TunnelSpec)
  | read (sess : AgentSession)
  | check (sess : AgentSession)
  | reconcile (sess : AgentSession)
  | adoptConfig (sess : AgentSession) (written : Bool)
  | push (sess : AgentSession)
  | ack (sess : AgentSession) (ack : ConfigAck)
  deriving DecidableEq, Repr

def Command.newcomer? : Command → Option AgentSession
  | .admitSession sess => some sess
  | _ => none

namespace ControlLoops

def enter (s : ControlLoops) (sess : AgentSession) (p : LoopPhase) : ControlLoops :=
  { s with phase := Function.update s.phase sess p }

def write (s : ControlLoops) (sess : AgentSession) (push : PushConfig) : ControlLoops :=
  { s with sent := s.sent ++ [(sess, push)] }

end ControlLoops

/-- One step of any loop or of the actor, in any order. A session is admitted once, and its loop
runs from then on. -/
def Gateway.loopStep (g : Gateway) (s : ControlLoops) : LoopStep → Option ControlLoops
  | .command c =>
    if c.newcomer?.any fun sess => sess ∈ s.seen then none
    else some { s with
      gateway := g.exec s.gateway c
      seen := (g.admission s.gateway c).map (·.1) ++ s.seen }
  | .take sess proposed =>
    match s.phase sess with
    | .idle =>
      if sess ∉ s.seen then none
      else if sess.enrolled && sess.has capGatewayConfig then some (s.enter sess (.taken proposed))
      else some s
    | _ => none
  | .read sess =>
    match s.phase sess with
    | .taken proposed =>
      match s.gateway.agents.desiredConfig sess.agentID with
      | none => some (s.enter sess .idle)
      | some (stored, storedGen) => some (s.enter sess (.read proposed stored storedGen))
    | _ => none
  | .check sess =>
    match s.phase sess with
    | .read proposed stored storedGen =>
      if Gateway.staleBasis s.gateway sess storedGen then
        some ((s.enter sess .idle).write sess (g.pushOf storedGen stored))
      else some (s.enter sess (.checked proposed storedGen))
    | _ => none
  | .reconcile sess =>
    match s.phase sess with
    | .checked proposed storedGen =>
      let valid := g.validSpecs sess.scope proposed
      let (outcomes, actor) := s.gateway.actor.reconcile g sess valid
      some ({ s with gateway := { s.gateway with actor := actor } }.enter sess
        (.reconciled (Gateway.resolvePorts valid outcomes) storedGen))
    | _ => none
  | .adoptConfig sess written =>
    match s.phase sess with
    | .reconciled resolved _ =>
      match s.gateway.agents.adoptConfig sess.agentID resolved written with
      | (none, store) =>
        some ({ s with gateway := { s.gateway with agents := store } }.enter sess .idle)
      | (some gen, store) =>
        some ({ s with gateway := { s.gateway with agents := store } }.enter sess
          (.adopted resolved gen))
    | _ => none
  | .push sess =>
    match s.phase sess with
    | .adopted resolved gen =>
      some (({ s with gateway := s.gateway.storeGen sess gen }.enter sess .idle).write sess
        (g.pushOf gen resolved))
    | _ => none
  | .ack sess ack =>
    match s.phase sess with
    | .idle => if sess ∉ s.seen then none
      else some { s with gateway := Gateway.handleAck s.gateway sess ack }
    | _ => none

namespace ControlLoops

/-- An adoption that takes effect is made by the live session, over the generation that its basis
check was made against. -/
def AdoptsOwnBasis (s : ControlLoops) : LoopStep → Prop
  | .adoptConfig sess written =>
    ∀ adoption ∈ (s.phase sess).reconciled?,
    ∀ current ∈ s.gateway.agents.desiredConfig sess.agentID,
      current.2 = adoption.2 ∧ s.gateway.actor.live sess ∧
      (s.gateway.agents.adoptConfig sess.agentID adoption.1 written).2.desiredConfig sess.agentID =
        some (adoption.1, adoption.2 + 1)
  | _ => True

instance (s : ControlLoops) (l : LoopStep) : Decidable (s.AdoptsOwnBasis l) := by
  cases l <;> unfold AdoptsOwnBasis <;> infer_instance

/-- A loop reconciles only while its session is live, and no command evicts a session between its
reconcile and its adoption. -/
def Uninterrupted (g : Gateway) (s : ControlLoops) : LoopStep → Prop
  | .reconcile sess => s.gateway.actor.live sess
  | .command c => ∀ sess, (s.phase sess).reconciled?.isSome → (g.exec s.gateway c).actor.live sess
  | _ => True

/-- While a session is live nobody else adopts for its agent, so what it read still holds. -/
structure Inv (s : ControlLoops) : Prop where
  actor : s.gateway.actor.Inv
  seen : ∀ sess, s.phase sess ≠ .idle → sess ∈ s.seen
  basis : ∀ sess gen, (s.phase sess).basis? = some gen → s.gateway.actor.live sess →
    ∃ stored, s.gateway.agents.desiredConfig sess.agentID = some (stored, gen)
  held : ∀ sess, (s.phase sess).reconciled?.isSome → s.gateway.actor.live sess

theorem start_inv (store : AgentStore) : Inv (ControlLoops.start store) :=
  ⟨Actor.newActor_inv, fun _ h => absurd rfl h, nofun, nofun⟩

theorem phase_enter (s : ControlLoops) (sess x : AgentSession) (p : LoopPhase) :
    (s.enter sess p).phase x = if x = sess then p else s.phase x := by
  simp only [enter, Function.update_apply]

theorem Inv.enter {s : ControlLoops} {sess : AgentSession} {p : LoopPhase} (h : s.Inv)
    (hseen : sess ∈ s.seen)
    (hb : ∀ gen, p.basis? = some gen → s.gateway.actor.live sess →
      ∃ stored, s.gateway.agents.desiredConfig sess.agentID = some (stored, gen))
    (hh : p.reconciled?.isSome → s.gateway.actor.live sess) : (s.enter sess p).Inv := by
  constructor
  · exact h.actor
  · intro x hx
    rw [phase_enter] at hx
    split at hx
    · subst x
      exact hseen
    · exact h.seen x hx
  · intro x gen hx hl
    rw [phase_enter] at hx
    split at hx
    · subst x
      exact hb gen hx hl
    · exact h.basis x gen hx hl
  · intro x hx
    rw [phase_enter] at hx
    split at hx
    · subst x
      exact hh hx
    · exact h.held x hx

theorem Inv.gateway {s : ControlLoops} (h : s.Inv) (st : GatewayState) (ha : st.actor.Inv)
    (hl : ∀ x, st.actor.live x ↔ s.gateway.actor.live x)
    (hd : ∀ i, st.agents.desiredConfig i = s.gateway.agents.desiredConfig i) :
    Inv { s with gateway := st } := by
  constructor
  · exact ha
  · exact h.seen
  · intro x gen hx hlive
    obtain ⟨stored, hs⟩ := h.basis x gen hx ((hl x).1 hlive)
    exact ⟨stored, (hd _).trans hs⟩
  · intro x hx
    exact (hl x).2 (h.held x hx)

theorem Inv.command {g : Gateway} {s : ControlLoops} (h : s.Inv)
    (hnew : ¬c.newcomer?.any fun sess => sess ∈ s.seen)
    (hC : ∀ sess, (s.phase sess).reconciled?.isSome → (g.exec s.gateway c).actor.live sess) :
    Inv { s with
      gateway := g.exec s.gateway c, seen := (g.admission s.gateway c).map (·.1) ++ s.seen } := by
  have hstay : ∀ x, x ∈ s.seen → (g.exec s.gateway c).actor.live x → s.gateway.actor.live x := by
    intro x hx hl
    rcases Gateway.exec_live hl with hl | ha
    · exact hl
    · cases c with
      | admitSession sess =>
        have he : x = sess := by
          simp only [Gateway.admission] at ha
          split at ha
          · exact List.mem_singleton.1 ha
          · cases ha
        subst he
        simp only [Command.newcomer?, Option.any_some, hx, decide_true, not_true_eq_false] at hnew
      | _ => cases ha
  constructor
  · exact Gateway.exec_inv g h.actor c
  · intro x hx
    exact List.mem_append_right _ (h.seen x hx)
  · intro x gen hx hl
    have hne : s.phase x ≠ .idle := by
      intro hi
      simp only [hi, LoopPhase.basis?] at hx
      cases hx
    obtain ⟨stored, hs⟩ := h.basis x gen hx (hstay x (h.seen x hne) hl)
    exact ⟨stored, (Gateway.exec_desiredConfig g s.gateway c _).trans hs⟩
  · exact hC

theorem Inv.adopt {s : ControlLoops} (h : s.Inv) (hs : s.gateway.actor.live sess)
    (hseen : sess ∈ s.seen) (resolved : List TunnelSpec) (written : Bool)
    (hp : p.basis? = none) :
    Inv (ControlLoops.enter { s with gateway := { s.gateway with
      agents := (s.gateway.agents.adoptConfig sess.agentID resolved written).2 } } sess p) := by
  have hr : p.reconciled? = none := by
    cases p <;> first | rfl | cases hp
  constructor
  · exact h.actor
  · intro x hx
    rw [phase_enter] at hx
    split at hx
    · subst x
      exact hseen
    · exact h.seen x hx
  · intro x gen hx hl
    rw [phase_enter] at hx
    split at hx
    · rw [hp] at hx
      cases hx
    · rename_i hne
      obtain ⟨stored, hd⟩ := h.basis x gen hx hl
      refine ⟨stored, ?_⟩
      have hid : x.agentID ≠ sess.agentID := fun he => hne (Actor.live_unique hl hs he)
      rw [ControlLoops.enter, AgentStore.desiredConfig_adoptConfig, if_neg hid]
      exact hd
  · intro x hx
    rw [phase_enter] at hx
    split at hx
    · rw [hr] at hx
      cases hx
    · exact h.held x hx

theorem Inv.write {s : ControlLoops} (h : s.Inv) (sess : AgentSession) (push : PushConfig) :
    (s.write sess push).Inv := ⟨h.actor, h.seen, h.basis, h.held⟩

theorem seen_of_phase {s : ControlLoops} (h : s.Inv) (hp : s.phase sess = p) (hne : p ≠ .idle) :
    sess ∈ s.seen := h.seen sess fun hi => hne (hp.symm.trans hi)

theorem Inv.reconciled {g : Gateway} {s : ControlLoops} (h : s.Inv)
    (hp : s.phase sess = .checked proposed gen) (hl : s.gateway.actor.live sess)
    (valid resolved : List TunnelSpec) :
    Inv (ControlLoops.enter { s with gateway := { s.gateway with
      actor := (s.gateway.actor.reconcile g sess valid).2 } } sess (.reconciled resolved gen)) := by
  have hr := Actor.reconcile_rebinds g s.gateway.actor sess valid
  have hg := h.gateway { s.gateway with actor := (s.gateway.actor.reconcile g sess valid).2 }
    (h.actor.reconcile g sess _) (fun _ => Actor.live_rebinds hr) fun _ => rfl
  have hseen := seen_of_phase h hp nofun
  refine hg.enter hseen ?_ fun _ => hr.live hl
  rintro gen ⟨⟩ -
  exact h.basis sess _ (by rw [hp]; rfl) hl

theorem Inv.adoptsOwnBasis {s : ControlLoops} (h : s.Inv)
    (hp : s.phase sess = .reconciled resolved gen) (written : Bool) :
    s.AdoptsOwnBasis (.adoptConfig sess written) := by
  have hl : s.gateway.actor.live sess := h.held sess (by rw [hp]; rfl)
  obtain ⟨stored, hd⟩ := h.basis sess gen (by rw [hp]; rfl) hl
  have hdone : (s.gateway.agents.adoptConfig sess.agentID resolved written).2.desiredConfig
      sess.agentID = some (resolved, gen + 1) := by
    rw [AgentStore.desiredConfig_adoptConfig, if_pos rfl, hd]
    rfl
  intro adoption ha current hc
  rw [hp] at ha
  cases ha
  rw [hd] at hc
  cases hc
  exact ⟨rfl, hl, hdone⟩

theorem Inv.step {g : Gateway} {s t : ControlLoops} {l : LoopStep} (h : s.Inv)
    (hC : s.Uninterrupted g l) (ht : g.loopStep s l = some t) : t.Inv ∧ s.AdoptsOwnBasis l := by
  cases l with
  | command c =>
    simp only [Gateway.loopStep] at ht
    split at ht
    · cases ht
    · rename_i hnew
      cases ht
      exact ⟨h.command hnew hC, trivial⟩
  | take sess proposed =>
    refine ⟨?_, trivial⟩
    simp only [Gateway.loopStep] at ht
    split at ht
    · split at ht
      · cases ht
      · rename_i hseen
        split at ht
        · cases ht
          exact h.enter (not_not.1 hseen) nofun nofun
        · cases ht
          exact h
    · cases ht
  | read sess =>
    refine ⟨?_, trivial⟩
    simp only [Gateway.loopStep] at ht
    split at ht
    · rename_i hp
      have hseen := seen_of_phase h hp nofun
      split at ht
      · cases ht
        exact h.enter hseen nofun nofun
      · rename_i stored storedGen hd
        cases ht
        refine h.enter hseen ?_ nofun
        rintro gen ⟨⟩ -
        exact ⟨stored, hd⟩
    · cases ht
  | check sess =>
    refine ⟨?_, trivial⟩
    simp only [Gateway.loopStep] at ht
    split at ht
    · rename_i hp
      have hseen := seen_of_phase h hp nofun
      split at ht
      · cases ht
        have hi := h.enter (p := .idle) hseen nofun nofun
        exact hi.write sess _
      · cases ht
        refine h.enter hseen ?_ nofun
        rintro gen ⟨⟩ hl
        exact h.basis sess _ (by rw [hp]; rfl) hl
    · cases ht
  | reconcile sess =>
    refine ⟨?_, trivial⟩
    simp only [Gateway.loopStep] at ht
    split at ht
    · rename_i proposed storedGen hp
      cases ht
      exact h.reconciled hp hC _ _
    · cases ht
  | adoptConfig sess written =>
    simp only [Gateway.loopStep] at ht
    split at ht
    · rename_i resolved gen hp
      have hseen := seen_of_phase h hp nofun
      have hl : s.gateway.actor.live sess := h.held sess (by rw [hp]; rfl)
      refine ⟨?_, h.adoptsOwnBasis hp written⟩
      split at ht
      · rename_i store ha
        cases ht
        obtain rfl : _ = store := congrArg Prod.snd ha
        exact h.adopt hl hseen resolved written rfl
      · rename_i gen' store ha
        cases ht
        obtain rfl : _ = store := congrArg Prod.snd ha
        exact h.adopt hl hseen resolved written rfl
    · cases ht
  | push sess =>
    refine ⟨?_, trivial⟩
    simp only [Gateway.loopStep] at ht
    split at ht
    · rename_i resolved gen hp
      have hseen := seen_of_phase h hp nofun
      cases ht
      have hg := h.gateway (s.gateway.storeGen sess gen) h.actor (fun _ => Iff.rfl) fun _ => rfl
      have hi := hg.enter (p := .idle) hseen nofun nofun
      exact hi.write sess _
    · cases ht
  | ack sess ack =>
    refine ⟨?_, trivial⟩
    simp only [Gateway.loopStep] at ht
    split at ht
    · split at ht
      · cases ht
      · cases ht
        exact h.gateway _ h.actor (fun _ => Iff.rfl) fun _ => rfl
    · cases ht

end ControlLoops

/-- In every run whose loops are not cut off by an eviction between their reconcile and their
adoption, each adoption is made by the live session and moves the very generation that was checked
by one. -/
theorem adoptions_own_basis (g : Gateway) (store : AgentStore) (steps : List LoopStep)
    (h : Runs.Along g.loopStep (ControlLoops.Uninterrupted g) (ControlLoops.start store) steps) :
    Runs.Along g.loopStep ControlLoops.AdoptsOwnBasis (ControlLoops.start store) steps :=
  Runs.along_of_invariant (fun _ _ _ hi hC ht => hi.step hC ht) (ControlLoops.start_inv store) h

theorem enter_self {s : ControlLoops} (h : s.phase sess = p) : s.enter sess p = s := by
  simp only [ControlLoops.enter, ← h, Function.update_eq_self]

theorem enter_enter (s : ControlLoops) (sess : AgentSession) (p q : LoopPhase) :
    (s.enter sess p).enter sess q = s.enter sess q := by
  simp only [ControlLoops.enter, Function.update_idem]

theorem enter_phase (s : ControlLoops) (sess : AgentSession) (p : LoopPhase) :
    (s.enter sess p).phase sess = p := Function.update_self _ _ _

theorem adoption_steps (g : Gateway) (s : ControlLoops) (sess : AgentSession)
    (proposed : List TunnelSpec) (gen : Nat) (written : Bool)
    (hd : (s.gateway.agents.desiredConfig sess.agentID).map (·.2) = some gen) :
    let valid := g.validSpecs sess.scope proposed
    let pass := s.gateway.actor.reconcile g sess valid
    let resolved := Gateway.resolvePorts valid pass.1
    let store := (s.gateway.agents.adoptConfig sess.agentID resolved written).2
    let st : GatewayState := { s.gateway with actor := pass.2, agents := store }
    Runs.Reaches g.loopStep (s.enter sess (.checked proposed gen))
      [.reconcile sess, .adoptConfig sess written, .push sess]
      (({ s with gateway := st.storeGen sess (gen + 1) }.enter sess .idle).write sess
        (g.pushOf (gen + 1) resolved)) ∧
    g.adoptResolved { s.gateway with actor := pass.2 } sess resolved written =
      (some (g.pushOf (gen + 1) resolved), st.storeGen sess (gen + 1)) := by
  intro valid pass resolved store st
  have ha : s.gateway.agents.adoptConfig sess.agentID resolved written =
      (some (gen + 1), store) := by
    have hg := AgentStore.adoptConfig_gen s.gateway.agents sess.agentID resolved written
    obtain ⟨current, hc, rfl⟩ := Option.map_eq_some_iff.1 hd
    rw [hc] at hg
    exact Prod.ext hg rfl
  let s₁ : ControlLoops := { s with gateway := { s.gateway with actor := pass.2 } }
  have h₁ : g.loopStep (s.enter sess (.checked proposed gen)) (.reconcile sess) =
      some (s₁.enter sess (.reconciled resolved gen)) := by
    simp only [Gateway.loopStep, enter_phase]
    exact congrArg some (enter_enter s₁ sess _ _)
  have h₂ : g.loopStep (s₁.enter sess (.reconciled resolved gen)) (.adoptConfig sess written) =
      some (ControlLoops.enter { s with gateway := st } sess (.adopted resolved (gen + 1))) := by
    have ha₁ : (s₁.enter sess (.reconciled resolved gen)).gateway.agents.adoptConfig sess.agentID
        resolved written = (some (gen + 1), store) := ha
    simp only [Gateway.loopStep, enter_phase, ha₁]
    exact congrArg some (enter_enter { s with gateway := st } sess _ _)
  have h₃ : g.loopStep (ControlLoops.enter { s with gateway := st } sess
      (.adopted resolved (gen + 1))) (.push sess) =
      some (({ s with gateway := st.storeGen sess (gen + 1) }.enter sess .idle).write sess
        (g.pushOf (gen + 1) resolved)) := by
    simp only [Gateway.loopStep, enter_phase]
    exact congrArg (fun t => some (ControlLoops.write t sess (g.pushOf (gen + 1) resolved)))
      (enter_enter { s with gateway := st.storeGen sess (gen + 1) } sess _ _)
  refine ⟨.cons h₁ (.cons h₂ (.cons h₃ (.nil _))), ?_⟩
  simp only [Gateway.adoptResolved, ha, st]

theorem adoptProposal_steps (g : Gateway) (s : ControlLoops) (sess : AgentSession)
    (proposed : List TunnelSpec) (written : Bool) (hidle : s.phase sess = .idle)
    (hseen : sess ∈ s.seen) (hcfg : (sess.enrolled && sess.has capGatewayConfig) = true) :
    ∃ ls t, Runs.Reaches g.loopStep s ls t ∧
      t.gateway = (g.adoptProposal s.gateway sess proposed written).2 ∧ t.phase = s.phase ∧
      t.sent = s.sent ++
        (g.adoptProposal s.gateway sess proposed written).1.toList.map fun p => (sess, p) := by
  have htake : g.loopStep s (.take sess proposed) = some (s.enter sess (.taken proposed)) := by
    simp only [Gateway.loopStep, hidle, hseen, not_true_eq_false, if_false, hcfg, if_true]
  have hback : (s.enter sess (.taken proposed)).enter sess .idle = s :=
    (enter_enter s sess _ _).trans (enter_self hidle)
  cases hd : s.gateway.agents.desiredConfig sess.agentID with
  | none =>
    have hread : g.loopStep (s.enter sess (.taken proposed)) (.read sess) = some s := by
      have hd' : (s.enter sess (.taken proposed)).gateway.agents.desiredConfig sess.agentID =
          none := hd
      simp only [Gateway.loopStep, enter_phase, hd', hback]
    refine ⟨_, _, .cons htake (.cons hread (.nil s)), ?_⟩
    simp only [Gateway.adoptProposal, hd, Option.toList_none, List.map_nil, List.append_nil,
      and_self]
  | some current =>
    obtain ⟨stored, gen⟩ := current
    have hread : g.loopStep (s.enter sess (.taken proposed)) (.read sess) =
        some (s.enter sess (.read proposed stored gen)) := by
      have hd' : (s.enter sess (.taken proposed)).gateway.agents.desiredConfig sess.agentID =
          some (stored, gen) := hd
      simp only [Gateway.loopStep, enter_phase, hd', enter_enter]
    by_cases hstale : Gateway.staleBasis s.gateway sess gen = true
    · have hcheck : g.loopStep (s.enter sess (.read proposed stored gen)) (.check sess) =
          some (s.write sess (g.pushOf gen stored)) := by
        have hs : Gateway.staleBasis (s.enter sess (.read proposed stored gen)).gateway sess gen =
            true := hstale
        simp only [Gateway.loopStep, enter_phase, hs, if_true, enter_enter, enter_self hidle]
      refine ⟨_, _, .cons htake (.cons hread (.cons hcheck (.nil _))), ?_⟩
      simp only [Gateway.adoptProposal, hd, hstale, if_true, ControlLoops.write,
        Option.toList_some, List.map_cons, List.map_nil, and_self]
    · have hcheck : g.loopStep (s.enter sess (.read proposed stored gen)) (.check sess) =
          some (s.enter sess (.checked proposed gen)) := by
        have hs : ¬Gateway.staleBasis (s.enter sess (.read proposed stored gen)).gateway sess gen =
            true := hstale
        simp only [Gateway.loopStep, enter_phase, hs, Bool.false_eq_true, if_false, enter_enter]
      obtain ⟨hsteps, hres⟩ := adoption_steps g s sess proposed gen written (by rw [hd]; rfl)
      refine ⟨_, _, .cons htake (.cons hread (.cons hcheck hsteps)), ?_⟩
      have hdef : g.adoptProposal s.gateway sess proposed written =
          g.adoptResolved { s.gateway with actor := (s.gateway.actor.reconcile g sess
            (g.validSpecs sess.scope proposed)).2 } sess
            (Gateway.resolvePorts (g.validSpecs sess.scope proposed)
              (s.gateway.actor.reconcile g sess (g.validSpecs sess.scope proposed)).1) written := by
        simp only [Gateway.adoptProposal, hd, hstale, Bool.false_eq_true, if_false]
      rw [hdef, hres]
      exact ⟨rfl, Function.update_eq_self_iff.2 hidle.symm, rfl⟩

/-- One enrolled agent `a` with an adopted set. -/
def oneAgent (specs : List TunnelSpec) : AgentStore :=
  let issued := (AgentStore.empty.issueEnrollment "ticket" false none ⟨[], []⟩ true).2
  let enrolled := (issued.enroll "key" "a" "ticket" 0 true).2
  (enrolled.adoptConfig "a" specs true).2

def atGeneration (gen : Nat) (sess : AgentSession) : AgentSession :=
  { sess with configGeneration := gen }

/-- A loop that nothing cuts off adopts generation 2 over generation 1. -/
theorem adoptions_own_basis_alone :
    let sess := atGeneration 1 (AgentSession.plain 1 "a")
    Runs.Along idleGateway.loopStep ControlLoops.AdoptsOwnBasis
      (ControlLoops.start (oneAgent [TunnelSpec.plain "t" 8080]))
      [.command (.admitSession sess), .take sess [TunnelSpec.plain "t" 8081], .read sess,
        .check sess, .reconcile sess, .adoptConfig sess true, .push sess] := by
  refine adoptions_own_basis _ _ _ ?_
  refine Runs.along_cons rfl (fun _ h => by cases h) ?_
  refine Runs.along_cons rfl trivial (Runs.along_cons rfl trivial (Runs.along_cons rfl trivial ?_))
  refine Runs.along_cons rfl (by unfold ControlLoops.Uninterrupted; decide) ?_
  exact Runs.along_cons rfl trivial (Runs.along_cons rfl trivial trivial)

/-- A superseded session whose reconcile is refused overwrites what its successor adopted. -/
theorem superseded_session_adopts :
    let old := atGeneration 1 (AgentSession.plain 1 "a")
    let new := atGeneration 1 (AgentSession.plain 2 "a")
    ¬Runs.Along idleGateway.loopStep ControlLoops.AdoptsOwnBasis
      (ControlLoops.start (oneAgent [TunnelSpec.plain "t" 8080]))
      [.command (.admitSession old), .take old [TunnelSpec.plain "t" 8081], .read old, .check old,
        .command (.admitSession new), .take new [TunnelSpec.plain "t" 8082], .read new, .check new,
        .reconcile new, .adoptConfig new true, .reconcile old, .adoptConfig old true] := by
  decide

end ProxyForward

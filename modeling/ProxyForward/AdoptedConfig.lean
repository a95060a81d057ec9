import ProxyForward.Bindings

namespace ProxyForward
set_option autoImplicit true

/-- On every later connect of the agent, with the same scope, that finds the config of this push
stored, the filter keeps all of it, and the connect reconciles and pushes just that set. -/
def Gateway.Survives (g : Gateway) (sess : AgentSession) (push : PushConfig) : Prop :=
  ∀ (st : GatewayState) (later : AgentSession), later.agentID = sess.agentID →
    later.scope = sess.scope →
    st.agents.desiredConfig later.agentID = some (push.tunnels, push.generation) →
    g.validSpecs later.scope push.tunnels = push.tunnels ∧
    (g.pushConfigOnConnect st later).2.actor = (st.actor.reconcile g later push.tunnels).2 ∧
    ∀ again ∈ (g.pushConfigOnConnect st later).1, again.tunnels = push.tunnels

/-- Where a tunnel of the proposal leaves its port to the system, the port that the pass got for it
is within the scope and the allowlist. -/
def Gateway.ChosenPermitted (g : Gateway) (scope : Scope) (valid : List TunnelSpec)
    (outcomes : List ReconcileOutcome) : Prop :=
  ∀ spec ∈ valid, spec.publicPort = 0 → ∀ p ∈ Gateway.boundPort outcomes spec.id,
    portPermitted scope g.cfg.portAllowlist p = true

namespace Gateway

variable {g : Gateway} {a : Actor} {sess : AgentSession}

theorem permitted_of_valid (hv : g.validateSpec spec scope = none) (hlo : 1 ≤ spec.publicPort)
    (hhi : spec.publicPort ≤ 65535) : portPermitted scope g.cfg.portAllowlist
    spec.publicPort = true :=
  (validateSpec_port hv hlo hhi).1 hv

theorem outcome_permitted (h : a.Inv) (hall : a.All (PublicListener.Placed g)) (hs : a.live sess)
    (hv : g.validateSpec spec sess.scope = none) (hport : spec.publicPort ≠ 0)
    (herr : (a.reconcileSpec g sess spec).1.err = none) :
    portPermitted sess.scope g.cfg.portAllowlist (a.reconcileSpec g sess spec).1.port = true := by
  have hinv := h.reconcileSpec g hs spec
  have hlive := (Actor.reconcileSpec_rebinds g a sess spec).live hs
  have hid := Actor.reconcileSpec_id g a sess spec
  obtain ⟨htells, hsame⟩ := Actor.reconcileSpec_self g a sess spec
  cases hpl : (a.reconcileSpec g sess spec).2.listener? sess.agentID spec.id with
  | none => exact absurd herr ((Actor.tells_none (hid.symm ▸ hpl)).1 htells)
  | some pl =>
    obtain ⟨-, hln⟩ := (Actor.tells_some (hid.symm ▸ hpl)).1 htells
    obtain ⟨hlo, hhi⟩ := hinv.ranged _ _ _ hpl
    have hasked : pl.spec.publicPort = spec.publicPort := by
      have hsame := hsame pl hpl
      simp only [sameListener, Bool.and_eq_true, decide_eq_true_eq] at hsame
      exact hsame.1.1.2
    have hplaced := hall.reconcileSpec (placed_sinceBound g) sess spec _ _ _ hpl
    rw [← hln]
    rcases hplaced (hasked ▸ hport) with hgranted | hpermitted
    · rw [hgranted, hasked]
      rw [hgranted, hasked] at hlo hhi
      exact permitted_of_valid hv hlo hhi
    · rw [hinv.owner hlive hpl] at hpermitted
      exact hpermitted

/-- The port that a pass got for an id is a port, and the system chose it or the policy permits
it. -/
theorem boundPort_cases {specs : List TunnelSpec} (h : a.Inv)
    (hall : a.All (PublicListener.Placed g))
    (hs : a.live sess) (hv : ∀ spec ∈ specs, g.validateSpec spec sess.scope = none)
    (hp : boundPort (a.reconcileSpecs g sess specs).1 i = some p) :
    (1 ≤ p ∧ p ≤ 65535) ∧ (portPermitted sess.scope g.cfg.portAllowlist p = true ∨
      ∃ spec ∈ specs, spec.id = i ∧ spec.publicPort = 0) := by
  induction specs generalizing a with
  | nil => cases hp
  | cons spec rest ih =>
    obtain ⟨hvspec, hvrest⟩ := List.forall_mem_cons.1 hv
    have hlive := (Actor.reconcileSpec_rebinds g a sess spec).live hs
    have hinv := h.reconcileSpec g hs spec
    simp only [Actor.reconcileSpecs] at hp
    rw [boundPort_cons] at hp
    cases hrest : boundPort ((a.reconcileSpec g sess spec).2.reconcileSpecs g sess rest).1 i with
    | some q =>
      rw [hrest, Option.some_or] at hp
      obtain rfl := Option.some.inj hp
      obtain ⟨hrange, hcases⟩ := ih hinv (hall.reconcileSpec (placed_sinceBound g) sess spec) hlive
        hvrest hrest
      refine ⟨hrange, hcases.imp_right ?_⟩
      rintro ⟨s, hmem, hs⟩
      exact ⟨s, List.mem_cons_of_mem _ hmem, hs⟩
    | none =>
      rw [hrest, Option.none_or, Option.ite_none_right_eq_some] at hp
      obtain ⟨⟨hid, herr, -⟩, hport⟩ := hp
      obtain rfl := Option.some.inj hport
      have hspecid := Actor.reconcileSpec_id g a sess spec
      have htells := (Actor.reconcileSpec_self g a sess spec).1
      refine ⟨?_, ?_⟩
      · cases hpl : (a.reconcileSpec g sess spec).2.listener? sess.agentID spec.id with
        | none => exact absurd herr ((Actor.tells_none (hspecid.symm ▸ hpl)).1 htells)
        | some pl =>
          obtain ⟨-, hln⟩ := (Actor.tells_some (hspecid.symm ▸ hpl)).1 htells
          rw [← hln]
          exact hinv.ranged _ _ _ hpl
      · by_cases hzero : spec.publicPort = 0
        · exact .inr ⟨spec, List.mem_cons_self, hspecid.symm.trans hid, hzero⟩
        · exact .inl (outcome_permitted h hall hs hvspec hzero herr)

theorem boundPort_inactive (specs : List TunnelSpec) (text : String) :
    boundPort (specs.map fun spec => ⟨spec.id, 0, some text⟩) i = none := by
  induction specs with
  | nil => rfl
  | cons spec rest ih =>
    rw [List.map_cons, boundPort_cons, ih, Option.none_or, if_neg]
    rintro ⟨-, herr, -⟩
    cases herr

/-- The resolved set is valid if and only if the ports that the system chose are permitted. -/
theorem resolved_valid_iff (h : a.Inv) (hall : a.All (PublicListener.Placed g))
    {specs : List TunnelSpec}
    (hv : ∀ spec ∈ specs, g.validateSpec spec sess.scope = none) :
    g.validSpecs sess.scope (resolvePorts specs (a.reconcile g sess specs).1) =
        resolvePorts specs (a.reconcile g sess specs).1 ↔
      g.ChosenPermitted sess.scope specs (a.reconcile g sess specs).1 := by
  have hcases : ∀ i p, boundPort (a.reconcile g sess specs).1 i = some p →
      (1 ≤ p ∧ p ≤ 65535) ∧ (portPermitted sess.scope g.cfg.portAllowlist p = true ∨
        ∃ spec ∈ specs, spec.id = i ∧ spec.publicPort = 0) := by
    intro i p hp
    by_cases hs : a.live sess
    · rw [Actor.reconcile_live g hs] at hp
      exact boundPort_cases (h.unbindAll sess _) (hall.unbindAll sess _)
        ((Actor.unbindAll_rebinds a sess _).live hs) hv hp
    · rw [Actor.reconcile, if_neg hs] at hp
      have hinactive := (boundPort_inactive specs Actor.errInactive).symm.trans hp
      cases hinactive
  rw [validSpecs, List.filter_eq_self]
  simp only [resolvePorts, List.forall_mem_map, Option.isNone_iff_eq_none]
  constructor
  · intro hvalid spec hspec _ p hp
    have hp : boundPort (a.reconcile g sess specs).1 spec.id = some p := hp
    obtain ⟨⟨hlo, hhi⟩, -⟩ := hcases _ _ hp
    have hresolved := hvalid spec hspec
    rw [hp, Option.getD_some] at hresolved
    exact (validateSpec_port (hv spec hspec) hlo hhi).1 hresolved
  · intro hchosen spec hspec
    cases hp : boundPort (a.reconcile g sess specs).1 spec.id with
    | none => exact hv spec hspec
    | some p =>
      obtain ⟨⟨hlo, hhi⟩, hcase⟩ := hcases _ _ hp
      rw [Option.getD_some]
      refine (validateSpec_port (hv spec hspec) hlo hhi).2 ?_
      rcases hcase with hpermitted | ⟨s, hs, hid, hzero⟩
      · exact hpermitted
      · exact hchosen s hs hzero p (hid ▸ hp)

theorem survives_iff_valid (g : Gateway) (sess : AgentSession) (push : PushConfig)
    (hgen : push.generation ≠ 0) (st : GatewayState)
    (hst : st.agents.desiredConfig sess.agentID = some (push.tunnels, push.generation)) :
    g.Survives sess push ↔ g.validSpecs sess.scope push.tunnels = push.tunnels := by
  constructor
  · intro h
    exact (h st sess rfl rfl hst).1
  · intro hvalid st later _ hscope hst
    rw [pushConfigOnConnect_serves g hst hgen, hscope, hvalid]
    refine ⟨rfl, rfl, fun again hagain => ?_⟩
    simp only at hagain
    split at hagain
    · cases hagain
    · cases hagain
      rfl

end Gateway

/-- An adopted config survives every later connect under the same scope and allowlist if and only if
each port that the system chose at the adoption is within them. -/
theorem adopted_config_survives_iff (g : Gateway) (store : AgentStore) (cmds : List Command)
    (sess : AgentSession) (stored : List TunnelSpec) (gen : Nat) (proposed : List TunnelSpec)
    (written : Bool)
    (hd : (g.run (GatewayState.start store) cmds).agents.desiredConfig sess.agentID =
      some (stored, gen))
    (hbasis : ¬Gateway.staleBasis (g.run (GatewayState.start store) cmds) sess gen = true) :
    let st := g.run (GatewayState.start store) cmds
    let valid := g.validSpecs sess.scope proposed
    ∃ push, (g.adoptProposal st sess proposed written).1 = some push ∧
      (g.Survives sess push ↔ g.ChosenPermitted sess.scope valid
        (st.actor.reconcile g sess valid).1) := by
  intro st valid
  obtain ⟨store', hadopt, hstore⟩ := Gateway.adoptProposal_adopts g hd hbasis proposed written
  have hinv : st.actor.Inv := Gateway.run_inv g Actor.newActor_inv cmds
  have hall : st.actor.All (PublicListener.Placed g) :=
    Gateway.run_all (placed_sinceBound g) (Gateway.start_all store) cmds
  refine ⟨_, congrArg Prod.fst hadopt, ?_⟩
  rw [Gateway.survives_iff_valid g sess _ (Nat.succ_ne_zero gen)
    ⟨st.actor, store', st.agentConfigGen⟩ hstore]
  exact Gateway.resolved_valid_iff hinv hall fun spec hspec => Gateway.validSpecs_valid hspec

/-- An idle machine whose gateway allows port 8080 only. -/
def allowlistGateway : Gateway := ⟨⟨"0.0.0.0", [8080]⟩, idleEnv⟩

/-- A proposal that names its port is adopted as it is. -/
theorem adopted_config_survives_named :
    let sess := atGeneration 1 (AgentSession.plain 1 "a")
    let st := allowlistGateway.run (GatewayState.start (oneAgent [])) [.admitSession sess]
    let valid := allowlistGateway.validSpecs sess.scope [TunnelSpec.plain "t" 8080]
    ∃ push,
      (allowlistGateway.adoptProposal st sess [TunnelSpec.plain "t" 8080] true).1 = some push ∧
      (allowlistGateway.Survives sess push ↔ allowlistGateway.ChosenPermitted sess.scope valid
        (st.actor.reconcile allowlistGateway sess valid).1) :=
  adopted_config_survives_iff allowlistGateway (oneAgent [])
    [.admitSession (atGeneration 1 (AgentSession.plain 1 "a"))]
    _ [] 1 _ true (by decide) (by decide)

/-- The system chooses 49152 for a tunnel without a port; the next connect drops the tunnel. -/
theorem chosen_port_dropped :
    ¬∀ (g : Gateway) (store : AgentStore) (cmds : List Command) (sess : AgentSession)
      (stored : List TunnelSpec)
      (gen : Nat) (proposed : List TunnelSpec) (written : Bool),
      (g.run (GatewayState.start store) cmds).agents.desiredConfig sess.agentID =
        some (stored, gen) →
      ¬Gateway.staleBasis (g.run (GatewayState.start store) cmds) sess gen = true →
      ∀ push ∈ (g.adoptProposal (g.run (GatewayState.start store) cmds) sess proposed written).1,
        g.Survives sess push := by
  intro h
  let sess := atGeneration 1 (AgentSession.plain 1 "a")
  let st := allowlistGateway.run (GatewayState.start (oneAgent [])) [.admitSession sess]
  let adoption := allowlistGateway.adoptProposal st sess [TunnelSpec.plain "t" 0] true
  have hpush : adoption.1 = some (allowlistGateway.pushOf 2 [TunnelSpec.plain "t" 49152]) := by
    decide
  have hstored : adoption.2.agents.desiredConfig sess.agentID =
      some ([TunnelSpec.plain "t" 49152], 2) := by
    decide
  have hsurvives := h allowlistGateway (oneAgent []) [.admitSession sess] sess [] 1 _ true
    (by decide) (by decide)
    _ hpush
  have hkept := (hsurvives adoption.2 sess rfl rfl hstored).1
  exact absurd hkept (by decide)

end ProxyForward

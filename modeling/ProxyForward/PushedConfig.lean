import ProxyForward.Binds
import ProxyForward.ControlLoops

namespace ProxyForward
set_option autoImplicit true

namespace Gateway

theorem boundPort_cons (o : ReconcileOutcome) (os : List ReconcileOutcome) (i : String) :
    boundPort (o :: os) i = (boundPort os i).or
      (if o.id = i ∧ o.err = none ∧ o.port ≠ 0 then some o.port else none) := by
  simp only [boundPort, List.reverse_cons, List.find?_append, List.find?_singleton]
  cases h : os.reverse.find? fun o => o.id = i && o.err.isNone && o.port ≠ 0 with
  | some o' => rfl
  | none =>
    simp only [Option.none_or, Option.map_none]
    by_cases hc : o.id = i ∧ o.err = none ∧ o.port ≠ 0
    · simp only [hc.1, hc.2.1, hc.2.2, ne_eq, not_false_eq_true, decide_true, Option.isNone_none,
        Bool.and_self, and_self, if_true, Option.map_some]
    · rw [if_neg hc, if_neg, Option.map_none]
      simpa only [Bool.and_eq_true, decide_eq_true_eq, Option.isNone_iff_eq_none, and_assoc]
        using hc

theorem boundPort_none {os : List ReconcileOutcome} (h : i ∉ os.map (·.id)) :
    boundPort os i = none := by
  induction os with
  | nil => rfl
  | cons o os ih =>
    rw [List.map_cons, List.mem_cons, not_or] at h
    rw [boundPort_cons, ih h.2, if_neg fun hc => h.1 hc.1.symm]
    rfl

theorem boundPort_listener {a : Actor} {sess : AgentSession} {specs : List TunnelSpec}
    (h : a.Inv) (g : Gateway) (hs : a.live sess) (hi : i ∈ specs.map (·.id))
    (hpl : (a.reconcileSpecs g sess specs).2.listener? sess.agentID i = some pl) :
    boundPort (a.reconcileSpecs g sess specs).1 i = some pl.ln.port := by
  induction specs generalizing a with
  | nil => cases hi
  | cons spec rest ih =>
    have hstep := h.reconcileSpec g hs spec
    have hlive := (Actor.reconcileSpec_rebinds g a sess spec).live hs
    simp only [Actor.reconcileSpecs] at hpl ⊢
    rw [boundPort_cons]
    by_cases hrest : i ∈ rest.map (·.id)
    · rw [ih hstep hlive hrest hpl]
      rfl
    · have hi : i = spec.id := (List.mem_cons.1 hi).resolve_right hrest
      have hnone :
          boundPort ((a.reconcileSpec g sess spec).2.reconcileSpecs g sess rest).1 i = none :=
        boundPort_none (by rw [Actor.reconcileSpecs_ids]; exact hrest)
      have hsame := Actor.reconcileSpecs_others g (a.reconcileSpec g sess spec).2 sess rest
        (i := sess.agentID) (t := i) fun hc => hrest hc.2
      have hid : (a.reconcileSpec g sess spec).1.id = i :=
        (Actor.reconcileSpec_id g a sess spec).trans hi.symm
      have hself := hsame.symm.trans hpl
      obtain ⟨herr, hport⟩ := (Actor.tells_some (hid.symm ▸ hself)).1
        (Actor.reconcileSpec_self g a sess spec).1
      have hpos := (hstep.ranged _ _ _ hself).1
      rw [hnone, if_pos ⟨hid, herr, by omega⟩, ← hport]
      rfl

theorem validateSpec_port {g : Gateway} {spec : TunnelSpec} (hv : g.validateSpec spec scope = none)
    (hlo : 1 ≤ p) (hhi : p ≤ 65535) :
    g.validateSpec { spec with publicPort := p } scope = none ↔
      portPermitted scope g.cfg.portAllowlist p = true := by
  have hp0 : p ≠ 0 := by omega
  have hrange : ¬(p < 0 ∨ 65535 < p) := by omega
  simp only [validateSpec] at hv ⊢
  split at hv
  · cases hv
  rename_i htype
  split at hv
  · cases hv
  split at hv
  · cases hv
  split at hv
  · cases hv
  rename_i htunnel
  rw [if_neg htype, if_neg hrange]
  have hlist : portInAllowlist p g.cfg.portAllowlist = true ↔
      ¬(g.cfg.portAllowlist ≠ [] ∧ p ≠ 0 ∧ ¬g.cfg.portAllowlist.contains p = true) := by
    cases g.cfg.portAllowlist with
    | nil => exact iff_of_true rfl fun hc => hc.1 rfl
    | cons q qs =>
      simp only [portInAllowlist, List.isEmpty_cons, Bool.false_or, ne_eq, reduceCtorEq,
        not_false_eq_true, hp0, true_and, not_not]
  by_cases hs : scope.allowsPort p = true
  · rw [if_neg fun hc => hc.2 hs, if_neg htunnel, portPermitted, hs, Bool.true_and, hlist]
    by_cases hl : g.cfg.portAllowlist ≠ [] ∧ p ≠ 0 ∧ ¬g.cfg.portAllowlist.contains p = true
    · rw [if_pos hl]
      exact iff_of_false (Option.some_ne_none _) fun hc => hc hl
    · rw [if_neg hl]
      exact iff_of_true rfl hl
  · rw [if_pos ⟨hp0, hs⟩, portPermitted]
    rw [Bool.not_eq_true] at hs
    rw [hs]
    exact iff_of_false (Option.some_ne_none _) Bool.false_ne_true

end Gateway

/-- A gateway-config session at work. `granted` says that the binds of its last reconcile went as
the stored set wants them. -/
structure ConfigRun where
  gateway : GatewayState
  connected : Bool
  granted : Bool

inductive ConfigStep where
  | connect
  | propose (proposed : List TunnelSpec) (written : Bool)
  | ack (ack : ConfigAck)
  | command (c : Command)
  deriving DecidableEq, Repr

/-- A bind got a tunnel the port that its spec says: granted as asked for, or moved to just that
one. Without a bind it is the port held before. -/
def TunnelSpec.StoredBind (spec : TunnelSpec) (before : Option Int) :
    Option (TunnelSpec × Opened) → Prop
  | some (asked, .granted _) => asked.publicPort ≠ 0 ∧ asked.publicPort = spec.publicPort
  | some (_, .reassigned ln) => ln.port = spec.publicPort
  | some (_, .failed _) => False
  | none => before = some spec.publicPort

instance (spec : TunnelSpec) (before : Option Int) :
    (b : Option (TunnelSpec × Opened)) → Decidable (spec.StoredBind before b)
  | some (asked, .granted _) =>
    inferInstanceAs (Decidable (asked.publicPort ≠ 0 ∧ asked.publicPort = spec.publicPort))
  | some (_, .reassigned ln) => inferInstanceAs (Decidable (ln.port = spec.publicPort))
  | some (_, .failed _) => .isFalse not_false
  | none => inferInstanceAs (Decidable (before = some spec.publicPort))

/-- A bind succeeded, and a port that the spec left to the system, or that is held from before, is
one that the policy permits. -/
def Gateway.PermittedBind (g : Gateway) (scope : Scope) (before : Option Int) :
    Option (TunnelSpec × Opened) → Prop
  | some (asked, .granted ln) =>
    asked.publicPort = 0 → portPermitted scope g.cfg.portAllowlist ln.port = true
  | some (_, .reassigned _) => True
  | some (_, .failed _) => False
  | none => ∀ p ∈ before, portPermitted scope g.cfg.portAllowlist p = true

instance (g : Gateway) (scope : Scope) (before : Option Int) :
    (b : Option (TunnelSpec × Opened)) → Decidable (g.PermittedBind scope before b)
  | some (asked, .granted ln) => inferInstanceAs (Decidable
    (asked.publicPort = 0 → portPermitted scope g.cfg.portAllowlist ln.port = true))
  | some (_, .reassigned _) => .isTrue trivial
  | some (_, .failed _) => .isFalse not_false
  | none => inferInstanceAs (Decidable
    (∀ p ∈ before, portPermitted scope g.cfg.portAllowlist p = true))

namespace Gateway

/-- The last binds of a reconcile get each tunnel the port of the set. -/
def BindsStored (g : Gateway) (st : GatewayState) (sess : AgentSession)
    (valid : List TunnelSpec) : Prop :=
  ∀ spec ∈ valid, spec.StoredBind (st.actor.portOf sess spec.id)
    (lastBind (g.passBinds st sess valid) spec.id)

/-- The last binds of a reconcile get each tunnel a port that the policy permits. -/
def BindsPermitted (g : Gateway) (st : GatewayState) (sess : AgentSession)
    (valid : List TunnelSpec) : Prop :=
  ∀ spec ∈ valid, g.PermittedBind sess.scope (st.actor.portOf sess spec.id)
    (lastBind (g.passBinds st sess valid) spec.id)

/-- No tunnel's last bind in a reconcile fails. -/
def BindsSucceed (g : Gateway) (st : GatewayState) (sess : AgentSession)
    (valid : List TunnelSpec) : Prop :=
  ∀ spec ∈ valid, ∀ b ∈ lastBind (g.passBinds st sess valid) spec.id, b.2.port?.isSome

instance (g : Gateway) (st : GatewayState) (sess : AgentSession) (valid : List TunnelSpec) :
    Decidable (g.BindsStored st sess valid) :=
  inferInstanceAs (Decidable (∀ spec ∈ valid, _))

instance (g : Gateway) (st : GatewayState) (sess : AgentSession) (valid : List TunnelSpec) :
    Decidable (g.BindsPermitted st sess valid) :=
  inferInstanceAs (Decidable (∀ spec ∈ valid, _))

instance (g : Gateway) (st : GatewayState) (sess : AgentSession) (valid : List TunnelSpec) :
    Decidable (g.BindsSucceed st sess valid) :=
  inferInstanceAs (Decidable (∀ spec ∈ valid, _))

end Gateway

namespace ConfigRun

/-- The set stored for the session's agent, and its generation. -/
def stored? (s : ConfigRun) (sess : AgentSession) : Option (List TunnelSpec × Nat) :=
  s.gateway.agents.desiredConfig sess.agentID

/-- The binds of the connect get every valid stored tunnel its stored port. -/
def storedGranted (g : Gateway) (sess : AgentSession) (s : ConfigRun) : Bool :=
  decide (g.BindsStored s.gateway sess
    (g.validSpecs sess.scope (((s.stored? sess).map (·.1)).getD [])))

/-- An adopted proposal stores the ports that its binds got; a stale one binds nothing. -/
def proposedGranted (g : Gateway) (sess : AgentSession) (s : ConfigRun)
    (proposed : List TunnelSpec) : Bool :=
  if (s.stored? sess).any fun c => Gateway.staleBasis s.gateway sess c.2 then s.granted
  else decide (g.BindsSucceed s.gateway sess (g.validSpecs sess.scope proposed))

/-- The frame a step writes, and the state after it. -/
def turn (g : Gateway) (sess : AgentSession) (s : ConfigRun) :
    ConfigStep → Option (Option PushConfig × ConfigRun)
  | .connect =>
    if s.connected then none
    else
      let r := g.pushConfigOnConnect s.gateway sess
      some (r.1, ⟨r.2, true, s.storedGranted g sess⟩)
  | .propose proposed written =>
    if ¬s.connected then none
    else
      let r := g.adoptProposal s.gateway sess proposed written
      some (r.1, ⟨r.2, true, s.proposedGranted g sess proposed⟩)
  | .ack ack =>
    if ¬s.connected then none
    else some (none, { s with gateway := Gateway.handleAck s.gateway sess ack })
  | .command c =>
    if c.by? = some sess then none else some (none, { s with gateway := g.exec s.gateway c })

def step (g : Gateway) (sess : AgentSession) (s : ConfigRun) (l : ConfigStep) :
    Option ConfigRun :=
  (s.turn g sess l).map (·.2)

end ConfigRun

/-- A pushed tunnel is valid, and the session's listener for it is bound at the pushed port. -/
def Gateway.Serves (g : Gateway) (a : Actor) (sess : AgentSession) (spec : TunnelSpec) : Prop :=
  g.validateSpec spec sess.scope = none ∧
    ∃ pl ∈ a.listener? sess.agentID spec.id, pl.owner = sess ∧ pl.ln.port = spec.publicPort

instance (g : Gateway) (a : Actor) (sess : AgentSession) (spec : TunnelSpec) :
    Decidable (g.Serves a sess spec) := inferInstanceAs (Decidable (_ ∧ _))

/-- The session has a listener at every spec's port. -/
def Actor.Bound (a : Actor) (sess : AgentSession) (specs : List TunnelSpec) : Prop :=
  ∀ spec ∈ specs, a.portOf sess spec.id = some spec.publicPort

namespace ConfigRun

/-- What a step pushes while the session is live is served. -/
def PushesServed (g : Gateway) (sess : AgentSession) (s : ConfigRun) (l : ConfigStep) : Prop :=
  ∀ r ∈ s.turn g sess l, r.2.gateway.actor.live sess → ∀ push ∈ r.1, ∀ spec ∈ push.tunnels,
    g.Serves r.2.gateway.actor sess spec

instance (g : Gateway) (sess : AgentSession) (s : ConfigRun) (l : ConfigStep) :
    Decidable (PushesServed g sess s l) := by
  unfold PushesServed
  infer_instance

/-- The binds of a connect that pushes get every tunnel its stored port, those of an adopted
proposal get every tunnel a permitted one, and a stale proposal finds a stored set that is valid and
that the last binds went as. -/
def PortsHold (g : Gateway) (sess : AgentSession) (s : ConfigRun) : ConfigStep → Prop
  | .connect =>
    s.gateway.actor.live sess → ∀ c ∈ s.stored? sess, c.2 ≠ 0 →
      ¬(sess.reportedConfigHash = hashTunnels g.env (g.validSpecs sess.scope c.1) ∧
        s.gateway.agentConfigGen sess = c.2) →
      g.BindsStored s.gateway sess (g.validSpecs sess.scope c.1)
  | .propose proposed _ =>
    s.gateway.actor.live sess → ∀ c ∈ s.stored? sess,
      if Gateway.staleBasis s.gateway sess c.2 then
        (∀ spec ∈ c.1, g.validateSpec spec sess.scope = none) ∧ s.granted = true
      else g.BindsPermitted s.gateway sess (g.validSpecs sess.scope proposed)
  | _ => True

/-- While a connected session is live, `granted` tells whether the stored set is served. -/
structure Inv (g : Gateway) (sess : AgentSession) (s : ConfigRun) : Prop where
  actor : s.gateway.actor.Inv
  granted : s.connected = true → s.gateway.actor.live sess → ∀ c ∈ s.stored? sess, c.2 ≠ 0 →
    (∀ spec ∈ c.1, g.validateSpec spec sess.scope = none) →
    (s.granted = true ↔ s.gateway.actor.Bound sess c.1)

end ConfigRun

namespace Gateway

variable {g : Gateway} {st : GatewayState} {sess : AgentSession}

theorem pushConfigOnConnect_idle (g : Gateway)
    (h : ∀ c ∈ st.agents.desiredConfig sess.agentID, c.2 = 0) :
    g.pushConfigOnConnect st sess = (none, st) := by
  unfold pushConfigOnConnect
  split
  · rfl
  · rename_i stored gen hd
    rw [if_pos (h (stored, gen) hd)]

theorem pushConfigOnConnect_serves (g : Gateway)
    (h : st.agents.desiredConfig sess.agentID = some (stored, gen)) (hgen : gen ≠ 0) :
    g.pushConfigOnConnect st sess =
      (if sess.reportedConfigHash = hashTunnels g.env (g.validSpecs sess.scope stored) ∧
          st.agentConfigGen sess = gen then none
        else some (g.pushOf gen (g.validSpecs sess.scope stored)),
      { st with actor := (st.actor.reconcile g sess (g.validSpecs sess.scope stored)).2 }) := by
  simp only [pushConfigOnConnect, h, if_neg hgen]
  split <;> rfl

theorem adoptProposal_unknown (g : Gateway)
    (h : st.agents.desiredConfig sess.agentID = none) (proposed : List TunnelSpec)
    (written : Bool) : g.adoptProposal st sess proposed written = (none, st) := by
  simp only [adoptProposal, h]

theorem adoptProposal_refuses (g : Gateway)
    (h : st.agents.desiredConfig sess.agentID = some (stored, gen))
    (hs : staleBasis st sess gen = true) (proposed : List TunnelSpec) (written : Bool) :
    g.adoptProposal st sess proposed written = (some (g.pushOf gen stored), st) := by
  simp only [adoptProposal, h, hs, if_true]

theorem adoptProposal_adopts (g : Gateway)
    (h : st.agents.desiredConfig sess.agentID = some (stored, gen))
    (hs : ¬staleBasis st sess gen = true) (proposed : List TunnelSpec) (written : Bool) :
    ∃ store : AgentStore,
      let pass := st.actor.reconcile g sess (g.validSpecs sess.scope proposed)
      let resolved := resolvePorts (g.validSpecs sess.scope proposed) pass.1
      g.adoptProposal st sess proposed written =
        (some (g.pushOf (gen + 1) resolved),
          GatewayState.storeGen { st with actor := pass.2, agents := store } sess (gen + 1)) ∧
      store.desiredConfig sess.agentID = some (resolved, gen + 1) := by
  let pass := st.actor.reconcile g sess (g.validSpecs sess.scope proposed)
  let resolved := resolvePorts (g.validSpecs sess.scope proposed) pass.1
  obtain ⟨store, ha, hstore⟩ : ∃ store,
      st.agents.adoptConfig sess.agentID resolved written = (some (gen + 1), store) ∧
      store.desiredConfig sess.agentID = some (resolved, gen + 1) := by
    have hnew := AgentStore.adoptConfig_gen st.agents sess.agentID resolved written
    refine ⟨_, Prod.ext (hnew.trans (by rw [h]; rfl)) rfl, ?_⟩
    rw [AgentStore.desiredConfig_adoptConfig, if_pos rfl, h]
    rfl
  refine ⟨store, ?_, hstore⟩
  simp only [adoptProposal, h, hs, Bool.false_eq_true, if_false]
  change g.adoptResolved { st with actor := pass.2 } sess resolved written = _
  simp only [adoptResolved, ha]
  rfl

theorem validSpecs_valid (h : spec ∈ g.validSpecs scope specs) :
    g.validateSpec spec scope = none := by
  simpa only [Option.isNone_iff_eq_none] using (List.mem_filter.1 h).2

theorem validSpecs_eq (h : ∀ spec ∈ specs, g.validateSpec spec scope = none) :
    g.validSpecs scope specs = specs :=
  List.filter_eq_self.2 fun spec hspec => Option.isNone_iff_eq_none.2 (h spec hspec)

/-- A reconcile leaves a set bound exactly when its binds get each tunnel the port of the set. -/
theorem bindsStored_iff (h : st.actor.Inv) (hs : st.actor.live sess) (valid : List TunnelSpec) :
    g.BindsStored st sess valid ↔ (st.actor.reconcile g sess valid).2.Bound sess valid := by
  have hport {spec : TunnelSpec} (hspec : spec ∈ valid) :=
    portOf_reconcile g h hs (List.mem_map_of_mem hspec)
  constructor
  · intro hall spec hspec
    have hbind := hall spec hspec
    rw [hport hspec]
    cases hlast : lastBind (g.passBinds st sess valid) spec.id with
    | none =>
      rw [hlast] at hbind
      exact hbind
    | some b =>
      obtain ⟨asked, o⟩ := b
      rw [hlast] at hbind
      obtain ⟨-, -, a, ho⟩ := mem_passBinds hlast
      cases o with
      | granted ln =>
        obtain ⟨hne, hask⟩ := hbind
        exact congrArg some (((Actor.opened_granted ho).1 hne).trans hask)
      | reassigned ln => exact congrArg some hbind
      | failed text => exact hbind.elim
  · intro hall spec hspec
    have hbound := hall spec hspec
    rw [hport hspec] at hbound
    cases hlast : lastBind (g.passBinds st sess valid) spec.id with
    | none =>
      rw [hlast] at hbound
      exact hbound
    | some b =>
      obtain ⟨asked, o⟩ := b
      rw [hlast] at hbound
      obtain ⟨hmem, hid, a, ho⟩ := mem_passBinds hlast
      cases o with
      | granted ln =>
        -- the spec that asked is in the set too, so the port is also the one that it says
        have hasked := hall asked hmem
        rw [hport hmem, hid, hlast] at hasked
        have hln : ln.port = asked.publicPort := Option.some.inj hasked
        have hlo := (Actor.opened_granted ho).2
        exact ⟨by omega, hln.symm.trans (Option.some.inj hbound)⟩
      | reassigned ln => exact Option.some.inj hbound
      | failed text => cases hbound

theorem portOf_isSome_iff (h : st.actor.Inv) (hs : st.actor.live sess)
    (hspec : spec ∈ valid) : ((st.actor.reconcile g sess valid).2.portOf sess spec.id).isSome ↔
      ∀ b ∈ lastBind (g.passBinds st sess valid) spec.id, b.2.port?.isSome := by
  have hi : spec.id ∈ valid.map (·.id) := List.mem_map_of_mem hspec
  rw [portOf_reconcile g h hs hi]
  cases hlast : lastBind (g.passBinds st sess valid) spec.id with
  | none =>
    have hbefore := Actor.portOf_of_no_bind hlast hi
    rw [portOf_unwanted h hs hi] at hbefore
    exact iff_of_true hbefore nofun
  | some b => simp only [Option.elim_some, Option.mem_some_iff, forall_eq']

theorem boundPort_portOf (h : st.actor.Inv) (hs : st.actor.live sess)
    (hi : i ∈ valid.map (·.id))
    (hp : (st.actor.reconcile g sess valid).2.portOf sess i = some p) :
    boundPort (st.actor.reconcile g sess valid).1 i = some p ∧ 1 ≤ p ∧ p ≤ 65535 := by
  obtain ⟨pl, hpl, rfl⟩ := Option.map_eq_some_iff.1 hp
  refine ⟨?_, (h.reconcile g sess valid).ranged _ _ _ hpl⟩
  rw [Actor.reconcile_live g hs] at hpl ⊢
  exact boundPort_listener (h.unbindAll sess _) g
    ((Actor.unbindAll_rebinds _ sess _).live hs) hi hpl

theorem bindsSucceed_resolved (h : st.actor.Inv) (hs : st.actor.live sess)
    (valid : List TunnelSpec) : g.BindsSucceed st sess valid ↔
      (st.actor.reconcile g sess valid).2.Bound sess
        (resolvePorts valid (st.actor.reconcile g sess valid).1) := by
  constructor
  · intro hall spec' hspec'
    obtain ⟨spec, hspec, rfl⟩ := List.mem_map.1 hspec'
    obtain ⟨p, hp⟩ := Option.isSome_iff_exists.1
      ((portOf_isSome_iff h hs hspec).2 (hall spec hspec))
    obtain ⟨hbound, -⟩ := boundPort_portOf h hs (List.mem_map_of_mem hspec) hp
    rw [hbound]
    exact hp
  · intro hall spec hspec
    refine (portOf_isSome_iff h hs hspec).1 ?_
    rw [hall _ (List.mem_map.2 ⟨spec, hspec, rfl⟩)]
    rfl

/-- The last bind of a valid tunnel leaves it with a permitted port exactly when it meets the
condition on its outcome. -/
theorem permittedBind_iff (h : st.actor.Inv) (hs : st.actor.live sess)
    (hvalid : ∀ spec ∈ valid, g.validateSpec spec sess.scope = none) (hspec : spec ∈ valid) :
    g.PermittedBind sess.scope (st.actor.portOf sess spec.id)
        (lastBind (g.passBinds st sess valid) spec.id) ↔
      ∃ p, (st.actor.reconcile g sess valid).2.portOf sess spec.id = some p ∧
        portPermitted sess.scope g.cfg.portAllowlist p = true := by
  have hi : spec.id ∈ valid.map (·.id) := List.mem_map_of_mem hspec
  have hsome := portOf_isSome_iff (g := g) h hs hspec
  have hleft := portOf_reconcile g h hs hi
  cases hlast : lastBind (g.passBinds st sess valid) spec.id with
  | none =>
    rw [hlast] at hsome hleft
    obtain ⟨p, hp⟩ := Option.isSome_iff_exists.1 (hsome.2 nofun)
    rw [hp] at hleft
    have hbefore : st.actor.portOf sess spec.id = some p := hleft.symm
    simp only [PermittedBind, hp, hbefore, Option.mem_some_iff, forall_eq', Option.some.injEq,
      exists_eq_left']
  | some b =>
    obtain ⟨asked, o⟩ := b
    obtain ⟨hmem, hid, a, ho⟩ := mem_passBinds hlast
    rw [hlast] at hleft
    cases o with
    | granted ln =>
      have hp : (st.actor.reconcile g sess valid).2.portOf sess spec.id = some ln.port := hleft
      obtain ⟨hport, hlo⟩ := Actor.opened_granted ho
      obtain ⟨-, -, hhi⟩ := boundPort_portOf h hs hi hp
      simp only [PermittedBind, hp, Option.some.injEq, exists_eq_left']
      refine ⟨fun hzero => ?_, fun hperm _ => hperm⟩
      by_cases hask : asked.publicPort = 0
      · exact hzero hask
      · refine (validateSpec_port (hvalid asked hmem) hlo hhi).1 ?_
        rw [hport hask]
        exact hvalid asked hmem
    | reassigned ln =>
      have hp : (st.actor.reconcile g sess valid).2.portOf sess spec.id = some ln.port := hleft
      exact iff_of_true trivial ⟨ln.port, hp, Actor.opened_reassigned ho⟩
    | failed text =>
      have hp : (st.actor.reconcile g sess valid).2.portOf sess spec.id = none := hleft
      refine iff_of_false not_false ?_
      rintro ⟨p, hsome, -⟩
      exact absurd (hp.symm.trans hsome) nofun

theorem bindsPermitted_serves (h : st.actor.Inv) (hs : st.actor.live sess)
    (specs : List TunnelSpec) :
    g.BindsPermitted st sess (g.validSpecs sess.scope specs) ↔
      ∀ spec ∈ resolvePorts (g.validSpecs sess.scope specs)
        (st.actor.reconcile g sess (g.validSpecs sess.scope specs)).1,
        g.Serves (st.actor.reconcile g sess (g.validSpecs sess.scope specs)).2 sess spec := by
  have hb := h.reconcile g sess (g.validSpecs sess.scope specs)
  have hlive := (Actor.reconcile_rebinds g st.actor sess (g.validSpecs sess.scope specs)).live hs
  have hvalid : ∀ spec ∈ g.validSpecs sess.scope specs, g.validateSpec spec sess.scope = none :=
    fun _ => validSpecs_valid
  constructor
  · intro hall spec' hspec'
    obtain ⟨spec, hspec, rfl⟩ := List.mem_map.1 hspec'
    obtain ⟨p, hp, hperm⟩ := (permittedBind_iff h hs hvalid hspec).1 (hall spec hspec)
    obtain ⟨hbound, hlo, hhi⟩ := boundPort_portOf h hs (List.mem_map_of_mem hspec) hp
    obtain ⟨pl, hpl, hln⟩ := Option.map_eq_some_iff.1 hp
    rw [hbound]
    exact ⟨(validateSpec_port (hvalid spec hspec) hlo hhi).2 hperm, pl, hpl,
      hb.owner hlive hpl, hln⟩
  · intro hall spec hspec
    obtain ⟨hv, pl, hpl, -, -⟩ := hall _ (List.mem_map.2 ⟨spec, hspec, rfl⟩)
    have hp : (st.actor.reconcile g sess (g.validSpecs sess.scope specs)).2.portOf sess spec.id =
        some pl.ln.port := congrArg (Option.map _) hpl
    obtain ⟨hbound, hlo, hhi⟩ := boundPort_portOf h hs (List.mem_map_of_mem hspec) hp
    rw [hbound] at hv
    exact (permittedBind_iff h hs hvalid hspec).2
      ⟨_, hp, (validateSpec_port (hvalid spec hspec) hlo hhi).1 hv⟩

end Gateway

namespace ConfigRun

theorem bound_congr {a b : Actor} {sess : AgentSession}
    (h : b.listeners.lookup sess.agentID = a.listeners.lookup sess.agentID)
    (specs : List TunnelSpec) : b.Bound sess specs ↔ a.Bound sess specs := by
  simp only [Actor.Bound, Actor.portOf, Actor.listener?, h]

theorem serves_iff {g : Gateway} {a : Actor} {sess : AgentSession} (h : a.Inv) (hs : a.live sess)
    (specs : List TunnelSpec) :
    (∀ spec ∈ specs, g.Serves a sess spec) ↔
      (∀ spec ∈ specs, g.validateSpec spec sess.scope = none) ∧ a.Bound sess specs := by
  constructor
  · intro hall
    refine ⟨fun spec hspec => (hall spec hspec).1, fun spec hspec => ?_⟩
    obtain ⟨-, pl, hpl, -, hp⟩ := hall spec hspec
    rw [Actor.portOf, hpl, Option.map_some, hp]
  · rintro ⟨hv, hb⟩ spec hspec
    obtain ⟨pl, hpl, hp⟩ := Option.map_eq_some_iff.1 (hb spec hspec)
    exact ⟨hv spec hspec, pl, hpl, h.owner hs hpl, hp⟩

variable {g : Gateway} {sess : AgentSession} {s : ConfigRun}

theorem pushesServed_iff (hr : s.turn g sess l = some r) :
    PushesServed g sess s l ↔ (r.2.gateway.actor.live sess →
      ∀ push ∈ r.1, ∀ spec ∈ push.tunnels, g.Serves r.2.gateway.actor sess spec) := by
  simp only [PushesServed, hr, Option.mem_some_iff, forall_eq']

theorem granted_of_no_config {t : ConfigRun} (ha : t.gateway.actor.Inv)
    (hc : ∀ c ∈ t.stored? sess, c.2 = 0) : t.Inv g sess :=
  ⟨ha, fun _ _ c hmem hne => absurd (hc c hmem) hne⟩

/-- The connect: what it pushes is served exactly when its ports hold, and `granted` tells whether
the stored set is. -/
theorem Inv.connect (h : s.Inv g sess) (hr : s.turn g sess .connect = some r) :
    r.2.Inv g sess ∧ (PushesServed g sess s .connect ↔ PortsHold g sess s .connect) := by
  rw [pushesServed_iff hr]
  simp only [turn] at hr
  split at hr
  · cases hr
  cases hr
  by_cases hnone : ∀ c ∈ s.stored? sess, c.2 = 0
  · rw [Gateway.pushConfigOnConnect_idle g hnone]
    exact ⟨granted_of_no_config h.actor hnone,
      iff_of_true (fun _ => nofun) fun _ c hc hne => absurd (hnone c hc) hne⟩
  · simp only [not_forall] at hnone
    obtain ⟨⟨stored, gen⟩, hd, hgen⟩ := hnone
    have hd : s.stored? sess = some (stored, gen) := hd
    have hgen : ¬gen = 0 := hgen
    let valid := g.validSpecs sess.scope stored
    have hconnect := Gateway.pushConfigOnConnect_serves g hd hgen
    have hback := Actor.reconcile_rebinds g s.gateway.actor sess valid
    have hinv := h.actor.reconcile g sess valid
    have hgranted :
      s.storedGranted g sess = true ↔ g.BindsStored s.gateway sess valid := by
      simp only [storedGranted, hd, Option.map_some, Option.getD_some, decide_eq_true_eq, valid]
    have hbound (hl : s.gateway.actor.live sess) :=
      Gateway.bindsStored_iff (g := g) h.actor hl valid
    rw [hconnect]
    refine ⟨⟨hinv, ?_⟩, ?_⟩
    · rintro - hl c hc - hall
      have hc : c = (stored, gen) := Option.some.inj (hc.symm.trans hd)
      subst hc
      have hvalid : valid = stored := Gateway.validSpecs_eq hall
      have hsame (a : Actor) : a.Bound sess valid ↔ a.Bound sess stored := by rw [hvalid]
      exact (hgranted.trans (hbound ((Actor.live_rebinds hback).1 hl))).trans (hsame _)
    · have hports : PortsHold g sess s .connect ↔ (s.gateway.actor.live sess →
          ¬(sess.reportedConfigHash = hashTunnels g.env valid ∧
            s.gateway.agentConfigGen sess = gen) →
          g.BindsStored s.gateway sess valid) := by
        simp only [PortsHold, hd, Option.mem_some_iff, forall_eq', ne_eq, hgen, not_false_eq_true,
          true_imp_iff, valid]
      rw [hports]
      have hserve (hl : s.gateway.actor.live sess) := serves_iff (g := g) hinv (hback.live hl) valid
      constructor
      · intro hall hl hdrift
        rw [if_neg hdrift] at hall
        have hserved := hall (hback.live hl) _ rfl
        exact (hbound hl).2 ((hserve hl).1 hserved).2
      · intro hall hl' push hp
        have hl := (Actor.live_rebinds hback).1 hl'
        split at hp
        · cases hp
        · rename_i hdrift
          cases hp
          exact (hserve hl).2 ⟨fun _ => Gateway.validSpecs_valid, (hbound hl).1 (hall hl hdrift)⟩

theorem Inv.propose (h : s.Inv g sess) (hr : s.turn g sess (.propose proposed written) = some r) :
    r.2.Inv g sess ∧
      (PushesServed g sess s (.propose proposed written) ↔
        PortsHold g sess s (.propose proposed written)) := by
  rw [pushesServed_iff hr]
  simp only [turn] at hr
  split at hr
  · cases hr
  rename_i hcon
  rw [not_not] at hcon
  cases hr
  cases hd : s.stored? sess with
  | none =>
    have hp := Gateway.adoptProposal_unknown g hd proposed written
    have hnone : ∀ c ∈ s.stored? sess, c.2 = 0 := by
      rw [hd]
      exact nofun
    rw [hp]
    refine ⟨granted_of_no_config h.actor hnone, iff_of_true (fun _ => nofun) ?_⟩
    intro _ c hc
    rw [hd] at hc
    cases hc
  | some c =>
    obtain ⟨stored, gen⟩ := c
    have hports : PortsHold g sess s (.propose proposed written) ↔ (s.gateway.actor.live sess →
        if Gateway.staleBasis s.gateway sess gen then
          (∀ spec ∈ stored, g.validateSpec spec sess.scope = none) ∧ s.granted = true
        else g.BindsPermitted s.gateway sess (g.validSpecs sess.scope proposed)) := by
      simp only [PortsHold, hd, Option.mem_some_iff, forall_eq']
    rw [hports]
    by_cases hstale : Gateway.staleBasis s.gateway sess gen = true
    · have hp := Gateway.adoptProposal_refuses g hd hstale proposed written
      have hgen : gen ≠ 0 := by
        simp only [Gateway.staleBasis, decide_eq_true_eq] at hstale
        exact hstale.1
      have hgranted : s.proposedGranted g sess proposed = s.granted := by
        simp only [proposedGranted, hd, Option.any_some, hstale, if_true]
      rw [hp, hgranted, if_pos hstale]
      refine ⟨⟨h.actor, fun _ => h.granted hcon⟩, ?_⟩
      constructor
      · intro hall hl
        obtain ⟨hv, hb⟩ := (serves_iff h.actor hl stored).1 (hall hl _ rfl)
        exact ⟨hv, (h.granted hcon hl _ hd hgen hv).2 hb⟩
      · rintro hall hl push ⟨⟩
        obtain ⟨hv, hgr⟩ := hall hl
        exact (serves_iff h.actor hl stored).2 ⟨hv, (h.granted hcon hl _ hd hgen hv).1 hgr⟩
    · let valid := g.validSpecs sess.scope proposed
      let pass := s.gateway.actor.reconcile g sess valid
      let resolved := Gateway.resolvePorts valid pass.1
      obtain ⟨store, hp, hstore⟩ := Gateway.adoptProposal_adopts g hd hstale proposed written
      have hgranted : s.proposedGranted g sess proposed = true ↔
          g.BindsSucceed s.gateway sess valid := by
        simp only [proposedGranted, hd, Option.any_some, hstale, Bool.false_eq_true, if_false,
          decide_eq_true_eq, valid]
      have hback := Actor.reconcile_rebinds g s.gateway.actor sess valid
      rw [hp, if_neg hstale]
      refine ⟨⟨h.actor.reconcile g sess valid, ?_⟩, ?_⟩
      · rintro - hl c hc - -
        have hc : c = (resolved, gen + 1) := Option.some.inj (hc.symm.trans hstore)
        subst hc
        exact hgranted.trans
          (Gateway.bindsSucceed_resolved h.actor ((Actor.live_rebinds hback).1 hl) valid)
      · constructor
        · intro hall hl
          exact (Gateway.bindsPermitted_serves h.actor hl proposed).2 (hall (hback.live hl) _ rfl)
        · rintro hall hl push ⟨⟩
          have hl' := (Actor.live_rebinds hback).1 hl
          exact (Gateway.bindsPermitted_serves h.actor hl' proposed).1 (hall hl')

theorem Inv.step (h : s.Inv g sess) (ht : s.step g sess l = some t) :
    t.Inv g sess ∧ (PushesServed g sess s l ↔ PortsHold g sess s l) := by
  obtain ⟨r, hr, rfl⟩ := Option.map_eq_some_iff.1 ht
  cases l with
  | connect => exact h.connect hr
  | propose proposed written => exact h.propose hr
  | ack ack =>
    rw [pushesServed_iff hr]
    simp only [turn] at hr
    split at hr
    · cases hr
    · cases hr
      exact ⟨⟨h.actor, h.granted⟩, iff_of_true (fun _ => nofun) trivial⟩
  | command c =>
    rw [pushesServed_iff hr]
    simp only [turn] at hr
    split at hr
    · cases hr
    · rename_i hby
      cases hr
      refine ⟨⟨Gateway.exec_inv g h.actor c, ?_⟩, iff_of_true (fun _ => nofun) trivial⟩
      intro hcon hl cfg hc hne hv
      obtain ⟨hbefore, hsame⟩ := Gateway.exec_others h.actor hby hl
      rw [bound_congr hsame]
      have hc' : s.stored? sess = some cfg :=
        (Gateway.exec_desiredConfig g s.gateway c sess.agentID).symm.trans hc
      exact h.granted hcon hbefore cfg hc' hne hv

end ConfigRun

/-- Along every run of a session, from any reachable state, what it pushes while live is served if
and only if at every step its ports hold. -/
theorem pushes_served_iff (g : Gateway) (store : AgentStore) (cmds : List Command)
    (sess : AgentSession) (steps : List ConfigStep) :
    let s : ConfigRun := ⟨g.run (GatewayState.start store) cmds, false, false⟩
    Runs.Along (ConfigRun.step g sess) (ConfigRun.PushesServed g sess) s steps ↔
      Runs.Along (ConfigRun.step g sess) (ConfigRun.PortsHold g sess) s steps :=
  Runs.along_congr (I := ConfigRun.Inv g sess) (fun _ _ _ h ht => h.step ht)
    ⟨Gateway.run_inv g Actor.newActor_inv cmds, nofun⟩

/-- Another agent holds port 8080: the tunnel is reassigned at the connect, and 8080 pushed. -/
theorem reassigned_port_pushed_as_stored :
    let other := AgentSession.plain 1 "b"
    let sess := atGeneration 1 (AgentSession.plain 2 "a")
    let store := oneAgent [TunnelSpec.plain "t" 8080]
    let cmds := [.admitSession other, .bindTunnel other (TunnelSpec.plain "u" 8080),
      .admitSession sess]
    ¬Runs.Along (ConfigRun.step idleGateway sess) (ConfigRun.PushesServed idleGateway sess)
      ⟨idleGateway.run (GatewayState.start store) cmds, false, false⟩ [.connect] := by
  decide

end ProxyForward

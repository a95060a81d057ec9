import ProxyForward.ControlSession

namespace ProxyForward
set_option autoImplicit true

/-- A gateway-config session with the last push that the agent applied. -/
structure EchoSession where
  session : ControlSession
  applied : Option PushConfig

namespace EchoSession

def start (agent : Agent) (st : GatewayState) (sess : AgentSession) : EchoSession :=
  ⟨ControlSession.start agent st sess, none⟩

/-- The push that a step makes the agent apply. -/
def appliedBy (s : EchoSession) : SessionStep → Option PushConfig
  | .receive => s.session.down.head?.bind GatewayFrame.push?
  | _ => none

def step (g : Gateway) (sess : AgentSession) (s : EchoSession) (l : SessionStep) :
    Option EchoSession :=
  (s.session.step g sess l).map fun t => ⟨t, (s.appliedBy l).or s.applied⟩

end EchoSession

instance (pl pl' : PublicListener) : Decidable (pl.SameAs pl') :=
  inferInstanceAs (Decidable (_ ∧ _ ∧ _))

/-- The session's listener of the tunnel is the same object as before. -/
def Actor.Keeps (a b : Actor) (sess : AgentSession) (tunnelID : String) : Prop :=
  ∀ pl ∈ a.listener? sess.agentID tunnelID, ∃ pl' ∈ b.listener? sess.agentID tunnelID, pl.SameAs pl'

instance (a b : Actor) (sess : AgentSession) (tunnelID : String) :
    Decidable (a.Keeps b sess tunnelID) :=
  inferInstanceAs (Decidable (∀ pl ∈ a.listener? sess.agentID tunnelID,
    ∃ pl' ∈ b.listener? sess.agentID tunnelID, pl.SameAs pl'))

namespace Actor

theorem reconcileSpecs_keeps {a : Actor} {sess : AgentSession} {specs : List TunnelSpec}
    (g : Gateway)
    (honly : ∀ other ∈ specs, other.id = spec.id → other = spec)
    (hpl : a.listener? sess.agentID spec.id = some pl) (hsame : sameListener pl.spec spec = true) :
    ∃ pl' ∈ (a.reconcileSpecs g sess specs).2.listener? sess.agentID spec.id, pl.SameAs pl' := by
  induction specs generalizing a pl with
  | nil => exact ⟨pl, hpl, rfl, rfl, rfl⟩
  | cons s rest ih =>
    obtain ⟨hs, honly⟩ := List.forall_mem_cons.1 honly
    by_cases hid : s.id = spec.id
    · obtain rfl := hs hid
      obtain ⟨pl₁, hpl₁, hspec, howner, hln⟩ := reconcileSpec_keeps g
        (kept?_of_sameListener hpl hsame)
      obtain ⟨pl₂, hpl₂, hspec', howner', hln'⟩ := ih honly hpl₁ (hspec.symm ▸ hsame)
      exact ⟨pl₂, hpl₂, hspec'.trans hspec, howner'.trans howner, hln'.trans hln⟩
    · have hpl := (reconcileSpec_others g a sess s fun hc => hid hc.2.symm).trans hpl
      exact ih honly hpl hsame

theorem reconcileSpecs_serves {a : Actor} {sess : AgentSession} {specs : List TunnelSpec}
    (g : Gateway)
    (honly : ∀ other ∈ specs, other.id = spec.id → other = spec)
    (hstart : spec ∈ specs ∨
      ∀ pl ∈ a.listener? sess.agentID spec.id, sameListener pl.spec spec = true)
    (hpl : (a.reconcileSpecs g sess specs).2.listener? sess.agentID spec.id = some pl) :
    sameListener pl.spec spec = true := by
  induction specs generalizing a with
  | nil => exact hstart.resolve_left List.not_mem_nil pl hpl
  | cons s rest ih =>
    obtain ⟨hs, honly⟩ := List.forall_mem_cons.1 honly
    refine ih (a := (a.reconcileSpec g sess s).2) honly ?_ hpl
    by_cases hid : s.id = spec.id
    · obtain rfl := hs hid
      exact .inr fun pl hpl => (reconcileSpec_self g a sess s).2 pl hpl
    · have hbefore := reconcileSpec_others g a sess s (i := sess.agentID) (t := spec.id) fun hc =>
        hid hc.2.symm
      rw [hbefore]
      refine hstart.imp_left fun hmem => (List.mem_cons.1 hmem).resolve_left ?_
      rintro rfl
      exact hid rfl

/-- A reconcile keeps a listener of the session exactly when the one spec of its id is served by
it. -/
theorem Inv.reconcile_keeps_iff {a : Actor} {sess : AgentSession} {desired : List TunnelSpec}
    (h : a.Inv)
    (g : Gateway) (hs : a.live sess) (hspec : spec ∈ desired)
    (honly : ∀ other ∈ desired, other.id = spec.id → other = spec)
    (hpl : a.listener? sess.agentID spec.id = some pl) :
    a.Keeps (a.reconcile g sess desired).2 sess spec.id ↔ sameListener pl.spec spec = true := by
  have hstart :
      (a.unbindAll sess (a.unwanted sess desired)).listener? sess.agentID spec.id = some pl := by
    rw [listener?_unwanted h hs, if_pos (List.mem_map_of_mem hspec), hpl]
  rw [reconcile_live g hs, Keeps, hpl]
  simp only [Option.mem_some_iff, forall_eq']
  constructor
  · rintro ⟨pl', hpl', hsame⟩
    rw [← hsame.1]
    exact reconcileSpecs_serves g honly (.inl hspec) hpl'
  · exact reconcileSpecs_keeps g honly hstart

end Actor

namespace Gateway

variable {g : Gateway} {st : GatewayState} {sess : AgentSession}

/-- An adoption keeps a listener exactly when the proposal's spec is valid and served by it. -/
theorem adoption_keeps_iff (h : st.actor.Inv) (hs : st.actor.live sess)
    (hd : st.agents.desiredConfig sess.agentID = some (stored, gen))
    (hbasis : ¬staleBasis st sess gen = true) {proposed : List TunnelSpec} (hspec : spec ∈ proposed)
    (honly : ∀ other ∈ proposed, other.id = spec.id → other = spec)
    (hpl : st.actor.listener? sess.agentID spec.id = some pl) (written : Bool) :
    st.actor.Keeps (g.adoptProposal st sess proposed written).2.actor sess spec.id ↔
      g.validateSpec spec sess.scope = none ∧ sameListener pl.spec spec = true := by
  obtain ⟨store, hadopt, -⟩ := adoptProposal_adopts g hd hbasis proposed written
  have hactor : (g.adoptProposal st sess proposed written).2.actor =
      (st.actor.reconcile g sess (g.validSpecs sess.scope proposed)).2 := by
    rw [hadopt]
    rfl
  rw [hactor]
  by_cases hv : g.validateSpec spec sess.scope = none
  · have hvalid : spec ∈ g.validSpecs sess.scope proposed :=
      List.mem_filter.2 ⟨hspec, Option.isNone_iff_eq_none.2 hv⟩
    rw [h.reconcile_keeps_iff g hs hvalid
      (fun other hother => honly other (List.mem_filter.1 hother).1) hpl,
      and_iff_right hv]
  · have hgone : spec.id ∉ (g.validSpecs sess.scope proposed).map (·.id) := by
      intro hmem
      obtain ⟨other, hother, hid⟩ := List.mem_map.1 hmem
      obtain ⟨hother, hvalid⟩ := List.mem_filter.1 hother
      rw [honly other hother hid] at hvalid
      exact hv (Option.isNone_iff_eq_none.1 hvalid)
    rw [Actor.Keeps, hpl, h.reconcile_gone g hs hgone]
    simp only [Option.mem_some_iff, forall_eq', Option.not_mem_none, false_and, exists_false, hv]

end Gateway

/-- After a pass, the spec that is pushed for a listener is the one it was bound for if and only if
the listener has the port that it was asked for. -/
theorem Gateway.pushed_sameListener_iff {st : GatewayState} {sess : AgentSession}
    {specs : List TunnelSpec}
    (h : st.actor.Inv) (g : Gateway) (hs : st.actor.live sess) (hd : (specs.map (·.id)).Nodup)
    (hspec : spec ∈ resolvePorts specs (st.actor.reconcile g sess specs).1)
    (hpl : (st.actor.reconcile g sess specs).2.listener? sess.agentID spec.id = some pl) :
    sameListener pl.spec spec = true ↔ pl.spec.publicPort = pl.ln.port := by
  obtain ⟨asked, hasked, rfl⟩ := List.mem_map.1 hspec
  have hpl : (st.actor.reconcile g sess specs).2.listener? sess.agentID asked.id = some pl := hpl
  have hsame := h.reconcile_same g hs hd hasked hpl
  obtain ⟨hbound, -⟩ := boundPort_portOf h hs (List.mem_map_of_mem hasked)
    (show (st.actor.reconcile g sess specs).2.portOf sess asked.id = some pl.ln.port from
      congrArg (Option.map _) hpl)
  rw [hbound, Option.getD_some]
  simp only [sameListener, Bool.and_eq_true, decide_eq_true_eq] at hsame ⊢
  obtain ⟨⟨⟨⟨⟨hid, hname⟩, htype⟩, -⟩, hmotd⟩, haware⟩ := hsame
  simp only [hid, hname, htype, hmotd, haware, true_and, and_true]

namespace EchoSession

/-- Adopting a proposal that repeats a spec of the last applied push keeps the tunnel's listener. -/
def EchoKeeps (g : Gateway) (sess : AgentSession) (s : EchoSession) (proposed : List TunnelSpec)
    (written : Bool) (spec : TunnelSpec) : Prop :=
  s.session.gateway.actor.Keeps (g.adoptProposal s.session.gateway sess proposed written).2.actor
    sess spec.id

theorem reaches_inv {g : Gateway} {sess : AgentSession} {s t : EchoSession} {ls : List SessionStep}
    (h : s.session.gateway.actor.Inv) (hs : Runs.Reaches (step g sess) s ls t) :
    t.session.gateway.actor.Inv := by
  refine hs.invariant (I := fun s => s.session.gateway.actor.Inv) (fun s l t h ht => ?_) h
  obtain ⟨u, hu, rfl⟩ := Option.map_eq_some_iff.1 ht
  exact ControlSession.step_inv h hu

end EchoSession

/-- In every reachable state of a live session, the adoption of a proposal that repeats a spec of
the last applied push keeps that tunnel's listener if and only if the spec is valid and the listener
was bound for it. -/
theorem reproposal_keeps_iff (g : Gateway) (store : AgentStore) (cmds : List Command)
    (agent : Agent)
    (sess : AgentSession) (ls : List SessionStep) (s : EchoSession)
    (hs : Runs.Reaches (EchoSession.step g sess)
      (.start agent (g.run (GatewayState.start store) cmds) sess) ls s)
    (hl : s.session.gateway.actor.live sess) (stored : List TunnelSpec) (gen : Nat)
    (hd : s.session.stored? sess = some (stored, gen))
    (hbasis : ¬Gateway.staleBasis s.session.gateway sess gen = true)
    (proposed : List TunnelSpec) (written : Bool) :
    ∀ push ∈ s.applied, ∀ spec ∈ push.tunnels, spec ∈ proposed →
      (∀ other ∈ proposed, other.id = spec.id → other = spec) →
      ∀ pl, s.session.gateway.actor.listener? sess.agentID spec.id = some pl →
        (s.EchoKeeps g sess proposed written spec ↔
          g.validateSpec spec sess.scope = none ∧ sameListener pl.spec spec = true) := by
  intro push _ spec _ hspec honly pl hpl
  have hinv := EchoSession.reaches_inv (Gateway.run_inv g Actor.newActor_inv cmds) hs
  exact Gateway.adoption_keeps_iff hinv hl hd hbasis hspec honly hpl written

/-- An agent's tunnel with a port of its own is pushed, and proposed again beside a new one. -/
theorem reproposal_keeps_iff_named :
    let s := (Runs.final (EchoSession.step idleGateway configSession)
      (.start (agentAt 1 []) (servedConfig []) configSession)
      [.connect, .register, .edit (oneTunnel "t" 8080), .sendEdit, .handle true, .receive]).get
        (by decide)
    ∀ push ∈ s.applied, ∀ spec ∈ push.tunnels,
      spec ∈ [TunnelSpec.plain "t" 8080, TunnelSpec.plain "u" 8081] →
      (∀ other ∈ [TunnelSpec.plain "t" 8080, TunnelSpec.plain "u" 8081], other.id = spec.id →
        other = spec) →
      ∀ pl, s.session.gateway.actor.listener? configSession.agentID spec.id = some pl →
        (s.EchoKeeps idleGateway configSession
          [TunnelSpec.plain "t" 8080, TunnelSpec.plain "u" 8081] true spec ↔
          idleGateway.validateSpec spec configSession.scope = none ∧
            sameListener pl.spec spec = true) :=
  reproposal_keeps_iff idleGateway (oneAgent []) [.admitSession configSession] (agentAt 1 [])
    configSession _ _
    (Runs.reaches_of_final (Option.some_get _).symm) (by decide)
    [TunnelSpec.plain "t" 8080] 2 (by decide) (by decide) _ true

/-- The tunnel asked for port 0 and got 49152, which is pushed: proposed as pushed, it is bound
again. -/
theorem reproposal_rebinds :
    ¬∀ (g : Gateway) (store : AgentStore) (cmds : List Command) (agent : Agent)
      (sess : AgentSession)
      (ls : List SessionStep) (s : EchoSession),
      Runs.Reaches (EchoSession.step g sess)
        (.start agent (g.run (GatewayState.start store) cmds) sess) ls s →
      s.session.gateway.actor.live sess →
      ∀ stored gen, s.session.stored? sess = some (stored, gen) →
      ¬Gateway.staleBasis s.session.gateway sess gen = true → ∀ proposed written,
      ∀ push ∈ s.applied, ∀ spec ∈ push.tunnels, spec ∈ proposed →
        (∀ other ∈ proposed, other.id = spec.id → other = spec) →
        s.EchoKeeps g sess proposed written spec := by
  intro h
  let ls : List SessionStep :=
    [.connect, .register, .edit (oneTunnel "t" 0), .sendEdit, .handle true, .receive, .sendAck,
    .handle true]
  let echoed := TunnelSpec.plain "t" 49152
  obtain ⟨s, hs⟩ : ∃ s, Runs.final (EchoSession.step idleGateway configSession)
      (.start (agentAt 1 []) (servedConfig []) configSession) ls = some s :=
    Option.isSome_iff_exists.1 (by decide)
  have hfacts : ∀ s ∈ Runs.final (EchoSession.step idleGateway configSession)
      (.start (agentAt 1 []) (servedConfig []) configSession) ls,
      s.session.gateway.actor.live configSession ∧
        s.session.stored? configSession = some ([echoed], 2) ∧
      ¬Gateway.staleBasis s.session.gateway configSession 2 = true ∧
      s.applied = some (idleGateway.pushOf 2 [echoed]) ∧
      ¬s.session.gateway.actor.Keeps
        (idleGateway.adoptProposal s.session.gateway configSession [echoed] true).2.actor
          configSession "t" := by
    decide
  obtain ⟨hlive, hstored, hbasis, happlied, hrebound⟩ := hfacts s hs
  exact hrebound (h idleGateway (oneAgent []) [.admitSession configSession] (agentAt 1 [])
    configSession ls s
    (Runs.reaches_of_final hs) hlive _ _ hstored hbasis [echoed] true _ happlied echoed
    List.mem_cons_self
    List.mem_cons_self fun other hother _ => List.mem_singleton.1 hother)

end ProxyForward

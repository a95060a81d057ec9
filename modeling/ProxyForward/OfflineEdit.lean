import ProxyForward.Convergence
import ProxyForward.Serving

namespace ProxyForward
set_option autoImplicit true

/-- A session, and the outcomes of what its frames asked the gateway to bind. -/
structure LoggedSession where
  session : ControlSession
  binds : List ReconcileOutcome

namespace Gateway

/-- What the gateway tries to bind for a fresh control stream. -/
def connectBinds (g : Gateway) (st : GatewayState) (sess : AgentSession) :
    List ReconcileOutcome :=
  if sess.enrolled && sess.has capGatewayConfig then
    match st.agents.desiredConfig sess.agentID with
    | none => []
    | some (stored, gen) =>
      if gen = 0 then [] else (st.actor.reconcile g sess (g.validSpecs sess.scope stored)).1
  else []

/-- What it tries to bind for a frame. -/
def frameBinds (g : Gateway) (st : GatewayState) (sess : AgentSession) :
    AgentFrame → List ReconcileOutcome
  | .proposeConfig proposed _ =>
    if sess.enrolled && sess.has capGatewayConfig then
      match st.agents.desiredConfig sess.agentID with
      | none => []
      | some (_, gen) =>
        if staleBasis st sess gen then []
        else (st.actor.reconcile g sess (g.validSpecs sess.scope proposed)).1
    else []
  | .syncTunnels sync =>
    if sess.has capTunnelSync then
      (st.actor.reconcile g sess (g.validSpecs sess.scope sync.tunnels)).1
    else []
  | .register spec => [g.registration st.actor sess spec]
  | .configAck _ | .unregister _ => []

end Gateway

namespace LoggedSession

def newBinds (g : Gateway) (sess : AgentSession) (s : ControlSession) :
    SessionStep → List ReconcileOutcome
  | .connect => g.connectBinds s.gateway sess
  | .handle _ => s.up.head?.elim [] (g.frameBinds s.gateway sess)
  | _ => []

def step (g : Gateway) (sess : AgentSession) (s : LoggedSession) (l : SessionStep) :
    Option LoggedSession :=
  (s.session.step g sess l).map fun t => ⟨t, s.binds ++ newBinds g sess s.session l⟩

end LoggedSession

def Tunnel.atPort (t : Tunnel) (port : Int) : Tunnel := { t with publicPort := port }

/-- The session has a listener of an id on a port. -/
def Actor.ListensOn (a : Actor) (sess : AgentSession) (i : String) (port : Int) : Prop :=
  ∃ pl, a.listener? sess.agentID i = some pl ∧ pl.ln.port = port

/-- The agent has every enabled tunnel of an edit and no other, and the gateway serves those that
the session's scope and its policy permit. Only a public port can differ, where the gateway bound
another one. -/
structure LoggedSession.Reflects (g : Gateway) (sess : AgentSession) (new : TunnelSet)
    (s : LoggedSession) : Prop where
  only : s.session.gateway.actor.ServesOnly sess (enabledSpecs new.tunnels)
  served : ∀ spec ∈ g.validSpecs sess.scope (enabledSpecs new.tunnels),
    s.session.gateway.actor.Attempted sess s.binds spec
  single : ∀ u ∈ s.session.agent.snapshotTunnels, ∀ v ∈ s.session.agent.snapshotTunnels,
    u.id = v.id → u = v
  shown : ∀ u ∈ s.session.agent.snapshotTunnels, ∃ t ∈ new.tunnels, t.enabled = true ∧
    u = t.atPort u.publicPort ∧ (u.publicPort = t.publicPort ∨
      s.session.gateway.actor.ListensOn sess t.id u.publicPort)
  held : ∀ t ∈ new.tunnels, t.enabled = true →
    ∃ u ∈ s.session.agent.snapshotTunnels, u = t.atPort u.publicPort

/-- The connect makes no difference to an edit: the gateway has no config of the agent yet and
permits all of the edit, or what it permits of its config is the edit. -/
def EditSafe (g : Gateway) (st : GatewayState) (sess : AgentSession) (new : TunnelSet) : Prop :=
  sess.has capGatewayConfig = true →
    ∀ c ∈ st.agents.desiredConfig sess.agentID,
      if c.2 = 0 then
        ∀ spec ∈ enabledSpecs new.tunnels, g.validateSpec spec sess.scope = none
      else ∀ spec, spec ∈ g.validSpecs sess.scope c.1 ↔ spec ∈ enabledSpecs new.tunnels

/-- A session that was just admitted for an agent. -/
structure Joined (g : Gateway) (agent : Agent) (st : GatewayState)
    (sess : AgentSession) : Prop where
  inv : st.actor.Inv
  fresh : ∀ t, st.actor.listener? sess.agentID t = none
  counted : st.agentConfigGen sess = sess.configGeneration
  config : sess.has capGatewayConfig = true → sess.enrolled = true ∧
    sess.Reports g.env agent ∧ (st.agents.desiredConfig sess.agentID).isSome

theorem mem_enabledSpecs :
    spec ∈ enabledSpecs ts ↔ ∃ t ∈ ts, t.enabled = true ∧ specFromTunnel t = spec := by
  simp only [enabledSpecs, List.mem_map, List.mem_filter, and_assoc]

theorem mem_snapshotTunnels {agent : Agent} :
    u ∈ agent.snapshotTunnels ↔ u ∈ agent.tunnels ∧ u.enabled = true := by
  simp only [Agent.snapshotTunnels, List.mem_filter]

theorem Gateway.mem_validSpecs {g : Gateway} :
    spec ∈ g.validSpecs scope specs ↔ spec ∈ specs ∧ g.validateSpec spec scope = none := by
  simp only [validSpecs, List.mem_filter, Option.isNone_iff_eq_none]

theorem TunnelSet.unique (set : TunnelSet) {t u : Tunnel} (ht : t ∈ set.tunnels)
    (hu : u ∈ set.tunnels) (hid : t.id = u.id) : t = u :=
  List.inj_on_of_nodup_map set.distinct ht hu hid

theorem TunnelSet.keyed (set : TunnelSet) : KeyedSpecs (enabledSpecs set.tunnels) := by
  intro x hx y hy hid
  obtain ⟨t, ht, -, rfl⟩ := mem_enabledSpecs.1 hx
  obtain ⟨u, hu, -, rfl⟩ := mem_enabledSpecs.1 hy
  rw [set.unique ht hu hid]

theorem KeyedSpecs.mono {xs ys : List TunnelSpec} (h : KeyedSpecs ys) (hs : ∀ x ∈ xs, x ∈ ys) :
    KeyedSpecs xs :=
  fun x hx y hy => h x (hs x hx) y (hs y hy)

theorem TunnelSet.keyed_valid (set : TunnelSet) (g : Gateway) (scope : Scope) :
    KeyedSpecs (g.validSpecs scope (enabledSpecs set.tunnels)) :=
  set.keyed.mono fun _ hspec => (Gateway.mem_validSpecs.1 hspec).1

/-- A frame of a registration of the set. -/
def AgentFrame.Offers (sess : AgentSession) (specs : List TunnelSpec) : AgentFrame → Prop
  | .syncTunnels sync => sess.has capTunnelSync = true ∧ sync.tunnels = specs
  | .register spec => spec ∈ specs
  | _ => False

def AgentFrame.Asks (spec : TunnelSpec) : AgentFrame → Prop
  | .syncTunnels sync => spec ∈ sync.tunnels
  | .register s => s = spec
  | _ => False

/-- The frames the gateway has yet to handle, the ones that are not written yet included. -/
def ControlSession.queued (s : ControlSession) : List AgentFrame :=
  s.up ++ s.registration.getD []

/-- A session that registers the set frame by frame or in one frame. -/
structure LoggedSession.Registering (g : Gateway) (sess : AgentSession) (new : TunnelSet)
    (s : LoggedSession) : Prop where
  editing : s.session.editing = []
  tunnels : s.session.agent.tunnels = new.tunnels
  acking : s.session.acking = none
  silent : ∀ f ∈ s.session.down, f.push? = none
  offers : ∀ f ∈ s.session.queued, f.Offers sess (enabledSpecs new.tunnels)
  provides : s.session.gateway.actor.Provides sess
    (g.validSpecs sess.scope (enabledSpecs new.tunnels))
    (fun spec => s.session.registration = none ∨ ∃ f ∈ s.session.queued, f.Asks spec) s.binds

section Registering

variable {g : Gateway} {sess : AgentSession} {new : TunnelSet}

theorem registerTunnels_offers (s : ControlSession) (sess : AgentSession)
    (hcap : sess.has capGatewayConfig = false)
    (ht : s.agent.tunnels = new.tunnels) :
    ∃ fs seq, s.registerTunnels sess = { s with registration := some fs, syncSeq := seq } ∧
      (∀ f ∈ fs, f.Offers sess (enabledSpecs new.tunnels)) ∧
      ∀ spec ∈ enabledSpecs new.tunnels, ∃ f ∈ fs, f.Asks spec := by
  have hspecs : enabledSpecs s.agent.snapshotTunnels = enabledSpecs new.tunnels := by
    rw [enabledSpecs_snapshotTunnels, ht]
  unfold ControlSession.registerTunnels
  rw [if_neg (hcap ▸ Bool.false_ne_true)]
  by_cases hsync : sess.has capTunnelSync = true
  · rw [if_pos hsync]
    refine ⟨_, _, rfl, fun f hf => ?_, fun spec hspec => ⟨_, List.mem_singleton_self _, ?_⟩⟩
    · rw [List.mem_singleton.1 hf]
      exact ⟨hsync, hspecs⟩
    · exact hspecs ▸ hspec
  · rw [if_neg hsync]
    refine ⟨_, s.syncSeq, rfl, fun f hf => ?_, fun spec hspec => ?_⟩
    · obtain ⟨t, hmem, rfl⟩ := List.mem_map.1 hf
      rw [mem_snapshotTunnels, ht] at hmem
      exact mem_enabledSpecs.2 ⟨t, hmem.1, hmem.2, rfl⟩
    · obtain ⟨t, hmem, hon, rfl⟩ := mem_enabledSpecs.1 hspec
      refine ⟨_, List.mem_map_of_mem (mem_snapshotTunnels.2 ⟨ht ▸ hmem, hon⟩), rfl⟩

theorem provides_offered {st : GatewayState} {waiting : TunnelSpec → Prop}
    (h : st.actor.Provides sess (g.validSpecs sess.scope (enabledSpecs new.tunnels)) waiting log)
    (hf : f.Offers sess (enabledSpecs new.tunnels)) (written : Bool) :
    (g.handleControlMsg st sess written f).1.bind GatewayFrame.push? = none ∧
      (g.handleControlMsg st sess written f).2.actor.Provides sess
        (g.validSpecs sess.scope (enabledSpecs new.tunnels))
        (fun spec => waiting spec ∧ ¬f.Asks spec) (log ++ g.frameBinds st sess f) := by
  cases f with
  | proposeConfig | configAck | unregister => cases hf
  | syncTunnels sync =>
    refine ⟨(Gateway.handleControlMsg_other g st sess rfl written).2.2, ?_⟩
    simp only [Gateway.handleControlMsg, Gateway.frameBinds, if_pos hf.1, Gateway.syncTunnels]
    refine (h.reconcile g fun spec => ?_).mono fun _ _ => False.elim
    rw [hf.2]
  | register spec =>
    refine ⟨(Gateway.handleControlMsg_other g st sess rfl written).2.2, ?_⟩
    have hactor : (g.handleControlMsg st sess written (.register spec)).2.actor =
        (g.bindTunnel st.actor sess spec).2 := by
      simp only [Gateway.handleControlMsg]
      split <;> simp only [*]
    have hspec : spec ∈ g.validSpecs sess.scope (enabledSpecs new.tunnels) ↔
        g.validateSpec spec sess.scope = none := by
      rw [Gateway.mem_validSpecs]
      exact and_iff_right hf
    rw [hactor]
    exact (h.bindTunnel g hspec).mono fun s _ hw => ⟨hw.1, fun hc => hw.2 hc.symm⟩

theorem LoggedSession.Registering.step {s : LoggedSession} {l : SessionStep} {t : ControlSession}
    (h : s.Registering g sess new) (hcap : sess.has capGatewayConfig = false)
    (hl : ∀ set, l ≠ .edit set) (hm : s.session.Moves g sess l t) :
    Registering g sess new ⟨t, s.binds ++ newBinds g sess s.session l⟩ := by
  have hp := h.provides
  have ho := h.offers
  have hquiet (hb : newBinds g sess s.session l = []) :
      s.binds ++ newBinds g sess s.session l = s.binds := by
    rw [hb, List.append_nil]
  cases hm with
  | connect hidle =>
    have hbinds : newBinds g sess s.session .connect = [] := by
      simp only [newBinds, Gateway.connectBinds, hcap, Bool.and_false, Bool.false_eq_true, if_false]
    rw [Gateway.serveControl_unconfigured g _ hcap, hquiet hbinds]
    exact ⟨h.editing, h.tunnels, h.acking,
      fun f hf => h.silent f (List.append_nil s.session.down ▸ hf), ho, hp⟩
  | register hreg =>
    obtain ⟨fs, seq, he, hoffers, hasks⟩ :=
      registerTunnels_offers s.session sess hcap h.tunnels
    rw [he]
    refine ⟨h.editing, h.tunnels, h.acking, h.silent, fun f hf => ?_, ?_⟩
    · obtain hf | hf := List.mem_append.1 hf
      · exact ho f (List.mem_append_left _ hf)
      · exact hoffers f hf
    · rw [hquiet rfl]
      refine hp.mono fun spec hspec _ => .inr ?_
      obtain ⟨f, hf, ha⟩ := hasks spec (Gateway.mem_validSpecs.1 hspec).1
      exact ⟨f, List.mem_append_right _ hf, ha⟩
  | @sendRegistration f fs hreg =>
    have hq : ({ s.session with up := s.session.up ++ [f], registration := some fs } :
        ControlSession).queued = s.session.queued := by
      simp only [ControlSession.queued, hreg, Option.getD_some, List.append_assoc,
        List.singleton_append]
    refine ⟨h.editing, h.tunnels, h.acking, h.silent, hq ▸ ho, ?_⟩
    rw [hquiet rfl, hq]
    refine hp.mono fun spec _ hw => .inr (hw.resolve_left ?_)
    rw [hreg]
    exact Option.some_ne_none _
  | edit => exact absurd rfl (hl _)
  | sendEdit he =>
    rw [h.editing] at he
    cases he
  | @receive f fs hreg hack hdown =>
    have hsilent := h.silent
    rw [hdown] at hsilent
    obtain ⟨ports, he⟩ := ControlSession.handleControlMsg_quiet
      ({ s.session with down := fs } : ControlSession) (hsilent f List.mem_cons_self)
    rw [he, hquiet rfl]
    exact ⟨h.editing, h.tunnels, h.acking, fun f hf => hsilent f (List.mem_cons_of_mem _ hf), ho,
      hp⟩
  | sendAck hack =>
    rw [h.acking] at hack
    cases hack
  | @handle f fs written hs hup =>
    have hmem : f ∈ s.session.queued := by
      rw [ControlSession.queued, hup]
      exact List.mem_append_left _ List.mem_cons_self
    obtain ⟨hpush, hafter⟩ := provides_offered (g := g) hp (ho f hmem) written
    have hq : s.session.queued = f ::
        (({ s.session with up := fs } : ControlSession).answer
          (g.handleControlMsg s.session.gateway sess written f)).queued := by
      simp only [ControlSession.queued, hup, ControlSession.answer, List.cons_append]
    refine ⟨h.editing, h.tunnels, h.acking, fun f' hf => ?_, fun f' hf => ?_, ?_⟩
    · obtain hf | hf := List.mem_append.1 hf
      · exact h.silent f' hf
      · rw [Option.mem_toList.1 hf] at hpush
        exact hpush
    · exact ho f' (hq ▸ List.mem_cons_of_mem _ hf)
    · have hbinds : newBinds g sess s.session (.handle written) =
          g.frameBinds s.session.gateway sess f := by
        rw [newBinds, hup]
        rfl
      rw [hbinds]
      refine hafter.mono fun spec _ hw => hw.1.imp_right ?_
      rintro ⟨f', hf, ha⟩
      rw [hq, List.mem_cons] at hf
      obtain rfl | hf := hf
      · exact absurd ha hw.2
      · exact ⟨f', hf, ha⟩
  | command hby =>
    rw [hquiet rfl]
    exact ⟨h.editing, h.tunnels, h.acking, h.silent, ho, hp.exec g hby⟩

end Registering

/-- A resolved set is what a gateway makes of an edit: what it permits of it, on the ports asked for
or on ports that are held for it. -/
structure Resolves (g : Gateway) (sess : AgentSession) (new : TunnelSet)
    (held : String → Int → Prop) (resolved : List TunnelSpec) : Prop where
  named : ∀ r ∈ resolved, ∃ t ∈ new.tunnels, t.enabled = true ∧
    g.validateSpec (specFromTunnel t) sess.scope = none ∧
    r = specFromTunnel (t.atPort r.publicPort) ∧
      (r.publicPort = t.publicPort ∨ held t.id r.publicPort)
  covers : ∀ t ∈ new.tunnels, t.enabled = true →
    g.validateSpec (specFromTunnel t) sess.scope = none → ∃ r ∈ resolved, r.id = t.id
  keyed : KeyedSpecs resolved

/-- The tunnels are those of the edit up to their public ports, and a merge of the resolved set
finds each of its specs among them. -/
structure Variants (new : TunnelSet) (resolved : List TunnelSpec) (tunnels : List Tunnel) :
    Prop where
  enabled : ∀ u ∈ tunnels, u.enabled = true →
    ∃ t ∈ new.tunnels, t.enabled = true ∧ u = t.atPort u.publicPort
  found : ∀ r ∈ resolved, ∃ t ∈ new.tunnels, t.enabled = true ∧
    r = specFromTunnel (t.atPort r.publicPort) ∧
      ∃ u, (byID tunnels).lookup r.id = some u ∧ u = t.atPort u.publicPort

section Variants

variable {g : Gateway} {sess : AgentSession} {new : TunnelSet} {held : String → Int → Prop}
  {resolved : List TunnelSpec} {tunnels : List Tunnel}

theorem atPort_overwrite {t : Tunnel} (ht : t.enabled = true) (p q : Int) :
    (t.atPort p).overwrite (specFromTunnel (t.atPort q)) = t.atPort q := by
  obtain ⟨id, name, type, localAddr, port, enabled, options⟩ := t
  obtain rfl : enabled = true := ht
  rfl

theorem Resolves.variants (h : Resolves g sess new held resolved) :
    Variants new resolved new.tunnels := by
  refine ⟨fun u hu hon => ⟨u, hu, hon, rfl⟩, fun r hr => ?_⟩
  obtain ⟨t, ht, hon, -, he, -⟩ := h.named r hr
  obtain ⟨u, hu⟩ := exists_lookup_byID ht
  obtain ⟨hmem, hid⟩ := lookup_byID_mem hu
  obtain rfl := new.unique hmem ht hid
  refine ⟨u, ht, hon, he, u, ?_, rfl⟩
  rw [he]
  exact hu

theorem Variants.merge (h : Variants new resolved tunnels) :
    Variants new resolved (mergeTunnels tunnels resolved) := by
  have hfrom : ∀ r ∈ resolved, ∃ t ∈ new.tunnels, t.enabled = true ∧ r.id = t.id ∧
      r = specFromTunnel (t.atPort r.publicPort) ∧
      (((byID tunnels).lookup r.id).getD Tunnel.zero).overwrite r = t.atPort r.publicPort := by
    intro r hr
    obtain ⟨t, ht, hon, he, u, hu, hport⟩ := h.found r hr
    refine ⟨t, ht, hon, congrArg TunnelSpec.id he, he, ?_⟩
    rw [hu, Option.getD_some, hport]
    nth_rewrite 1 [he]
    exact atPort_overwrite hon _ _
  constructor
  · intro u hu hon
    obtain hu | hu := List.mem_append.1 hu
    · obtain ⟨r, hr, rfl⟩ := List.mem_map.1 hu
      obtain ⟨t, ht, hton, -, -, he⟩ := hfrom r hr
      rw [he]
      exact ⟨t, ht, hton, rfl⟩
    · have hoff := List.of_mem_filter hu
      rw [hon] at hoff
      cases hoff
  · intro r hr
    obtain ⟨t, ht, hon, hid, he, hover⟩ := hfrom r hr
    obtain ⟨u, hu⟩ : ∃ u, (byID (mergeTunnels tunnels resolved)).lookup r.id = some u := by
      have hmem : t.atPort r.publicPort ∈ mergeTunnels tunnels resolved :=
        List.mem_append_left _ (List.mem_map.2 ⟨r, hr, hover⟩)
      obtain ⟨u, hu⟩ := exists_lookup_byID hmem
      exact ⟨u, hid ▸ hu⟩
    refine ⟨t, ht, hon, he, u, hu, ?_⟩
    obtain ⟨hmem, huid⟩ := lookup_byID_mem hu
    obtain hmem | hmem := List.mem_append.1 hmem
    · obtain ⟨r', hr', rfl⟩ := List.mem_map.1 hmem
      obtain ⟨t', ht', -, hid', -, hover'⟩ := hfrom r' hr'
      rw [hover'] at huid ⊢
      rw [new.unique ht ht' (hid.symm.trans huid.symm)]
      rfl
    · have hdraft := List.of_mem_filter hmem
      rw [Bool.and_eq_true, decide_eq_true_eq] at hdraft
      exact absurd (List.mem_map.2 ⟨r, hr, huid.symm⟩) hdraft.2

end Variants

/-- A config session whose agent is only ever told one set, which the gateway has bound. -/
structure LoggedSession.Pushed (sess : AgentSession) (desired resolved : List TunnelSpec)
    (keeps : List Tunnel → Prop) (held : String → Int → Prop) (s : LoggedSession) : Prop where
  serving : s.session.serving = true
  editing : s.session.editing = []
  unseeded : s.session.registration = none → s.session.seedNeeded = false
  sent : ∀ fs ∈ s.session.registration, fs = []
  acks : ∀ f ∈ s.session.up, ∃ ack, f = .configAck ack
  pushes : ∀ f ∈ s.session.down, ∃ push, f = .pushConfig push ∧ push.tunnels = resolved
  synced : s.session.down = [] → s.session.agent.Has resolved
  kept : keeps s.session.agent.tunnels
  provides : s.session.gateway.actor.Provides sess desired (fun _ => False) s.binds
  bound : s.session.gateway.actor.live sess →
    ∀ i p, held i p → s.session.gateway.actor.ListensOn sess i p

section Pushed

variable {g : Gateway} {sess : AgentSession} {new : TunnelSet} {held : String → Int → Prop}
  {desired resolved : List TunnelSpec} {keeps : List Tunnel → Prop} {s : LoggedSession}

theorem LoggedSession.Pushed.step {l : SessionStep} {t : ControlSession}
    (h : s.Pushed sess desired resolved keeps held) (hcap : sess.has capGatewayConfig = true)
    (hkeeps : ∀ ts, keeps ts → keeps (mergeTunnels ts resolved))
    (hl : ∀ set, l ≠ .edit set) (hm : s.session.Moves g sess l t) :
    Pushed sess desired resolved keeps held ⟨t, s.binds ++ newBinds g sess s.session l⟩ := by
  have hp := h.provides
  have hquiet (hb : newBinds g sess s.session l = []) :
      s.binds ++ newBinds g sess s.session l = s.binds := by
    rw [hb, List.append_nil]
  cases hm with
  | connect hidle =>
    rw [h.serving] at hidle
    cases hidle
  | register hreg =>
    rw [s.session.registerTunnels_unseeded hcap (h.unseeded hreg), hquiet rfl]
    refine ⟨h.serving, h.editing, nofun, ?_, h.acks, h.pushes, h.synced, h.kept, hp, h.bound⟩
    rintro fs ⟨⟩
    rfl
  | sendRegistration hreg => exact absurd (h.sent _ hreg) (List.cons_ne_nil _ _)
  | edit => exact absurd rfl (hl _)
  | sendEdit he =>
    rw [h.editing] at he
    cases he
  | @receive f fs hreg hack hdown =>
    have hpushes := h.pushes
    rw [hdown] at hpushes
    obtain ⟨push, rfl, rfl⟩ := hpushes f List.mem_cons_self
    rw [hquiet rfl]
    refine ⟨h.serving, h.editing, h.unseeded, h.sent, h.acks,
      fun f hf => hpushes f (List.mem_cons_of_mem _ hf), fun _ spec => ?_, hkeeps _ h.kept, hp,
      h.bound⟩
    rw [ControlSession.handleControlMsg, Agent.applyPushedConfig, enabledSpecs_mergeTunnels]
  | sendAck hack =>
    rw [hquiet rfl]
    refine ⟨h.serving, h.editing, h.unseeded, h.sent, fun f hf => ?_, h.pushes, h.synced, h.kept,
      hp, h.bound⟩
    obtain hf | hf := List.mem_append.1 hf
    · exact h.acks f hf
    · exact ⟨_, List.mem_singleton.1 hf⟩
  | @handle f fs written hs hup =>
    have hacks := h.acks
    rw [hup] at hacks
    obtain ⟨ack, rfl⟩ := hacks f List.mem_cons_self
    have hdown : s.session.down ++ (none : Option GatewayFrame).toList = s.session.down :=
      List.append_nil _
    have hbinds : newBinds g sess s.session (.handle written) = [] := by
      rw [newBinds, hup]
      rfl
    rw [hquiet hbinds]
    exact ⟨h.serving, h.editing, h.unseeded, h.sent, fun f hf =>
      hacks f (List.mem_cons_of_mem _ hf),
      fun f hf => h.pushes f (hdown ▸ hf), fun hnil => h.synced (hdown.symm.trans hnil), h.kept,
      hp, h.bound⟩
  | command hby =>
    rw [hquiet rfl]
    refine ⟨h.serving, h.editing, h.unseeded, h.sent, h.acks, h.pushes, h.synced, h.kept,
      hp.exec g hby, fun hlive i p hheld => ?_⟩
    obtain ⟨hbefore, hsame⟩ := Gateway.exec_others hp.inv hby hlive
    obtain ⟨pl, hpl, hport⟩ := h.bound hbefore i p hheld
    refine ⟨pl, ?_, hport⟩
    rw [Actor.listener?, hsame]
    exact hpl

theorem LoggedSession.Pushed.permitted (h : s.Pushed sess desired resolved keeps held)
    (hres : Resolves g sess new held resolved) (hdown : s.session.down = [])
    (href : s.Reflects g sess new) :
    ∀ spec ∈ enabledSpecs new.tunnels, g.validateSpec spec sess.scope = none := by
  intro spec hspec
  obtain ⟨t, ht, hon, rfl⟩ := mem_enabledSpecs.1 hspec
  obtain ⟨u, hu, he⟩ := href.held t ht hon
  obtain ⟨hmem, huon⟩ := mem_snapshotTunnels.1 hu
  have hr := (h.synced hdown _).1 (mem_enabledSpecs.2 ⟨u, hmem, huon, rfl⟩)
  obtain ⟨t', ht', -, hvalid, he', -⟩ := hres.named _ hr
  have hid : t.id = t'.id :=
    (congrArg Tunnel.id he).symm.trans (congrArg TunnelSpec.id he')
  rw [new.unique ht ht' hid]
  exact hvalid

/-- Once everything is delivered, the resolved set of an edit that is permitted reflects it at both
ends. -/
theorem LoggedSession.Pushed.reflects
    (h : s.Pushed sess (g.validSpecs sess.scope (enabledSpecs new.tunnels)) resolved
      (Variants new resolved) held)
    (hres : Resolves g sess new held resolved)
    (hall : ∀ spec ∈ enabledSpecs new.tunnels, g.validateSpec spec sess.scope = none)
    (hdown : s.session.down = []) (hlive : s.session.gateway.actor.live sess) :
    s.Reflects g sess new := by
  have hkeyed := new.keyed_valid g sess.scope
  have hhas := h.synced hdown
  have hspec : ∀ u ∈ s.session.agent.snapshotTunnels, specFromTunnel u ∈ resolved := by
    intro u hu
    obtain ⟨hmem, hon⟩ := mem_snapshotTunnels.1 hu
    exact (hhas _).1 (mem_enabledSpecs.2 ⟨u, hmem, hon, rfl⟩)
  have hvar : ∀ u ∈ s.session.agent.snapshotTunnels,
      ∃ t ∈ new.tunnels, t.enabled = true ∧ u = t.atPort u.publicPort := by
    intro u hu
    obtain ⟨hmem, hon⟩ := mem_snapshotTunnels.1 hu
    exact h.kept.enabled u hmem hon
  refine ⟨?_, ?_, ?_, ?_, ?_⟩
  · intro i pl hpl
    exact (Gateway.mem_validSpecs.1 (h.provides.only hlive i pl hpl)).1
  · intro spec hmem
    exact (h.provides.attempted hlive hkeyed spec hmem).resolve_right id
  · intro u hu v hv hid
    obtain ⟨t, ht, -, hut⟩ := hvar u hu
    obtain ⟨t', ht', -, hvt⟩ := hvar v hv
    have hport : u.publicPort = v.publicPort :=
      congrArg TunnelSpec.publicPort (hres.keyed _ (hspec u hu) _ (hspec v hv) hid)
    have htid : t.id = t'.id := by
      rw [hut, hvt] at hid
      exact hid
    rw [hut, hvt, hport, new.unique ht ht' htid]
  · intro u hu
    obtain ⟨t, ht, hon, -, he, hport⟩ := hres.named _ (hspec u hu)
    obtain ⟨t', ht', hon', he'⟩ := hvar u hu
    have hid : t'.id = t.id := by
      have h₁ := congrArg TunnelSpec.id he
      have h₂ := congrArg Tunnel.id he'
      exact h₂.symm.trans h₁
    obtain rfl := new.unique ht' ht hid
    exact ⟨t', ht', hon', he', hport.imp_right fun hheld => h.bound hlive _ _ hheld⟩
  · intro t ht hon
    have hvalid := hall _ (mem_enabledSpecs.2 ⟨t, ht, hon, rfl⟩)
    obtain ⟨r, hr, hid⟩ := hres.covers t ht hon hvalid
    obtain ⟨u, hmem, huon, rfl⟩ := mem_enabledSpecs.1 ((hhas r).2 hr)
    have hu := mem_snapshotTunnels.2 ⟨hmem, huon⟩
    obtain ⟨t', ht', -, he⟩ := hvar u hu
    have hid' : t'.id = t.id := (congrArg Tunnel.id he).symm.trans hid
    rw [new.unique ht' ht hid'] at he
    exact ⟨u, hu, he⟩

end Pushed

/-- A config session before the gateway serves it, with a config of its agent. -/
structure LoggedSession.Unserved (sess : AgentSession) (new : TunnelSet)
    (stored : List TunnelSpec) (gen : Nat) (desired : List TunnelSpec) (s : LoggedSession) :
    Prop where
  idle : s.session.serving = false
  editing : s.session.editing = []
  unseeded : s.session.seedNeeded = false
  sent : ∀ fs ∈ s.session.registration, fs = []
  acking : s.session.acking = none
  up : s.session.up = []
  down : s.session.down = []
  tunnels : s.session.agent.tunnels = new.tunnels
  config : s.session.gateway.agents.desiredConfig sess.agentID = some (stored, gen)
  provides : s.session.gateway.actor.Provides sess desired (fun _ => True) s.binds

section Unserved

variable {g : Gateway} {sess : AgentSession} {new : TunnelSet} {agent : Agent}
  {desired stored : List TunnelSpec} {gen : Nat} {keeps : List Tunnel → Prop} {s : LoggedSession}

theorem LoggedSession.Unserved.connect (h : s.Unserved sess new stored gen desired)
    (hsess : sess.enrolled = true ∧ sess.has capGatewayConfig = true) (hgen : gen ≠ 0)
    (hagent : agent.tunnels = new.tunnels) (hrep : sess.Reports g.env agent)
    (hcf : g.env.NoCollision (hashInput (enabledSpecs new.tunnels))
      (hashInput (g.validSpecs sess.scope stored)))
    (hd : ∀ spec, spec ∈ g.validSpecs sess.scope stored ↔ spec ∈ desired)
    (hkeeps : keeps new.tunnels) :
    Pushed sess desired (g.validSpecs sess.scope stored) keeps (fun _ _ => False)
      ⟨{ s.session.answer (g.serveControl s.session.gateway sess) with serving := true },
        s.binds ++ newBinds g sess s.session .connect⟩ := by
  have hserve : g.serveControl s.session.gateway sess =
      ((g.pushConfigOnConnect s.session.gateway sess).1.map .pushConfig,
        (g.pushConfigOnConnect s.session.gateway sess).2) := by
    simp only [Gateway.serveControl, hsess.1, hsess.2, Bool.and_self, if_true]
  have hbinds : newBinds g sess s.session .connect = (s.session.gateway.actor.reconcile g sess
      (g.validSpecs sess.scope stored)).1 := by
    simp only [newBinds, Gateway.connectBinds, hsess.1, hsess.2, Bool.and_self, if_true, h.config,
      hgen, if_false]
  have hprovides := h.provides.reconcile g hd
  have hkept : keeps s.session.agent.tunnels := h.tunnels ▸ hkeeps
  have hacks : ∀ f ∈ s.session.up, ∃ ack, f = AgentFrame.configAck ack := by
    rw [h.up]
    exact fun f hf => absurd hf List.not_mem_nil
  rw [hserve, Gateway.pushConfigOnConnect_serves g h.config hgen, hbinds]
  by_cases hsync : sess.reportedConfigHash =
        hashTunnels g.env (g.validSpecs sess.scope stored) ∧
      s.session.gateway.agentConfigGen sess = gen
  · rw [if_pos hsync]
    have hdown : s.session.down ++ (Option.map GatewayFrame.pushConfig none).toList = [] := by
      rw [h.down]
      rfl
    refine ⟨rfl, h.editing, fun _ => h.unseeded, h.sent, hacks, fun f hf => ?_, fun _ => ?_, hkept,
      hprovides, fun _ _ _ => False.elim⟩
    · simp only [ControlSession.answer, hdown] at hf
      cases hf
    · have hhash : (agent.configState g.env).1 =
          hashTunnels g.env (g.validSpecs sess.scope stored) :=
        (Prod.mk.inj hrep).1.symm.trans hsync.1
      have hhas := has_of_hash (hagent ▸ hcf) hhash
      intro spec
      rw [← hhas spec, hagent, ← h.tunnels]
      rfl
  · rw [if_neg hsync]
    have hdown : s.session.down ++ (Option.map GatewayFrame.pushConfig
        (some (g.pushOf gen (g.validSpecs sess.scope stored)))).toList =
        [.pushConfig (g.pushOf gen (g.validSpecs sess.scope stored))] := by
      rw [h.down]
      rfl
    refine ⟨rfl, h.editing, fun _ => h.unseeded, h.sent, hacks, fun f hf => ?_, fun hnil => ?_,
      hkept, hprovides, fun _ _ _ => False.elim⟩
    · simp only [ControlSession.answer, hdown, List.mem_singleton] at hf
      exact ⟨_, hf, rfl⟩
    · simp only [ControlSession.answer, hdown] at hnil
      cases hnil

theorem LoggedSession.Unserved.step {l : SessionStep} {t : ControlSession}
    (h : s.Unserved sess new stored gen desired)
    (hsess : sess.enrolled = true ∧ sess.has capGatewayConfig = true) (hgen : gen ≠ 0)
    (hagent : agent.tunnels = new.tunnels) (hrep : sess.Reports g.env agent)
    (hcf : g.env.NoCollision (hashInput (enabledSpecs new.tunnels))
      (hashInput (g.validSpecs sess.scope stored)))
    (hd : ∀ spec, spec ∈ g.validSpecs sess.scope stored ↔ spec ∈ desired)
    (hkeeps : keeps new.tunnels) (hl : ∀ set, l ≠ .edit set) (hm : s.session.Moves g sess l t) :
    Unserved sess new stored gen desired ⟨t, s.binds ++ newBinds g sess s.session l⟩ ∨
      Pushed sess desired (g.validSpecs sess.scope stored) keeps (fun _ _ => False)
        ⟨t, s.binds ++ newBinds g sess s.session l⟩ := by
  have hquiet (hb : newBinds g sess s.session l = []) :
      s.binds ++ newBinds g sess s.session l = s.binds := by
    rw [hb, List.append_nil]
  cases hm with
  | connect hidle => exact .inr (h.connect hsess hgen hagent hrep hcf hd hkeeps)
  | register hreg =>
    rw [s.session.registerTunnels_unseeded hsess.2 h.unseeded, hquiet rfl]
    refine .inl ⟨h.idle, h.editing, h.unseeded, ?_, h.acking, h.up, h.down, h.tunnels, h.config,
      h.provides⟩
    rintro fs ⟨⟩
    rfl
  | sendRegistration hreg => exact absurd (h.sent _ hreg) (List.cons_ne_nil _ _)
  | edit => exact absurd rfl (hl _)
  | sendEdit he =>
    rw [h.editing] at he
    cases he
  | receive hreg hack hdown =>
    rw [h.down] at hdown
    cases hdown
  | sendAck hack =>
    rw [h.acking] at hack
    cases hack
  | handle hs hup =>
    rw [h.up] at hup
    cases hup
  | @command c hby =>
    rw [hquiet rfl]
    exact .inl ⟨h.idle, h.editing, h.unseeded, h.sent, h.acking, h.up, h.down, h.tunnels,
      (Gateway.exec_desiredConfig g _ c _).trans h.config, h.provides.exec g hby⟩

end Unserved

theorem TunnelSet.nodup_valid (set : TunnelSet) (g : Gateway) (scope : Scope) :
    ((g.validSpecs scope (enabledSpecs set.tunnels)).map (·.id)).Nodup := by
  have hids : (enabledSpecs set.tunnels).map (·.id) =
      (set.tunnels.filter (·.enabled)).map (·.id) := by
    rw [enabledSpecs, List.map_map]
    rfl
  have hspecs : ((enabledSpecs set.tunnels).map (·.id)).Nodup := by
    rw [hids]
    exact set.distinct.sublist (List.filter_sublist.map _)
  exact hspecs.sublist (List.filter_sublist.map _)

theorem boundPort_listensOn {a : Actor} {sess : AgentSession} {desired : List TunnelSpec}
    (hi : a.Inv) (g : Gateway) (hd : (desired.map (·.id)).Nodup)
    (hp : Gateway.boundPort (a.reconcile g sess desired).1 i = some p) :
    (a.reconcile g sess desired).2.ListensOn sess i p := by
  obtain ⟨o, ho, rfl⟩ := Option.map_eq_some_iff.1 hp
  have hmem := List.mem_reverse.1 (List.mem_of_find?_eq_some ho)
  have hsome := List.find?_some ho
  simp only [Bool.and_eq_true, decide_eq_true_eq, Option.isNone_iff_eq_none] at hsome
  obtain ⟨⟨rfl, herr⟩, -⟩ := hsome
  by_cases hs : a.live sess
  · have htells := hi.reconcile_tells g hs hd hmem
    cases hpl : (a.reconcile g sess desired).2.listener? sess.agentID o.id with
    | none => exact absurd herr ((Actor.tells_none hpl).1 htells)
    | some pl => exact ⟨pl, hpl, ((Actor.tells_some hpl).1 htells).2⟩
  · have hdead : (a.reconcile g sess desired).1 =
        desired.map fun spec => ⟨spec.id, 0, some Actor.errInactive⟩ := by
      rw [Actor.reconcile, if_neg hs]
    rw [hdead] at hmem
    obtain ⟨spec, -, rfl⟩ := List.mem_map.1 hmem
    cases herr

theorem resolvePorts_resolves {a : Actor} (hi : a.Inv) (g : Gateway) (sess : AgentSession)
    (new : TunnelSet) :
    let valid := g.validSpecs sess.scope (enabledSpecs new.tunnels)
    Resolves g sess new (fun i p => (a.reconcile g sess valid).2.ListensOn sess i p)
      (Gateway.resolvePorts valid (a.reconcile g sess valid).1) := by
  intro valid
  refine ⟨fun r hr => ?_, fun t ht hon hvalid => ?_, ?_⟩
  · obtain ⟨spec, hspec, rfl⟩ := List.mem_map.1 hr
    obtain ⟨hin, hvalid⟩ := Gateway.mem_validSpecs.1 hspec
    obtain ⟨t, ht, hon, rfl⟩ := mem_enabledSpecs.1 hin
    refine ⟨t, ht, hon, hvalid, rfl, ?_⟩
    cases hp : Gateway.boundPort (a.reconcile g sess valid).1 t.id with
    | none => exact .inl (congrArg (Option.getD · t.publicPort) hp)
    | some p =>
      have hr : (Gateway.boundPort (a.reconcile g sess valid).1 t.id).getD t.publicPort = p :=
        congrArg (Option.getD · t.publicPort) hp
      exact .inr (hr.symm ▸ boundPort_listensOn hi g (new.nodup_valid g sess.scope) hp)
  · have hmem : specFromTunnel t ∈ valid :=
      Gateway.mem_validSpecs.2 ⟨mem_enabledSpecs.2 ⟨t, ht, hon, rfl⟩, hvalid⟩
    exact ⟨_, List.mem_map_of_mem hmem, rfl⟩
  · intro x hx y hy hid
    obtain ⟨spec, hspec, rfl⟩ := List.mem_map.1 hx
    obtain ⟨spec', hspec', rfl⟩ := List.mem_map.1 hy
    obtain rfl := new.keyed_valid g sess.scope spec hspec spec' hspec' hid
    rfl

/-- A config session on first contact, before its proposal is handled. -/
structure LoggedSession.Seeding (g : Gateway) (sess : AgentSession) (new : TunnelSet)
    (s : LoggedSession) : Prop where
  editing : s.session.editing = []
  seed : s.session.seedNeeded = true
  acking : s.session.acking = none
  down : s.session.down = []
  tunnels : s.session.agent.tunnels = new.tunnels
  config : ∃ stored, s.session.gateway.agents.desiredConfig sess.agentID = some (stored, 0)
  proposal : s.session.registration = none ∧ s.session.up = [] ∨
    ∃ basis, s.session.registration = some [.proposeConfig (enabledSpecs new.tunnels) basis] ∧
        s.session.up = [] ∨
      s.session.registration = some [] ∧
        s.session.up = [.proposeConfig (enabledSpecs new.tunnels) basis]
  provides : s.session.gateway.actor.Provides sess
    (g.validSpecs sess.scope (enabledSpecs new.tunnels)) (fun _ => True) s.binds

section Seeding

variable {g : Gateway} {sess : AgentSession} {new : TunnelSet} {s : LoggedSession}

theorem LoggedSession.Seeding.handle (h : s.Seeding g sess new)
    (hsess : sess.enrolled = true ∧ sess.has capGatewayConfig = true)
    (hserving : s.session.serving = true) (hreg : s.session.registration = some [])
    (hup : s.session.up = [.proposeConfig (enabledSpecs new.tunnels) basis]) (written : Bool) :
    ∃ resolved held, Resolves g sess new held resolved ∧
      Pushed sess (g.validSpecs sess.scope (enabledSpecs new.tunnels)) resolved
        (Variants new resolved) held
        ⟨({ s.session with up := [] } : ControlSession).answer (g.handleControlMsg
            s.session.gateway sess written (.proposeConfig (enabledSpecs new.tunnels) basis)),
          s.binds ++ newBinds g sess s.session (.handle written)⟩ := by
  obtain ⟨stored, hconfig⟩ := h.config
  have hstale : ¬Gateway.staleBasis s.session.gateway sess 0 = true := by
    simp only [Gateway.staleBasis, ne_eq, not_true_eq_false, false_and, decide_false,
      Bool.false_eq_true, not_false_eq_true]
  have hbinds : newBinds g sess s.session (.handle written) = (s.session.gateway.actor.reconcile g
      sess (g.validSpecs sess.scope (enabledSpecs new.tunnels))).1 := by
    simp only [newBinds, hup, List.head?_cons, Option.elim_some, Gateway.frameBinds, hsess.1,
      hsess.2, Bool.and_self, if_true, hconfig, hstale]
    rfl
  obtain ⟨store, hadopt, -⟩ := Gateway.adoptProposal_adopts g hconfig hstale
    (enabledSpecs new.tunnels) written
  have hres := resolvePorts_resolves h.provides.inv g sess new
  refine ⟨_, _, hres, ?_⟩
  simp only [Gateway.handleControlMsg, hsess.1, hsess.2, Bool.and_self, if_true, hadopt, hbinds,
    ControlSession.answer, h.down, Option.map_some, Option.toList_some, List.nil_append]
  refine ⟨hserving, h.editing, fun hnone => ?_, fun fs hfs => ?_,
    fun f hf => absurd hf List.not_mem_nil, fun f hf => ?_,
    fun hnil => absurd hnil (List.cons_ne_nil _ _), ?_,
    h.provides.reconcile g fun spec => Iff.rfl, fun _ i p hp => hp⟩
  · rw [hreg] at hnone
    cases hnone
  · rw [hreg] at hfs
    exact (Option.some.inj hfs).symm
  · exact ⟨_, List.mem_singleton.1 hf, rfl⟩
  · rw [h.tunnels]
    exact hres.variants

theorem LoggedSession.Seeding.step {l : SessionStep} {t : ControlSession}
    (h : s.Seeding g sess new)
    (hsess : sess.enrolled = true ∧ sess.has capGatewayConfig = true)
    (hl : ∀ set, l ≠ .edit set) (hm : s.session.Moves g sess l t) :
    Seeding g sess new ⟨t, s.binds ++ newBinds g sess s.session l⟩ ∨
      ∃ resolved held, Resolves g sess new held resolved ∧
        Pushed sess (g.validSpecs sess.scope (enabledSpecs new.tunnels)) resolved
          (Variants new resolved) held ⟨t, s.binds ++ newBinds g sess s.session l⟩ := by
  have hp := h.provides
  obtain ⟨stored, hconfig⟩ := h.config
  have hquiet (hb : newBinds g sess s.session l = []) :
      s.binds ++ newBinds g sess s.session l = s.binds := by
    rw [hb, List.append_nil]
  cases hm with
  | connect hidle =>
    have hserve : g.serveControl s.session.gateway sess = (none, s.session.gateway) := by
      have hnone : ∀ c ∈ s.session.gateway.agents.desiredConfig sess.agentID, c.2 = 0 := by
        intro c hc
        rw [hconfig] at hc
        cases hc
        rfl
      simp only [Gateway.serveControl, Gateway.pushConfigOnConnect_idle g hnone, Option.map_none,
        ite_self]
    have hbinds : newBinds g sess s.session .connect = [] := by
      simp only [newBinds, Gateway.connectBinds, hconfig, if_true, ite_self]
    rw [hserve, hquiet hbinds]
    have hdown : s.session.down ++ (none : Option GatewayFrame).toList = [] := by
      rw [h.down]
      rfl
    exact .inl ⟨h.editing, h.seed, h.acking, hdown, h.tunnels, h.config, h.proposal, hp⟩
  | register hreg =>
    have hup : s.session.up = [] := by
      obtain ⟨-, hup⟩ | ⟨_, ⟨-, hup⟩ | ⟨hr, -⟩⟩ := h.proposal
      · exact hup
      · exact hup
      · rw [hreg] at hr
        cases hr
    have hspecs : enabledSpecs s.session.agent.snapshotTunnels = enabledSpecs new.tunnels := by
      rw [enabledSpecs_snapshotTunnels, h.tunnels]
    rw [hquiet rfl]
    unfold ControlSession.registerTunnels
    rw [if_pos hsess.2, if_pos h.seed, hspecs]
    exact .inl ⟨h.editing, h.seed, h.acking, h.down, h.tunnels, h.config,
      .inr ⟨_, .inl ⟨rfl, hup⟩⟩, hp⟩
  | @sendRegistration f fs hreg =>
    rw [hquiet rfl]
    obtain ⟨hr, -⟩ | ⟨basis, ⟨hr, hup⟩ | ⟨hr, -⟩⟩ := h.proposal
    · rw [hreg] at hr
      cases hr
    · rw [hreg] at hr
      cases hr
      have hup' : s.session.up ++ [AgentFrame.proposeConfig (enabledSpecs new.tunnels) basis] =
          [.proposeConfig (enabledSpecs new.tunnels) basis] := by
        rw [hup]
        rfl
      exact .inl ⟨h.editing, h.seed, h.acking, h.down, h.tunnels, h.config,
        .inr ⟨basis, .inr ⟨rfl, hup'⟩⟩, hp⟩
    · rw [hreg] at hr
      cases hr
  | edit => exact absurd rfl (hl _)
  | sendEdit he =>
    rw [h.editing] at he
    cases he
  | receive hreg hack hdown =>
    rw [h.down] at hdown
    cases hdown
  | sendAck hack =>
    rw [h.acking] at hack
    cases hack
  | @handle f fs written hs hup =>
    obtain ⟨-, hnil⟩ | ⟨basis, ⟨-, hnil⟩ | ⟨hr, hup'⟩⟩ := h.proposal
    · rw [hup] at hnil
      cases hnil
    · rw [hup] at hnil
      cases hnil
    · obtain ⟨rfl, rfl⟩ := List.cons.inj (hup.symm.trans hup')
      exact .inr (h.handle hsess hs hr hup' written)
  | @command c hby =>
    rw [hquiet rfl]
    exact .inl ⟨h.editing, h.seed, h.acking, h.down, h.tunnels,
      ⟨stored, (Gateway.exec_desiredConfig g _ c _).trans hconfig⟩, h.proposal, hp.exec g hby⟩

end Seeding

namespace LoggedSession

def start (agent : Agent) (st : GatewayState) (sess : AgentSession) : LoggedSession :=
  ⟨ControlSession.start agent st sess, []⟩

variable {g : Gateway} {sess : AgentSession} {new : TunnelSet} {agent : Agent} {st : GatewayState}
  {stored : List TunnelSpec} {s t : LoggedSession}

theorem quiet_invariant {I : LoggedSession → Prop} (hquiet : ∀ set, SessionStep.edit set ∉ steps)
    (hr : Runs.Reaches (LoggedSession.step g sess) s steps t) (hs : I s)
    (hstep : ∀ s l u, I s → (∀ set, l ≠ .edit set) → s.session.Moves g sess l u →
      I ⟨u, s.binds ++ newBinds g sess s.session l⟩) : I t := by
  refine hr.invariant_of_along (C := fun _ l => ∀ set, l ≠ SessionStep.edit set)
    (fun s l u hi hl hu => ?_) hs (Runs.along_of_forall ?_ _)
  · obtain ⟨v, hv, rfl⟩ := Option.map_eq_some_iff.1 hu
    exact hstep s l v hi hl (ControlSession.moves_of_step hv)
  · rintro l hl set rfl
    exact hquiet set hl

theorem reflects_registered (hj : Joined g agent st sess) (hagent : agent.tunnels = new.tunnels)
    (hcap : sess.has capGatewayConfig = false) (hquiet : ∀ set, SessionStep.edit set ∉ steps)
    (hr : Runs.Reaches (LoggedSession.step g sess) (start agent st sess) steps t)
    (hdone : t.session.Settled) (hlive : t.session.gateway.actor.live sess) :
    t.Reflects g sess new := by
  have hstart : (start agent st sess).Registering g sess new :=
    ⟨rfl, hagent, rfl, nofun, nofun, .of_none hj.inv (fun _ => hj.fresh) fun _ _ => .inl rfl⟩
  have h : t.Registering g sess new := quiet_invariant hquiet hr hstart
    fun _ _ _ hs hl hm => hs.step hcap hl hm
  have hqueued : t.session.queued = [] := by
    rw [ControlSession.queued, hdone.up, hdone.registered]
    rfl
  have hmem (u : Tunnel) : u ∈ t.session.agent.snapshotTunnels ↔
      u ∈ new.tunnels ∧ u.enabled = true := by
    rw [mem_snapshotTunnels, h.tunnels]
  refine ⟨?_, ?_, ?_, ?_, ?_⟩
  · intro i pl hpl
    exact (Gateway.mem_validSpecs.1 (h.provides.only hlive i pl hpl)).1
  · intro spec hspec
    refine (h.provides.attempted hlive (new.keyed_valid g sess.scope) spec hspec).resolve_right ?_
    rw [hdone.registered, hqueued]
    rintro (hnone | ⟨f, hf, -⟩)
    · cases hnone
    · cases hf
  · intro u hu v hv hid
    exact new.unique ((hmem u).1 hu).1 ((hmem v).1 hv).1 hid
  · intro u hu
    exact ⟨u, ((hmem u).1 hu).1, ((hmem u).1 hu).2, rfl, .inl rfl⟩
  · intro u hu hon
    exact ⟨u, (hmem u).2 ⟨hu, hon⟩, rfl⟩

theorem reflects_seeded (hj : Joined g agent st sess) (hagent : agent.tunnels = new.tunnels)
    (hcap : sess.has capGatewayConfig = true)
    (hconfig : st.agents.desiredConfig sess.agentID = some (stored, 0))
    (hquiet : ∀ set, SessionStep.edit set ∉ steps)
    (hr : Runs.Reaches (LoggedSession.step g sess) (start agent st sess) steps t)
    (hdone : t.session.Settled) (hlive : t.session.gateway.actor.live sess) :
    t.Reflects g sess new ↔
      ∀ spec ∈ enabledSpecs new.tunnels, g.validateSpec spec sess.scope = none := by
  have hsess := And.intro (hj.config hcap).1 hcap
  have hseed : Gateway.needsConfigSeed st sess = true := by
    simp only [Gateway.needsConfigSeed, hsess.1, hsess.2, Bool.and_self, hconfig, decide_true]
  have hstart : (start agent st sess).Seeding g sess new :=
    ⟨rfl, hseed, rfl, rfl, hagent, ⟨stored, hconfig⟩, .inl ⟨rfl, rfl⟩,
      .of_none hj.inv (fun _ => hj.fresh) fun _ _ => trivial⟩
  obtain h | ⟨resolved, held, hres, h⟩ : t.Seeding g sess new ∨
      ∃ resolved held, Resolves g sess new held resolved ∧
        t.Pushed sess (g.validSpecs sess.scope (enabledSpecs new.tunnels)) resolved
          (Variants new resolved) held := by
    refine quiet_invariant (I := fun s => s.Seeding g sess new ∨ ∃ resolved held,
      Resolves g sess new held resolved ∧
        s.Pushed sess (g.validSpecs sess.scope (enabledSpecs new.tunnels)) resolved
          (Variants new resolved) held) hquiet hr (.inl hstart) fun s l u hs hl hm => ?_
    obtain hs | ⟨resolved, held, hres, hs⟩ := hs
    · exact hs.step hsess hl hm
    · exact .inr ⟨resolved, held, hres, hs.step hcap (fun _ => Variants.merge) hl hm⟩
  · obtain ⟨hnone, -⟩ | ⟨basis, ⟨hsome, -⟩ | ⟨-, hup⟩⟩ := h.proposal
    · rw [hdone.registered] at hnone
      cases hnone
    · rw [hdone.registered] at hsome
      cases hsome
    · rw [hdone.up] at hup
      cases hup
  · exact ⟨h.permitted hres hdone.down, fun hall => h.reflects hres hall hdone.down hlive⟩

theorem pushed_of_stored (hj : Joined g agent st sess) (hagent : agent.tunnels = new.tunnels)
    (hcap : sess.has capGatewayConfig = true) {gen : Nat} (hgen : gen ≠ 0)
    (hconfig : st.agents.desiredConfig sess.agentID = some (stored, gen))
    (hcf : g.env.NoCollision (hashInput (enabledSpecs new.tunnels))
      (hashInput (g.validSpecs sess.scope stored)))
    {desired : List TunnelSpec}
    (hd : ∀ spec, spec ∈ g.validSpecs sess.scope stored ↔ spec ∈ desired)
    (keeps : List Tunnel → Prop) (hkeeps : keeps new.tunnels)
    (hmerge : ∀ ts, keeps ts → keeps (mergeTunnels ts (g.validSpecs sess.scope stored)))
    (hquiet : ∀ set, SessionStep.edit set ∉ steps)
    (hr : Runs.Reaches (LoggedSession.step g sess) (start agent st sess) steps t)
    (hdone : t.session.Settled) :
    t.Pushed sess desired (g.validSpecs sess.scope stored) keeps (fun _ _ => False) := by
  obtain ⟨henrolled, hrep, -⟩ := hj.config hcap
  have hsess := And.intro henrolled hcap
  have hseed : Gateway.needsConfigSeed st sess = false := by
    rw [Gateway.needsConfigSeed, hconfig]
    simp only [hgen, decide_false, Bool.and_false]
  have hstart : (start agent st sess).Unserved sess new stored gen desired :=
    ⟨rfl, rfl, hseed, fun _ hf => absurd hf (Option.not_mem_none _), rfl, rfl, rfl, hagent, hconfig,
      .of_none hj.inv (fun _ => hj.fresh) fun _ _ => trivial⟩
  obtain h | h : t.Unserved sess new stored gen desired ∨
      t.Pushed sess desired (g.validSpecs sess.scope stored) keeps (fun _ _ => False) := by
    refine quiet_invariant (I := fun s => s.Unserved sess new stored gen desired ∨
      s.Pushed sess desired (g.validSpecs sess.scope stored) keeps (fun _ _ => False))
      hquiet hr (.inl hstart) fun s l u hs hl hm => ?_
    obtain hs | hs := hs
    · exact hs.step hsess hgen hagent hrep hcf hd hkeeps hl hm
    · exact .inr (hs.step hcap hmerge hl hm)
  · exact absurd (h.idle.symm.trans hdone.serving) Bool.false_ne_true
  · exact h

/-- Where the agent holds what is permitted of the stored set and the gateway serves it, an edit
they reflect is that set. -/
theorem Reflects.same (h : s.Reflects g sess new) (hi : s.session.gateway.actor.Inv)
    (hhas : s.session.agent.Has (g.validSpecs sess.scope stored))
    (honly : s.session.gateway.actor.ServesOnly sess (g.validSpecs sess.scope stored)) :
    ∀ spec, spec ∈ g.validSpecs sess.scope stored ↔ spec ∈ enabledSpecs new.tunnels := by
  have hspec : ∀ u ∈ s.session.agent.snapshotTunnels,
      specFromTunnel u ∈ g.validSpecs sess.scope stored := by
    intro u hu
    obtain ⟨hmem, hon⟩ := mem_snapshotTunnels.1 hu
    exact (hhas _).1 (mem_enabledSpecs.2 ⟨u, hmem, hon, rfl⟩)
  -- an agent's tunnel on another port than the edit's has a listener, and that is the edit's
  have hedit : ∀ u ∈ s.session.agent.snapshotTunnels, ∀ t ∈ new.tunnels,
      u.id = t.id → specFromTunnel u = specFromTunnel t := by
    intro u hu t ht hid
    obtain ⟨t', ht', -, he, hport⟩ := h.shown u hu
    have hid' : t'.id = t.id := (congrArg Tunnel.id he).symm.trans hid
    obtain rfl := new.unique ht' ht hid'
    obtain hport | ⟨pl, hpl, -⟩ := hport
    · rw [he, hport]
      rfl
    · obtain ⟨t'', ht'', -, hpl'⟩ := mem_enabledSpecs.1 (h.only _ _ hpl)
      have hid'' : t''.id = t'.id :=
        (congrArg TunnelSpec.id hpl').trans (hi.named _ _ _ hpl)
      obtain rfl := new.unique ht'' ht' hid''
      obtain ⟨v, hv, hvon, hvspec⟩ := mem_enabledSpecs.1 ((hhas _).2 (honly _ _ hpl))
      have hvid : v.id = u.id :=
        (congrArg TunnelSpec.id (hvspec.trans hpl'.symm)).trans hid.symm
      rw [← h.single v (mem_snapshotTunnels.2 ⟨hv, hvon⟩) u hu hvid, hvspec, hpl']
  intro spec
  constructor
  · intro hmem
    obtain ⟨u, hu, hon, rfl⟩ := mem_enabledSpecs.1 ((hhas spec).2 hmem)
    have hu := mem_snapshotTunnels.2 ⟨hu, hon⟩
    obtain ⟨t, ht, hton, he, -⟩ := h.shown u hu
    have hid : u.id = t.id := (congrArg Tunnel.id he).trans rfl
    rw [hedit u hu t ht hid]
    exact mem_enabledSpecs.2 ⟨t, ht, hton, rfl⟩
  · intro hmem
    obtain ⟨t, ht, hon, rfl⟩ := mem_enabledSpecs.1 hmem
    obtain ⟨u, hu, he⟩ := h.held t ht hon
    rw [← hedit u hu t ht ((congrArg Tunnel.id he).trans rfl)]
    exact hspec u hu

end LoggedSession

/-- An edit made without a session is reflected after the next one has connected exactly when the
connect finds no other config of the agent at the gateway and refuses nothing of the edit. -/
theorem offline_edit_reflected_iff (g : Gateway) (agent : Agent) (new : TunnelSet)
    (st : GatewayState) (sess : AgentSession) (steps : List SessionStep) (t : LoggedSession)
    (hj : Joined g (agent.swapTunnels new.tunnels) st sess)
    (hcf : ∀ c ∈ st.agents.desiredConfig sess.agentID,
      g.env.NoCollision (hashInput (enabledSpecs new.tunnels))
        (hashInput (g.validSpecs sess.scope c.1)))
    (hquiet : ∀ set, SessionStep.edit set ∉ steps)
    (hr : Runs.Reaches (LoggedSession.step g sess)
      (LoggedSession.start (agent.swapTunnels new.tunnels) st sess) steps t)
    (hdone : t.session.Settled) (hlive : t.session.gateway.actor.live sess) :
    t.Reflects g sess new ↔ EditSafe g st sess new := by
  by_cases hcap : sess.has capGatewayConfig = true
  · obtain ⟨⟨stored, gen⟩, hconfig⟩ := Option.isSome_iff_exists.1 (hj.config hcap).2.2
    have hcf := hcf _ hconfig
    have hsafe : EditSafe g st sess new ↔ if gen = 0 then
          ∀ spec ∈ enabledSpecs new.tunnels, g.validateSpec spec sess.scope = none
        else ∀ spec, spec ∈ g.validSpecs sess.scope stored ↔ spec ∈ enabledSpecs new.tunnels := by
      constructor
      · intro h
        exact h hcap _ hconfig
      · intro h _ c hc
        rw [hconfig] at hc
        cases hc
        exact h
    rw [hsafe]
    by_cases hgen : gen = 0
    · subst hgen
      rw [if_pos rfl]
      exact LoggedSession.reflects_seeded hj rfl hcap hconfig hquiet hr hdone hlive
    · rw [if_neg hgen]
      constructor
      · intro h
        have hp := LoggedSession.pushed_of_stored hj rfl hcap hgen hconfig hcf
          (fun _ => Iff.rfl) (fun _ => True) trivial (fun _ _ => trivial) hquiet hr hdone
        exact h.same hp.provides.inv (hp.synced hdone.down) (hp.provides.only hlive)
      · intro hsame
        have hall : ∀ spec ∈ enabledSpecs new.tunnels, g.validateSpec spec sess.scope = none :=
          fun spec hspec => (Gateway.mem_validSpecs.1 ((hsame spec).2 hspec)).2
        have hd : ∀ spec, spec ∈ g.validSpecs sess.scope stored ↔
            spec ∈ g.validSpecs sess.scope (enabledSpecs new.tunnels) := by
          intro spec
          rw [hsame, Gateway.mem_validSpecs]
          exact (and_iff_left_of_imp (hall spec)).symm
        have hres : Resolves g sess new (fun _ _ => False) (g.validSpecs sess.scope stored) := by
          refine ⟨fun r hr => ?_, fun t ht hon _ => ?_, ?_⟩
          · obtain ⟨t, ht, hon, rfl⟩ := mem_enabledSpecs.1 ((hsame r).1 hr)
            exact ⟨t, ht, hon, (Gateway.mem_validSpecs.1 hr).2, rfl, .inl rfl⟩
          · exact ⟨specFromTunnel t, (hsame _).2 (mem_enabledSpecs.2 ⟨t, ht, hon, rfl⟩), rfl⟩
          · exact new.keyed.mono fun x => (hsame x).1
        exact (LoggedSession.pushed_of_stored hj rfl hcap hgen hconfig hcf hd _ hres.variants
          (fun _ => Variants.merge) hquiet hr hdone).reflects hres hall hdone.down hlive
  · rw [Bool.not_eq_true] at hcap
    refine iff_of_true (LoggedSession.reflects_registered hj rfl hcap hquiet hr hdone hlive) ?_
    intro hc
    rw [hcap] at hc
    cases hc

theorem joined_of_admission (g : Gateway) (store : AgentStore) (cmds : List Command)
    (agent : Agent) (sess : AgentSession)
    (hnew : ¬(g.run (GatewayState.start store) cmds).actor.live sess)
    (hlive : (g.exec (g.run (GatewayState.start store) cmds) (.admitSession sess)).actor.live sess)
    (hconfig : sess.has capGatewayConfig = true → sess.enrolled = true ∧
      sess.Reports g.env agent ∧ (store.desiredConfig sess.agentID).isSome) :
    Joined g agent (g.exec (g.run (GatewayState.start store) cmds) (.admitSession sess)) sess := by
  have hinv : (g.run (GatewayState.start store) cmds).actor.Inv :=
    Gateway.run_inv g Actor.newActor_inv cmds
  refine ⟨Gateway.exec_inv g hinv _, Gateway.admitted_fresh hinv hnew hlive, ?_, fun hcap => ?_⟩
  · rw [Gateway.exec_agentConfigGen, Gateway.run_agentConfigGen]
    rfl
  · obtain ⟨henrolled, hrep, hsome⟩ := hconfig hcap
    refine ⟨henrolled, hrep, ?_⟩
    rw [Gateway.exec_desiredConfig, Gateway.run_desiredConfig]
    exact hsome

/-- A session of agent `a` that an idle gateway has just admitted. -/
def justJoined (store : AgentStore) (sess : AgentSession) : GatewayState :=
  idleGateway.exec (idleGateway.run (GatewayState.start store) []) (.admitSession sess)

/-- Without gateway-config, an edit made offline is in place once the session has synced. -/
theorem offline_edit_reflected_iff_synced :
    let sess := { AgentSession.plain 1 "a" with caps := [capTunnelSync] }
    let st := justJoined (oneAgent []) sess
    let new := oneTunnel "t" 8080
    ∃ steps t, Runs.Reaches (LoggedSession.step idleGateway sess)
      (LoggedSession.start ((agentAt 0 []).swapTunnels new.tunnels) st sess) steps t ∧
      t.session.Settled ∧ (t.Reflects idleGateway sess new ↔ EditSafe idleGateway st sess new) := by
  intro sess st new
  let steps : List SessionStep := [.connect, .register, .sendRegistration, .handle true, .receive]
  let last := Runs.final (LoggedSession.step idleGateway sess)
    (LoggedSession.start ((agentAt 0 []).swapTunnels new.tunnels) st sess) steps
  obtain ⟨t, ht⟩ : ∃ t, last = some t := Option.isSome_iff_exists.1 (by decide)
  have hdone : ∀ t ∈ last, t.session.Settled := by decide
  have hlive : ∀ t ∈ last, t.session.gateway.actor.live sess := by decide
  have hr := Runs.reaches_of_final ht
  exact ⟨steps, t, hr, hdone t ht, offline_edit_reflected_iff idleGateway (agentAt 0 []) new st sess
    steps t (joined_of_admission idleGateway (oneAgent []) [] _ sess (by decide) (by decide)
      fun hc => absurd hc (by decide)) (fun _ _ => idleEnv_noCollision _ _) (by simp [steps]) hr
    (hdone t ht) (hlive t ht)⟩

/-- An agent that was in sync adds a tunnel while it is offline. The next session finds another
hash, and is pushed the set without the new tunnel. -/
theorem offline_edit_lost :
    let old := Tunnel.plain "t" 8080 "127.0.0.1:25565"
    let added := Tunnel.plain "u" 8081 "127.0.0.1:25566"
    let new : TunnelSet := ⟨[old, added], by decide, by decide⟩
    let agent := (agentAt 1 [old]).swapTunnels new.tunnels
    let sess := (AgentSession.plain 1 "a").reporting idleEnv agent
    let st := justJoined (oneAgent [specFromTunnel old]) sess
    ∃ t, Joined idleGateway agent st sess ∧ Runs.Reaches (LoggedSession.step idleGateway sess)
      (LoggedSession.start agent st sess)
      [.connect, .register, .receive, .sendAck, .handle true] t ∧
      t.session.Settled ∧ t.session.gateway.actor.live sess ∧ t.session.agent.tunnels = [old] ∧
      ¬t.Reflects idleGateway sess new := by
  intro old added new agent sess st
  let last := Runs.final (LoggedSession.step idleGateway sess) (LoggedSession.start agent st sess)
    [.connect, .register, .receive, .sendAck, .handle true]
  obtain ⟨t, ht⟩ : ∃ t, last = some t := Option.isSome_iff_exists.1 (by decide)
  have hdone : ∀ t ∈ last, t.session.Settled := by decide
  have hlive : ∀ t ∈ last, t.session.gateway.actor.live sess := by decide
  have hkept : ∀ t ∈ last, t.session.agent.tunnels = [old] := by decide
  refine ⟨t, joined_of_admission idleGateway _ [] agent sess (by decide) (by decide) fun _ =>
    ⟨rfl, rfl, by decide⟩, Runs.reaches_of_final ht, hdone t ht, hlive t ht, hkept t ht,
    fun h => ?_⟩
  obtain ⟨u, hu, he⟩ := h.held added (by decide) rfl
  obtain ⟨hmem, -⟩ := mem_snapshotTunnels.1 hu
  rw [hkept t ht, List.mem_singleton] at hmem
  rw [hmem] at he
  exact absurd (congrArg Tunnel.id he) (by decide)

end ProxyForward

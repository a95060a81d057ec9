import ProxyForward.Agent
import ProxyForward.PushedConfig

namespace ProxyForward
set_option autoImplicit true

/-- What the agent sends on its control stream. `basis` is not on the wire: it records the
generation the agent held when it composed the proposal. -/
inductive AgentFrame where
  | proposeConfig (tunnels : List TunnelSpec) (basis : Nat)
  | configAck (ack : ConfigAck)
  | syncTunnels (sync : SyncTunnels)
  | register (tunnel : TunnelSpec)
  | unregister (tunnelID : String)
  deriving DecidableEq, Repr

inductive GatewayFrame where
  | pushConfig (push : PushConfig)
  | syncResult (result : SyncResult)
  | registerOK (tunnelID : String) (publicPort : Int)
  | registerErr (tunnelID code message : String)
  deriving DecidableEq, Repr

def GatewayFrame.push? : GatewayFrame → Option PushConfig
  | .pushConfig push => some push
  | _ => none

/-- The agent, the gateway and the two directions of one control stream, oldest frames first.
`registration` and `editing` are the frames that `registerTunnels` and an `ApplyTunnels` have
composed and not yet written, `acking` is the confirmation of an applied push before it is written,
`pushed` the last config the gateway wrote. -/
structure ControlSession where
  agent : Agent
  gateway : GatewayState
  serving : Bool
  seedNeeded : Bool
  registration : Option (List AgentFrame)
  editing : List AgentFrame
  acking : Option ConfigAck
  syncSeq : Nat
  up : List AgentFrame
  down : List GatewayFrame
  pushed : Option PushConfig

inductive SessionStep where
  | connect
  | register
  | sendRegistration
  | edit (tunnels : TunnelSet)
  | sendEdit
  | receive
  | sendAck
  | handle (written : Bool)
  | command (c : Command)
  deriving DecidableEq, Repr

namespace Gateway

/-- Handle one control frame, and answer it. -/
def handleControlMsg (g : Gateway) (st : GatewayState) (sess : AgentSession) (written : Bool) :
    AgentFrame → Option GatewayFrame × GatewayState
  | .proposeConfig proposed _ =>
    if sess.enrolled && sess.has capGatewayConfig then
      let r := g.adoptProposal st sess proposed written
      (r.1.map .pushConfig, r.2)
    else (none, st)
  | .configAck ack => (none, handleAck st sess ack)
  | .syncTunnels sync =>
    if sess.has capTunnelSync then
      let r := g.syncTunnels st.actor sess sync
      (some (.syncResult r.1), { st with actor := r.2 })
    else (none, st)
  | .register spec =>
    match g.bindTunnel st.actor sess spec with
    | (.ok port, a) => (some (.registerOK spec.id port), { st with actor := a })
    | (.error berr, a) =>
      (some (.registerErr spec.id berr.code berr.msg), { st with actor := a })
  | .unregister tunnelID => (none, { st with actor := st.actor.unbindLocked sess tunnelID })

/-- What the gateway does for a fresh control stream before it reads from it. -/
def serveControl (g : Gateway) (st : GatewayState) (sess : AgentSession) :
    Option GatewayFrame × GatewayState :=
  if sess.enrolled && sess.has capGatewayConfig then
    let r := g.pushConfigOnConnect st sess
    (r.1.map .pushConfig, r.2)
  else (none, st)

end Gateway

/-- The frames of a hot-apply on a session without a whole-set frame: enabled tunnels that are gone
are unregistered, new and changed ones registered. -/
def hotApplyFrames (old new : List Tunnel) : List AgentFrame :=
  ((enabledByID old).keys.filter fun i => i ∉ (enabledByID new).keys).map .unregister ++
    ((enabledByID new).entries.filter fun e =>
      !((enabledByID old).lookup e.1).any fun t => !tunnelChanged t e.2).map
        fun e => .register (specFromTunnel e.2)

namespace ControlSession

/-- A session whose two ends have exchanged hello and hello_ok. -/
def start (agent : Agent) (st : GatewayState) (sess : AgentSession) : ControlSession where
  agent := agent
  gateway := st
  serving := false
  seedNeeded := Gateway.needsConfigSeed st sess
  registration := none
  editing := []
  acking := none
  syncSeq := 0
  up := []
  down := []
  pushed := none

/-- The gateway's state after a step, and the frame it wrote. -/
def answer (s : ControlSession) (r : Option GatewayFrame × GatewayState) : ControlSession :=
  { s with
    gateway := r.2
    down := s.down ++ r.1.toList
    pushed := (r.1.bind GatewayFrame.push?).or s.pushed }

def registerTunnels (s : ControlSession) (sess : AgentSession) : ControlSession :=
  let tunnels := s.agent.snapshotTunnels
  if sess.has capGatewayConfig then
    if s.seedNeeded then
      { s with registration := some [.proposeConfig (enabledSpecs tunnels) s.agent.configGen] }
    else { s with agent := s.agent.seedPublicPorts tunnels, registration := some [] }
  else if sess.has capTunnelSync then
    { s with
      syncSeq := s.syncSeq + 1
      registration := some [.syncTunnels ⟨s.syncSeq + 1, enabledSpecs tunnels⟩] }
  else { s with registration := some (tunnels.map fun t => .register (specFromTunnel t)) }

def applyTunnels (s : ControlSession) (sess : AgentSession) (tunnels : List Tunnel) :
    ControlSession :=
  let s' := { s with agent := s.agent.swapTunnels tunnels }
  if sess.has capGatewayConfig then
    { s' with editing := [.proposeConfig (enabledSpecs tunnels) s.agent.configGen] }
  else if sess.has capTunnelSync then
    { s' with
      syncSeq := s.syncSeq + 1
      editing := [.syncTunnels ⟨s.syncSeq + 1, enabledSpecs tunnels⟩] }
  else { s' with editing := hotApplyFrames s.agent.tunnels tunnels }

/-- A tunnel that is registered anew has no confirmed port until its answer. -/
def unconfirm (a : Agent) : AgentFrame → Agent
  | .register spec => { a with publicPorts := a.publicPorts.erase spec.id }
  | _ => a

/-- The agent handles one control frame. -/
def handleControlMsg (s : ControlSession) : GatewayFrame → ControlSession
  | .pushConfig push =>
    { s with
      agent := s.agent.applyPushedConfig push.tunnels push.generation
      acking := some ⟨push.generation, push.hash⟩ }
  | .syncResult res =>
    if res.seq ≠ s.syncSeq then s
    else
      let ports := res.results.foldl (fun m r =>
        if r.ok then m.insert r.tunnelID r.publicPort else m.erase r.tunnelID) s.agent.publicPorts
      { s with agent := { s.agent with publicPorts := ports } }
  | .registerOK tunnelID publicPort =>
    { s with agent :=
        { s.agent with publicPorts := s.agent.publicPorts.insert tunnelID publicPort } }
  | .registerErr _ _ _ => s

/-- One step of the agent, of the gateway or of somebody else at the gateway. The agent reads once
its registration is written, and confirms a push before it reads on; the gateway reads once it
serves the stream. One edit is at work at a time. -/
def step (g : Gateway) (sess : AgentSession) (s : ControlSession) :
    SessionStep → Option ControlSession
  | .connect =>
    if s.serving then none
    else some { s.answer (g.serveControl s.gateway sess) with serving := true }
  | .register => if s.registration.isSome then none else some (s.registerTunnels sess)
  | .sendRegistration =>
    match s.registration with
    | some (f :: fs) => some { s with up := s.up ++ [f], registration := some fs }
    | _ => none
  | .edit set => if s.editing ≠ [] then none else some (s.applyTunnels sess set.tunnels)
  | .sendEdit =>
    match s.editing with
    | f :: fs => some { s with agent := unconfirm s.agent f, up := s.up ++ [f], editing := fs }
    | [] => none
  | .receive =>
    if s.registration ≠ some [] ∨ s.acking.isSome then none
    else match s.down with
      | f :: fs => some ({ s with down := fs }.handleControlMsg f)
      | [] => none
  | .sendAck =>
    match s.acking with
    | some ack => some { s with up := s.up ++ [.configAck ack], acking := none }
    | none => none
  | .handle written =>
    if ¬s.serving then none
    else match s.up with
      | f :: fs =>
        some ({ s with up := fs }.answer (g.handleControlMsg s.gateway sess written f))
      | [] => none
  | .command c =>
    if c.by? = some sess then none else some { s with gateway := g.exec s.gateway c }

/-- What each step does, and when it is enabled. -/
inductive Moves (g : Gateway) (sess : AgentSession) (s : ControlSession) :
    SessionStep → ControlSession → Prop
  | connect (h : s.serving = false) : Moves g sess s .connect
      { s.answer (g.serveControl s.gateway sess) with serving := true }
  | register (h : s.registration = none) : Moves g sess s .register (s.registerTunnels sess)
  | sendRegistration (h : s.registration = some (f :: fs)) : Moves g sess s .sendRegistration
      { s with up := s.up ++ [f], registration := some fs }
  | edit (h : s.editing = []) : Moves g sess s (.edit new) (s.applyTunnels sess new.tunnels)
  | sendEdit (h : s.editing = f :: fs) : Moves g sess s .sendEdit
      { s with agent := unconfirm s.agent f, up := s.up ++ [f], editing := fs }
  | receive (hr : s.registration = some []) (ha : s.acking = none) (h : s.down = f :: fs) :
      Moves g sess s .receive (({ s with down := fs } : ControlSession).handleControlMsg f)
  | sendAck {ack : ConfigAck} (h : s.acking = some ack) : Moves g sess s .sendAck
      { s with up := s.up ++ [.configAck ack], acking := none }
  | handle (hs : s.serving = true) (h : s.up = f :: fs) : Moves g sess s (.handle written)
      (({ s with up := fs } : ControlSession).answer (g.handleControlMsg s.gateway sess written f))
  | command (h : c.by? ≠ some sess) : Moves g sess s (.command c)
      { s with gateway := g.exec s.gateway c }

theorem moves_of_step {g : Gateway} {sess : AgentSession} {s t : ControlSession}
    {l : SessionStep} (h : s.step g sess l = some t) : s.Moves g sess l t := by
  cases l with
  | connect =>
    simp only [step] at h
    split at h
    · cases h
    · rename_i hs
      cases h
      exact .connect (Bool.not_eq_true _ ▸ hs)
  | register =>
    simp only [step] at h
    split at h
    · cases h
    · rename_i hr
      cases h
      exact .register (Option.not_isSome_iff_eq_none.1 hr)
  | sendRegistration =>
    simp only [step] at h
    split at h
    · rename_i hr
      cases h
      exact .sendRegistration hr
    · cases h
  | edit set =>
    simp only [step] at h
    split at h
    · cases h
    · rename_i he
      cases h
      exact .edit (not_not.1 he)
  | sendEdit =>
    simp only [step] at h
    split at h
    · rename_i he
      cases h
      exact .sendEdit he
    · cases h
  | receive =>
    simp only [step] at h
    split at h
    · cases h
    · rename_i hr
      rw [not_or, not_not, Option.not_isSome_iff_eq_none] at hr
      split at h
      · rename_i hd
        cases h
        exact .receive hr.1 hr.2 hd
      · cases h
  | sendAck =>
    simp only [step] at h
    split at h
    · rename_i ha
      cases h
      exact .sendAck ha
    · cases h
  | handle written =>
    simp only [step] at h
    split at h
    · cases h
    · rename_i hs
      split at h
      · rename_i hu
        cases h
        exact .handle (not_not.1 hs) hu
      · cases h
  | command c =>
    simp only [step] at h
    split at h
    · cases h
    · rename_i hc
      cases h
      exact .command hc

theorem handleControlMsg_quiet (s : ControlSession) {f : GatewayFrame} (hf : f.push? = none) :
    ∃ ports, s.handleControlMsg f = { s with agent := { s.agent with publicPorts := ports } } := by
  cases f with
  | pushConfig push => cases hf
  | syncResult res =>
    simp only [handleControlMsg]
    split
    · exact ⟨_, rfl⟩
    · exact ⟨_, rfl⟩
  | registerOK tunnelID publicPort => exact ⟨_, rfl⟩
  | registerErr tunnelID code message => exact ⟨_, rfl⟩

/-- The set stored for the session's agent, and its generation. -/
def stored? (s : ControlSession) (sess : AgentSession) : Option (List TunnelSpec × Nat) :=
  s.gateway.agents.desiredConfig sess.agentID

/-- The pushes on their way to the agent. -/
def pushes (s : ControlSession) : List PushConfig := s.down.filterMap GatewayFrame.push?

theorem pushes_answer (s : ControlSession) (r : Option GatewayFrame × GatewayState) :
    (s.answer r).pushes = s.pushes ++ (r.1.bind GatewayFrame.push?).toList := by
  rw [pushes, answer, List.filterMap_append]
  cases r.1 with
  | none => rfl
  | some f => cases f <;> rfl

end ControlSession

def AgentFrame.isConfig : AgentFrame → Bool
  | .proposeConfig _ _ | .configAck _ => true
  | _ => false

namespace Gateway

variable {g : Gateway} {st : GatewayState} {sess : AgentSession}

theorem serveControl_config (g : Gateway) (st : GatewayState) (sess : AgentSession) :
    (g.serveControl st sess).2.agents = st.agents ∧
      (g.serveControl st sess).2.agentConfigGen = st.agentConfigGen ∧
      ∀ f ∈ (g.serveControl st sess).1, ∃ c ∈ st.agents.desiredConfig sess.agentID,
        c.2 ≠ 0 ∧ f = .pushConfig (g.pushOf c.2 (g.validSpecs sess.scope c.1)) := by
  unfold serveControl
  split
  · by_cases hidle : ∀ c ∈ st.agents.desiredConfig sess.agentID, c.2 = 0
    · rw [pushConfigOnConnect_idle g hidle]
      exact ⟨rfl, rfl, nofun⟩
    · simp only [not_forall] at hidle
      obtain ⟨⟨stored, gen⟩, hd, hgen⟩ := hidle
      rw [pushConfigOnConnect_serves g hd hgen]
      refine ⟨rfl, rfl, fun f hf => ⟨(stored, gen), hd, hgen, ?_⟩⟩
      split at hf
      · cases hf
      · exact (Option.some.inj hf).symm
  · exact ⟨rfl, rfl, nofun⟩

theorem serveControl_unconfigured (g : Gateway) (st : GatewayState)
    (hcap : sess.has capGatewayConfig = false) : g.serveControl st sess = (none, st) := by
  simp only [serveControl, hcap, Bool.and_false, Bool.false_eq_true, if_false]

theorem handleControlMsg_other (g : Gateway) (st : GatewayState) (sess : AgentSession)
    {f : AgentFrame} (hf : f.isConfig = false) (written : Bool) :
    (g.handleControlMsg st sess written f).2.agents = st.agents ∧
      (g.handleControlMsg st sess written f).2.agentConfigGen = st.agentConfigGen ∧
      (g.handleControlMsg st sess written f).1.bind GatewayFrame.push? = none := by
  cases f with
  | proposeConfig | configAck => cases hf
  | syncTunnels sync =>
    simp only [handleControlMsg]
    split <;> exact ⟨rfl, rfl, rfl⟩
  | register spec =>
    simp only [handleControlMsg]
    split <;> exact ⟨rfl, rfl, rfl⟩
  | unregister tunnelID => exact ⟨rfl, rfl, rfl⟩

theorem handleControlMsg_propose (g : Gateway) (st : GatewayState) (sess : AgentSession)
    (written : Bool) (proposed : List TunnelSpec) (basis : Nat) :
    let r := g.handleControlMsg st sess written (.proposeConfig proposed basis)
    r = (none, st) ∧ (sess.enrolled && sess.has capGatewayConfig →
        st.agents.desiredConfig sess.agentID = none) ∨
      ∃ stored gen, st.agents.desiredConfig sess.agentID = some (stored, gen) ∧
        (staleBasis st sess gen = true ∧ r = (some (.pushConfig (g.pushOf gen stored)), st) ∨
          ¬staleBasis st sess gen = true ∧ ∃ resolved,
            r.1 = some (.pushConfig (g.pushOf (gen + 1) resolved)) ∧
            r.2.agents.desiredConfig sess.agentID = some (resolved, gen + 1) ∧
            r.2.agentConfigGen sess = gen + 1) := by
  simp only [handleControlMsg]
  split
  · cases hd : st.agents.desiredConfig sess.agentID with
    | none =>
      rw [adoptProposal_unknown g hd]
      exact .inl ⟨rfl, fun _ => rfl⟩
    | some c =>
      obtain ⟨stored, gen⟩ := c
      refine .inr ⟨stored, gen, rfl, ?_⟩
      by_cases hstale : staleBasis st sess gen = true
      · rw [adoptProposal_refuses g hd hstale]
        exact .inl ⟨hstale, rfl⟩
      · obtain ⟨store, hr, hstore⟩ := adoptProposal_adopts g hd hstale proposed written
        rw [hr]
        exact .inr ⟨hstale, _, rfl, hstore, Function.update_self _ _ _⟩
  · rename_i hoff
    exact .inl ⟨rfl, fun hon => absurd hon hoff⟩

theorem serveControl_inv (g : Gateway) (h : st.actor.Inv) (sess : AgentSession) :
    (g.serveControl st sess).2.actor.Inv := by
  unfold serveControl
  split
  · by_cases hidle : ∀ c ∈ st.agents.desiredConfig sess.agentID, c.2 = 0
    · rw [pushConfigOnConnect_idle g hidle]
      exact h
    · simp only [not_forall] at hidle
      obtain ⟨⟨stored, gen⟩, hd, hgen⟩ := hidle
      rw [pushConfigOnConnect_serves g hd hgen]
      exact h.reconcile g sess _
  · exact h

theorem adoptProposal_inv (g : Gateway) (h : st.actor.Inv) (sess : AgentSession)
    (proposed : List TunnelSpec) (written : Bool) :
    (g.adoptProposal st sess proposed written).2.actor.Inv := by
  cases hd : st.agents.desiredConfig sess.agentID with
  | none =>
    rw [adoptProposal_unknown g hd]
    exact h
  | some c =>
    by_cases hstale : staleBasis st sess c.2 = true
    · rw [adoptProposal_refuses g hd hstale]
      exact h
    · obtain ⟨store, hadopt, -⟩ := adoptProposal_adopts g hd hstale proposed written
      rw [hadopt]
      exact h.reconcile g sess _

theorem handleControlMsg_inv (g : Gateway) (h : st.actor.Inv) (sess : AgentSession) (written : Bool)
    (f : AgentFrame) : (g.handleControlMsg st sess written f).2.actor.Inv := by
  cases f with
  | proposeConfig proposed basis =>
    simp only [handleControlMsg]
    split
    · exact adoptProposal_inv g h sess proposed written
    · exact h
  | configAck ack => exact h
  | syncTunnels sync =>
    simp only [handleControlMsg]
    split
    · exact h.reconcile g sess _
    · exact h
  | register spec =>
    simp only [handleControlMsg, bindTunnel]
    cases g.validateSpec spec sess.scope with
    | some berr => exact h
    | none =>
      have hbind := h.bindTunnel g sess spec
      revert hbind
      cases st.actor.bindTunnel g sess spec with
      | mk result a => cases result <;> exact id
  | unregister tunnelID => exact h.unbindLocked sess tunnelID

theorem serveControl_rebinds (g : Gateway) (st : GatewayState) (sess : AgentSession) :
    Rebinds sess.agentID st.actor (g.serveControl st sess).2.actor := by
  unfold serveControl
  split
  · by_cases hidle : ∀ c ∈ st.agents.desiredConfig sess.agentID, c.2 = 0
    · rw [pushConfigOnConnect_idle g hidle]
      exact .refl _ _
    · simp only [not_forall] at hidle
      obtain ⟨⟨stored, gen⟩, hd, hgen⟩ := hidle
      rw [pushConfigOnConnect_serves g hd hgen]
      exact Actor.reconcile_rebinds g st.actor sess _
  · exact .refl _ _

theorem adoptProposal_rebinds (g : Gateway) (st : GatewayState) (sess : AgentSession)
    (proposed : List TunnelSpec) (written : Bool) :
    Rebinds sess.agentID st.actor (g.adoptProposal st sess proposed written).2.actor := by
  cases hd : st.agents.desiredConfig sess.agentID with
  | none =>
    rw [adoptProposal_unknown g hd]
    exact .refl _ _
  | some c =>
    by_cases hstale : staleBasis st sess c.2 = true
    · rw [adoptProposal_refuses g hd hstale]
      exact .refl _ _
    · obtain ⟨store, hadopt, -⟩ := adoptProposal_adopts g hd hstale proposed written
      rw [hadopt]
      exact Actor.reconcile_rebinds g st.actor sess _

theorem handleControlMsg_rebinds (g : Gateway) (st : GatewayState) (sess : AgentSession)
    (written : Bool) (f : AgentFrame) :
    Rebinds sess.agentID st.actor (g.handleControlMsg st sess written f).2.actor := by
  cases f with
  | proposeConfig proposed basis =>
    simp only [handleControlMsg]
    split
    · exact adoptProposal_rebinds g st sess proposed written
    · exact .refl _ _
  | configAck ack => exact .refl _ _
  | syncTunnels sync =>
    simp only [handleControlMsg]
    split
    · exact Actor.reconcile_rebinds g st.actor sess _
    · exact .refl _ _
  | register spec =>
    simp only [handleControlMsg, bindTunnel]
    cases g.validateSpec spec sess.scope with
    | some berr => exact .refl _ _
    | none =>
      have hbind := Actor.bindTunnel_rebinds g st.actor sess spec
      revert hbind
      cases st.actor.bindTunnel g sess spec with
      | mk result a => cases result <;> exact id
  | unregister tunnelID => exact Actor.unbindLocked_rebinds st.actor sess tunnelID

end Gateway

theorem ControlSession.step_inv {g : Gateway} {sess : AgentSession} {s t : ControlSession}
    {l : SessionStep} (h : s.gateway.actor.Inv)
    (hs : s.step g sess l = some t) : t.gateway.actor.Inv := by
  cases moves_of_step hs with
  | connect => exact Gateway.serveControl_inv g h sess
  | register =>
    unfold registerTunnels
    split
    · split <;> exact h
    · split <;> exact h
  | sendRegistration => exact h
  | edit =>
    unfold applyTunnels
    split
    · exact h
    · split <;> exact h
  | sendEdit => exact h
  | @receive f fs =>
    cases f with
    | syncResult res =>
      simp only [handleControlMsg]
      split <;> exact h
    | pushConfig push => exact h
    | registerOK tunnelID publicPort => exact h
    | registerErr tunnelID code message => exact h
  | sendAck => exact h
  | handle => exact Gateway.handleControlMsg_inv g h sess _ _
  | command => exact Gateway.exec_inv g h _

/-- A tunnel that only forwards. -/
def Tunnel.plain (id : String) (publicPort : Int) (localAddr : String) : Tunnel :=
  ⟨id, id, tunnelTCP, localAddr, publicPort, true, ⟨false, false, "", 0, ""⟩⟩

/-- The set of a user with one tunnel. -/
def oneTunnel (id : String) (publicPort : Int) : TunnelSet :=
  ⟨[.plain id publicPort "127.0.0.1:25565"], List.nodup_singleton _,
    List.forall_mem_singleton.2 (show "127.0.0.1:25565" ≠ "" by decide)⟩

def agentAt (gen : Nat) (tunnels : List Tunnel) : Agent := ⟨tunnels, gen, ∅⟩

/-- An enrolled session of agent `a` that reports generation 1. -/
def configSession : AgentSession := atGeneration 1 (AgentSession.plain 1 "a")

/-- A gateway with a config of agent `a` at generation 1, whose session is live. -/
def servedConfig (specs : List TunnelSpec) : GatewayState :=
  idleGateway.run (GatewayState.start (oneAgent specs)) [.admitSession configSession]

end ProxyForward

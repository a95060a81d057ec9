import ProxyForward.Listeners
import ProxyForward.HashTunnels

namespace ProxyForward
set_option autoImplicit true

/-- The changing part of a running gateway. `agentConfigGen` is the counter each session keeps of
the config generation its agent holds, seeded from its hello. -/
structure GatewayState where
  actor : Actor
  agents : AgentStore
  agentConfigGen : AgentSession → Nat

def GatewayState.start (store : AgentStore) : GatewayState :=
  ⟨newActor, store, fun sess => sess.configGeneration⟩

/-- Store the generation that a session's agent is taken to hold. -/
def GatewayState.storeGen (st : GatewayState) (sess : AgentSession) (gen : Nat) : GatewayState :=
  { st with agentConfigGen := Function.update st.agentConfigGen sess gen }

structure BindError where
  code : String
  msg : String
  deriving DecidableEq, Repr

namespace Gateway

/-- The protocol and policy limits of one spec. -/
def validateSpec (g : Gateway) (spec : TunnelSpec) (scope : Scope) : Option BindError :=
  let q := quote g.env.isPrint
  if spec.id = "" ∨ spec.type ≠ tunnelTCP then
    some ⟨errCodeBadTunnel,
      "tunnel " ++ q spec.name ++ ": only tcp tunnels with an id are supported"⟩
  else if spec.publicPort < 0 ∨ 65535 < spec.publicPort then
    some ⟨errCodeBadTunnel,
      "tunnel " ++ q spec.name ++ ": invalid public port " ++ toString spec.publicPort⟩
  else if spec.publicPort ≠ 0 ∧ ¬scope.allowsPort spec.publicPort then
    some ⟨errCodePortNotAllowed,
      "port " ++ toString spec.publicPort ++ " is outside this agent's allowed ports"⟩
  else if ¬scope.allowsTunnel spec.id then
    some ⟨errCodeBadTunnel, "tunnel " ++ q spec.id ++ " is outside this agent's allowed scope"⟩
  else if g.cfg.portAllowlist ≠ [] ∧ spec.publicPort ≠ 0 ∧
      ¬g.cfg.portAllowlist.contains spec.publicPort then
    some ⟨errCodePortNotAllowed,
      "port " ++ toString spec.publicPort ++ " is not in the gateway's allowlist"⟩
  else none

def bindTunnel (g : Gateway) (a : Actor) (sess : AgentSession) (spec : TunnelSpec) :
    Except BindError Int × Actor :=
  match g.validateSpec spec sess.scope with
  | some berr => (.error berr, a)
  | none =>
    match a.bindTunnel g sess spec with
    | (.ok port, a) => (.ok port, a)
    | (.error text, a) => (.error ⟨errCodePortInUse, text⟩, a)

/-- The specs that pass validation under the session's scope and the gateway's policy. -/
def validSpecs (g : Gateway) (scope : Scope) (specs : List TunnelSpec) : List TunnelSpec :=
  specs.filter fun spec => (g.validateSpec spec scope).isNone

def refusal (g : Gateway) (scope : Scope) (spec : TunnelSpec) : Option SyncTunnelResult :=
  (g.validateSpec spec scope).map fun berr => ⟨spec.id, false, 0, berr.code, berr.msg⟩

def ReconcileOutcome.result (o : ReconcileOutcome) : SyncTunnelResult :=
  match o.err with
  | some text => ⟨o.id, false, 0, errCodePortInUse, text⟩
  | none => ⟨o.id, true, o.port, "", ""⟩

/-- Apply a full desired set: refused specs become error results, the rest are reconciled. -/
def syncTunnels (g : Gateway) (a : Actor) (sess : AgentSession) (sync : SyncTunnels) :
    SyncResult × Actor :=
  let (outcomes, a) := a.reconcile g sess (g.validSpecs sess.scope sync.tunnels)
  (⟨sync.seq, sync.tunnels.filterMap (g.refusal sess.scope) ++
    outcomes.map ReconcileOutcome.result⟩, a)

/-- The port a pass bound an id to, the last one where an id occurs twice. -/
def boundPort (outcomes : List ReconcileOutcome) (id : String) : Option Int :=
  (outcomes.reverse.find? fun o => o.id = id && o.err.isNone && o.port ≠ 0).map (·.port)

/-- Replace each public port by the one the gateway bound. -/
def resolvePorts (specs : List TunnelSpec) (outcomes : List ReconcileOutcome) : List TunnelSpec :=
  specs.map fun s => { s with publicPort := (boundPort outcomes s.id).getD s.publicPort }

/-- Reconcile the authoritative set onto a fresh session, and push it when the agent's reported view
has drifted. -/
def pushConfigOnConnect (g : Gateway) (st : GatewayState) (sess : AgentSession) :
    Option PushConfig × GatewayState :=
  match st.agents.desiredConfig sess.agentID with
  | none => (none, st)
  | some (stored, gen) =>
    if gen = 0 then (none, st)
    else
      let valid := g.validSpecs sess.scope stored
      let st := { st with actor := (st.actor.reconcile g sess valid).2 }
      let hash := hashTunnels g.env valid
      if sess.reportedConfigHash = hash ∧ st.agentConfigGen sess = gen then (none, st)
      else (some ⟨gen, hash, valid⟩, st)

/-- The basis check of a proposal: the gateway holds a config, of another generation than the one it
takes the agent to hold. -/
def staleBasis (st : GatewayState) (sess : AgentSession) (storedGen : Nat) : Bool :=
  storedGen ≠ 0 ∧ st.agentConfigGen sess ≠ storedGen

def pushOf (g : Gateway) (gen : Nat) (specs : List TunnelSpec) : PushConfig :=
  ⟨gen, hashTunnels g.env specs, specs⟩

/-- Store a resolved set as the authoritative one, and count the session's agent as holding it.
`none` for an unknown agent. -/
def adoptResolved (g : Gateway) (st : GatewayState) (sess : AgentSession)
    (resolved : List TunnelSpec) (written : Bool) : Option PushConfig × GatewayState :=
  match st.agents.adoptConfig sess.agentID resolved written with
  | (none, store) => (none, { st with agents := store })
  | (some gen, store) =>
    (some (g.pushOf gen resolved), { st with agents := store }.storeGen sess gen)

/-- Handle a proposed set: refuse one on a stale basis and push the stored set again, else reconcile
it, adopt what was bound and push that. -/
def adoptProposal (g : Gateway) (st : GatewayState) (sess : AgentSession)
    (proposed : List TunnelSpec) (written : Bool) : Option PushConfig × GatewayState :=
  match st.agents.desiredConfig sess.agentID with
  | none => (none, st)
  | some (stored, storedGen) =>
    if staleBasis st sess storedGen then (some (g.pushOf storedGen stored), st)
    else
      let valid := g.validSpecs sess.scope proposed
      let (outcomes, actor) := st.actor.reconcile g sess valid
      g.adoptResolved { st with actor := actor } sess (resolvePorts valid outcomes) written

/-- The agent confirms a pushed generation. -/
def handleAck (st : GatewayState) (sess : AgentSession) (ack : ConfigAck) : GatewayState :=
  st.storeGen sess ack.generation

/-- Ask for a seed only on first contact. -/
def needsConfigSeed (st : GatewayState) (sess : AgentSession) : Bool :=
  sess.enrolled && sess.has capGatewayConfig &&
    (match st.agents.desiredConfig sess.agentID with
      | none => false
      | some (_, gen) => gen = 0)

/-- Remove an agent from the allowlist, and evict its live session. -/
def revokeAgent (st : GatewayState) (agentID : String) (written : Bool) : Bool × GatewayState :=
  let (ok, store) := st.agents.revoke agentID written
  (ok, { st with agents := store, actor := st.actor.evictAgent agentID })

/-- Replace an agent's scope, and evict its live session. -/
def setAgentScope (st : GatewayState) (agentID : String) (scope : Scope) (written : Bool) :
    Bool × GatewayState :=
  let (ok, store) := st.agents.setScope agentID scope written
  (ok, { st with
    agents := store, actor := if ok then st.actor.evictAgent agentID else st.actor })

end Gateway

end ProxyForward

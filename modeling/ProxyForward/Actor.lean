import ProxyForward.Environment
import ProxyForward.Bwcap
import ProxyForward.Conflict

namespace ProxyForward
set_option autoImplicit true

/-- One connected agent, with what is fixed at its admission. `ptr` is the session object, so that
equality is pointer equality; `identityKey` is the key it authenticated by. The flags that change
later are kept in the state. -/
structure AgentSession where
  ptr : Nat
  agentID : String
  remoteIP : String
  scope : Scope
  enrolled : Bool
  identityKey : Option PubKey
  reportedConfigHash : String
  configGeneration : Nat
  caps : List String
  deriving DecidableEq, Repr

def AgentSession.has (s : AgentSession) (cap : String) : Bool := s.caps.contains cap

/-- An unrestricted session of an agent. -/
def AgentSession.plain (ptr : Nat) (agentID : String) : AgentSession :=
  ⟨ptr, agentID, "", ⟨[], []⟩, true, none, "", 0, supportedCapabilities⟩

/-- An open socket; the number of the call that opened it is its identity. -/
structure Listener where
  handle : Nat
  port : Int
  deriving DecidableEq, Repr

/-- One bound public port serving one tunnel of one session. -/
structure PublicListener where
  spec : TunnelSpec
  owner : AgentSession
  ln : Listener
  limiters : LimiterSet
  deriving DecidableEq, Repr

/-- The anti-flap record of an agent id. -/
structure DampState where
  lastSupersedeAt : Option Int
  penalty : Int
  deriving DecidableEq, Repr

/-- The lifecycle state of all sessions and listeners. `evicted` holds the sessions whose evicted
flag is set, and `calls` counts the answers taken from the environment. -/
structure Actor where
  agents : GoMap AgentSession
  generation : Nat
  listeners : GoMap (GoMap PublicListener)
  admitDamp : GoMap DampState
  events : EventRing
  evicted : List AgentSession
  calls : Nat

def newActor : Actor := ⟨∅, 0, ∅, ∅, newEventRing eventRingCap, [], 0⟩

def second : Int := 1000000000
def supersedeFlapWindow : Int := 2 * second
def basePenalty : Int := 1 * second
def capPenalty : Int := 30 * second

inductive AdmitError where
  | dampened
  deriving DecidableEq, Repr

/-- How an attempt to open a public port ended. -/
inductive Opened where
  | granted (ln : Listener)
  | reassigned (ln : Listener)
  | failed (text : String)
  deriving DecidableEq, Repr

namespace Env

def netListen (env : Env) (addr : String) (held : List Int) (n : Nat) (port : Int) :
    Except ListenError Listener :=
  (env.listen n addr held port).map fun p => ⟨n, p⟩

/-- The first candidate port that opens. -/
def listenFirstFree (env : Env) (addr : String) (held : List Int) :
    Nat → List Int → Option Listener × Nat
  | n, [] => (none, n)
  | n, p :: ps =>
    match env.netListen addr held n p with
    | .ok ln => (some ln, n + 1)
    | .error _ => env.listenFirstFree addr held (n + 1) ps

def decorateBindError (env : Env) (n : Nat) (port : Int) (e : ListenError) : String × Nat :=
  if ¬e.inUse then (e.text, n)
  else match env.portOwner n port with
    | none => (e.text, n + 1)
    | some o => ("port " ++ toString port ++ " is in use by " ++ o.string ++ ": " ++ e.text, n + 1)

end Env

/-- Open a public port, or one the policy allows in its place when it is in use. -/
def Gateway.openPort (g : Gateway) (held : List Int) (n : Nat) (scope : Scope) (port : Int) :
    Opened × Nat :=
  match g.env.netListen g.cfg.bindAddr held n port with
  | .ok ln => (.granted ln, n + 1)
  | .error e =>
    if ¬e.inUse then (.failed (g.env.decorateBindError (n + 1) port e).1,
      (g.env.decorateBindError (n + 1) port e).2)
    else
      match g.env.listenFirstFree g.cfg.bindAddr held (n + 1)
          (reassignCandidates port scope g.cfg.portAllowlist) with
      | (some ln, n) => (.reassigned ln, n)
      | (none, n) => (.failed (g.env.decorateBindError n port e).1,
          (g.env.decorateBindError n port e).2)

/-- Two specs describe the same public listener: everything but the bandwidth fields. -/
def sameListener (a b : TunnelSpec) : Bool :=
  a.id = b.id && a.name = b.name && a.type = b.type && a.publicPort = b.publicPort &&
    a.offlineMOTD = b.offlineMOTD && a.minecraftAware = b.minecraftAware

/-- One tunnel's result from a reconcile pass. -/
structure ReconcileOutcome where
  id : String
  port : Int
  err : Option String
  deriving DecidableEq, Repr

namespace Actor

def listener? (a : Actor) (agentID tunnelID : String) : Option PublicListener :=
  (a.listeners.lookup agentID).bind fun subtree => subtree.lookup tunnelID

/-- The ports of every stored listener. -/
def heldPorts (a : Actor) : List Int :=
  a.listeners.entries.flatMap fun e => e.2.entries.map fun f => f.2.ln.port

/-- The session is the one its agent id maps to, and its evicted flag is not set. -/
def live (a : Actor) (sess : AgentSession) : Prop :=
  a.agents.lookup sess.agentID = some sess ∧ sess ∉ a.evicted

instance (a : Actor) (sess : AgentSession) : Decidable (a.live sess) :=
  inferInstanceAs (Decidable (_ ∧ _))

def recordEvent (env : Env) (a : Actor) (ev : GatewayEvent) : Actor :=
  { a with
    events := a.events.push { ev with timeMs := env.now a.calls / 1000000 }
    calls := a.calls + 1 }

/-- Less than `bound` has passed since an instant; never so for the zero time. -/
def within (env : Env) (a : Actor) (last : Option Int) (bound : Int) : Bool × Actor :=
  match last with
  | none => (false, a)
  | some t => (decide (env.now a.calls - t < bound), { a with calls := a.calls + 1 })

def damp (a : Actor) (agentID : String) : DampState :=
  (a.admitDamp.lookup agentID).getD ⟨none, 0⟩

/-- Arm the anti-flap penalty when supersedes come in rapid succession. -/
def noteSupersede (env : Env) (a : Actor) (agentID : String) : Actor :=
  let d := a.damp agentID
  let (rapid, a) := a.within env d.lastSupersedeAt supersedeFlapWindow
  let penalty := if rapid then
      if d.penalty = 0 then basePenalty else min (2 * d.penalty) capPenalty
    else 0
  { a with
    admitDamp := a.admitDamp.insert agentID ⟨some (env.now a.calls), penalty⟩
    calls := a.calls + 1 }

/-- Drop a session from the agent map and close its agent's listeners. -/
def evict (a : Actor) (sess : AgentSession) : Actor :=
  { a with
    agents := a.agents.erase sess.agentID
    evicted := sess :: a.evicted
    listeners := a.listeners.erase sess.agentID }

def install (a : Actor) (sess : AgentSession) : Except AdmitError Nat × Actor :=
  (.ok (a.generation + 1),
    { a with generation := a.generation + 1, agents := a.agents.insert sess.agentID sess })

def cloneSuspected (incumbent sess : AgentSession) : GatewayEvent :=
  { seq := 0, timeMs := 0, kind := eventCloneSuspected, agentID := sess.agentID, tunnelID := ""
    message := "agent " ++ sess.agentID ++ " is being contested from two addresses (" ++
      incumbent.remoteIP ++ " and " ++ sess.remoteIP ++ ") — its identity key looks cloned; " ++
      "re-enroll one machine for its own identity"
    requestedPort := 0, actualPort := 0 }

/-- A rapid supersede from another address. -/
def contested (env : Env) (a : Actor) (incumbent sess : AgentSession) : Bool × Actor :=
  if incumbent.remoteIP ≠ "" ∧ sess.remoteIP ≠ "" ∧ incumbent.remoteIP ≠ sess.remoteIP then
    a.within env (a.damp sess.agentID).lastSupersedeAt supersedeFlapWindow
  else (false, a)

def noteContest (env : Env) (a : Actor) (incumbent sess : AgentSession) : Actor :=
  let (clone, a) := a.contested env incumbent sess
  if clone then a.recordEvent env (cloneSuspected incumbent sess) else a

def supersede (env : Env) (a : Actor) (incumbent sess : AgentSession) : Actor :=
  ((a.noteContest env incumbent sess).evict incumbent).noteSupersede env sess.agentID

/-- The penalty of earlier contests refuses the newcomer for now. -/
def dampened (env : Env) (a : Actor) (agentID : String) : Bool × Actor :=
  let d := a.damp agentID
  if 0 < d.penalty then a.within env d.lastSupersedeAt d.penalty else (false, a)

/-- Admit an authenticated session: a matching agent id supersedes the incumbent, unless such
contests come too fast, and other agents are served alongside. -/
def admitSession (env : Env) (a : Actor) (sess : AgentSession) : Except AdmitError Nat × Actor :=
  match a.agents.lookup sess.agentID with
  | none => a.install sess
  | some incumbent =>
    let (refused, a) := a.dampened env sess.agentID
    if refused then (.error .dampened, a)
    else (a.supersede env incumbent sess).install sess

/-- A session that is no longer its agent's live one is left alone. -/
def disconnected (a : Actor) (sess : AgentSession) : Actor :=
  if a.agents.lookup sess.agentID = some sess then a.evict sess else a

/-- Evict whatever session an agent id has. -/
def evictAgent (a : Actor) (agentID : String) : Actor :=
  match a.agents.lookup agentID with
  | none => a
  | some s => a.evict s

/-- Close the listener of one tunnel; the agent's subtree stays, possibly empty. -/
def closeTunnel (a : Actor) (agentID tunnelID : String) : Actor :=
  match a.listeners.lookup agentID with
  | none => a
  | some subtree => { a with listeners := a.listeners.insert agentID (subtree.erase tunnelID) }

def putListener (a : Actor) (sess : AgentSession) (spec : TunnelSpec) (ln : Listener) : Actor :=
  let subtree := (a.listeners.lookup sess.agentID).getD ∅
  let pl : PublicListener :=
    ⟨spec, sess, ln, buildSet spec.bandwidthLimitMbps spec.bandwidthLimitScope⟩
  { a with listeners := a.listeners.insert sess.agentID (subtree.insert spec.id pl) }

/-- What holds a public port, for a reassignment message. -/
def portHolderDesc (env : Env) (a : Actor) (port : Int) : String × Nat :=
  match a.listeners.entries.find? fun e => e.2.entries.any fun f => f.2.ln.port = port with
  | some e => ("agent " ++ e.1, a.calls)
  | none =>
    match env.portOwner a.calls port with
    | some o => (o.string, a.calls + 1)
    | none => ("another process", a.calls + 1)

def noteReassigned (env : Env) (a : Actor) (sess : AgentSession) (spec : TunnelSpec)
    (ln : Listener) : Actor :=
  let (holder, n) := a.portHolderDesc env spec.publicPort
  { a with calls := n }.recordEvent env
    { seq := 0, timeMs := 0, kind := eventPortReassigned, agentID := sess.agentID
      tunnelID := spec.id
      message := quote env.isPrint spec.name ++ " could not take port " ++
        toString spec.publicPort ++ " (in use by " ++ holder ++ "); it is on port " ++
        toString ln.port ++ " until you reclaim " ++ toString spec.publicPort
      requestedPort := spec.publicPort, actualPort := ln.port }

/-- Replace the agent's listener of the spec's id by a fresh one. The listener keeps the requested
spec also when its port was reassigned. -/
def bindLocked (g : Gateway) (a : Actor) (sess : AgentSession) (spec : TunnelSpec) :
    Except String Int × Actor :=
  let a := a.closeTunnel sess.agentID spec.id
  match g.openPort a.heldPorts a.calls sess.scope spec.publicPort with
  | (.granted ln, n) => (.ok ln.port, { a with calls := n }.putListener sess spec ln)
  | (.reassigned ln, n) =>
    (.ok ln.port,
      ({ a with calls := n }.noteReassigned g.env sess spec ln).putListener sess spec ln)
  | (.failed text, n) => (.error text, { a with calls := n })

/-- Close the listener of one tunnel, and drop the agent's subtree with its last one. -/
def dropTunnel (a : Actor) (agentID tunnelID : String) : Actor :=
  let subtree := ((a.listeners.lookup agentID).getD ∅).erase tunnelID
  if subtree.entries = [] then { a with listeners := a.listeners.erase agentID }
  else { a with listeners := a.listeners.insert agentID subtree }

/-- Close one tunnel's listener if it belongs to the session. -/
def unbindLocked (a : Actor) (sess : AgentSession) (tunnelID : String) : Actor :=
  match a.listener? sess.agentID tunnelID with
  | none => a
  | some pl => if pl.owner ≠ sess then a else a.dropTunnel sess.agentID tunnelID

def errInactive : String := "session is no longer active"

def bindTunnel (g : Gateway) (a : Actor) (sess : AgentSession) (spec : TunnelSpec) :
    Except String Int × Actor :=
  if a.live sess then a.bindLocked g sess spec else (.error errInactive, a)

/-- Set the limiters of a stored listener. -/
def storeLimiters (a : Actor) (agentID tunnelID : String) (pl : PublicListener)
    (set : LimiterSet) : Actor :=
  let subtree := (a.listeners.lookup agentID).getD ∅
  { a with
    listeners := a.listeners.insert agentID (subtree.insert tunnelID { pl with limiters := set }) }

/-- The listener a desired spec is served by without rebinding. -/
def kept? (a : Actor) (sess : AgentSession) (spec : TunnelSpec) : Option PublicListener :=
  (a.listener? sess.agentID spec.id).filter fun pl => sameListener pl.spec spec

/-- One desired spec of a reconcile pass: keep the listener and apply a changed cap to it, or bind a
fresh one. -/
def reconcileSpec (g : Gateway) (a : Actor) (sess : AgentSession) (spec : TunnelSpec) :
    ReconcileOutcome × Actor :=
  match a.kept? sess spec with
  | some pl =>
    -- the comparison is with the spec the listener was bound with, which a cap change leaves
    let a := if pl.spec ≠ spec then
        a.storeLimiters sess.agentID spec.id pl
          (reconcileSet (some pl.limiters) spec.bandwidthLimitMbps spec.bandwidthLimitScope).1
      else a
    (⟨spec.id, pl.ln.port, none⟩, a)
  | none =>
    match a.bindLocked g sess spec with
    | (.ok port, a) => (⟨spec.id, port, none⟩, a)
    | (.error text, a) => (⟨spec.id, 0, some text⟩, a)

def reconcileSpecs (g : Gateway) (a : Actor) (sess : AgentSession) :
    List TunnelSpec → List ReconcileOutcome × Actor
  | [] => ([], a)
  | spec :: rest =>
    let (o, a) := a.reconcileSpec g sess spec
    let (os, a) := a.reconcileSpecs g sess rest
    (o :: os, a)

/-- The session's listeners whose tunnel is not wanted. -/
def unwanted (a : Actor) (sess : AgentSession) (desired : List TunnelSpec) : List String :=
  ((a.listeners.lookup sess.agentID).getD ∅).keys.filter fun id => id ∉ desired.map (·.id)

def unbindAll (a : Actor) (sess : AgentSession) (ids : List String) : Actor :=
  ids.foldl (fun a id => a.unbindLocked sess id) a

/-- Make the session's listener set equal the desired one. -/
def reconcile (g : Gateway) (a : Actor) (sess : AgentSession) (desired : List TunnelSpec) :
    List ReconcileOutcome × Actor :=
  if a.live sess then (a.unbindAll sess (a.unwanted sess desired)).reconcileSpecs g sess desired
  else (desired.map fun spec => ⟨spec.id, 0, some errInactive⟩, a)

end Actor

end ProxyForward

import ProxyForward.Convergence
import ProxyForward.SyncOrder

namespace ProxyForward
set_option autoImplicit true

deriving instance DecidableEq for Agent

instance (sess : AgentSession) (env : Env) (agent : Agent) : Decidable (sess.Reports env agent) :=
  inferInstanceAs (Decidable (_ = _))

/-- Where the agent is with its link: between two sessions, past hello_ok, with the session in
`curSession`, and past the end of the session with its ports not cleared yet. -/
inductive LinkPhase where
  | down
  | greeting
  | serving
  | ended
  deriving DecidableEq, Repr

def LinkPhase.up (p : LinkPhase) : Prop := p = .greeting ∨ p = .serving

instance (p : LinkPhase) : Decidable p.up := inferInstanceAs (Decidable (_ ∨ _))

/-- What a goroutine of an ended session still has in hand: the frame its reader has read, or the
frame its `ApplyTunnels` is about to write. -/
inductive Leftover where
  | read (f : GatewayFrame) (syncSeq : Nat)
  | edit (f : AgentFrame)
  deriving DecidableEq, Repr

namespace Agent

/-- What one control frame makes of the agent, in a session whose last sync has number `syncSeq`. -/
def receive (a : Agent) (syncSeq : Nat) : GatewayFrame → Agent
  | .pushConfig push => a.applyPushedConfig push.tunnels push.generation
  | .syncResult res =>
    if res.seq ≠ syncSeq then a
    else { a with
      publicPorts := res.results.foldl (fun m r =>
        if r.ok then m.insert r.tunnelID r.publicPort else m.erase r.tunnelID) a.publicPorts }
  | .registerOK tunnelID publicPort =>
    { a with publicPorts := a.publicPorts.insert tunnelID publicPort }
  | .registerErr _ _ _ => a

/-- The confirmed public port of a tunnel. -/
def tunnelPublicPort (a : Agent) (tunnelID : String) : Option Int := a.publicPorts.lookup tunnelID

def enabledIDs (a : Agent) : List String := a.snapshotTunnels.map (·.id)

end Agent

def Leftover.apply (a : Agent) : Leftover → Agent
  | .read f syncSeq => a.receive syncSeq f
  -- the write fails, but the port is deleted before it
  | .edit f => ControlSession.unconfirm a f

namespace ControlSession

/-- `registerTunnels` for the tunnels it has read. -/
def registerSnapshot (s : ControlSession) (sess : AgentSession) (tunnels : List Tunnel) :
    ControlSession :=
  if sess.has capGatewayConfig then
    if s.seedNeeded then
      { s with registration := some [.proposeConfig (enabledSpecs tunnels) s.agent.configGen] }
    else { s with agent := s.agent.seedPublicPorts tunnels, registration := some [] }
  else if sess.has capTunnelSync then
    { s with
      syncSeq := s.syncSeq + 1
      registration := some [.syncTunnels ⟨s.syncSeq + 1, enabledSpecs tunnels⟩] }
  else { s with registration := some (tunnels.map fun t => .register (specFromTunnel t)) }

/-- The part of `ApplyTunnels` that comes after the swap of the tunnels. -/
def applySwapped (s : ControlSession) (sess : AgentSession) (old new : List Tunnel) :
    ControlSession :=
  if sess.has capGatewayConfig then
    { s with editing := [.proposeConfig (enabledSpecs new) s.agent.configGen] }
  else if sess.has capTunnelSync then
    { s with
      syncSeq := s.syncSeq + 1
      editing := [.syncTunnels ⟨s.syncSeq + 1, enabledSpecs new⟩] }
  else { s with editing := hotApplyFrames old new }

theorem registerTunnels_eq (s : ControlSession) (sess : AgentSession) :
    s.registerTunnels sess = s.registerSnapshot sess s.agent.snapshotTunnels := rfl

theorem applyTunnels_eq (s : ControlSession) (sess : AgentSession) (tunnels : List Tunnel) :
    s.applyTunnels sess tunnels =
      { s with agent := s.agent.swapTunnels tunnels }.applySwapped sess s.agent.tunnels tunnels :=
  rfl

end ControlSession

/-- One agent and one gateway over any number of sessions. `snapshot` is the set that
`registerTunnels` has read and not composed its frames of yet, `swapped` the old and the new set of
an `ApplyTunnels` that has not loaded `curSession` yet. -/
structure PortRun extends ControlSession where
  sess : AgentSession
  phase : LinkPhase
  snapshot : Option (List Tunnel)
  swapped : Option (List Tunnel × List Tunnel)
  leftovers : List Leftover

inductive PortStep where
  | dial (sess : AgentSession)
  | publish
  | snapshot
  | composeRegistration
  | swap (set : TunnelSet)
  | composeEdit
  | other (l : SessionStep)
  | elsewhere (store : AgentStore)
  | hangUp (reading : Bool)
  | clear
  | late (k : Nat)

namespace PortRun

/-- An agent that has not dialed yet. -/
def start (agent : Agent) (st : GatewayState) : PortRun where
  toControlSession := .start agent st (.plain 0 "")
  sess := .plain 0 ""
  phase := .down
  snapshot := none
  swapped := none
  leftovers := []

/-- The new session is admitted, with the capabilities and the report of its hello. -/
def Admits (g : Gateway) (agentID : String) (s : PortRun) (sess : AgentSession) : Prop :=
  sess.agentID = agentID ∧ ¬s.gateway.actor.live sess ∧
    (g.exec s.gateway (.admitSession sess)).actor.live sess ∧
    (sess.has capGatewayConfig = true → sess.enrolled = true ∧ sess.Reports g.env s.agent)

instance (g : Gateway) (agentID : String) (s : PortRun) (sess : AgentSession) :
    Decidable (s.Admits g agentID sess) := inferInstanceAs (Decidable (_ ∧ _))

/-- Past the hello_ok of a new session. -/
def dialed (g : Gateway) (s : PortRun) (sess : AgentSession) : PortRun :=
  { s with
    toControlSession := .start s.agent (g.exec s.gateway (.admitSession sess)) sess
    sess := sess
    phase := .greeting
    snapshot := none }

/-- An `ApplyTunnels` has put its tunnels in place. -/
def swapTo (s : PortRun) (tunnels : List Tunnel) : PortRun :=
  { s with
    agent := s.agent.swapTunnels tunnels
    swapped := some (s.agent.tunnels, tunnels) }

/-- What the goroutines of a session have in hand when it ends. -/
def inHand (s : PortRun) (reading : Bool) : List Leftover :=
  (if reading ∧ s.registration = some [] ∧ s.acking = none then
      s.down.head?.toList.map (Leftover.read · s.syncSeq) else []) ++
    s.editing.head?.toList.map .edit

/-- One step of the agent, of the gateway or of somebody else at the gateway. One edit is at work at
a time. -/
def step (g : Gateway) (agentID : String) (s : PortRun) : PortStep → Option PortRun
  | .dial sess =>
    if s.phase = .down ∧ s.Admits g agentID sess then some (s.dialed g sess) else none
  | .publish => if s.phase = .greeting then some { s with phase := .serving } else none
  | .snapshot =>
    if s.phase = .serving ∧ s.registration = none ∧ s.snapshot = none then
      some { s with snapshot := some s.agent.snapshotTunnels }
    else none
  | .composeRegistration =>
    if s.phase = .serving ∧ s.registration = none then
      s.snapshot.map fun tunnels =>
        { s with
          toControlSession := s.registerSnapshot s.sess tunnels
          snapshot := none }
    else none
  | .swap set =>
    if s.swapped = none ∧ s.editing = [] then some (s.swapTo set.tunnels) else none
  | .composeEdit =>
    s.swapped.map fun (old, new) =>
      if s.phase = .serving then
        { s with toControlSession := s.applySwapped s.sess old new, swapped := none }
      else { s with swapped := none }
  | .other l =>
    if l.composes then none
    else if s.phase.up then
      (s.toControlSession.step g s.sess l).map fun c => { s with toControlSession := c }
    else
      match l with
      | .command c => some { s with gateway := g.exec s.gateway c }
      | _ => none
  -- the control loop of another session adopts a set
  | .elsewhere store => some { s with gateway := { s.gateway with agents := store } }
  | .hangUp reading =>
    if s.phase.up then
      some { s with
        phase := .ended
        editing := []
        leftovers := s.leftovers ++ s.inHand reading }
    else none
  | .clear =>
    if s.phase = .ended then
      some { s with phase := .down, agent := { s.agent with publicPorts := ∅ } }
    else none
  | .late k =>
    (s.leftovers[k]?).map fun lo =>
      { s with agent := lo.apply s.agent, leftovers := s.leftovers.eraseIdx k }

/-- A live session whose registration has finished, without a control frame in flight. -/
structure Quiet (s : PortRun) : Prop extends ControlSession.Settled s.toControlSession where
  phase : s.phase = .serving
  live : s.gateway.actor.live s.sess
  swapped : s.swapped = none

instance (s : PortRun) : Decidable s.Quiet :=
  decidable_of_iff
    (s.toControlSession.Settled ∧ s.phase = .serving ∧ s.gateway.actor.live s.sess ∧
      s.swapped = none)
    ⟨fun ⟨h₁, h₂, h₃, h₄⟩ => ⟨h₁, h₂, h₃, h₄⟩, fun ⟨h₁, h₂, h₃, h₄⟩ => ⟨h₁, h₂, h₃, h₄⟩⟩

end PortRun

namespace Agent

variable {a b : Agent} {i : String}

theorem enabledIDs_congr (h : a.tunnels = b.tunnels) : a.enabledIDs = b.enabledIDs := by
  rw [enabledIDs, snapshotTunnels, h]
  rfl

theorem mem_enabledIDs_push (specs : List TunnelSpec) (gen : Nat) :
    i ∈ (a.applyPushedConfig specs gen).enabledIDs ↔ i ∈ specs.map (·.id) := by
  have hids : (a.applyPushedConfig specs gen).enabledIDs =
      (enabledSpecs (mergeTunnels a.tunnels specs)).map (·.id) := by
    rw [enabledSpecs, List.map_map]
    rfl
  rw [hids, enabledSpecs_mergeTunnels]

theorem lookup_forget (m : GoMap Int) (ids : List String) (i : String) :
    (forget m ids).lookup i = if i ∈ ids then none else m.lookup i := by
  induction ids generalizing m with
  | nil => rfl
  | cons id ids ih =>
    refine (ih _).trans ?_
    rw [lookup_erase_eq]
    by_cases hid : i = id
    · simp only [hid, if_true, List.mem_cons, true_or, ite_self]
    · simp only [hid, if_false, List.mem_cons, false_or]

theorem publish_cons (m : GoMap Int) (e : String × Int) (es : List (String × Int)) :
    publish m (e :: es) = publish (if e.2 ≠ 0 then m.insert e.1 e.2 else m) es := rfl

theorem lookup_publish_congr {m m' : GoMap Int} (entries : List (String × Int))
    (h : m.lookup i = m'.lookup i) :
    (publish m entries).lookup i = (publish m' entries).lookup i := by
  induction entries generalizing m m' with
  | nil => exact h
  | cons e es ih =>
    rw [publish_cons, publish_cons]
    refine ih ?_
    split
    · rw [lookup_insert_eq, lookup_insert_eq, h]
    · exact h

theorem lookup_publish_zero {entries : List (String × Int)} (m : GoMap Int)
    (h : ∀ e ∈ entries, e.1 = i → e.2 = 0) : (publish m entries).lookup i = m.lookup i := by
  induction entries generalizing m with
  | nil => rfl
  | cons e es ih =>
    rw [publish_cons, ih _ fun e' he' => h e' (List.mem_cons_of_mem _ he')]
    split
    · rename_i hport
      rw [lookup_insert_eq, if_neg]
      exact fun hid => hport (h e List.mem_cons_self hid.symm)
    · rfl

theorem lookup_publish_port {entries : List (String × Int)} {p : Int} (m : GoMap Int)
    (h : ∀ e ∈ entries, e.1 = i → e.2 = p) (hi : i ∈ entries.map (·.1)) (hp : p ≠ 0) :
    (publish m entries).lookup i = some p := by
  induction entries generalizing m with
  | nil => cases hi
  | cons e es ih =>
    have hes : ∀ e' ∈ es, e'.1 = i → e'.2 = p := fun e' he' => h e' (List.mem_cons_of_mem _ he')
    by_cases hrest : i ∈ es.map (·.1)
    · exact ih _ hes hrest
    · have hid : e.1 = i := ((List.mem_cons.1 hi).resolve_right hrest).symm
      have hskip : ∀ e' ∈ es, e'.1 = i → e'.2 = 0 :=
        fun e' he' hc => absurd (List.mem_map.2 ⟨e', he', hc⟩) hrest
      rw [publish_cons, lookup_publish_zero _ hskip, h e List.mem_cons_self hid, if_pos hp,
        lookup_insert_eq, if_pos hid.symm]

theorem port_push {specs : List TunnelSpec} (hi : i ∈ specs.map (·.id)) (gen : Nat) :
    (a.applyPushedConfig specs gen).tunnelPublicPort i =
      (publish a.publicPorts (specs.map fun spec => (spec.id, spec.publicPort))).lookup i := by
  refine (lookup_forget _ _ i).trans (if_neg fun hc => ?_)
  exact of_decide_eq_true (List.mem_filter.1 hc).2 hi

theorem port_push_gone {specs : List TunnelSpec} (hi : i ∉ specs.map (·.id)) (gen : Nat)
    (h : i ∉ a.enabledIDs → a.tunnelPublicPort i = none) :
    (a.applyPushedConfig specs gen).tunnelPublicPort i = none := by
  refine (lookup_forget _ _ i).trans ?_
  split
  · rfl
  · rename_i hkept
    have hoff : i ∉ a.enabledIDs :=
      fun hc => hkept (List.mem_filter.2 ⟨hc, decide_eq_true hi⟩)
    refine (lookup_publish_zero _ ?_).trans (h hoff)
    intro e he hid
    obtain ⟨spec, hspec, rfl⟩ := List.mem_map.1 he
    exact absurd (List.mem_map.2 ⟨spec, hspec, hid⟩) hi

theorem receive_port (h : a.tunnelPublicPort i = b.tunnelPublicPort i) (n : Nat)
    {f : GatewayFrame} (hf : a.tunnels = b.tunnels ∨ f.push? = none) :
    (a.receive n f).tunnelPublicPort i = (b.receive n f).tunnelPublicPort i := by
  cases f with
  | pushConfig push =>
    have ht : a.tunnels = b.tunnels := hf.resolve_right (Option.some_ne_none _)
    by_cases hi : i ∈ push.tunnels.map (·.id)
    · exact (port_push hi _).trans ((lookup_publish_congr _ h).trans (port_push hi _).symm)
    · simp only [receive, applyPushedConfig, tunnelPublicPort, lookup_forget, snapshotTunnels, ht]
      rw [lookup_publish_congr _ h]
  | syncResult res =>
    simp only [receive]
    split
    · exact h
    · simp only [tunnelPublicPort] at h ⊢
      generalize a.publicPorts = m at h ⊢
      generalize b.publicPorts = m' at h ⊢
      induction res.results generalizing m m' with
      | nil => exact h
      | cons r rs ih =>
        rw [List.foldl_cons, List.foldl_cons]
        refine ih _ _ ?_
        split
        · rw [lookup_insert_eq, lookup_insert_eq, h]
        · rw [lookup_erase_eq, lookup_erase_eq, h]
  | registerOK tunnelID port =>
    simp only [receive, tunnelPublicPort, lookup_insert_eq] at h ⊢
    rw [h]
  | registerErr => exact h

theorem receive_tunnels (h : a.tunnels = b.tunnels) (n : Nat) (f : GatewayFrame) :
    (a.receive n f).tunnels = (b.receive n f).tunnels := by
  cases f with
  | pushConfig push => exact congrArg (mergeTunnels · push.tunnels) h
  | syncResult res =>
    simp only [receive]
    split <;> exact h
  | registerOK | registerErr => exact h

theorem receive_quiet (a : Agent) (n : Nat) {f : GatewayFrame} (hf : f.push? = none) :
    (a.receive n f).tunnels = a.tunnels := by
  cases f with
  | pushConfig push => cases hf
  | syncResult res =>
    simp only [receive]
    split <;> rfl
  | registerOK | registerErr => rfl

/-- The agent once it has read a list of frames. -/
def reads (a : Agent) (n : Nat) (fs : List GatewayFrame) : Agent :=
  fs.foldl (fun a f => a.receive n f) a

theorem reads_port (n : Nat) (fs : List GatewayFrame)
    (h : a.tunnelPublicPort i = b.tunnelPublicPort i)
    (hf : a.tunnels = b.tunnels ∨ ∀ f ∈ fs, f.push? = none) :
    (a.reads n fs).tunnelPublicPort i = (b.reads n fs).tunnelPublicPort i := by
  induction fs generalizing a b with
  | nil => exact h
  | cons f fs ih =>
    refine ih (receive_port h n ?_) ?_
    · exact hf.imp_right fun hf => hf f List.mem_cons_self
    · exact hf.imp (receive_tunnels · n f) fun hf f' hf' => hf f' (List.mem_cons_of_mem _ hf')

theorem reads_tunnels (n : Nat) (fs : List GatewayFrame) (h : a.tunnels = b.tunnels) :
    (a.reads n fs).tunnels = (b.reads n fs).tunnels := by
  induction fs generalizing a b with
  | nil => exact h
  | cons f fs ih => exact ih (receive_tunnels h n f)

theorem reads_quiet (a : Agent) (n : Nat) {fs : List GatewayFrame}
    (hf : ∀ f ∈ fs, f.push? = none) : (a.reads n fs).tunnels = a.tunnels := by
  induction fs generalizing a with
  | nil => rfl
  | cons f fs ih =>
    exact (ih _ fun f' hf' => hf f' (List.mem_cons_of_mem _ hf')).trans
      (receive_quiet a n (hf f List.mem_cons_self))

end Agent

end ProxyForward

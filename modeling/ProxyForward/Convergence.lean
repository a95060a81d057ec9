import ProxyForward.HashInput
import ProxyForward.ControlSession

namespace ProxyForward
set_option autoImplicit true

/-- The session was set up with a hello of the agent as it is. -/
def AgentSession.Reports (sess : AgentSession) (env : Env) (agent : Agent) : Prop :=
  (sess.reportedConfigHash, sess.configGeneration) = agent.configState env

def AgentSession.reporting (sess : AgentSession) (env : Env) (agent : Agent) : AgentSession :=
  { sess with
    reportedConfigHash := (agent.configState env).1
    configGeneration := (agent.configState env).2 }

/-- The digest tells two texts apart. -/
def Env.NoCollision (env : Env) (x y : List Char) : Prop := env.sha256 x = env.sha256 y → x = y

theorem has_of_hash {env : Env} {agent : Agent}
    (hcf : env.NoCollision (hashInput (enabledSpecs agent.tunnels)) (hashInput specs))
    (h : (agent.configState env).1 = hashTunnels env specs) : agent.Has specs := by
  rw [Agent.configState, enabledSpecs_snapshotTunnels] at h
  exact mem_iff_of_hashInput (hcf h)

namespace ControlSession

/-- Nothing is on its way or being written. -/
structure Settled (s : ControlSession) : Prop where
  serving : s.serving = true
  registered : s.registration = some []
  edited : s.editing = []
  acked : s.acking = none
  up : s.up = []
  down : s.down = []

instance (s : ControlSession) : Decidable s.Settled :=
  decidable_of_iff (s.serving = true ∧ s.registration = some [] ∧ s.editing = [] ∧
      s.acking = none ∧ s.up = [] ∧ s.down = [])
    ⟨fun ⟨h₁, h₂, h₃, h₄, h₅, h₆⟩ => ⟨h₁, h₂, h₃, h₄, h₅, h₆⟩,
      fun ⟨h₁, h₂, h₃, h₄, h₅, h₆⟩ => ⟨h₁, h₂, h₃, h₄, h₅, h₆⟩⟩

/-- A session that connects to a gateway with a stored config, without edits. -/
structure Connecting (g : Gateway) (sess : AgentSession) (agent : Agent)
    (stored : List TunnelSpec) (gen : Nat) (s : ControlSession) : Prop where
  holds : s.stored? sess = some (stored, gen)
  seed : s.seedNeeded = false
  editing : s.editing = []
  registration : ∀ fs ∈ s.registration, fs = []
  pushes : ∀ f ∈ s.down, f = .pushConfig (g.pushOf gen (g.validSpecs sess.scope stored))
  acks : ∀ f ∈ s.up, ∃ ack, f = .configAck ack ∧ ack.generation = gen
  acking : ∀ ack ∈ s.acking, ack.generation = gen
  fresh : s.serving = false → s.agent.configGen = agent.configGen ∧
    s.gateway.agentConfigGen sess = sess.configGeneration ∧ s.down = [] ∧ s.pushed = none
  unpushed : s.pushed = none → s.agent.tunnels = agent.tunnels ∧ s.down = []
  synced : s.serving = true → s.down = [] →
    s.agent.Has (g.validSpecs sess.scope stored) ∧ s.agent.configGen = gen
  counted : s.serving = true → s.down = [] → s.acking = none → s.up = [] →
    s.gateway.agentConfigGen sess = gen

variable {g : Gateway} {sess : AgentSession} {agent : Agent} {stored : List TunnelSpec}
  {gen : Nat} {s t : ControlSession}

theorem Connecting.connect (h : s.Connecting g sess agent stored gen)
    (hsess : sess.enrolled = true ∧ sess.has capGatewayConfig = true) (hgen : gen ≠ 0)
    (hrep : sess.Reports g.env agent)
    (hcf : g.env.NoCollision (hashInput (enabledSpecs agent.tunnels))
      (hashInput (g.validSpecs sess.scope stored))) (hidle : s.serving = false) :
    ({ s.answer (g.serveControl s.gateway sess) with serving := true } : ControlSession).Connecting
      g sess agent stored gen := by
  obtain ⟨hheld, hcount, hdown, hpushed⟩ := h.fresh hidle
  obtain ⟨hhash, hreported⟩ := Prod.mk.inj hrep
  have hserve : g.serveControl s.gateway sess =
      ((g.pushConfigOnConnect s.gateway sess).1.map .pushConfig,
        (g.pushConfigOnConnect s.gateway sess).2) := by
    simp only [Gateway.serveControl, hsess.1, hsess.2, Bool.and_self, if_true]
  rw [hserve, Gateway.pushConfigOnConnect_serves g h.holds hgen]
  by_cases hsync : sess.reportedConfigHash = hashTunnels g.env (g.validSpecs sess.scope stored) ∧
      s.gateway.agentConfigGen sess = gen
  · rw [if_pos hsync]
    have hnone : s.down ++ (Option.map GatewayFrame.pushConfig none).toList = [] := by
      rw [hdown]
      rfl
    refine ⟨h.holds, h.seed, h.editing, h.registration, ?_, h.acks, h.acking,
      fun hidle => absurd hidle.symm Bool.false_ne_true,
      fun _ => ⟨(h.unpushed hpushed).1, hnone⟩, fun _ _ => ⟨?_, ?_⟩, fun _ _ _ _ => hsync.2⟩
    · intro f hf
      rw [answer, hnone] at hf
      cases hf
    · rw [hhash] at hsync
      intro spec
      rw [← has_of_hash hcf hsync.1 spec]
      exact iff_of_eq (congrArg (spec ∈ enabledSpecs ·) (h.unpushed hpushed).1)
    · exact hheld.trans (hreported.symm.trans (hcount.symm.trans hsync.2))
  · rw [if_neg hsync]
    have hwritten : s.down ++ [GatewayFrame.pushConfig
        (g.pushOf gen (g.validSpecs sess.scope stored))] ≠ [] :=
      List.append_ne_nil_of_right_ne_nil _ (List.cons_ne_nil _ _)
    refine ⟨h.holds, h.seed, h.editing, h.registration, ?_, h.acks, h.acking,
      fun hidle => absurd hidle.symm Bool.false_ne_true,
      fun hnone => absurd hnone (Option.some_ne_none _), fun _ hnil => absurd hnil hwritten,
      fun _ hnil => absurd hnil hwritten⟩
    intro f hf
    rw [answer, List.mem_append] at hf
    exact hf.elim (h.pushes f) List.mem_singleton.1

theorem registerTunnels_unseeded (s : ControlSession) (hcap : sess.has capGatewayConfig = true)
    (hseed : s.seedNeeded = false) : s.registerTunnels sess = { s with
      agent := s.agent.seedPublicPorts s.agent.snapshotTunnels, registration := some [] } := by
  rw [registerTunnels, if_pos hcap, if_neg (hseed ▸ Bool.false_ne_true)]

theorem Connecting.receive (h : s.Connecting g sess agent stored gen)
    (hdown : s.down = f :: fs) :
    (({ s with down := fs } : ControlSession).handleControlMsg f).Connecting
      g sess agent stored gen := by
  have hserving : s.serving = true := by
    by_contra hidle
    obtain ⟨-, -, hnil, -⟩ := h.fresh (Bool.not_eq_true _ ▸ hidle)
    rw [hnil] at hdown
    cases hdown
  have hpush := h.pushes
  rw [hdown] at hpush
  obtain rfl := hpush f List.mem_cons_self
  refine ⟨h.holds, h.seed, h.editing, h.registration,
    fun f hf => hpush f (List.mem_cons_of_mem _ hf), h.acks, ?_, ?_, ?_, ?_, ?_⟩
  · rintro ack ⟨⟩
    rfl
  · intro hidle
    rw [handleControlMsg, hserving] at hidle
    cases hidle
  · intro hnone
    rw [(h.unpushed hnone).2] at hdown
    cases hdown
  · intro _ _
    refine ⟨fun spec => ?_, rfl⟩
    rw [handleControlMsg, Agent.applyPushedConfig, enabledSpecs_mergeTunnels]
    rfl
  · rintro _ _ ⟨⟩

theorem Connecting.sendAck {ack : ConfigAck} (h : s.Connecting g sess agent stored gen)
    (hack : s.acking = some ack) :
    ({ s with up := s.up ++ [.configAck ack], acking := none } : ControlSession).Connecting
      g sess agent stored gen := by
  have hsent : s.up ++ [AgentFrame.configAck ack] ≠ [] :=
    List.append_ne_nil_of_right_ne_nil _ (List.cons_ne_nil _ _)
  refine ⟨h.holds, h.seed, h.editing, h.registration, h.pushes, ?_,
    fun _ hack => absurd hack (Option.not_mem_none _), h.fresh, h.unpushed, h.synced,
    fun _ _ _ hnil => absurd hnil hsent⟩
  intro f hf
  obtain hf | hf := List.mem_append.1 hf
  · exact h.acks f hf
  · exact ⟨ack, List.mem_singleton.1 hf, h.acking ack hack⟩

theorem Connecting.handle (h : s.Connecting g sess agent stored gen)
    (hserving : s.serving = true) (hup : s.up = f :: fs) (written : Bool) :
    (({ s with up := fs } : ControlSession).answer
      (g.handleControlMsg s.gateway sess written f)).Connecting g sess agent stored gen := by
  have hacks := h.acks
  rw [hup] at hacks
  obtain ⟨ack, rfl, hack⟩ := hacks f List.mem_cons_self
  have hdown : s.down ++ (none : Option GatewayFrame).toList = s.down := List.append_nil _
  refine ⟨h.holds, h.seed, h.editing, h.registration, ?_,
    fun f hf => hacks f (List.mem_cons_of_mem _ hf), h.acking, ?_, ?_, ?_, ?_⟩
  · intro f hf
    exact h.pushes f (hdown ▸ hf)
  · intro hidle
    rw [answer, hserving] at hidle
    cases hidle
  · intro hnone
    exact ⟨(h.unpushed hnone).1, hdown.trans (h.unpushed hnone).2⟩
  · intro _ hnil
    exact h.synced hserving (hdown.symm.trans hnil)
  · intro _ _ _ _
    have hcount : (Gateway.handleAck s.gateway sess ack).agentConfigGen sess =
        ack.generation := Function.update_self _ _ _
    exact hcount.trans hack

theorem Connecting.step {l : SessionStep} (h : s.Connecting g sess agent stored gen)
    (hsess : sess.enrolled = true ∧ sess.has capGatewayConfig = true) (hgen : gen ≠ 0)
    (hrep : sess.Reports g.env agent)
    (hcf : g.env.NoCollision (hashInput (enabledSpecs agent.tunnels))
      (hashInput (g.validSpecs sess.scope stored)))
    (hl : ∀ set, l ≠ .edit set) (ht : s.step g sess l = some t) :
    t.Connecting g sess agent stored gen := by
  cases moves_of_step ht with
  | connect hidle => exact h.connect hsess hgen hrep hcf hidle
  | register =>
    rw [s.registerTunnels_unseeded hsess.2 h.seed]
    refine ⟨h.holds, h.seed, h.editing, ?_, h.pushes, h.acks, h.acking, h.fresh, h.unpushed,
      h.synced, h.counted⟩
    rintro fs ⟨⟩
    rfl
  | sendRegistration hreg => exact absurd (h.registration _ hreg) (List.cons_ne_nil _ _)
  | edit => exact absurd rfl (hl _)
  | sendEdit hedit => exact absurd (hedit.symm.trans h.editing) (List.cons_ne_nil _ _)
  | receive _ _ hdown => exact h.receive hdown
  | sendAck hack => exact h.sendAck hack
  | handle hserving hup => exact h.handle hserving hup _
  | @command c =>
    have hstored := (Gateway.exec_desiredConfig g s.gateway c sess.agentID).trans h.holds
    have hgens := Gateway.exec_agentConfigGen g s.gateway c
    refine ⟨hstored, h.seed, h.editing, h.registration, h.pushes, h.acks, h.acking, ?_,
      h.unpushed, h.synced, ?_⟩
    · rw [hgens]
      exact h.fresh
    · rw [hgens]
      exact h.counted

end ControlSession

theorem idleEnv_noCollision (x y : List Char) : idleEnv.NoCollision x y :=
  fun h => String.ofList_injective h

end ProxyForward

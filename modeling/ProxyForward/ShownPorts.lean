import ProxyForward.HotApply
import ProxyForward.PassPorts
import ProxyForward.PortRun

namespace ProxyForward
set_option autoImplicit true

/-- Every enabled tunnel is awaited, or shown with its port. -/
def Agent.Shows (a : Agent) (port : String → Option Int) (awaits : String → Prop) : Prop :=
  ∀ i ∈ a.enabledIDs, awaits i ∨ a.tunnelPublicPort i = port i

instance (a : Agent) (port : String → Option Int) (awaits : String → Prop)
    [DecidablePred awaits] : Decidable (a.Shows port awaits) :=
  inferInstanceAs (Decidable (∀ i ∈ a.enabledIDs, _ ∨ _))

theorem Agent.Shows.mono {a : Agent} {port port' : String → Option Int} {w w' : String → Prop}
    (h : a.Shows port w)
    (hstep : ∀ i ∈ a.enabledIDs, ¬w' i → ¬w i ∧ port' i = port i) : a.Shows port' w' := by
  intro i hi
  by_cases hw : w' i
  · exact .inl hw
  · obtain ⟨hw', hport⟩ := hstep i hi hw
    exact .inr (((h i hi).resolve_left hw').trans hport.symm)

/-- The tunnels that a frame brings a port for are enabled. -/
def Agent.Enables (a : Agent) (syncSeq : Nat) : GatewayFrame → Prop
  | .registerOK tunnelID _ => tunnelID ∈ a.enabledIDs
  | .syncResult res =>
    res.seq = syncSeq → ∀ r ∈ res.results, r.ok = true → r.tunnelID ∈ a.enabledIDs
  | .pushConfig _ | .registerErr _ _ _ => True

instance (a : Agent) (n : Nat) : (f : GatewayFrame) → Decidable (a.Enables n f)
  | .registerOK tunnelID _ => inferInstanceAs (Decidable (tunnelID ∈ a.enabledIDs))
  | .syncResult res =>
    inferInstanceAs (Decidable (res.seq = n →
      ∀ r ∈ res.results, r.ok = true → r.tunnelID ∈ a.enabledIDs))
  | .pushConfig _ | .registerErr _ _ _ => .isTrue trivial

theorem Agent.receive_result (a : Agent) {res : SyncResult} (h : res.seq = n) :
    (a.receive n (.syncResult res)).publicPorts = res.results.foldl putResult a.publicPorts := by
  rw [receive, if_neg (not_not.2 h)]
  rfl

/-- The port that the agent shows of a tunnel once it has read a push of the spec: one without a
port leaves what was shown before. -/
def Agent.pushedPort (a : Agent) (spec : TunnelSpec) : Option Int :=
  if spec.publicPort = 0 then a.tunnelPublicPort spec.id else some spec.publicPort

theorem Agent.port_pushed {specs : List TunnelSpec} (a : Agent) (hspec : spec ∈ specs)
    (hone : ∀ other ∈ specs, other.id = spec.id → other.publicPort = spec.publicPort)
    (gen : Nat) :
    (a.applyPushedConfig specs gen).tunnelPublicPort spec.id = a.pushedPort spec := by
  have hentries : ∀ e ∈ specs.map fun spec => (spec.id, spec.publicPort),
      e.1 = spec.id → e.2 = spec.publicPort := by
    intro e he hid
    obtain ⟨other, hother, rfl⟩ := List.mem_map.1 he
    exact hone other hother hid
  rw [port_push (List.mem_map_of_mem hspec), pushedPort]
  split
  · rename_i hzero
    exact lookup_publish_zero _ fun e he hid => (hentries e he hid).trans hzero
  · rename_i hne
    refine lookup_publish_port _ hentries ?_ hne
    rw [List.map_map]
    exact List.mem_map_of_mem hspec

theorem Agent.receive_clean {a : Agent} {f : GatewayFrame} (n : Nat) (hf : a.Enables n f)
    (h : ∀ i ∉ a.enabledIDs, a.tunnelPublicPort i = none) (i : String)
    (hi : i ∉ (a.receive n f).enabledIDs) : (a.receive n f).tunnelPublicPort i = none := by
  cases f with
  | pushConfig push =>
    exact port_push_gone (fun hc => hi ((mem_enabledIDs_push _ _).2 hc)) _ (h i)
  | syncResult res =>
    rw [enabledIDs_congr (receive_quiet a n rfl)] at hi
    simp only [receive]
    split
    · exact h i hi
    · rename_i hseq
      have hoff : ∀ r ∈ res.results, r.ok = true → i ≠ r.tunnelID :=
        fun r hr hok hc => hi (hc ▸ hf (not_not.1 hseq) r hr hok)
      have hnone : a.publicPorts.lookup i = none := h i hi
      rw [tunnelPublicPort]
      generalize a.publicPorts = m at hnone ⊢
      generalize res.results = results at hoff ⊢
      induction results generalizing m with
      | nil => exact hnone
      | cons r rs ih =>
        rw [List.foldl_cons]
        refine ih _ ?_ fun r' hr' => hoff r' (List.mem_cons_of_mem _ hr')
        split
        · rename_i hok
          rw [lookup_insert_eq, if_neg (hoff r List.mem_cons_self hok), hnone]
        · rw [lookup_erase_eq, hnone, ite_self]
  | registerOK tunnelID port =>
    rw [tunnelPublicPort, receive, lookup_insert_eq, if_neg]
    · exact h i hi
    · exact fun hc => hi (hc ▸ hf)
  | registerErr => exact h i hi

/-- The gateway's handling of the frame decides the port of the tunnel. -/
def AgentFrame.Concerns (i : String) : AgentFrame → Prop
  | .proposeConfig _ _ | .syncTunnels _ => True
  | .register spec => spec.id = i
  | .unregister tunnelID => tunnelID = i
  | .configAck _ => False

instance decidableConcerns (i : String) : (f : AgentFrame) → Decidable (f.Concerns i)
  | .proposeConfig _ _ | .syncTunnels _ => .isTrue trivial
  | .register spec => inferInstanceAs (Decidable (spec.id = i))
  | .unregister tunnelID => inferInstanceAs (Decidable (tunnelID = i))
  | .configAck _ => .isFalse not_false

/-- A whole set is only sent in a session with the capability for it. -/
def AgentFrame.Fits (sess : AgentSession) : AgentFrame → Prop
  | .proposeConfig _ _ => sess.has capGatewayConfig = true
  | .syncTunnels _ => sess.has capTunnelSync = true
  | .configAck _ | .register _ | .unregister _ => True

namespace PortRun

/-- `registerTunnels` is to publish the ports of the agent's own config. -/
def SeedsLater (s : PortRun) : Prop :=
  s.sess.has capGatewayConfig = true ∧ s.seedNeeded = false ∧ s.registration = none

instance (s : PortRun) : Decidable s.SeedsLater := inferInstanceAs (Decidable (_ ∧ _))

/-- The set that `registerTunnels` has read, or would read now. -/
def registering (s : PortRun) : List Tunnel := s.snapshot.getD s.agent.snapshotTunnels

def seeded (s : PortRun) : Agent :=
  if s.SeedsLater then s.agent.seedPublicPorts s.registering else s.agent

/-- The agent once it has published the ports of its config and read all that is on its way. -/
def coming (s : PortRun) : Agent := s.seeded.reads s.syncSeq s.down

/-- The gateway has yet to decide the port of a tunnel: it has not served the stored config, or a
frame that concerns the tunnel is to come. -/
inductive Awaits (s : PortRun) (i : String) : Prop
  | unserved (hcap : s.sess.has capGatewayConfig = true) (h : s.serving = false)
  | seeding (hreg : s.registration = none) (hcap : s.sess.has capGatewayConfig = true)
      (h : s.seedNeeded = true)
  | registering (hreg : s.registration = none) (hcap : ¬s.sess.has capGatewayConfig = true)
      (h : s.sess.has capTunnelSync = true ∨ i ∈ s.registering.map (·.id))
  | registered (hreg : s.registration = some fs) (hf : f ∈ fs) (hc : f.Concerns i)
  | swapped (hsw : s.swapped = some (old, new)) (h : s.sess.has capGatewayConfig = true ∨
      s.sess.has capTunnelSync = true ∨ ∃ f ∈ hotApplyFrames old new, f.Concerns i)
  | editing (hf : f ∈ s.editing) (hc : f.Concerns i)
  | up (hf : f ∈ s.up) (hc : f.Concerns i)

theorem awaits_iff (s : PortRun) (i : String) : s.Awaits i ↔
    (s.sess.has capGatewayConfig = true ∧ s.serving = false) ∨
    (s.registration = none ∧ (s.sess.has capGatewayConfig = true ∧ s.seedNeeded = true ∨
      ¬s.sess.has capGatewayConfig = true ∧
        (s.sess.has capTunnelSync = true ∨ i ∈ s.registering.map (·.id)))) ∨
    (∃ f ∈ s.registration.getD [] ++ s.editing ++ s.up, f.Concerns i) ∨
    (∃ sw ∈ s.swapped, s.sess.has capGatewayConfig = true ∨
      s.sess.has capTunnelSync = true ∨ ∃ f ∈ hotApplyFrames sw.1 sw.2, f.Concerns i) := by
  constructor
  · intro h
    cases h with
    | unserved hcap h => exact .inl ⟨hcap, h⟩
    | seeding hreg hcap h => exact .inr (.inl ⟨hreg, .inl ⟨hcap, h⟩⟩)
    | registering hreg hcap h => exact .inr (.inl ⟨hreg, .inr ⟨hcap, h⟩⟩)
    | registered hreg hf hc =>
      refine .inr (.inr (.inl ⟨_, ?_, hc⟩))
      rw [hreg]
      exact List.mem_append_left _ (List.mem_append_left _ hf)
    | swapped hsw h => exact .inr (.inr (.inr ⟨_, hsw, h⟩))
    | editing hf hc =>
      exact .inr (.inr (.inl ⟨_, List.mem_append_left _ (List.mem_append_right _ hf), hc⟩))
    | up hf hc => exact .inr (.inr (.inl ⟨_, List.mem_append_right _ hf, hc⟩))
  · rintro (⟨hcap, h⟩ | ⟨hreg, ⟨hcap, h⟩ | ⟨hcap, h⟩⟩ | ⟨f, hf, hc⟩ | ⟨⟨old, new⟩, hsw, h⟩)
    · exact .unserved hcap h
    · exact .seeding hreg hcap h
    · exact .registering hreg hcap h
    · rcases List.mem_append.1 hf with hf | hf
      · rcases List.mem_append.1 hf with hf | hf
        · cases hreg : s.registration with
          | none => rw [hreg] at hf; cases hf
          | some fs => exact .registered hreg (by rwa [hreg] at hf) hc
        · exact .editing hf hc
      · exact .up hf hc
    · exact .swapped hsw h

instance (s : PortRun) (i : String) : Decidable (s.Awaits i) :=
  decidable_of_iff _ (awaits_iff s i).symm

/-- A last bind that the agent need not be told of: granted on the port that is shown, or failed, or
not asked for, where none is shown. -/
def BindShown (shown : Option Int) : Option (TunnelSpec × Opened) → Prop
  | some (asked, .granted _) => asked.publicPort ≠ 0 ∧ shown = some asked.publicPort
  | some (_, .reassigned _) => False
  | some (_, .failed _) | none => shown = none

instance (shown : Option Int) :
    (b : Option (TunnelSpec × Opened)) → Decidable (BindShown shown b)
  | some (asked, .granted _) =>
    inferInstanceAs (Decidable (asked.publicPort ≠ 0 ∧ shown = some asked.publicPort))
  | some (_, .reassigned _) => .isFalse not_false
  | some (_, .failed _) | none => inferInstanceAs (Decidable (shown = none))

/-- No spec of the set asks for another port for the same tunnel. -/
def OnePort (specs : List TunnelSpec) (spec : TunnelSpec) : Prop :=
  ∀ other ∈ specs, other.id = spec.id → other.publicPort = spec.publicPort

instance (specs : List TunnelSpec) (spec : TunnelSpec) : Decidable (OnePort specs spec) :=
  inferInstanceAs (Decidable (∀ other ∈ specs, _))

/-- The connect's binds are ones that the agent need not be told of: it shows the ports that it has
published itself, or those of the pushed set. -/
def ConnectShows (g : Gateway) (s : PortRun) : Prop :=
  let awaits := { s with serving := true }.Awaits
  match (s.gateway.agents.desiredConfig s.sess.agentID).filter (·.2 ≠ 0) with
  | none => ∀ i ∈ s.coming.enabledIDs, awaits i ∨ s.coming.tunnelPublicPort i = none
  | some (stored, gen) =>
    let valid := g.validSpecs s.sess.scope stored
    let last := lastBind (g.passBinds s.gateway s.sess valid)
    if s.sess.reportedConfigHash = hashTunnels g.env valid ∧
        s.gateway.agentConfigGen s.sess = gen then
      ∀ i ∈ s.coming.enabledIDs, awaits i ∨ BindShown (s.coming.tunnelPublicPort i) (last i)
    else
      ∀ spec ∈ valid, awaits spec.id ∨
        OnePort valid spec ∧ BindShown (s.coming.pushedPort spec) (last spec.id)

instance (g : Gateway) (s : PortRun) : Decidable (s.ConnectShows g) := by
  unfold ConnectShows
  split <;> infer_instance

/-- What an adoption's binds leave of a tunnel reaches the agent: the last one succeeds, or all fail
for a tunnel that had no listener to keep, asks for no port and is shown with none. -/
def AdoptShows (s : PortRun) (binds : List (TunnelSpec × Opened)) (spec : TunnelSpec) : Prop :=
  (∀ b ∈ lastBind binds spec.id, b.2.port?.isSome) ∨
    s.gateway.actor.kept? s.sess spec = none ∧
      (∀ b ∈ binds, b.1.id = spec.id → b.2.port? = none) ∧
      spec.publicPort = 0 ∧ s.coming.tunnelPublicPort spec.id = none

instance (s : PortRun) (binds : List (TunnelSpec × Opened)) (spec : TunnelSpec) :
    Decidable (s.AdoptShows binds spec) := inferInstanceAs (Decidable (_ ∨ _))

/-- A proposal is answered, and a stale one by a stored set whose ports are held. -/
def ProposalShows (g : Gateway) (s : PortRun) (proposed : List TunnelSpec) : Prop :=
  match s.gateway.agents.desiredConfig s.sess.agentID with
  | none => ∀ i ∈ s.coming.enabledIDs, s.Awaits i
  | some (stored, gen) =>
    let valid := g.validSpecs s.sess.scope proposed
    if Gateway.staleBasis s.gateway s.sess gen then
      ∀ spec ∈ stored, s.Awaits spec.id ∨ OnePort stored spec ∧
        s.gateway.actor.portOf s.sess spec.id = s.coming.pushedPort spec
    else
      ∀ spec ∈ valid, s.Awaits spec.id ∨
        s.AdoptShows (g.passBinds s.gateway s.sess valid) spec

instance (g : Gateway) (s : PortRun) (proposed : List TunnelSpec) :
    Decidable (s.ProposalShows g proposed) := by
  unfold ProposalShows
  split <;> infer_instance

/-- What must hold of the state that a frame is handled in, with the frame taken off. -/
def FrameShows (g : Gateway) (s : PortRun) : AgentFrame → Prop
  | .proposeConfig proposed _ => s.ProposalShows g proposed
  | .syncTunnels sync =>
    ∀ i ∈ s.coming.enabledIDs, s.Awaits i ∨ sync.seq = s.syncSeq ∧
      (i ∈ sync.tunnels.map (·.id) ∨ s.coming.tunnelPublicPort i = none)
  | .register spec =>
    spec.id ∈ s.coming.enabledIDs → s.Awaits spec.id ∨
      match g.validateSpec spec s.sess.scope with
      | some _ => s.coming.tunnelPublicPort spec.id = s.gateway.actor.portOf s.sess spec.id
      | none => (s.gateway.actor.opened g s.sess spec).port? = none →
        s.coming.tunnelPublicPort spec.id = none
  | .unregister tunnelID =>
    tunnelID ∈ s.coming.enabledIDs →
      s.Awaits tunnelID ∨ s.coming.tunnelPublicPort tunnelID = none
  | .configAck _ => True

instance decidableFrameShows (g : Gateway) (s : PortRun) :
    (f : AgentFrame) → Decidable (s.FrameShows g f)
  | .proposeConfig proposed _ => inferInstanceAs (Decidable (s.ProposalShows g proposed))
  | .syncTunnels sync =>
    inferInstanceAs (Decidable (∀ i ∈ s.coming.enabledIDs, s.Awaits i ∨ sync.seq = s.syncSeq ∧
      (i ∈ sync.tunnels.map (·.id) ∨ s.coming.tunnelPublicPort i = none)))
  | .register spec =>
    match h : g.validateSpec spec s.sess.scope with
    | some _ =>
      decidable_of_iff (spec.id ∈ s.coming.enabledIDs → s.Awaits spec.id ∨
          s.coming.tunnelPublicPort spec.id = s.gateway.actor.portOf s.sess spec.id)
        (by simp only [FrameShows, h])
    | none =>
      decidable_of_iff (spec.id ∈ s.coming.enabledIDs → s.Awaits spec.id ∨
          ((s.gateway.actor.opened g s.sess spec).port? = none →
            s.coming.tunnelPublicPort spec.id = none))
        (by simp only [FrameShows, h])
  | .unregister tunnelID =>
    inferInstanceAs (Decidable (tunnelID ∈ s.coming.enabledIDs →
      s.Awaits tunnelID ∨ s.coming.tunnelPublicPort tunnelID = none))
  | .configAck _ => .isTrue trivial

/-- The steps of a live session that keep the ports shown in agreement with the ports bound. -/
def LiveHeeds (g : Gateway) (s : PortRun) : PortStep → Prop
  | .composeRegistration => s.SeedsLater →
    ∀ t ∈ s.registering, t.publicPort ≠ 0 → t.id ∈ s.agent.enabledIDs
  | .composeEdit => ¬(s.phase = .greeting ∧ s.sess.has capGatewayConfig = true ∧
    s.seedNeeded = false ∧ s.serving = true)
  | .other .connect => s.sess.has capGatewayConfig = true → s.ConnectShows g
  | .other .receive => ∀ f ∈ s.down.head?, s.agent.Enables s.syncSeq f
  | .other (.handle _) => ∀ f ∈ s.up.head?, { s with up := s.up.tail }.FrameShows g f
  | _ => True

instance decidableLiveHeeds (g : Gateway) (s : PortRun) :
    (l : PortStep) → Decidable (s.LiveHeeds g l)
  | .composeRegistration =>
    inferInstanceAs (Decidable (s.SeedsLater →
      ∀ t ∈ s.registering, t.publicPort ≠ 0 → t.id ∈ s.agent.enabledIDs))
  | .composeEdit =>
    inferInstanceAs (Decidable ¬(s.phase = .greeting ∧ s.sess.has capGatewayConfig = true ∧
      s.seedNeeded = false ∧ s.serving = true))
  | .other .connect =>
    inferInstanceAs (Decidable (s.sess.has capGatewayConfig = true → s.ConnectShows g))
  | .other .receive =>
    inferInstanceAs (Decidable (∀ f ∈ s.down.head?, s.agent.Enables s.syncSeq f))
  | .other (.handle _) =>
    inferInstanceAs (Decidable (∀ f ∈ s.up.head?, { s with up := s.up.tail }.FrameShows g f))
  | .dial _ | .publish | .snapshot | .swap _ | .elsewhere _ | .hangUp _ | .clear | .late _
  | .other .register | .other .sendRegistration | .other (.edit _) | .other .sendEdit
  | .other .sendAck | .other (.command _) => .isTrue trivial

/-- In addition, what a goroutine of an ended session has in hand reaches the agent before its ports
are cleared, or changes nothing. -/
def Heeds (g : Gateway) (s : PortRun) : PortStep → Prop
  | .late k => s.phase = .ended ∨ ∀ lo ∈ s.leftovers[k]?, lo.apply s.agent = s.agent
  | l => s.gateway.actor.live s.sess → s.LiveHeeds g l

instance decidableHeeds (g : Gateway) (s : PortRun) : (l : PortStep) → Decidable (s.Heeds g l)
  | .late k =>
    inferInstanceAs (Decidable (s.phase = .ended ∨
      ∀ lo ∈ s.leftovers[k]?, lo.apply s.agent = s.agent))
  | .dial _ | .publish | .snapshot | .composeRegistration | .swap _ | .composeEdit
  | .elsewhere _ | .hangUp _ | .clear | .other _ =>
    inferInstanceAs (Decidable (s.gateway.actor.live s.sess → s.LiveHeeds g _))

/-- While a session is live, what the agent shows once it has read everything is what is bound, but
for the tunnels that the gateway has yet to decide on. -/
structure Told (s : PortRun) : Prop where
  enrolled : s.sess.has capGatewayConfig = true → s.sess.enrolled = true
  fits : ∀ f ∈ s.registration.getD [] ++ s.editing ++ s.up, f.Fits s.sess
  quiet : s.sess.has capGatewayConfig = false → ∀ f ∈ s.down, f.push? = none
  greeting : s.phase = .greeting → s.snapshot = none ∧ s.registration = none
  idle : s.swapped.isSome → s.editing = []
  fresh : s.serving = false → ∀ i, s.gateway.actor.listener? s.sess.agentID i = none
  clean : ∀ i ∉ s.agent.enabledIDs, s.agent.tunnelPublicPort i = none
  told : s.coming.Shows (s.gateway.actor.portOf s.sess) s.Awaits

structure Inv (s : PortRun) : Prop where
  actor : s.gateway.actor.Inv
  cleared : s.phase = .down → ∀ i, s.agent.tunnelPublicPort i = none
  told : s.phase.up → s.gateway.actor.live s.sess → s.Told

variable {g : Gateway} {agentID : String} {s : PortRun} {sess : AgentSession} {i : String}

theorem not_seedsLater (h : s.registration = some fs) : ¬s.SeedsLater :=
  fun hc => absurd (h.symm.trans hc.2.2) (Option.some_ne_none _)

theorem seeded_eq (h : ¬s.SeedsLater) : s.seeded = s.agent := if_neg h

theorem seeded_later (h : s.SeedsLater) : s.seeded = s.agent.seedPublicPorts s.registering :=
  if_pos h

theorem seeded_tunnels (s : PortRun) : s.seeded.tunnels = s.agent.tunnels := by
  unfold seeded
  split <;> rfl

theorem coming_tunnels (hq : ∀ f ∈ s.down, f.push? = none) :
    s.coming.tunnels = s.agent.tunnels :=
  (Agent.reads_quiet _ _ hq).trans s.seeded_tunnels

theorem mem_coming (hq : ∀ f ∈ s.down, f.push? = none) :
    i ∈ s.coming.enabledIDs ↔ i ∈ s.agent.enabledIDs := by
  rw [Agent.enabledIDs_congr (coming_tunnels hq)]

theorem registerSnapshot_composes (c : ControlSession) (sess : AgentSession)
    (tunnels : List Tunnel) (hseed : sess.has capGatewayConfig = true → c.seedNeeded = true) :
    ∃ fs seq, c.registerSnapshot sess tunnels =
        { c with registration := some fs, syncSeq := seq } ∧
      (∀ f ∈ fs, f.Fits sess) ∧
      (∀ i, (sess.has capGatewayConfig = true ∨ sess.has capTunnelSync = true ∨
        i ∈ tunnels.map (·.id)) → ∃ f ∈ fs, f.Concerns i) ∧
      (seq = c.syncSeq ∨ sess.has capTunnelSync = true) := by
  unfold ControlSession.registerSnapshot
  split
  · rename_i hcap
    rw [if_pos (hseed hcap)]
    exact ⟨_, _, rfl, List.forall_mem_singleton.2 hcap,
      fun i _ => ⟨_, List.mem_singleton_self _, trivial⟩, .inl rfl⟩
  · rename_i hcap
    split
    · rename_i hsync
      exact ⟨_, _, rfl, List.forall_mem_singleton.2 hsync,
        fun i _ => ⟨_, List.mem_singleton_self _, trivial⟩, .inr hsync⟩
    · rename_i hsync
      refine ⟨_, _, rfl, ?_, fun i hi => ?_, .inl rfl⟩
      · intro f hf
        obtain ⟨t, -, rfl⟩ := List.mem_map.1 hf
        trivial
      · obtain ⟨t, ht, rfl⟩ := List.mem_map.1 ((hi.resolve_left hcap).resolve_left hsync)
        exact ⟨_, List.mem_map_of_mem ht, rfl⟩

theorem applySwapped_composes (c : ControlSession) (sess : AgentSession) (old new : List Tunnel) :
    ∃ fs seq, c.applySwapped sess old new = { c with editing := fs, syncSeq := seq } ∧
      (∀ f ∈ fs, f.Fits sess) ∧
      (∀ i, (sess.has capGatewayConfig = true ∨ sess.has capTunnelSync = true ∨
        ∃ f ∈ hotApplyFrames old new, f.Concerns i) → ∃ f ∈ fs, f.Concerns i) ∧
      (seq = c.syncSeq ∨ sess.has capTunnelSync = true) := by
  unfold ControlSession.applySwapped
  split
  · rename_i hcap
    exact ⟨_, _, rfl, List.forall_mem_singleton.2 hcap,
      fun i _ => ⟨_, List.mem_singleton_self _, trivial⟩, .inl rfl⟩
  · rename_i hcap
    split
    · rename_i hsync
      exact ⟨_, _, rfl, List.forall_mem_singleton.2 hsync,
        fun i _ => ⟨_, List.mem_singleton_self _, trivial⟩, .inr hsync⟩
    · rename_i hsync
      refine ⟨_, _, rfl, ?_, fun i hi => (hi.resolve_left hcap).resolve_left hsync, .inl rfl⟩
      intro f hf
      obtain hmem | hmem := List.mem_append.1 hf
      · obtain ⟨_, -, rfl⟩ := List.mem_map.1 hmem
        trivial
      · obtain ⟨_, -, rfl⟩ := List.mem_map.1 hmem
        trivial

theorem Inv.dial (h : s.Inv) (hp : s.phase = .down) (ha : s.Admits g agentID sess) :
    (s.dialed g sess).Inv := by
  obtain ⟨-, hnew, hlive, hcap⟩ := ha
  refine ⟨Gateway.exec_inv g h.actor _, nofun, fun _ _ => ?_⟩
  refine ⟨fun hc => (hcap hc).1, nofun, fun _ _ hf => absurd hf List.not_mem_nil,
    fun _ => ⟨rfl, rfl⟩, fun _ => rfl, fun _ => Gateway.admitted_fresh h.actor hnew hlive,
    fun i _ => h.cleared hp i, fun i hi => .inl ?_⟩
  by_cases hc : sess.has capGatewayConfig = true
  · exact .unserved hc rfl
  · change i ∈ (s.dialed g sess).seeded.enabledIDs at hi
    rw [Agent.enabledIDs_congr (s.dialed g sess).seeded_tunnels] at hi
    exact .registering rfl hc (.inr hi)

theorem Awaits.mono {t : PortRun} (h : s.Awaits i) (hsess : t.sess = s.sess)
    (hserving : s.sess.has capGatewayConfig = true → s.serving = false → t.serving = false)
    (hseed : t.seedNeeded = s.seedNeeded)
    (hreg : t.registration = s.registration) (hread : t.registering = s.registering)
    (hsw : t.swapped = s.swapped)
    (hediting : ∀ f ∈ s.editing, f.Concerns i → f ∈ t.editing ∨ f ∈ t.up)
    (hup : ∀ f ∈ s.up, f.Concerns i → f ∈ t.up) : t.Awaits i := by
  cases h with
  | unserved hcap h => exact .unserved (hsess ▸ hcap) (hserving hcap h)
  | seeding hnone hcap h => exact .seeding (hreg.trans hnone) (hsess ▸ hcap) (hseed.trans h)
  | registering hnone hcap h =>
    exact .registering (hreg.trans hnone) (hsess ▸ hcap) (by rw [hsess, hread]; exact h)
  | registered hsome hf hc => exact .registered (hreg.trans hsome) hf hc
  | swapped hsome h => exact .swapped (hsw.trans hsome) (hsess ▸ h)
  | editing hf hc => exact (hediting _ hf hc).elim (.editing · hc) (.up · hc)
  | up hf hc => exact .up (hup _ hf hc) hc

theorem Told.publish (h : s.Told) : Told { s with phase := .serving } := by
  refine ⟨h.enrolled, h.fits, h.quiet, nofun, h.idle, h.fresh, h.clean, ?_⟩
  refine h.told.mono fun i _ hw => ⟨fun hc => hw ?_, rfl⟩
  exact hc.mono rfl (fun _ => id) rfl rfl rfl rfl (fun _ hf _ => .inl hf) fun _ hf _ => hf

theorem Told.snapshot (h : s.Told) (hp : s.phase = .serving) (hn : s.snapshot = none) :
    Told { s with snapshot := some s.agent.snapshotTunnels } := by
  have hread : s.registering = s.agent.snapshotTunnels := by
    rw [PortRun.registering, hn, Option.getD_none]
  have hcoming : coming { s with snapshot := some s.agent.snapshotTunnels } = s.coming := by
    rw [coming, coming, seeded, seeded, hread]
    rfl
  refine ⟨h.enrolled, h.fits, h.quiet, fun hc => absurd (hp.symm.trans hc) nofun, h.idle, h.fresh,
    h.clean, hcoming ▸ h.told.mono fun i _ hw => ⟨fun hc => hw ?_, rfl⟩⟩
  exact hc.mono rfl (fun _ => id) rfl rfl hread.symm rfl (fun _ hf _ => .inl hf) fun _ hf _ => hf

theorem Told.seed (h : s.Told) (hp : s.phase = .serving) (hts : s.snapshot = some tunnels)
    (hlater : s.SeedsLater)
    (hheeds : ∀ t ∈ tunnels, t.publicPort ≠ 0 → t.id ∈ s.agent.enabledIDs) :
    Told { s with
      agent := s.agent.seedPublicPorts tunnels
      registration := some []
      snapshot := none } := by
  obtain ⟨hcap, hseed, hreg⟩ := hlater
  have hread : s.registering = tunnels := by rw [PortRun.registering, hts, Option.getD_some]
  have hcoming : coming { s with
      agent := s.agent.seedPublicPorts tunnels
      registration := some []
      snapshot := none } = s.coming := by
    rw [coming, coming, seeded_eq (not_seedsLater rfl), seeded, if_pos ⟨hcap, hseed, hreg⟩, hread]
  refine ⟨h.enrolled, ?_, h.quiet, fun hc => absurd (hp.symm.trans hc) nofun, h.idle, h.fresh,
    fun i hi => ?_, hcoming ▸ h.told.mono fun i _ hw => ⟨fun hc => hw ?_, rfl⟩⟩
  · exact fun f hf => h.fits f (by rw [hreg]; exact hf)
  · refine (Agent.lookup_publish_zero _ ?_).trans (h.clean i hi)
    intro e he hid
    obtain ⟨t, ht, rfl⟩ := List.mem_map.1 he
    by_contra hport
    exact hi (hid ▸ hheeds t (List.mem_of_mem_filter ht) hport)
  · cases hc with
    | unserved hcap h => exact .unserved hcap h
    | seeding _ _ h => exact absurd (hseed.symm.trans h) Bool.false_ne_true
    | registering _ hn _ => exact absurd hcap hn
    | registered hsome => exact absurd (hreg.symm.trans hsome) nofun
    | swapped hsw h => exact .swapped hsw h
    | editing hf hc => exact .editing hf hc
    | up hf hc => exact .up hf hc

theorem Told.compose (h : s.Told) (hp : s.phase = .serving) (hreg : s.registration = none)
    (hts : s.snapshot = some tunnels)
    (hseed : s.sess.has capGatewayConfig = true → s.seedNeeded = true) :
    Told { s with toControlSession := s.registerSnapshot s.sess tunnels, snapshot := none } := by
  have hread : s.registering = tunnels := by rw [PortRun.registering, hts, Option.getD_some]
  have hlater : ¬s.SeedsLater := fun hc =>
    absurd (hc.2.1.symm.trans (hseed hc.1)) Bool.false_ne_true
  obtain ⟨fs, seq, he, hfits, hconcerns, hseq⟩ :=
    registerSnapshot_composes s.toControlSession s.sess tunnels hseed
  rw [he]
  refine ⟨h.enrolled, ?_, h.quiet, fun hc => absurd (hp.symm.trans hc) nofun, h.idle, h.fresh,
    h.clean, ?_⟩
  · intro f hf
    rw [List.append_assoc] at hf
    obtain hf | hf := List.mem_append.1 hf
    · exact hfits f hf
    · exact h.fits f (by rw [hreg]; exact hf)
  by_cases hsync : s.sess.has capTunnelSync = true
  · intro i _
    obtain ⟨f, hf, hc⟩ := hconcerns i (.inr (.inl hsync))
    exact .inl (.registered rfl hf hc)
  · obtain rfl := hseq.resolve_right hsync
    have hcoming : coming { s with
        toControlSession := { s.toControlSession with registration := some fs }
        snapshot := none } = s.coming := by
      rw [coming, coming, seeded_eq (not_seedsLater rfl), seeded_eq hlater]
    refine hcoming ▸ h.told.mono fun i _ hw => ⟨fun hc => hw ?_, rfl⟩
    have hnew (hi : s.sess.has capGatewayConfig = true ∨ s.sess.has capTunnelSync = true ∨
        i ∈ tunnels.map (·.id)) : Awaits { s with
          toControlSession := { s.toControlSession with registration := some fs }
          snapshot := none } i := by
      obtain ⟨f, hf, hc⟩ := hconcerns i hi
      exact .registered rfl hf hc
    cases hc with
    | unserved hcap h => exact .unserved hcap h
    | seeding _ hcap _ => exact hnew (.inl hcap)
    | registering _ _ hi => exact hnew (.inr (hread ▸ hi))
    | registered hsome => exact absurd (hreg.symm.trans hsome) nofun
    | swapped hsw h => exact .swapped hsw h
    | editing hf hc => exact .editing hf hc
    | up hf hc => exact .up hf hc

theorem mem_enabledIDs_lookup {a : Agent} :
    i ∈ a.enabledIDs ↔ ∃ t, (enabledByID a.tunnels).lookup i = some t := by
  constructor
  · intro hi
    rw [← Option.ne_none_iff_exists', ne_eq, enabledByID, lookup_byID_none]
    obtain ⟨t, ht, rfl⟩ := List.mem_map.1 hi
    exact fun hc => hc t ht rfl
  · rintro ⟨t, ht⟩
    obtain ⟨hmem, hid⟩ := lookup_byID_mem ht
    exact List.mem_map.2 ⟨t, hmem, hid⟩

theorem due_of_new {old new : Agent} (hnew : i ∈ new.enabledIDs)
    (hf : ¬∃ f ∈ hotApplyFrames old.tunnels new.tunnels, f.Concerns i) : i ∈ old.enabledIDs := by
  obtain ⟨t, ht⟩ := mem_enabledIDs_lookup.1 hnew
  obtain rfl := lookup_enabledByID_id ht
  by_contra hold
  refine hf ⟨.register (specFromTunnel t), register_mem_hotApplyFrames.2 ⟨t, ⟨ht, ?_⟩, rfl⟩, rfl⟩
  exact fun t₀ ht₀ => absurd (mem_enabledIDs_lookup.2 ⟨t₀, ht₀⟩) hold

theorem port_swapTunnels (a : Agent) (new : List Tunnel) (i : String) :
    (a.swapTunnels new).tunnelPublicPort i =
      if i ∈ a.enabledIDs ∧ i ∉ (a.swapTunnels new).enabledIDs then none
      else a.tunnelPublicPort i := by
  refine (Agent.lookup_forget _ _ i).trans ?_
  have hgone : i ∈ ((enabledByID a.tunnels).keys.filter fun i => i ∉ (enabledByID new).keys) ↔
      i ∈ a.enabledIDs ∧ i ∉ (a.swapTunnels new).enabledIDs := by
    rw [List.mem_filter, decide_eq_true_eq, mem_enabledIDs_lookup, mem_enabledIDs_lookup,
      ← Option.isSome_iff_exists, ← Option.isSome_iff_exists, AList.lookup_isSome,
      AList.lookup_isSome]
    rfl
  simp only [hgone]
  rfl

theorem Told.swap (h : s.Told) (hsw : s.swapped = none) (hed : s.editing = [])
    (new : List Tunnel) : (s.swapTo new).Told := by
  refine ⟨h.enrolled, h.fits, h.quiet, h.greeting, fun _ => hed, h.fresh, fun i hi => ?_,
    fun i hi => ?_⟩
  · refine (port_swapTunnels s.agent new i).trans ?_
    split
    · rfl
    · rename_i hkept
      exact h.clean i fun hc => hkept ⟨hc, hi⟩
  by_cases hcap : s.sess.has capGatewayConfig = true
  · exact .inl (.swapped rfl (.inl hcap))
  by_cases hsync : s.sess.has capTunnelSync = true
  · exact .inl (.swapped rfl (.inr (.inl hsync)))
  by_cases hf : ∃ f ∈ hotApplyFrames s.agent.tunnels new, f.Concerns i
  · exact .inl (.swapped rfl (.inr (.inr hf)))
  have hquiet := h.quiet (Bool.not_eq_true _ ▸ hcap)
  have hnew : i ∈ (s.agent.swapTunnels new).enabledIDs :=
    (mem_coming (s := s.swapTo new) hquiet).1 hi
  have hold : i ∈ s.agent.enabledIDs := due_of_new hnew hf
  have hport : (s.agent.swapTunnels new).tunnelPublicPort i = s.agent.tunnelPublicPort i := by
    rw [port_swapTunnels, if_neg fun hc => hc.2 hnew]
  refine (h.told i ((mem_coming hquiet).2 hold)).imp (fun hw => ?_) fun htold => ?_
  · cases hw with
    | unserved hc _ => exact absurd hc hcap
    | seeding _ hc _ => exact absurd hc hcap
    | registering hreg _ hi =>
      refine .registering hreg hcap (.inr ?_)
      have hi := hi.resolve_left hsync
      change i ∈ (s.snapshot.getD (s.agent.swapTunnels new).snapshotTunnels).map (·.id)
      rw [PortRun.registering] at hi
      cases hsnap : s.snapshot with
      | none => exact hnew
      | some tunnels => rwa [hsnap] at hi
    | registered hreg hf hc => exact .registered hreg hf hc
    | swapped hsome => exact absurd (hsw.symm.trans hsome) nofun
    | editing hf hc => exact .editing hf hc
    | up hf hc => exact .up hf hc
  · refine (Agent.reads_port _ _ ?_ (.inr hquiet)).trans htold
    rw [seeded_eq (s := s.swapTo new) fun hc => hcap hc.1, seeded_eq (s := s) fun hc => hcap hc.1]
    exact hport

theorem Told.composeEdit (h : s.Told) (hp : s.phase = .serving)
    (hsw : s.swapped = some (old, new)) :
    Told { s with toControlSession := s.applySwapped s.sess old new, swapped := none } := by
  have hed : s.editing = [] := h.idle (by rw [hsw]; rfl)
  obtain ⟨fs, seq, he, hfits, hconcerns, hseq⟩ :=
    applySwapped_composes s.toControlSession s.sess old new
  rw [he]
  refine ⟨h.enrolled, ?_, h.quiet, fun hc => absurd (hp.symm.trans hc) nofun, nofun, h.fresh,
    h.clean, ?_⟩
  · intro f hf
    obtain hf | hf := List.mem_append.1 hf
    · obtain hf | hf := List.mem_append.1 hf
      · exact h.fits f (List.mem_append_left _ (List.mem_append_left _ hf))
      · exact hfits f hf
    · exact h.fits f (List.mem_append_right _ hf)
  by_cases hsync : s.sess.has capTunnelSync = true
  · intro i _
    obtain ⟨f, hf, hc⟩ := hconcerns i (.inr (.inl hsync))
    exact .inl (.editing hf hc)
  · obtain rfl := hseq.resolve_right hsync
    refine h.told.mono fun i _ hw => ⟨fun hc => hw ?_, rfl⟩
    cases hc with
    | unserved hcap h => exact .unserved hcap h
    | seeding hreg hcap h => exact .seeding hreg hcap h
    | registering hreg hcap h => exact .registering hreg hcap h
    | registered hreg hf hc => exact .registered hreg hf hc
    | swapped hsome hi =>
      obtain ⟨rfl, rfl⟩ := Prod.mk.inj (Option.some.inj (hsw.symm.trans hsome))
      obtain ⟨f, hf, hc⟩ := hconcerns i hi
      exact .editing hf hc
    | editing hf =>
      rw [hed] at hf
      exact absurd hf List.not_mem_nil
    | up hf hc => exact .up hf hc

theorem Told.dropEdit (h : s.Told) (hp : s.phase = .greeting)
    (hheeds : ¬(s.sess.has capGatewayConfig = true ∧ s.seedNeeded = false ∧ s.serving = true)) :
    Told { s with swapped := none } := by
  obtain ⟨hsnap, hreg⟩ := h.greeting hp
  refine ⟨h.enrolled, h.fits, h.quiet, h.greeting, nofun, h.fresh, h.clean, fun i hi => .inl ?_⟩
  by_cases hcap : s.sess.has capGatewayConfig = true
  · by_cases hseed : s.seedNeeded = true
    · exact .seeding hreg hcap hseed
    · refine .unserved hcap (Bool.not_eq_true _ ▸ fun hserving => ?_)
      exact hheeds ⟨hcap, Bool.not_eq_true _ ▸ hseed, hserving⟩
  · refine .registering hreg hcap (.inr ?_)
    have hquiet := h.quiet (Bool.not_eq_true _ ▸ hcap)
    rw [PortRun.registering, hsnap, Option.getD_none]
    exact (mem_coming (s := s) hquiet).1 hi

theorem Told.sendRegistration (h : s.Told) (hreg : s.registration = some (f :: fs)) :
    Told { s with up := s.up ++ [f], registration := some fs } := by
  have hcoming : coming { s with up := s.up ++ [f], registration := some fs } = s.coming := by
    rw [coming, coming, seeded_eq (not_seedsLater rfl), seeded_eq (not_seedsLater hreg)]
  refine ⟨h.enrolled, ?_, h.quiet, fun hp => ?_, h.idle, h.fresh, h.clean,
    hcoming ▸ h.told.mono fun i _ hw => ⟨fun hc => hw ?_, rfl⟩⟩
  · intro f' hf'
    refine h.fits f' ?_
    rw [hreg]
    simp only [Option.getD_some, List.mem_append, List.mem_cons, List.not_mem_nil,
      or_false] at hf' ⊢
    tauto
  · exact absurd (hreg.symm.trans (h.greeting hp).2) nofun
  · cases hc with
    | unserved hcap h => exact .unserved hcap h
    | seeding hnone => exact absurd (hreg.symm.trans hnone) nofun
    | registering hnone => exact absurd (hreg.symm.trans hnone) nofun
    | registered hsome hf hc =>
      obtain rfl := Option.some.inj (hreg.symm.trans hsome)
      obtain rfl | hf := List.mem_cons.1 hf
      · exact .up (List.mem_append_right _ (List.mem_singleton_self _)) hc
      · exact .registered rfl hf hc
    | swapped hsw h => exact .swapped hsw h
    | editing hf hc => exact .editing hf hc
    | up hf hc => exact .up (List.mem_append_left _ hf) hc

theorem unconfirm_tunnels (a : Agent) (f : AgentFrame) :
    (ControlSession.unconfirm a f).tunnels = a.tunnels := by
  cases f <;> rfl

theorem port_unconfirm (a : Agent) {f : AgentFrame} (hf : ¬f.Concerns i) :
    (ControlSession.unconfirm a f).tunnelPublicPort i = a.tunnelPublicPort i := by
  cases f with
  | register spec =>
    simp only [ControlSession.unconfirm, Agent.tunnelPublicPort, lookup_erase_eq]
    rw [if_neg fun hc => hf (Eq.symm hc)]
  | proposeConfig | configAck | syncTunnels | unregister => rfl

theorem port_unconfirm_none (a : Agent) (f : AgentFrame) (h : a.tunnelPublicPort i = none) :
    (ControlSession.unconfirm a f).tunnelPublicPort i = none := by
  cases f with
  | register spec =>
    simp only [ControlSession.unconfirm, Agent.tunnelPublicPort, lookup_erase_eq] at h ⊢
    rw [h, ite_self]
  | proposeConfig | configAck | syncTunnels | unregister => exact h

theorem Told.sendEdit (h : s.Told) (he : s.editing = f :: fs) :
    Told { s with
      agent := ControlSession.unconfirm s.agent f
      up := s.up ++ [f]
      editing := fs } := by
  let t : PortRun := { s with
    agent := ControlSession.unconfirm s.agent f
    up := s.up ++ [f]
    editing := fs }
  have htunnels : t.agent.tunnels = s.agent.tunnels := unconfirm_tunnels s.agent f
  have hids : t.agent.enabledIDs = s.agent.enabledIDs := Agent.enabledIDs_congr htunnels
  have hread : t.registering = s.registering := by
    change s.snapshot.getD (t.agent.tunnels.filter (·.enabled)) = _
    rw [htunnels]
    rfl
  have hcoming : t.coming.enabledIDs = s.coming.enabledIDs :=
    Agent.enabledIDs_congr (Agent.reads_tunnels _ _
      ((seeded_tunnels t).trans (htunnels.trans s.seeded_tunnels.symm)))
  have hport {i : String} (hf : ¬f.Concerns i) :
      t.coming.tunnelPublicPort i = s.coming.tunnelPublicPort i := by
    refine Agent.reads_port _ _ ?_ (.inl ((seeded_tunnels t).trans (htunnels.trans
      s.seeded_tunnels.symm)))
    have hbase := port_unconfirm s.agent hf
    by_cases hlater : s.SeedsLater
    · rw [seeded_later (s := t) hlater, seeded_later hlater, hread]
      exact Agent.lookup_publish_congr _ hbase
    · rw [seeded_eq (s := t) hlater, seeded_eq hlater]
      exact hbase
  have hawaits {i : String} (hw : s.Awaits i) : t.Awaits i := by
    refine hw.mono rfl (fun _ => id) rfl rfl hread rfl (fun f' hf' _ => ?_)
      fun f' hf' _ => List.mem_append_left _ hf'
    rw [he] at hf'
    obtain rfl | hf' := List.mem_cons.1 hf'
    · exact .inr (List.mem_append_right _ (List.mem_singleton_self _))
    · exact .inl hf'
  refine ⟨h.enrolled, ?_, h.quiet, h.greeting, fun hsw => ?_, h.fresh, fun i hi => ?_,
    fun i hi => ?_⟩
  · intro f' hf'
    refine h.fits f' ?_
    rw [he]
    simp only [List.mem_append, List.mem_cons, List.not_mem_nil, or_false] at hf' ⊢
    tauto
  · exact absurd (he.symm.trans (h.idle hsw)) (List.cons_ne_nil _ _)
  · exact port_unconfirm_none s.agent f (h.clean i (hids ▸ hi))
  · by_cases hf : f.Concerns i
    · exact .inl (.up (List.mem_append_right _ (List.mem_singleton_self _)) hf)
    · refine (h.told i (hcoming ▸ hi)).imp hawaits fun htold => ?_
      exact (hport hf).trans htold

theorem Told.receive (h : s.Told) (hreg : s.registration = some []) (hdown : s.down = f :: fs)
    (hheeds : s.agent.Enables s.syncSeq f) (acking : Option ConfigAck) :
    Told { s with
      agent := s.agent.receive s.syncSeq f
      acking := acking
      down := fs } := by
  let t : PortRun := { s with
    agent := s.agent.receive s.syncSeq f
    acking := acking
    down := fs }
  have hcoming : t.coming = s.coming := by
    rw [coming, coming, seeded_eq (s := t) (not_seedsLater hreg),
      seeded_eq (s := s) (not_seedsLater hreg), hdown]
    rfl
  have hdown' : ∀ f' ∈ fs, f' ∈ s.down := fun f' hf' => hdown ▸ List.mem_cons_of_mem _ hf'
  refine ⟨h.enrolled, h.fits, fun hcap f' hf' => h.quiet hcap f' (hdown' f' hf'), fun hp => ?_,
    h.idle, h.fresh, fun i hi => ?_, hcoming ▸ h.told.mono fun i _ hw => ⟨fun hc => hw ?_, rfl⟩⟩
  · exact absurd (hreg.symm.trans (h.greeting hp).2) nofun
  · exact Agent.receive_clean s.syncSeq hheeds h.clean i hi
  · cases hc with
    | unserved hcap h => exact .unserved hcap h
    | seeding hnone => exact absurd (hreg.symm.trans hnone) nofun
    | registering hnone => exact absurd (hreg.symm.trans hnone) nofun
    | registered hsome hf hc => exact .registered hsome hf hc
    | swapped hsw h => exact .swapped hsw h
    | editing hf hc => exact .editing hf hc
    | up hf hc => exact .up hf hc

theorem Told.sendAck (h : s.Told) (ack : ConfigAck) (acking : Option ConfigAck) :
    Told { s with up := s.up ++ [.configAck ack], acking := acking } := by
  refine ⟨h.enrolled, ?_, h.quiet, h.greeting, h.idle, h.fresh, h.clean,
    h.told.mono fun i _ hw => ⟨fun hc => hw ?_, rfl⟩⟩
  · intro f hf
    rw [← List.append_assoc] at hf
    obtain hf | hf := List.mem_append.1 hf
    · exact h.fits f hf
    · rw [List.mem_singleton.1 hf]
      trivial
  · exact hc.mono rfl (fun _ => id) rfl rfl rfl rfl (fun _ hf _ => .inl hf)
      fun _ hf _ => List.mem_append_left _ hf

theorem Told.command (h : s.Told) {st : GatewayState}
    (hsame : ∀ i, st.actor.listener? s.sess.agentID i =
      s.gateway.actor.listener? s.sess.agentID i) :
    Told { s with gateway := st } := by
  refine ⟨h.enrolled, h.fits, h.quiet, h.greeting, h.idle, fun hidle i => ?_, h.clean,
    h.told.mono fun i _ hw => ⟨fun hc => hw ?_, ?_⟩⟩
  · exact (hsame i).trans (h.fresh hidle i)
  · exact hc.mono rfl (fun _ => id) rfl rfl rfl rfl (fun _ hf _ => .inl hf) fun _ hf _ => hf
  · exact congrArg (Option.map _) (hsame i)

/-- The gateway has handled a frame, and answered it. -/
def answered (s : PortRun) (fs : List AgentFrame) (r : Option GatewayFrame × GatewayState) :
    PortRun :=
  { s with toControlSession := { s.toControlSession with up := fs }.answer r }

/-- The agent once it has also read an answer. -/
def comingWith (s : PortRun) (o : Option GatewayFrame) : Agent :=
  o.elim s.coming (s.coming.receive s.syncSeq)

theorem reads_append (a : Agent) (n : Nat) (fs : List GatewayFrame) (o : Option GatewayFrame) :
    a.reads n (fs ++ o.toList) = o.elim (a.reads n fs) ((a.reads n fs).receive n) := by
  cases o with
  | none => rw [Option.toList_none, List.append_nil, Option.elim_none]
  | some f => rw [Agent.reads, List.foldl_append]; rfl

theorem Told.answer (h : s.Told) (hs : s.serving = true) (hup : s.up = f :: fs)
    {r : Option GatewayFrame × GatewayState}
    (hquiet : s.sess.has capGatewayConfig = false → ∀ a ∈ r.1, a.push? = none)
    (htold : ∀ i ∈ (s.comingWith r.1).enabledIDs, ¬Awaits { s with up := fs } i →
      (s.comingWith r.1).tunnelPublicPort i = r.2.actor.portOf s.sess i) :
    (s.answered fs r).Told := by
  have hcoming : (s.answered fs r).coming = s.comingWith r.1 :=
    reads_append s.seeded s.syncSeq s.down r.1
  refine ⟨h.enrolled, ?_, fun hcap a ha => ?_, h.greeting, h.idle, fun hidle => ?_, h.clean,
    fun i hi => ?_⟩
  · intro f' hf'
    refine h.fits f' ?_
    rw [hup]
    obtain hf' | hf' := List.mem_append.1 hf'
    · exact List.mem_append_left _ hf'
    · exact List.mem_append_right _ (List.mem_cons_of_mem _ hf')
  · obtain ha | ha := List.mem_append.1 ha
    · exact h.quiet hcap a ha
    · exact hquiet hcap a (Option.mem_toList.1 ha)
  · exact absurd (hs.symm.trans hidle) nofun
  · rw [hcoming] at hi ⊢
    by_cases hw : Awaits { s with up := fs } i
    · exact .inl (hw.mono rfl (fun _ => id) rfl rfl rfl rfl (fun _ hf _ => .inl hf)
        fun _ hf _ => hf)
    · exact .inr (htold i hi hw)

theorem Told.others (h : s.Told) (hup : s.up = f :: fs) (hi : i ∈ s.coming.enabledIDs)
    (hf : ¬f.Concerns i) (hw : ¬Awaits { s with up := fs } i) :
    s.coming.tunnelPublicPort i = s.gateway.actor.portOf s.sess i := by
  refine (h.told i hi).resolve_left fun hc => hw ?_
  refine hc.mono rfl (fun _ => id) rfl rfl rfl rfl (fun _ hf _ => .inl hf) fun f' hf' hc' => ?_
  rw [hup] at hf'
  obtain rfl | hf' := List.mem_cons.1 hf'
  · exact absurd hc' hf
  · exact hf'

theorem portOf_shown {st : GatewayState} (ha : st.actor.Inv) (hl : st.actor.live sess)
    (hfresh : st.actor.listener? sess.agentID i = none)
    (hb : BindShown shown (lastBind (g.passBinds st sess specs) i)) :
    (st.actor.reconcile g sess specs).2.portOf sess i = shown := by
  by_cases hi : i ∈ specs.map (·.id)
  · rw [Gateway.portOf_reconcile g ha hl hi]
    cases hlast : lastBind (g.passBinds st sess specs) i with
    | none =>
      rw [hlast] at hb
      rw [Option.elim_none, Actor.portOf, hfresh]
      exact (hb : shown = none).symm
    | some b =>
      obtain ⟨asked, o⟩ := b
      obtain ⟨-, -, a, ho⟩ := Gateway.mem_passBinds hlast
      rw [hlast] at hb
      cases o with
      | granted ln =>
        obtain ⟨hne, hshown⟩ := hb
        rw [hshown]
        exact congrArg some ((Actor.opened_granted ho).1 hne)
      | reassigned ln => exact hb.elim
      | failed text => exact (hb : shown = none).symm
  · rw [Gateway.portOf_reconcile_gone g ha hl hi]
    cases hlast : lastBind (g.passBinds st sess specs) i with
    | none =>
      rw [hlast] at hb
      exact (hb : shown = none).symm
    | some b =>
      obtain ⟨asked, o⟩ := b
      obtain ⟨hmem, hid, -⟩ := Gateway.mem_passBinds hlast
      exact absurd (List.mem_map.2 ⟨asked, hmem, hid⟩) hi

theorem Told.connect (h : s.Told) (ha : s.gateway.actor.Inv) (hl : s.gateway.actor.live s.sess)
    (hidle : s.serving = false) (hheeds : s.sess.has capGatewayConfig = true → s.ConnectShows g) :
    Told { s with toControlSession :=
      { s.answer (g.serveControl s.gateway s.sess) with serving := true } } := by
  have hquiet : s.sess.has capGatewayConfig = false →
      ∀ a ∈ s.down ++ (g.serveControl s.gateway s.sess).1.toList, a.push? = none := by
    intro hcap a ha
    rw [Gateway.serveControl_unconfigured g _ hcap, Option.toList_none, List.append_nil] at ha
    exact h.quiet hcap a ha
  refine ⟨h.enrolled, h.fits, hquiet, h.greeting, h.idle, nofun, h.clean, fun i hi => ?_⟩
  let t : PortRun := { s with toControlSession :=
    { s.answer (g.serveControl s.gateway s.sess) with serving := true } }
  have hcoming : t.coming = s.comingWith (g.serveControl s.gateway s.sess).1 :=
    reads_append s.seeded s.syncSeq s.down _
  have hawaits (hw : Awaits { s with serving := true } i) : t.Awaits i :=
    hw.mono rfl (fun _ => id) rfl rfl rfl rfl (fun _ hf _ => .inl hf) fun _ hf _ => hf
  change i ∈ t.coming.enabledIDs at hi
  change t.Awaits i ∨ t.coming.tunnelPublicPort i =
    (g.serveControl s.gateway s.sess).2.actor.portOf s.sess i
  rw [hcoming] at hi ⊢
  by_cases hcap : s.sess.has capGatewayConfig = true
  · have hshows := hheeds hcap
    have hserve : g.serveControl s.gateway s.sess =
        ((g.pushConfigOnConnect s.gateway s.sess).1.map .pushConfig,
          (g.pushConfigOnConnect s.gateway s.sess).2) := by
      rw [Gateway.serveControl, h.enrolled hcap, hcap]
      rfl
    rw [hserve] at hi ⊢
    unfold ConnectShows at hshows
    split at hshows
    · rename_i hnone
      have hstored : ∀ c ∈ s.gateway.agents.desiredConfig s.sess.agentID, c.2 = 0 := by
        intro c hc
        rw [hc] at hnone
        simpa only [Option.filter_some, ite_eq_right_iff, reduceCtorEq, imp_false,
          decide_eq_true_eq, not_not] using hnone
      rw [Gateway.pushConfigOnConnect_idle g hstored] at hi ⊢
      refine (hshows i hi).imp hawaits fun hport => hport.trans ?_
      rw [Actor.portOf, h.fresh hidle]
      rfl
    · rename_i stored gen hsome
      obtain ⟨hd, hgen⟩ := Option.filter_eq_some_iff.1 hsome
      have hgen : gen ≠ 0 := of_decide_eq_true hgen
      rw [Gateway.pushConfigOnConnect_serves g hd hgen] at hi ⊢
      have hafter {shown : Option Int} (hb : BindShown shown (lastBind
          (g.passBinds s.gateway s.sess (g.validSpecs s.sess.scope stored)) i)) :=
        portOf_shown ha hl (h.fresh hidle i) hb
      by_cases hsync : s.sess.reportedConfigHash =
          hashTunnels g.env (g.validSpecs s.sess.scope stored) ∧
            s.gateway.agentConfigGen s.sess = gen
      · rw [if_pos hsync] at hi hshows ⊢
        exact (hshows i hi).imp hawaits fun hb => (hafter hb).symm
      · rw [if_neg hsync] at hi hshows ⊢
        obtain ⟨spec, hspec, rfl⟩ := List.mem_map.1 ((Agent.mem_enabledIDs_push _ _).1 hi)
        refine (hshows spec hspec).imp hawaits fun hb => ?_
        exact (Agent.port_pushed s.coming hspec hb.1 gen).trans (hafter hb.2).symm
  · rw [Gateway.serveControl_unconfigured g _ (Bool.not_eq_true _ ▸ hcap)] at hi ⊢
    refine (h.told i hi).imp_left fun hc => ?_
    exact hc.mono rfl (fun hc' => absurd hc' hcap) rfl rfl rfl rfl (fun _ hf _ => .inl hf)
      fun _ hf _ => hf

theorem Told.handleRegister (h : s.Told) (hs : s.serving = true) (hl : s.gateway.actor.live s.sess)
    (hup : s.up = .register spec :: fs) (hheeds : FrameShows g { s with up := fs } (.register spec))
    (written : Bool) :
    (s.answered fs (g.handleControlMsg s.gateway s.sess written (.register spec))).Told := by
  have hothers {i : String} (hi : i ∈ s.coming.enabledIDs) (hne : i ≠ spec.id)
      (hw : ¬Awaits { s with up := fs } i) :
      s.coming.tunnelPublicPort i = s.gateway.actor.portOf s.sess i :=
    h.others hup hi (fun hc => hne (Eq.symm hc)) hw
  obtain ⟨berr, hv, he⟩ | ⟨hv, hopen, berr, b, he, hports⟩ | ⟨port, b, he, hports⟩ :=
    Gateway.bindTunnel_ports g hl spec
  · simp only [Gateway.handleControlMsg, he]
    refine h.answer hs hup (fun _ a ha => ?_) fun i hi hw => ?_
    · rw [← Option.some.inj ha]
      rfl
    · by_cases hid : i = spec.id
      · subst hid
        have hshown := (hheeds hi).resolve_left hw
        rw [hv] at hshown
        exact hshown
      · exact hothers hi hid hw
  · simp only [Gateway.handleControlMsg, he]
    refine h.answer hs hup (fun _ a ha => ?_) fun i hi hw => ?_
    · rw [← Option.some.inj ha]
      rfl
    · refine Eq.trans ?_ (hports i).symm
      by_cases hid : i = spec.id
      · subst hid
        have hshown := (hheeds hi).resolve_left hw
        rw [hv] at hshown
        rw [if_pos rfl]
        exact hshown hopen
      · rw [if_neg hid]
        exact hothers hi hid hw
  · simp only [Gateway.handleControlMsg, he]
    refine h.answer hs hup (fun _ a ha => ?_) fun i hi hw => ?_
    · rw [← Option.some.inj ha]
      rfl
    · refine Eq.trans (lookup_insert_eq _ _ _ _) (Eq.trans ?_ (hports i).symm)
      by_cases hid : i = spec.id
      · rw [if_pos hid, if_pos hid]
      · rw [if_neg hid, if_neg hid]
        exact hothers hi hid hw

theorem Told.handleUnregister (h : s.Told) (hs : s.serving = true) (ha : s.gateway.actor.Inv)
    (hl : s.gateway.actor.live s.sess) (hup : s.up = .unregister tunnelID :: fs)
    (hheeds : FrameShows g { s with up := fs } (.unregister tunnelID)) (written : Bool) :
    (s.answered fs (g.handleControlMsg s.gateway s.sess written (.unregister tunnelID))).Told := by
  refine h.answer hs hup nofun fun i hi hw => ?_
  refine Eq.trans ?_ (Actor.portOf_unbindLocked ha hl tunnelID).symm
  by_cases hid : i = tunnelID
  · subst hid
    rw [if_pos rfl]
    exact (hheeds hi).resolve_left hw
  · rw [if_neg hid]
    exact h.others hup hi (fun hc => hid (Eq.symm hc)) hw

theorem Told.handleAck {ack : ConfigAck} (h : s.Told) (hs : s.serving = true)
    (hup : s.up = .configAck ack :: fs) (written : Bool) :
    (s.answered fs (g.handleControlMsg s.gateway s.sess written (.configAck ack))).Told :=
  h.answer hs hup nofun fun _ hi hw => h.others hup hi id hw

theorem Told.handleSync (h : s.Told) (hs : s.serving = true) (ha : s.gateway.actor.Inv)
    (hl : s.gateway.actor.live s.sess) (hup : s.up = .syncTunnels sync :: fs)
    (hheeds : FrameShows g { s with up := fs } (.syncTunnels sync)) (written : Bool) :
    (s.answered fs (g.handleControlMsg s.gateway s.sess written (.syncTunnels sync))).Told := by
  have hsync : s.sess.has capTunnelSync = true :=
    h.fits (.syncTunnels sync) (List.mem_append_right _ (hup ▸ List.mem_cons_self))
  simp only [Gateway.handleControlMsg, if_pos hsync]
  refine h.answer hs hup (fun _ a ha => ?_) fun i hi hw => ?_
  · rw [← Option.some.inj ha]
    rfl
  · let res := (g.syncTunnels s.gateway.actor s.sess sync).1
    have hmem : i ∈ s.coming.enabledIDs := by
      rw [← Agent.enabledIDs_congr
        (Agent.receive_quiet s.coming s.syncSeq (f := .syncResult res) rfl)]
      exact hi
    obtain ⟨hseq, hin⟩ := (hheeds i hmem).resolve_left hw
    have hread : (s.comingWith (some (.syncResult res))).tunnelPublicPort i =
        (res.results.foldl putResult s.coming.publicPorts).lookup i :=
      congrArg (AList.lookup i) (Agent.receive_result s.coming hseq)
    refine hread.trans ((Gateway.lookup_syncTunnels g ha hl sync _ i).trans ?_)
    split
    · rfl
    · rename_i hout
      rw [Gateway.portOf_syncTunnels_gone g ha hl hout]
      exact hin.resolve_left hout

theorem mem_resolved_ids {os : List ReconcileOutcome} :
    i ∈ (Gateway.resolvePorts specs os).map (·.id) ↔ i ∈ specs.map (·.id) := by
  rw [Gateway.resolvePorts, List.map_map]
  rfl

theorem port_resolved {st : GatewayState} (ha : st.actor.Inv) (hl : st.actor.live sess)
    {valid : List TunnelSpec} (agent : Agent) (gen : Nat) (hi : i ∈ valid.map (·.id))
    (hvalid : ∀ spec ∈ valid, spec.id = i →
      (∀ b ∈ lastBind (g.passBinds st sess valid) spec.id, b.2.port?.isSome) ∨
        st.actor.kept? sess spec = none ∧
          (∀ b ∈ g.passBinds st sess valid, b.1.id = spec.id → b.2.port? = none) ∧
          spec.publicPort = 0 ∧ agent.tunnelPublicPort spec.id = none) :
    (agent.applyPushedConfig
      (Gateway.resolvePorts valid (st.actor.reconcile g sess valid).1) gen).tunnelPublicPort i =
        (st.actor.reconcile g sess valid).2.portOf sess i := by
  let os := (st.actor.reconcile g sess valid).1
  have hentries : ∀ e ∈ (Gateway.resolvePorts valid os).map fun spec => (spec.id, spec.publicPort),
      e.1 = i → ∃ spec ∈ valid, spec.id = i ∧
        e.2 = (Gateway.boundPort os i).getD spec.publicPort := by
    intro e he hid
    obtain ⟨_, hr, rfl⟩ := List.mem_map.1 he
    obtain ⟨spec, hspec, rfl⟩ := List.mem_map.1 hr
    have hid : spec.id = i := hid
    exact ⟨spec, hspec, hid, by rw [← hid]⟩
  rw [Agent.port_push (mem_resolved_ids.2 hi)]
  cases hp : (st.actor.reconcile g sess valid).2.portOf sess i with
  | some p =>
    obtain ⟨hbound, hlo, -⟩ := Gateway.boundPort_portOf ha hl hi hp
    refine Agent.lookup_publish_port _ (fun e he hid => ?_) ?_ (by omega)
    · obtain ⟨spec, -, -, hport⟩ := hentries e he hid
      rw [hport, hbound, Option.getD_some]
    · rw [List.map_map]
      exact mem_resolved_ids.2 hi
  | none =>
    have hfails : ∀ spec ∈ valid, spec.id = i → st.actor.kept? sess spec = none ∧
        (∀ b ∈ g.passBinds st sess valid, b.1.id = i → b.2.port? = none) ∧
        spec.publicPort = 0 ∧ agent.tunnelPublicPort i = none := by
      rintro spec hspec rfl
      refine (hvalid spec hspec rfl).resolve_left fun hall => ?_
      have hsome := (Gateway.portOf_isSome_iff ha hl hspec).2 hall
      rw [hp] at hsome
      cases hsome
    obtain ⟨spec, hspec, hid⟩ := List.mem_map.1 hi
    obtain ⟨-, hbinds, -, hnone⟩ := hfails spec hspec hid
    have hbound : Gateway.boundPort os i = none := by
      simp only [os, Actor.reconcile_live g hl]
      refine Gateway.boundPort_failed g _ sess (fun spec hspec hid => ?_) hbinds
      rw [← (hfails spec hspec hid).1, Actor.kept?, Actor.kept?, Actor.listener?_unwanted ha hl,
        if_pos (List.mem_map_of_mem hspec)]
    refine (Agent.lookup_publish_zero _ fun e he hid => ?_).trans hnone
    obtain ⟨spec, hspec, hid, hport⟩ := hentries e he hid
    rw [hport, hbound, Option.getD_none]
    exact (hfails spec hspec hid).2.2.1

theorem Told.handlePropose (h : s.Told) (hs : s.serving = true) (ha : s.gateway.actor.Inv)
    (hl : s.gateway.actor.live s.sess) (hup : s.up = .proposeConfig proposed basis :: fs)
    (hheeds : FrameShows g { s with up := fs } (.proposeConfig proposed basis)) (written : Bool) :
    (s.answered fs
      (g.handleControlMsg s.gateway s.sess written (.proposeConfig proposed basis))).Told := by
  have hcap : s.sess.has capGatewayConfig = true :=
    h.fits (.proposeConfig proposed basis) (List.mem_append_right _ (hup ▸ List.mem_cons_self))
  have hquiet {r : Option GatewayFrame} :
      s.sess.has capGatewayConfig = false → ∀ a ∈ r, a.push? = none :=
    fun hc => absurd (hcap.symm.trans hc) nofun
  simp only [Gateway.handleControlMsg, h.enrolled hcap, hcap, Bool.and_self, if_true]
  cases hd : s.gateway.agents.desiredConfig s.sess.agentID with
  | none =>
    simp only [FrameShows, ProposalShows, hd] at hheeds
    rw [Gateway.adoptProposal_unknown g hd]
    exact h.answer hs hup hquiet fun i hi hw => absurd (hheeds i hi) hw
  | some c =>
    obtain ⟨stored, gen⟩ := c
    simp only [FrameShows, ProposalShows, hd] at hheeds
    by_cases hstale : Gateway.staleBasis s.gateway s.sess gen = true
    · rw [if_pos hstale] at hheeds
      rw [Gateway.adoptProposal_refuses g hd hstale]
      refine h.answer hs hup hquiet fun i hi hw => ?_
      obtain ⟨spec, hspec, rfl⟩ := List.mem_map.1 ((Agent.mem_enabledIDs_push _ _).1 hi)
      obtain ⟨hone, hheld⟩ := (hheeds spec hspec).resolve_left hw
      exact (Agent.port_pushed s.coming hspec hone gen).trans hheld.symm
    · rw [if_neg hstale] at hheeds
      obtain ⟨store, hr, -⟩ := Gateway.adoptProposal_adopts g hd hstale proposed written
      rw [hr]
      refine h.answer hs hup hquiet fun i hi hw => ?_
      have hi : i ∈ (g.validSpecs s.sess.scope proposed).map (·.id) :=
        mem_resolved_ids.1 ((Agent.mem_enabledIDs_push _ _).1 hi)
      refine port_resolved ha hl s.coming (gen + 1) hi fun spec hspec hid => ?_
      exact (hheeds spec hspec).resolve_left (hid.symm ▸ hw)

theorem Told.handle (h : s.Told) (hs : s.serving = true) (ha : s.gateway.actor.Inv)
    (hl : s.gateway.actor.live s.sess) (hup : s.up = f :: fs)
    (hheeds : FrameShows g { s with up := fs } f) (written : Bool) :
    (s.answered fs (g.handleControlMsg s.gateway s.sess written f)).Told := by
  cases f with
  | proposeConfig proposed basis => exact h.handlePropose hs ha hl hup hheeds written
  | configAck ack => exact h.handleAck hs hup written
  | syncTunnels sync => exact h.handleSync hs ha hl hup hheeds written
  | register spec => exact h.handleRegister hs hl hup hheeds written
  | unregister tunnelID => exact h.handleUnregister hs ha hl hup hheeds written

theorem handleControlMsg_reads (c : ControlSession) (f : GatewayFrame) :
    ∃ acking, c.handleControlMsg f =
      { c with agent := c.agent.receive c.syncSeq f, acking := acking } := by
  cases f with
  | pushConfig push => exact ⟨_, rfl⟩
  | syncResult res =>
    refine ⟨c.acking, ?_⟩
    simp only [ControlSession.handleControlMsg, Agent.receive]
    split <;> rfl
  | registerOK | registerErr => exact ⟨c.acking, rfl⟩

theorem Told.move (h : s.Told) (ha : s.gateway.actor.Inv) (hl : s.gateway.actor.live s.sess)
    (hcomposes : l.composes = false) (hm : s.toControlSession.Moves g s.sess l c)
    (hlive : c.gateway.actor.live s.sess) (hheeds : s.LiveHeeds g (.other l)) :
    Told { s with toControlSession := c } := by
  cases hm with
  | connect hidle => exact h.connect ha hl hidle hheeds
  | register => cases hcomposes
  | sendRegistration hreg => exact h.sendRegistration hreg
  | edit => cases hcomposes
  | sendEdit he => exact h.sendEdit he
  | @receive f fs hreg hack hdown =>
    obtain ⟨acking, he⟩ := handleControlMsg_reads { s.toControlSession with down := fs } f
    rw [he]
    refine h.receive hreg hdown (hheeds f ?_) acking
    rw [hdown]
    rfl
  | sendAck => exact h.sendAck _ none
  | @handle f fs written hs hup =>
    have hframe := hheeds f (by rw [hup]; rfl)
    rw [hup] at hframe
    exact h.handle hs ha hl hup hframe written
  | command hby =>
    have hsame := (Gateway.exec_others ha hby hlive).2
    exact h.command fun i => by rw [Actor.listener?, hsame]; rfl

theorem live_of_moves (ha : s.gateway.actor.Inv) (hm : s.toControlSession.Moves g s.sess l c)
    (hcomposes : l.composes = false) (hlive : c.gateway.actor.live s.sess) :
    s.gateway.actor.live s.sess := by
  cases hm with
  | connect =>
    exact (Actor.live_rebinds (Gateway.serveControl_rebinds g s.gateway s.sess)).1 hlive
  | register => cases hcomposes
  | edit => cases hcomposes
  | sendRegistration | sendEdit | sendAck => exact hlive
  | @receive f fs =>
    obtain ⟨acking, he⟩ := handleControlMsg_reads { s.toControlSession with down := fs } f
    rw [he] at hlive
    exact hlive
  | handle => exact (Actor.live_rebinds (Gateway.handleControlMsg_rebinds g _ _ _ _)).1 hlive
  | command hby => exact (Gateway.exec_others ha hby hlive).1

theorem registerSnapshot_gateway (c : ControlSession) (sess : AgentSession)
    (tunnels : List Tunnel) : (c.registerSnapshot sess tunnels).gateway = c.gateway := by
  unfold ControlSession.registerSnapshot
  split
  · split <;> rfl
  · split <;> rfl

theorem Told.composeRegistration (h : s.Told) (hp : s.phase = .serving)
    (hreg : s.registration = none) (hts : s.snapshot = some tunnels)
    (hheeds : s.SeedsLater → ∀ t ∈ tunnels, t.publicPort ≠ 0 → t.id ∈ s.agent.enabledIDs) :
    Told { s with toControlSession := s.registerSnapshot s.sess tunnels, snapshot := none } := by
  by_cases hlater : s.SeedsLater
  · have he : s.registerSnapshot s.sess tunnels = { s.toControlSession with
        agent := s.agent.seedPublicPorts tunnels, registration := some [] } := by
      rw [ControlSession.registerSnapshot, if_pos hlater.1,
        if_neg fun hc => absurd (hlater.2.1.symm.trans hc) Bool.false_ne_true]
    rw [he]
    exact h.seed hp hts hlater (hheeds hlater)
  · refine h.compose hp hreg hts fun hcap => ?_
    by_contra hseed
    exact hlater ⟨hcap, Bool.not_eq_true _ ▸ hseed, hreg⟩

theorem Told.leave (h : s.Told) (los : List Leftover) : Told { s with leftovers := los } := by
  refine ⟨h.enrolled, h.fits, h.quiet, h.greeting, h.idle, h.fresh, h.clean, ?_⟩
  refine h.told.mono fun i _ hw => ⟨fun hc => hw ?_, rfl⟩
  exact hc.mono rfl (fun _ => id) rfl rfl rfl rfl (fun _ hf _ => .inl hf) fun _ hf _ => hf

theorem Inv.other {l : SessionStep} {t : PortRun} (h : s.Inv) (hheeds : s.Heeds g (.other l))
    (ht : s.step g agentID (.other l) = some t) : t.Inv := by
  simp only [PortRun.step] at ht
  split at ht
  · cases ht
  rename_i hcomposes
  have hcomposes : l.composes = false := Bool.not_eq_true _ ▸ hcomposes
  split at ht
  · rename_i hup
    obtain ⟨c, hc, rfl⟩ := Option.map_eq_some_iff.1 ht
    have hm := ControlSession.moves_of_step hc
    refine ⟨ControlSession.step_inv h.actor hc, fun hd => ?_, fun _ hlive => ?_⟩
    · rw [LinkPhase.up, show s.phase = .down from hd] at hup
      rcases hup with hup | hup <;> cases hup
    · have hl := live_of_moves h.actor hm hcomposes hlive
      exact (h.told hup hl).move h.actor hl hcomposes hm hlive (hheeds hl)
  · rename_i hup
    split at ht
    · cases ht
      exact ⟨Gateway.exec_inv g h.actor _, h.cleared, fun hc => absurd hc hup⟩
    · cases ht

theorem Inv.composeEdit {t : PortRun} (h : s.Inv) (hheeds : s.Heeds g .composeEdit)
    (ht : s.step g agentID .composeEdit = some t) : t.Inv := by
  simp only [PortRun.step] at ht
  obtain ⟨⟨old, new⟩, hsw, rfl⟩ := Option.map_eq_some_iff.1 ht
  by_cases hp : s.phase = .serving
  · obtain ⟨fs, seq, he, -⟩ := applySwapped_composes s.toControlSession s.sess old new
    simp only [if_pos hp]
    refine ⟨?_, fun hd => absurd (hp.symm.trans hd) nofun, fun hup hl => ?_⟩
    · rw [he]
      exact h.actor
    · refine (h.told hup ?_).composeEdit hp hsw
      rw [he] at hl
      exact hl
  · simp only [if_neg hp]
    refine ⟨h.actor, h.cleared, fun hup hl => (h.told hup hl).dropEdit ?_ ?_⟩
    · exact hup.resolve_right hp
    · exact fun hc => hheeds hl ⟨hup.resolve_right hp, hc⟩

theorem Inv.step {l : PortStep} {t : PortRun} (h : s.Inv) (hheeds : s.Heeds g l)
    (ht : s.step g agentID l = some t) : t.Inv := by
  cases l with
  | dial sess =>
    simp only [PortRun.step] at ht
    split at ht
    · rename_i hd
      cases ht
      exact h.dial hd.1 hd.2
    · cases ht
  | publish =>
    simp only [PortRun.step] at ht
    split at ht
    · rename_i hp
      cases ht
      exact ⟨h.actor, nofun, fun _ hl => (h.told (.inl hp) hl).publish⟩
    · cases ht
  | snapshot =>
    simp only [PortRun.step] at ht
    split at ht
    · rename_i hp
      cases ht
      exact ⟨h.actor, h.cleared, fun hup hl => (h.told hup hl).snapshot hp.1 hp.2.2⟩
    · cases ht
  | composeRegistration =>
    simp only [PortRun.step] at ht
    split at ht
    · rename_i hp
      obtain ⟨tunnels, hts, rfl⟩ := Option.map_eq_some_iff.1 ht
      have hread : s.registering = tunnels := by rw [registering, hts, Option.getD_some]
      refine ⟨?_, fun hd => absurd (hp.1.symm.trans hd) nofun, fun hup hl => ?_⟩
      · exact (registerSnapshot_gateway s.toControlSession s.sess tunnels).symm ▸ h.actor
      · have hl : s.gateway.actor.live s.sess :=
          registerSnapshot_gateway s.toControlSession s.sess tunnels ▸ hl
        exact (h.told hup hl).composeRegistration hp.1 hp.2 hts fun hlater =>
          hread ▸ hheeds hl hlater
    · cases ht
  | swap set =>
    simp only [PortRun.step] at ht
    split at ht
    · rename_i hsw
      cases ht
      refine ⟨h.actor, fun hp i => ?_, fun hup hl => (h.told hup hl).swap hsw.1 hsw.2 _⟩
      refine (port_swapTunnels s.agent _ i).trans ?_
      rw [h.cleared hp i, ite_self]
    · cases ht
  | composeEdit => exact h.composeEdit hheeds ht
  | other l => exact h.other hheeds ht
  | elsewhere store =>
    cases ht
    exact ⟨h.actor, h.cleared, fun hup hl => (h.told hup hl).command fun _ => rfl⟩
  | hangUp reading =>
    simp only [PortRun.step] at ht
    split at ht
    · cases ht
      exact ⟨h.actor, nofun, fun hup => by rcases hup with hup | hup <;> cases hup⟩
    · cases ht
  | clear =>
    simp only [PortRun.step] at ht
    split at ht
    · cases ht
      exact ⟨h.actor, fun _ _ => rfl, fun hup => by rcases hup with hup | hup <;> cases hup⟩
    · cases ht
  | late k =>
    simp only [PortRun.step] at ht
    obtain ⟨lo, hlo, rfl⟩ := Option.map_eq_some_iff.1 ht
    obtain hp | hsame := hheeds
    · refine ⟨h.actor, fun hd => absurd (hp.symm.trans hd) nofun, fun hup => ?_⟩
      rw [LinkPhase.up, hp] at hup
      rcases hup with hup | hup <;> cases hup
    · rw [hsame lo hlo]
      exact ⟨h.actor, h.cleared, fun hup hl => (h.told hup hl).leave _⟩

theorem start_inv (tunnels : List Tunnel) (gen : Nat) {st : GatewayState} (h : st.actor.Inv) :
    (PortRun.start ⟨tunnels, gen, ∅⟩ st).Inv :=
  ⟨h, fun _ _ => rfl, fun hup => by rcases hup with hup | hup <;> cases hup⟩

end PortRun

end ProxyForward

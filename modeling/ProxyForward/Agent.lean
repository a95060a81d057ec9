import ProxyForward.HashTunnels

namespace ProxyForward
set_option autoImplicit true

structure TunnelOptions where
  minecraftAware : Bool
  proxyProtocolV2 : Bool
  offlineMOTD : String
  bandwidthLimitMbps : Int
  bandwidthLimitScope : String
  deriving DecidableEq, Repr

structure Tunnel where
  id : String
  name : String
  type : String
  localAddr : String
  publicPort : Int
  enabled : Bool
  options : TunnelOptions
  deriving DecidableEq, Repr

/-- The zero value. -/
def Tunnel.zero : Tunnel := ⟨"", "", "", "", 0, false, ⟨false, false, "", 0, ""⟩⟩

/-- A tunnel list as validation lets a user's edit through. -/
structure TunnelSet where
  tunnels : List Tunnel
  distinct : (tunnels.map (·.id)).Nodup
  addressed : ∀ t ∈ tunnels, t.localAddr ≠ ""
  deriving DecidableEq, Repr

/-- The wire spec of a tunnel. The local address and the proxy protocol stay with the agent. -/
def specFromTunnel (t : Tunnel) : TunnelSpec :=
  ⟨t.id, t.name, t.type, t.publicPort, t.options.offlineMOTD, t.options.minecraftAware,
    t.options.bandwidthLimitMbps, t.options.bandwidthLimitScope⟩

def enabledSpecs (tunnels : List Tunnel) : List TunnelSpec :=
  (tunnels.filter (·.enabled)).map specFromTunnel

/-- The tunnels keyed by id; a later one replaces an earlier one. -/
def byID (tunnels : List Tunnel) : GoMap Tunnel :=
  tunnels.foldl (fun m t => m.insert t.id t) ∅

def enabledByID (tunnels : List Tunnel) : GoMap Tunnel := byID (tunnels.filter (·.enabled))

def tunnelChanged (a b : Tunnel) : Bool :=
  a.name ≠ b.name || a.type ≠ b.type || a.localAddr ≠ b.localAddr ||
    a.publicPort ≠ b.publicPort || a.options ≠ b.options

/-- Overwrite what the wire carries, and keep what it does not. -/
def Tunnel.overwrite (t : Tunnel) (spec : TunnelSpec) : Tunnel :=
  { t with
    id := spec.id, name := spec.name, type := spec.type, publicPort := spec.publicPort
    enabled := true
    options := ⟨spec.minecraftAware, t.options.proxyProtocolV2, spec.offlineMOTD,
      spec.bandwidthLimitMbps, spec.bandwidthLimitScope⟩ }

/-- Apply an authoritative set: its specs upsert by id, enabled tunnels it omits are dropped,
disabled drafts stay. -/
def mergeTunnels (existing : List Tunnel) (specs : List TunnelSpec) : List Tunnel :=
  specs.map (fun spec => (((byID existing).lookup spec.id).getD Tunnel.zero).overwrite spec) ++
    existing.filter fun t => !t.enabled && decide (t.id ∉ specs.map (·.id))

/-- The running agent. `publicPorts` holds the confirmed port of each live tunnel. -/
structure Agent where
  tunnels : List Tunnel
  configGen : Nat
  publicPorts : GoMap Int

namespace Agent

def forget (ports : GoMap Int) (ids : List String) : GoMap Int :=
  ids.foldl (fun m i => m.erase i) ports

def publish (ports : GoMap Int) (entries : List (String × Int)) : GoMap Int :=
  entries.foldl (fun m e => if e.2 ≠ 0 then m.insert e.1 e.2 else m) ports

def snapshotTunnels (a : Agent) : List Tunnel := a.tunnels.filter (·.enabled)

/-- The agent's enabled specs are, as a set, those. -/
def Has (agent : Agent) (specs : List TunnelSpec) : Prop :=
  ∀ spec, spec ∈ enabledSpecs agent.tunnels ↔ spec ∈ specs

/-- The agent's config view for a hello. -/
def configState (env : Env) (a : Agent) : String × Nat :=
  (hashTunnels env (enabledSpecs a.snapshotTunnels), a.configGen)

def seedPublicPorts (a : Agent) (tunnels : List Tunnel) : Agent :=
  { a with publicPorts :=
      publish a.publicPorts ((tunnels.filter (·.enabled)).map fun t => (t.id, t.publicPort)) }

/-- The part of `ApplyTunnels` that needs no session. -/
def swapTunnels (a : Agent) (tunnels : List Tunnel) : Agent :=
  { a with
    tunnels := tunnels
    publicPorts := forget a.publicPorts
      ((enabledByID a.tunnels).keys.filter fun i => i ∉ (enabledByID tunnels).keys) }

def applyPushedConfig (a : Agent) (specs : List TunnelSpec) (generation : Nat) : Agent where
  tunnels := mergeTunnels a.tunnels specs
  configGen := generation
  publicPorts := forget (publish a.publicPorts (specs.map fun spec => (spec.id, spec.publicPort)))
    ((a.snapshotTunnels.map (·.id)).filter fun i => i ∉ specs.map (·.id))

end Agent

theorem lookup_foldl_insert (l : List Tunnel) (m : GoMap Tunnel) (i : String) :
    (l.foldl (fun m t => m.insert t.id t) m).lookup i =
      (l.reverse.find? fun t => t.id = i).or (m.lookup i) := by
  induction l generalizing m with
  | nil => rfl
  | cons t l ih =>
    rw [List.foldl_cons, ih, List.reverse_cons, List.find?_append, List.find?_singleton,
      Option.or_assoc]
    congr 1
    by_cases h : t.id = i
    · simp only [h, decide_true, if_true, Option.some_or]
      rw [← h, AList.lookup_insert]
    · simp only [h, decide_false, Bool.false_eq_true, if_false, Option.none_or]
      exact AList.lookup_insert_ne (Ne.symm h)

theorem lookup_byID (tunnels : List Tunnel) (i : String) :
    (byID tunnels).lookup i = tunnels.reverse.find? fun t => t.id = i := by
  rw [byID, lookup_foldl_insert]
  exact Option.or_none

theorem lookup_byID_mem (h : (byID tunnels).lookup i = some t) : t ∈ tunnels ∧ t.id = i := by
  rw [lookup_byID] at h
  exact ⟨List.mem_reverse.1 (List.mem_of_find?_eq_some h), by simpa using List.find?_some h⟩

theorem lookup_byID_none : (byID tunnels).lookup i = none ↔ ∀ t ∈ tunnels, t.id ≠ i := by
  rw [lookup_byID]
  simp only [List.find?_eq_none, List.mem_reverse, decide_eq_true_eq, ne_eq]

theorem exists_lookup_byID {tunnels : List Tunnel} (h : t ∈ tunnels) :
    ∃ u, (byID tunnels).lookup t.id = some u := by
  rw [← Option.ne_none_iff_exists', ne_eq, lookup_byID_none]
  exact fun hc => hc t h rfl

/-- Merging leaves exactly the pushed set enabled. -/
theorem enabledSpecs_mergeTunnels (existing : List Tunnel) (specs : List TunnelSpec) :
    enabledSpecs (mergeTunnels existing specs) = specs := by
  have hon : ∀ t ∈ specs.map fun spec =>
      (((byID existing).lookup spec.id).getD Tunnel.zero).overwrite spec, t.enabled = true := by
    intro t ht
    obtain ⟨spec, -, rfl⟩ := List.mem_map.1 ht
    rfl
  have hoff : (existing.filter fun t => !t.enabled && decide (t.id ∉ specs.map (·.id))).filter
      (·.enabled) = [] := by
    rw [List.filter_eq_nil_iff]
    intro t ht he
    have hd := List.of_mem_filter ht
    rw [he] at hd
    cases hd
  rw [enabledSpecs, mergeTunnels, List.filter_append, List.filter_eq_self.2 hon, hoff,
    List.append_nil, List.map_map]
  exact List.map_id _

theorem enabledSpecs_snapshotTunnels (a : Agent) :
    enabledSpecs a.snapshotTunnels = enabledSpecs a.tunnels := by
  rw [enabledSpecs, Agent.snapshotTunnels, List.filter_filter, enabledSpecs]
  simp only [Bool.and_self]

end ProxyForward

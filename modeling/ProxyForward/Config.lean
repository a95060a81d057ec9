import ProxyForward.Agent

namespace ProxyForward
set_option autoImplicit true

def roleUnset : String := ""
def roleAgent : String := "agent"
def roleGateway : String := "gateway"

def transportMux : String := "mux"
def transportPerConn : String := "per-conn"
def transportQUIC : String := "quic"
def transportAuto : String := "auto"

def tunnelUDP : String := "udp"

def bandwidthScopeCombined : String := "combined"
def bandwidthScopePerDirection : String := "per-direction"
def bandwidthScopePerConnection : String := "per-connection"

structure AgentConfig where
  agentID : String
  gatewayHost : String
  gatewayPort : Int
  token : String
  certFingerprint : String
  transport : String
  tunnels : List Tunnel
  enrollTicket : String
  deriving DecidableEq, Repr

/-- The gateway section with the fields that only its validation reads. -/
structure GatewaySection extends GatewayConfig where
  controlPort : Int
  token : String
  maxConnsGlobal : Int
  maxConnsPerIP : Int
  authAttemptsPerMin : Int
  deriving DecidableEq, Repr

structure MetricsConfig where
  prometheusEnabled : Bool
  prometheusAddr : String
  deriving DecidableEq, Repr

structure AnalyticsConfig where
  retentionDays : Int
  geoIPCityPath : String
  geoIPASNPath : String
  deriving DecidableEq, Repr

structure Config where
  role : String
  agent : AgentConfig
  gateway : GatewaySection
  metrics : MetricsConfig
  loggingLevel : String
  uiTheme : String
  analytics : AnalyticsConfig
  deriving DecidableEq, Repr

/-- What the checks ask of the standard library and the operating system. -/
structure Platform where
  isPrint : Char → Bool
  isIP : String → Bool
  isPathSeparator : Char → Bool

def addrError (addr why : String) : String :=
  if addr = "" then why else "address " ++ addr ++ ": " ++ why

/-- The host and the port of an address; a host with colons stands in brackets. -/
def splitHostPort (hostport : String) : Except String (String × String) :=
  let cs := hostport.toList
  let port := (cs.reverse.takeWhile (· ≠ ':')).reverse
  match cs.reverse.dropWhile (· ≠ ':') with
  | [] => .error (addrError hostport "missing port in address")
  | _ :: before =>
    if cs.head? = some '[' then
      let host := (cs.drop 1).takeWhile (· ≠ ']')
      match cs.dropWhile (· ≠ ']') with
      | [] => .error (addrError hostport "missing ']' in address")
      | _ :: rest =>
        if rest = [] then .error (addrError hostport "missing port in address")
        else if rest ≠ ':' :: port then
          if rest.head? = some ':' then .error (addrError hostport "too many colons in address")
          else .error (addrError hostport "missing port in address")
        else if '[' ∈ cs.drop 1 then .error (addrError hostport "unexpected '[' in address")
        else if ']' ∈ rest then .error (addrError hostport "unexpected ']' in address")
        else .ok (String.ofList host, String.ofList port)
    else if ':' ∈ before then .error (addrError hostport "too many colons in address")
    else if '[' ∈ cs then .error (addrError hostport "unexpected '[' in address")
    else if ']' ∈ cs then .error (addrError hostport "unexpected ']' in address")
    else .ok (String.ofList before.reverse, String.ofList port)

def digits? (cs : List Char) : Option Int :=
  if cs = [] ∨ ¬cs.all Char.isDigit then none
  else some (cs.foldl (fun n c => 10 * n + (c.toNat - 48 : Nat)) 0)

/-- A decimal number with an optional sign, in 64 bits. -/
def atoi (s : String) : Option Int :=
  let n := match s.toList with
    | '-' :: cs => (digits? cs).map fun n => -n
    | '+' :: cs => digits? cs
    | cs => digits? cs
  n.filter fun n => -9223372036854775808 ≤ n ∧ n ≤ 9223372036854775807

/-- The part of a file name from its last dot on. -/
def fileExt (pf : Platform) (path : String) : List Char :=
  let name := path.toList.reverse.takeWhile fun c => !pf.isPathSeparator c
  if '.' ∈ name then '.' :: (name.takeWhile (· ≠ '.')).reverse else []

def validPort (p : Int) : Option String :=
  if p < 1 ∨ 65535 < p then some ("port must be 1-65535, got " ++ toString p) else none

def validBandwidthScope (s : String) : Bool :=
  s ∈ ["", bandwidthScopeCombined, bandwidthScopePerDirection, bandwidthScopePerConnection]

/-- A text when the check fails. -/
def check (failed : Prop) [Decidable failed] (text : String) : List String :=
  if failed then [text] else []

/-- The errors that `label` gives to those of a nested check. -/
def wrap (label : String) (err : Option String) : List String :=
  (err.map fun text => label ++ ": " ++ text).toList

def portKey (t : Tunnel) : String := t.type ++ "/" ++ toString t.publicPort

/-- The checks of one tunnel, given the ids before it and the ports of the enabled ones. -/
def validateTunnel (pf : Platform) (i : Nat) (seenID seenPort : List String) (t : Tunnel) :
    List String :=
  let q := quote pf.isPrint
  let at_ := "agent.tunnels[" ++ toString i ++ "] (" ++ t.name ++ ")"
  (if t.id = "" then [at_ ++ ": id required"]
    else check (t.id ∈ seenID) (at_ ++ ": duplicate tunnel id " ++ q t.id)) ++
  check (t.type ≠ tunnelTCP ∧ t.type ≠ tunnelUDP)
    (at_ ++ ": type: must be " ++ q tunnelTCP ++ " or " ++ q tunnelUDP ++ ", got " ++ q t.type) ++
  (match splitHostPort t.localAddr with
    | .error err => [at_ ++ ": local_addr: " ++ err]
    | .ok (_, port) => check (¬(atoi port).any fun p => (validPort p).isNone)
      (at_ ++ ": local_addr: invalid port " ++ q port)) ++
  (match validPort t.publicPort with
    | some err => [at_ ++ ": public_port: " ++ err]
    | none => check (t.enabled ∧ portKey t ∈ seenPort)
      (at_ ++ ": public_port " ++ toString t.publicPort ++ " already used by another enabled " ++
        t.type ++ " tunnel")) ++
  (if t.type = tunnelUDP then
      check t.options.minecraftAware (at_ ++ ": options.minecraft_aware: not supported on udp " ++
        "tunnels (the Java status protocol is TCP)") ++
      check t.options.proxyProtocolV2 (at_ ++ ": options.proxy_protocol_v2: not supported on " ++
        "udp tunnels (PP2 is a stream preamble)") ++
      check (t.options.offlineMOTD ≠ "") (at_ ++ ": options.offline_motd: not supported on udp " ++
        "tunnels (status pings are TCP)")
    else []) ++
  if t.options.bandwidthLimitMbps < 0 then [at_ ++ ": bandwidth_limit_mbps: must be >= 0"]
  else check (0 < t.options.bandwidthLimitMbps ∧
      ¬validBandwidthScope t.options.bandwidthLimitScope)
    (at_ ++ ": bandwidth_limit_scope: must be " ++ q bandwidthScopeCombined ++ ", " ++
      q bandwidthScopePerDirection ++ ", or " ++ q bandwidthScopePerConnection ++ " (empty = " ++
      q bandwidthScopeCombined ++ "), got " ++ q t.options.bandwidthLimitScope)

def validateTunnels (pf : Platform) (i : Nat) (seenID seenPort : List String) :
    List Tunnel → List String
  | [] => []
  | t :: ts =>
    validateTunnel pf i seenID seenPort t ++
      validateTunnels pf (i + 1) (t.id :: seenID)
        (if t.enabled then portKey t :: seenPort else seenPort) ts

def validateAgent (pf : Platform) (a : AgentConfig) : List String :=
  let q := quote pf.isPrint
  check (a.gatewayHost = "") "agent.gateway_host: required (pair with a gateway first)" ++
  wrap "agent.gateway_port" (validPort a.gatewayPort) ++
  check (a.token = "") "agent.token: required (pair with a gateway first)" ++
  check (a.certFingerprint ≠ "" ∧ ¬"sha256:".toList.isPrefixOf a.certFingerprint.toList)
    ("agent.cert_fingerprint: must start with \"sha256:\", got " ++ q a.certFingerprint) ++
  check (a.transport ∉ [transportMux, transportPerConn, transportQUIC, transportAuto])
    ("agent.transport: must be one of " ++ q transportAuto ++ ", " ++ q transportQUIC ++ ", " ++
      q transportPerConn ++ ", " ++ q transportMux ++ ", got " ++ q a.transport) ++
  validateTunnels pf 0 [] [] a.tunnels

def validateGateway (pf : Platform) (g : GatewaySection) : List String :=
  wrap "gateway.control_port" (validPort g.controlPort) ++
  check (g.bindAddr ≠ "" ∧ ¬pf.isIP g.bindAddr)
    ("gateway.bind_addr: not an IP address: " ++ quote pf.isPrint g.bindAddr) ++
  check (g.token = "") "gateway.token: required (generated on first gateway start)" ++
  g.portAllowlist.flatMap (fun p => wrap "gateway.port_allowlist" (validPort p)) ++
  check (g.maxConnsGlobal < 1) "gateway.max_conns_global: must be >= 1" ++
  check (g.maxConnsPerIP < 1) "gateway.max_conns_per_ip: must be >= 1" ++
  check (g.authAttemptsPerMin < 1) "gateway.auth_attempts_per_min: must be >= 1"

namespace Config

/-- The errors of a config, each naming the key it is about. The two roles' sections are checked for
their role only. -/
def validate (pf : Platform) (c : Config) : List String :=
  let q := quote pf.isPrint
  check (c.role ∉ [roleUnset, roleAgent, roleGateway])
    ("role: must be " ++ q roleAgent ++ " or " ++ q roleGateway ++ ", got " ++ q c.role) ++
  (if c.role = roleAgent then validateAgent pf c.agent else []) ++
  (if c.role = roleGateway then validateGateway pf c.gateway else []) ++
  check (c.loggingLevel ∉ ["debug", "info", "warn", "error"])
    ("logging.level: unknown level " ++ q c.loggingLevel) ++
  check (c.uiTheme ∉ ["dark", "light", "system"])
    ("ui.theme: must be dark, light or system, got " ++ q c.uiTheme) ++
  (if c.metrics.prometheusEnabled then
    match splitHostPort c.metrics.prometheusAddr with
    | .error err => ["metrics.prometheus_addr: " ++ err]
    | .ok _ => []
    else []) ++
  check (c.analytics.retentionDays < 1 ∨ 3650 < c.analytics.retentionDays)
    ("analytics.retention_days: must be 1-3650, got " ++ toString c.analytics.retentionDays) ++
  [("analytics.geoip_city_path", c.analytics.geoIPCityPath),
    ("analytics.geoip_asn_path", c.analytics.geoIPASNPath)].flatMap fun g =>
      check (g.2 ≠ "" ∧ (fileExt pf g.2).map Char.toLower ≠ ".mmdb".toList)
        (g.1 ++ ": expected a .mmdb file, got " ++ quote pf.isPrint g.2)

/-- The joined errors of a config that fails validation. -/
def validationError (pf : Platform) (c : Config) : Option String :=
  match c.validate pf with
  | [] => none
  | errs => some ("\n".intercalate errs)

/-- Save a config. `ioError` is what the file system answers. -/
def save (pf : Platform) (c : Config) (ioError : Option String) : Option String :=
  match c.validationError pf with
  | some err => some ("refusing to save invalid config: " ++ err)
  | none => ioError

def withTunnels (c : Config) (tunnels : List Tunnel) : Config :=
  { c with agent := { c.agent with tunnels := tunnels } }

end Config

theorem check_eq_nil {failed : Prop} [Decidable failed] :
    check failed text = [] ↔ ¬failed := by
  rw [check, ite_eq_right_iff]
  exact ⟨fun h hf => List.cons_ne_nil _ _ (h hf), fun h hf => absurd hf h⟩

theorem splitHostPort_empty : splitHostPort "" = .error "missing port in address" := by decide

theorem validateTunnel_ok (h : validateTunnel pf i seenID seenPort t = []) :
    t.id ∉ seenID ∧ t.localAddr ≠ "" := by
  simp only [validateTunnel, List.append_eq_nil_iff] at h
  obtain ⟨⟨⟨⟨⟨hid, -⟩, haddr⟩, -⟩, -⟩, -⟩ := h
  constructor
  · split at hid
    · cases hid
    · exact check_eq_nil.1 hid
  · intro hempty
    rw [hempty, splitHostPort_empty] at haddr
    cases haddr

theorem validateTunnels_ok (h : validateTunnels pf i seenID seenPort ts = []) :
    (ts.map (·.id)).Nodup ∧ (∀ t ∈ ts, t.id ∉ seenID) ∧ ∀ t ∈ ts, t.localAddr ≠ "" := by
  induction ts generalizing i seenID seenPort with
  | nil => exact ⟨List.nodup_nil, nofun, nofun⟩
  | cons t ts ih =>
    obtain ⟨ht, hts⟩ := List.append_eq_nil_iff.1 h
    obtain ⟨hid, haddr⟩ := validateTunnel_ok ht
    obtain ⟨hnodup, hseen, haddrs⟩ := ih hts
    refine ⟨List.nodup_cons.2 ⟨?_, hnodup⟩, List.forall_mem_cons.2 ⟨hid, ?_⟩,
      List.forall_mem_cons.2 ⟨haddr, haddrs⟩⟩
    · intro hmem
      obtain ⟨t', ht', heq⟩ := List.mem_map.1 hmem
      exact hseen t' ht' (heq ▸ List.mem_cons_self)
    · exact fun t' ht' hmem => hseen t' ht' (List.mem_cons_of_mem _ hmem)

/-- The tunnels of a valid agent config, as the edits of a session take them. -/
def Config.tunnelSet (pf : Platform) (c : Config) (hrole : c.role = roleAgent)
    (hvalid : c.validate pf = []) : TunnelSet :=
  have htunnels : validateTunnels pf 0 [] [] c.agent.tunnels = [] := by
    simp only [Config.validate, hrole, if_true, validateAgent, List.append_eq_nil_iff] at hvalid
    exact hvalid.1.1.1.1.1.1.2.2
  ⟨c.agent.tunnels, (validateTunnels_ok htunnels).1, (validateTunnels_ok htunnels).2.2⟩

end ProxyForward

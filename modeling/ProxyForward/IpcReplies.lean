import ProxyForward.IpcWidths

namespace ProxyForward.Ipc
open JsonText Stats
set_option autoImplicit true

namespace Engine

/-- Whether a peer was seen after another, or at the same time from a smaller address. -/
def seenAfter (q p : PeerStat) : Bool :=
  p.lastSeen < q.lastSeen ∨ p.lastSeen = q.lastSeen ∧ q.ip < p.ip

/-- The peers that fewer than 300 others were seen after. -/
def recentPeers (e : Engine) : List PeerStat :=
  e.peers.filter fun p => e.peers.countP (seenAfter · p) < maxPeersReturned

end Engine

section
variable (float : Rat → List Char)

/-- The fields of a status that do not depend on what runs. -/
def Engine.ownWidth (e : Engine) : Nat :=
  fieldWidth "role" (quoted e.role) + fieldWidth "version" (quoted e.version) +
    fieldWidth "pid" (digits e.pid) +
    optionalWidth (e.localHostname = "") "localHostname" (quoted e.localHostname) +
    optionalWidth (e.localLANIPs = []) "localLanIps" (stringsWidth e.localLANIPs) +
    fieldWidth "processStartMs" (digits e.processStartMs) +
    fieldWidth "allTimeBytesIn" (digits e.allTimeBytesIn) +
    fieldWidth "allTimeBytesOut" (digits e.allTimeBytesOut) +
    fieldWidth "cumulativeUptimeMs" (digits e.cumulativeUptimeMs) +
    fieldWidth "linkSessions" (digits e.linkSessions) +
    optionalWidth (e.configPath = "") "configPath" (quoted e.configPath)

/-- The newest 150 connections, and their number. -/
def connsWidth (conns : List Snapshot) : Nat :=
  rowsWidth "connections"
      ((conns.drop (conns.length - maxStatusConns)).map (Snapshot.width float)) +
    optionalWidth (conns.length ≤ maxStatusConns) "connectionsTruncated" 4 +
    optionalWidth (conns = []) "connectionsTotal" (digits conns.length)

/-- Bytes of all connections and of the link, and since when it is up. -/
def trafficWidth (totals link : Int × Int) (sinceMs : Int) : Nat :=
  fieldWidth "totalBytesIn" (digits totals.1) + fieldWidth "totalBytesOut" (digits totals.2) +
    fieldWidth "linkUpSinceMs" (digits sinceMs) + fieldWidth "linkBytesIn" (digits link.1) +
    fieldWidth "linkBytesOut" (digits link.2)

/-- Jitter, loss and the verdict on the link. -/
def healthWidth (jitterMillis packetLossPct : Rat) (verdict : String) : Nat :=
  fieldWidth "jitterMillis" (size (float jitterMillis)) +
    fieldWidth "packetLossPct" (size (float packetLossPct)) +
    fieldWidth "healthScore" (quoted verdict)

/-- The fields of a running agent, with a row for each of its tunnels. -/
def AgentSide.width (a : AgentSide) (nowMs : Int) : Nat :=
  optionalWidth (!a.linkUp) "linkUp" 4 +
    optionalWidth (a.rttMillis = 0) "rttMillis" (digits a.rttMillis) +
    optionalWidth (a.activeTransport = "") "transport" (quoted a.activeTransport) +
    healthWidth float a.jitterMillis a.packetLossPct
      (healthScore nowMs a.linkUp a.jitterMillis a.packetLossPct a.linkUpSinceMs) +
    optionalWidth (a.peerHostname = "") "peerHostname" (quoted a.peerHostname) +
    optionalWidth (a.peerLANIPs = []) "peerLanIps" (stringsWidth a.peerLANIPs) +
    optionalWidth (a.observedIP = "") "publicIp" (quoted a.observedIP) +
    optionalWidth (a.gatewayHost = "") "peerPublicIp" (quoted a.gatewayHost) +
    fieldWidth "peerAddr" (quoted (joinHostPort a.gatewayHost a.gatewayPort)) +
    trafficWidth a.totals a.linkSessionBytes a.linkUpSinceMs +
    rowsWidth "tunnels" (a.tunnels.map fun t => t.status.width) + connsWidth float a.conns

/-- The fields of a running gateway, with a row for each of its tunnels and for the first 24 of its
agents. -/
def GatewaySide.width (g : GatewaySide) (nowMs : Int) : Nat :=
  optionalWidth (!g.agentConnected || g.rttMillis = 0) "rttMillis" (digits g.rttMillis) +
    healthWidth float (if g.agentConnected then g.jitterMillis else -1)
      (if g.agentConnected then g.packetLossPct else -1)
      (healthScore nowMs g.agentConnected g.jitterMillis g.packetLossPct g.agentLinkUpSinceMs) +
    optionalWidth (g.agentHostname = "") "peerHostname" (quoted g.agentHostname) +
    optionalWidth (g.agentLANIPs = []) "peerLanIps" (stringsWidth g.agentLANIPs) +
    optionalWidth (g.publicHost = "") "publicIp" (quoted g.publicHost) +
    optionalWidth (g.agentRemoteIP = "") "peerPublicIp" (quoted g.agentRemoteIP) +
    optionalWidth (!g.agentConnected) "agentConnected" 4 +
    optionalWidth (g.agentRemoteIP = "") "peerAddr" (quoted g.agentRemoteIP) +
    trafficWidth g.totals g.linkSessionBytes g.agentLinkUpSinceMs +
    rowsWidth "agents" ((g.agents.take maxStatusAgents).map fun ag => ag.width float nowMs
      (g.tunnels.filter fun t => t.agentID = ag.agentID).length (g.players ag.agentID)) +
    rowsWidth "tunnels" (g.tunnels.map TunnelStatus.width) + connsWidth float g.conns

def Engine.statusWidth (e : Engine) (nowMs : Int) : Nat :=
  1 + e.ownWidth +
    match e.side with
    | .idle => healthWidth float (-1) (-1) "unknown" + trafficWidth (0, 0) (0, 0) 0
    | .agent a => a.width float nowMs
    | .gateway g => g.width float nowMs

/-- A history of buckets with these widths. -/
def resultWidth (windowMs bucketMs : Int) (buckets : List Nat) : Nat :=
  1 + fieldWidth "windowMs" (digits windowMs) + fieldWidth "bucketMs" (digits bucketMs) +
    fieldWidth "buckets" (arrayWidth buckets)

/-- The groups that the window's data falls in, each as the bytes that its sums, first opens,
greatest highs, least lows and last closes print to. -/
def historyWidth (h : History) (nowMs : Nat) (windowMs maxBuckets : Int) : Nat :=
  match h.choose nowMs windowMs with
  | none => resultWidth 0 0 []
  | some c =>
    let k := c.groupWidth (clampBuckets maxBuckets)
    resultWidth c.windowMs (k * c.ring.resMs)
      ((c.groupKeys k.toNat).map fun g => bucketWidth float (c.groupBucket k.toNat g))

/-- What the engine has leaves room for a reply of at most 64 KiB, and a history's window does not
go back behind the epoch. -/
def Cycle.Fits (c : Cycle) : Prop :=
  match c.request with
  | .status => 34 + c.engine.statusWidth float c.nowMs ≤ maxFrame
  | .history windowMs maxBuckets =>
    (∀ w ∈ c.engine.history.choose c.nowMs windowMs, w.AfterEpoch) ∧
      35 + historyWidth float c.engine.history c.nowMs windowMs (min maxBuckets maxIPCEntries) ≤
        maxFrame
  | .peers =>
    34 + fieldWidth "peers" (arrayWidth (c.engine.recentPeers.map PeerStat.width)) ≤ maxFrame

end

section

variable {α : Type} {le : α → α → Bool} {l : List α} {n : Nat}

theorem take_eq_filter (h : l.Pairwise fun a b => le a b = true ∧ le b a = false)
    (hrefl : ∀ a, le a a = true) :
    l.take n = l.filter fun p => l.countP (fun q => !le p q) < n := by
  have hsplit := List.take_append_drop n l
  have hpair := hsplit.symm ▸ h
  obtain ⟨-, -, hcross⟩ := List.pairwise_append.1 hpair
  have hcount (p : α) : l.countP (fun q => !le p q) =
      (l.take n).countP (fun q => !le p q) + (l.drop n).countP (fun q => !le p q) := by
    rw [← List.countP_append, hsplit]
  have hfront : (l.take n).filter (fun p => l.countP (fun q => !le p q) < n) = l.take n := by
    refine List.filter_eq_self.2 fun p hp => decide_eq_true ?_
    have hlater : (l.drop n).countP (fun q => !le p q) = 0 :=
      List.countP_eq_zero.2 fun q hq => by rw [(hcross p hp q hq).1]; decide
    have hself : (l.take n).countP (fun q => !le p q) < (l.take n).length := by
      refine lt_of_le_of_ne List.countP_le_length fun hc => ?_
      have hall := List.countP_eq_length.1 hc p hp
      rw [hrefl] at hall
      cases hall
    have hlen : (l.take n).length ≤ n := List.length_take_le n l
    rw [hcount, hlater]
    omega
  have hback : (l.drop n).filter (fun p => l.countP (fun q => !le p q) < n) = [] := by
    refine List.filter_eq_nil_iff.2 fun p hp hc => ?_
    have hearlier : (l.take n).countP (fun q => !le p q) = (l.take n).length :=
      List.countP_eq_length.2 fun q hq => by rw [(hcross q hq p hp).2]; rfl
    have hlen : (l.take n).length = n := by
      rw [List.length_take]
      have hdrop := List.length_pos_of_mem hp
      rw [List.length_drop] at hdrop
      omega
    have hlt := of_decide_eq_true hc
    rw [hcount, hearlier] at hlt
    omega
  calc l.take n = (l.take n).filter (fun p => l.countP (fun q => !le p q) < n) ++
        (l.drop n).filter (fun p => l.countP (fun q => !le p q) < n) := by
        rw [hfront, hback, List.append_nil]
    _ = l.filter fun p => l.countP (fun q => !le p q) < n := by
        rw [← List.filter_append, hsplit]

end

namespace PeerStat

/-- Newest first, and by address for one time. -/
def ahead (p q : PeerStat) : Bool :=
  if p.lastSeen ≠ q.lastSeen then decide (q.lastSeen < p.lastSeen) else decide (p.ip ≤ q.ip)

variable {p q : PeerStat}

theorem ahead_iff :
    p.ahead q = true ↔ q.lastSeen < p.lastSeen ∨ q.lastSeen = p.lastSeen ∧ p.ip ≤ q.ip := by
  by_cases heq : p.lastSeen = q.lastSeen
  · simp only [ahead, heq, ne_eq, not_true_eq_false, if_false, decide_eq_true_eq, lt_irrefl,
      true_and, false_or]
  · have hne : ¬q.lastSeen = p.lastSeen := fun hc => heq hc.symm
    simp only [ahead, heq, hne, ne_eq, not_false_eq_true, if_true, decide_eq_true_eq, false_and,
      or_false]

theorem not_ahead (p q : PeerStat) : (!p.ahead q) = Engine.seenAfter q p := by
  rw [Bool.eq_iff_iff, Bool.not_eq_true', ← Bool.not_eq_true, ahead_iff]
  simp only [Engine.seenAfter, decide_eq_true_eq, not_or, not_lt, not_and, not_le]
  constructor
  · rintro ⟨hseen, hip⟩
    obtain hlt | heq := lt_or_eq_of_le hseen
    · exact .inl hlt
    · exact .inr ⟨heq, hip heq.symm⟩
  · rintro (hlt | ⟨heq, hip⟩)
    · exact ⟨hlt.le, fun hc => absurd hc hlt.ne'⟩
    · exact ⟨heq.le, fun _ => hip⟩

theorem ahead_trans (p q r : PeerStat) (hpq : p.ahead q = true) (hqr : q.ahead r = true) :
    p.ahead r = true := by
  rw [ahead_iff] at hpq hqr ⊢
  obtain hpq | ⟨hpq, hip⟩ := hpq
  · obtain hqr | ⟨hqr, -⟩ := hqr
    · exact .inl (hqr.trans hpq)
    · exact .inl (hqr.trans_lt hpq)
  · obtain hqr | ⟨hqr, hip'⟩ := hqr
    · exact .inl (hqr.trans_eq hpq)
    · exact .inr ⟨hqr.trans hpq, hip.trans hip'⟩

theorem ahead_total (p q : PeerStat) : (p.ahead q || q.ahead p) = true := by
  rw [Bool.or_eq_true, ahead_iff, ahead_iff]
  obtain hlt | heq | hgt := lt_trichotomy p.lastSeen q.lastSeen
  · exact .inr (.inl hlt)
  · exact (le_total p.ip q.ip).imp (fun h => .inr ⟨heq.symm, h⟩) fun h => .inr ⟨heq, h⟩
  · exact .inl (.inl hgt)

theorem ip_eq_of_ahead (hpq : p.ahead q = true) (hqp : q.ahead p = true) : p.ip = q.ip := by
  rw [ahead_iff] at hpq hqp
  obtain hpq | ⟨heq, hpq⟩ := hpq
  · obtain hqp | ⟨heq, -⟩ := hqp
    · exact absurd hqp hpq.asymm
    · exact absurd heq hpq.ne'
  · obtain hqp | ⟨-, hqp⟩ := hqp
    · exact absurd heq hqp.ne'
    · exact le_antisymm hpq hqp

end PeerStat

namespace Engine

theorem Peers_perm (e : Engine) : e.Peers.Perm e.recentPeers := by
  have hperm := List.mergeSort_perm e.peers PeerStat.ahead
  have hdistinct : ((e.peers.mergeSort PeerStat.ahead).map PeerStat.ip).Nodup :=
    (hperm.map _).nodup_iff.2 e.distinct
  have hsorted : (e.peers.mergeSort PeerStat.ahead).Pairwise fun p q =>
      p.ahead q = true ∧ q.ahead p = false := by
    refine ((List.pairwise_mergeSort PeerStat.ahead_trans PeerStat.ahead_total
      e.peers).and (List.pairwise_map.1 hdistinct)).imp fun {p q} h => ⟨h.1, ?_⟩
    obtain ⟨hpq, hip⟩ := h
    exact Bool.eq_false_iff.2 fun hqp => hip (PeerStat.ip_eq_of_ahead hpq hqp)
  have htake : e.Peers = (e.peers.mergeSort PeerStat.ahead).filter fun p =>
      (e.peers.mergeSort PeerStat.ahead).countP (fun q => !p.ahead q) < maxPeersReturned :=
    take_eq_filter hsorted fun p => PeerStat.ahead_iff.2 (.inr ⟨rfl, le_rfl⟩)
  rw [htake, recentPeers]
  simp only [PeerStat.not_ahead, hperm.countP_eq]
  exact hperm.filter _

theorem setStatusConns_eq (h : st.connectionsTruncated = false) (snaps : List Snapshot) :
    setStatusConns st snaps =
      { st with
        connections := snaps.drop (snaps.length - maxStatusConns)
        connectionsTruncated := maxStatusConns < snaps.length
        connectionsTotal := snaps.length } := by
  unfold setStatusConns
  by_cases hlong : maxStatusConns < snaps.length
  · rw [if_pos hlong, decide_eq_true hlong]
  · have hall : snaps.length - maxStatusConns = 0 := Nat.sub_eq_zero_of_le (not_lt.1 hlong)
    rw [if_neg hlong, decide_eq_false hlong, hall, List.drop_zero, ← h]

end Engine

theorem optionalWidth_flag (b : Bool) (name : String) :
    optionalWidth (!b) name (if b then 4 else 5) = optionalWidth (!b) name 4 := by
  cases b <;> rfl

theorem joinHostPort_ne (host : String) (port : Int) : joinHostPort host port ≠ "" := by
  intro hc
  have hnil := congrArg String.toList hc
  simp only [joinHostPort, String.toList_append] at hnil
  have hcolon : (":" : String).toList = [':'] := rfl
  rw [hcolon] at hnil
  simp at hnil

theorem healthScore_ne (nowMs : Int) (up : Bool) (jitterMs lossPct : Rat) (sinceMs : Int) :
    healthScore nowMs up jitterMs lossPct sinceMs ≠ "" := by
  unfold healthScore
  dsimp only
  split_ifs <;> simp only [ne_eq, String.reduceEq, not_false_eq_true]

theorem weight_conns (float : Rat → List Char) (st : Status) (conns : List Snapshot)
    (hrows : st.connections = conns.drop (conns.length - maxStatusConns))
    (htruncated : st.connectionsTruncated = decide (maxStatusConns < conns.length))
    (htotal : st.connectionsTotal = conns.length) :
    weight (rows "connections" (st.connections.map (Snapshot.text float))) +
        weight (omitting (!st.connectionsTruncated)
          (field "connectionsTruncated" (jsonBool st.connectionsTruncated))) +
        weight (omitting (st.connectionsTotal = 0)
          (field "connectionsTotal" (jsonInt st.connectionsTotal))) = connsWidth float conns := by
  have hempty : decide (st.connectionsTotal = 0) = decide (conns = []) := by
    rw [htotal]
    simp
  have hshort : (!decide (maxStatusConns < conns.length)) =
      decide (conns.length ≤ maxStatusConns) := by
    rw [← decide_not]
    simp only [not_lt]
  rw [weight_rows (size_snapshot float), weight_omitting, weight_omitting, size_jsonBool,
    optionalWidth_flag, size_jsonInt, hempty, hrows, htruncated, hshort, htotal]
  rfl

theorem size_text (float : Rat → List Char) (st : Status) (conns : List Snapshot)
    (hrows : st.connections = conns.drop (conns.length - maxStatusConns))
    (htruncated : st.connectionsTruncated = decide (maxStatusConns < conns.length))
    (htotal : st.connectionsTotal = conns.length) :
    size (st.text float) = 1 +
      (fieldWidth "role" (quoted st.role) + fieldWidth "version" (quoted st.version) +
        fieldWidth "pid" (digits st.pid) +
        optionalWidth (st.localHostname = "") "localHostname" (quoted st.localHostname) +
        optionalWidth (st.localLANIPs = []) "localLanIps" (stringsWidth st.localLANIPs) +
        fieldWidth "processStartMs" (digits st.processStartMs) +
        fieldWidth "allTimeBytesIn" (digits st.allTimeBytesIn) +
        fieldWidth "allTimeBytesOut" (digits st.allTimeBytesOut) +
        fieldWidth "cumulativeUptimeMs" (digits st.cumulativeUptimeMs) +
        fieldWidth "linkSessions" (digits st.linkSessions) +
        optionalWidth (st.configPath = "") "configPath" (quoted st.configPath)) +
      optionalWidth (!st.linkUp) "linkUp" 4 +
      optionalWidth (st.rttMillis = 0) "rttMillis" (digits st.rttMillis) +
      optionalWidth (st.transport = "") "transport" (quoted st.transport) +
      (fieldWidth "jitterMillis" (size (float st.jitterMillis)) +
        fieldWidth "packetLossPct" (size (float st.packetLossPct)) +
        optionalWidth (st.healthScore = "") "healthScore" (quoted st.healthScore)) +
      optionalWidth (st.peerHostname = "") "peerHostname" (quoted st.peerHostname) +
      optionalWidth (st.peerLANIPs = []) "peerLanIps" (stringsWidth st.peerLANIPs) +
      optionalWidth (st.publicIP = "") "publicIp" (quoted st.publicIP) +
      optionalWidth (st.peerPublicIP = "") "peerPublicIp" (quoted st.peerPublicIP) +
      optionalWidth (!st.agentConnected) "agentConnected" 4 +
      optionalWidth (st.peerAddr = "") "peerAddr" (quoted st.peerAddr) +
      trafficWidth (st.totalBytesIn, st.totalBytesOut) (st.linkBytesIn, st.linkBytesOut)
        st.linkUpSinceMs +
      weight (rows "agents" (st.agents.map (AgentStatus.text float))) +
      weight (rows "tunnels" (st.tunnels.map TunnelStatus.text)) + connsWidth float conns := by
  rw [← weight_conns float st conns hrows htruncated htotal]
  unfold Status.text Status.front Status.back trafficWidth quoted digits
  rw [size_object_of_ne]
  · simp only [weight_append, weight_cons, weight_nil, weight_field, weight_omitting, size_jsonInt,
      size_jsonStrings, size_jsonBool, optionalWidth_flag]
    omega
  · simp only [ne_eq, List.append_eq_nil_iff, reduceCtorEq, false_and, not_false_eq_true]

theorem optionalWidth_shown {empty : Prop} [Decidable empty] (h : ¬empty) (name : String)
    (value : Nat) : optionalWidth empty name value = fieldWidth name value := by
  rw [optionalWidth, decide_eq_false h]
  rfl

theorem optionalWidth_true (name : String) (value : Nat) : optionalWidth true name value = 0 := rfl

theorem weight_no_rows (name : String) : weight (rows name []) = 0 := rfl

theorem weight_agentTunnels (ts : List AgentTunnel) :
    weight (rows "tunnels" ((ts.map AgentTunnel.status).map TunnelStatus.text)) =
      rowsWidth "tunnels" (ts.map fun t => t.status.width) := by
  rw [weight_rows size_tunnel, List.map_map]
  rfl

theorem weight_agents (float : Rat → List Char) (g : GatewaySide) (nowMs : Int) :
    weight (rows "agents" (((g.agents.take maxStatusAgents).map (g.agentStatus nowMs)).map
        (AgentStatus.text float))) =
      rowsWidth "agents" ((g.agents.take maxStatusAgents).map fun ag => ag.width float nowMs
        (g.tunnels.filter fun t => t.agentID = ag.agentID).length (g.players ag.agentID)) := by
  rw [List.map_map]
  exact weight_rows (fun ag => size_agent float g nowMs ag) _ _

theorem size_status_idle (float : Rat → List Char) {e : Engine} (h : e.side = .idle)
    (nowMs : Int) : size ((e.status nowMs).text float) = e.statusWidth float nowMs := by
  have hverdict : ¬("unknown" : String) = "" := by decide
  have hconns : connsWidth float [] = 0 := rfl
  simp only [Engine.status, Engine.statusWidth, h]
  rw [size_text float _ [] rfl rfl rfl]
  simp only [Engine.ownWidth, healthWidth, optionalWidth_shown hverdict, decide_true,
    Bool.not_false, optionalWidth_true, List.map_nil, weight_no_rows, hconns]
  omega

theorem size_status_agent (float : Rat → List Char) {e : Engine} (h : e.side = .agent a)
    (nowMs : Int) : size ((e.status nowMs).text float) = e.statusWidth float nowMs := by
  simp only [Engine.status, Engine.statusWidth, h]
  rw [Engine.setStatusConns_eq rfl]
  refine (size_text float _ a.conns ?_ ?_ ?_).trans ?_
  iterate 3 · dsimp only
  simp only [Engine.ownWidth, AgentSide.width, healthWidth, weight_agentTunnels,
    optionalWidth_shown (healthScore_ne _ _ _ _ _), optionalWidth_shown (joinHostPort_ne _ _),
    Bool.not_false, optionalWidth_true, List.map_nil, weight_no_rows, Prod.mk.eta]
  omega

theorem size_status_gateway (float : Rat → List Char) {e : Engine} (h : e.side = .gateway g)
    (nowMs : Int) : size ((e.status nowMs).text float) = e.statusWidth float nowMs := by
  simp only [Engine.status, Engine.statusWidth, h, GatewaySide.width]
  by_cases hup : g.agentConnected = true
  · simp only [hup, if_true]
    rw [Engine.setStatusConns_eq rfl]
    refine (size_text float _ g.conns ?_ ?_ ?_).trans ?_
    iterate 3 · dsimp only
    simp only [Engine.ownWidth, healthWidth, weight_rows size_tunnel, weight_agents,
      optionalWidth_shown (healthScore_ne _ _ _ _ _), Bool.not_false, Bool.not_true,
      Bool.false_or, optionalWidth_true, decide_true, Prod.mk.eta]
    omega
  · -- without a link the verdict is the same for all measurements
    have hdown : healthScore nowMs false g.jitterMillis g.packetLossPct g.agentLinkUpSinceMs =
        healthScore nowMs false (-1) (-1) g.agentLinkUpSinceMs := rfl
    rw [Bool.not_eq_true] at hup
    simp only [hup, Bool.false_eq_true, if_false]
    rw [Engine.setStatusConns_eq rfl]
    refine (size_text float _ g.conns ?_ ?_ ?_).trans ?_
    iterate 3 · dsimp only
    simp only [Engine.ownWidth, healthWidth, weight_rows size_tunnel, weight_agents, hdown,
      optionalWidth_shown (healthScore_ne _ _ _ _ _), Bool.not_false, Bool.true_or,
      optionalWidth_true, decide_true, Prod.mk.eta]
    omega

theorem size_status (float : Rat → List Char) (e : Engine) (nowMs : Int) :
    size ((e.status nowMs).text float) = e.statusWidth float nowMs := by
  cases h : e.side with
  | idle => exact size_status_idle float h nowMs
  | agent a => exact size_status_agent float h nowMs
  | gateway g => exact size_status_gateway float h nowMs

theorem size_historyText (float : Rat → List Char) (res : HistoryResult) :
    size (historyText float res) =
      resultWidth res.windowMs res.bucketMs (res.buckets.map (bucketWidth float)) := by
  unfold historyText resultWidth digits
  rw [size_object_of_ne (List.cons_ne_nil _ _)]
  simp only [weight_cons, weight_nil, weight_field, size_jsonInt,
    size_array_map (size_bucket float)]
  omega

/-- A history comes back exactly when its window does not go back behind the epoch, and then takes
what the window's data says. -/
theorem history_width (float : Rat → List Char) (h : History) (nowMs : Nat)
    (windowMs maxBuckets : Int) :
    match h.historyAt nowMs windowMs maxBuckets with
    | none => ∃ w ∈ h.choose nowMs windowMs, ¬w.AfterEpoch
    | some res => (∀ w ∈ h.choose nowMs windowMs, w.AfterEpoch) ∧
        size (historyText float res) = historyWidth float h nowMs windowMs maxBuckets := by
  unfold History.historyAt historyWidth
  cases hc : h.choose nowMs windowMs with
  | none => exact ⟨nofun, size_historyText float _⟩
  | some c =>
    have hend := History.choose_endIdx hc
    by_cases hafter : c.AfterEpoch
    · obtain ⟨res, hres, hwindow, hbucket, hperm⟩ :=
        Chosen.render_spans (clampBuckets_range maxBuckets).1 ((Chosen.inside_iff hend).2 hafter)
      have hwidths := arrayWidth_perm (hperm.map (bucketWidth float))
      rw [List.map_map] at hwidths
      simp only [hres]
      refine ⟨fun w hw => Option.some.inj hw ▸ hafter, ?_⟩
      rw [size_historyText, resultWidth, resultWidth, hwindow, hbucket, hwidths]
      rfl
    · have hrender : c.render (clampBuckets maxBuckets) = none := by
        cases hr : c.render (clampBuckets maxBuckets) with
        | none => rfl
        | some res =>
          exact absurd ((Chosen.inside_iff hend).1 (Chosen.inside_of_render hr)) hafter
      simp only [hrender]
      exact ⟨c, rfl, hafter⟩

theorem size_peersText (ps : List PeerStat) :
    size (peersText (some ps)) = 1 + fieldWidth "peers" (arrayWidth (ps.map PeerStat.width)) := by
  unfold peersText
  rw [size_object_of_ne (List.cons_ne_nil _ _), weight_cons, weight_nil, weight_field,
    Option.map_some, Option.getD_some, size_array_map size_peer]
  omega

theorem reply_history (float : Rat → List Char) (e : Engine) (nowMs : Nat)
    (windowMs maxBuckets : Int) :
    Cycle.reply float ⟨e, nowMs, .history windowMs maxBuckets⟩ =
      (e.history.historyAt nowMs windowMs (min maxBuckets maxIPCEntries)).map fun res =>
        ⟨typeHistoryResp, historyText float res⟩ :=
  rfl

/-- A request that is not answered, or whose reply takes more than 64 KiB, is one that does not
fit. -/
theorem reply_fits (float : Rat → List Char) (c : Cycle) :
    match c.reply float with
    | none => ¬c.Fits float
    | some m => m.payload ≠ [] ∧
        (size (envelopeText m.type m.payload) ≤ maxFrame ↔ c.Fits float) := by
  obtain ⟨e, nowMs, request⟩ := c
  cases request with
  | status =>
    have hstatus : size (jsonString typeStatusResp) = 17 := by decide
    refine ⟨List.cons_ne_nil _ _, ?_⟩
    rw [size_envelopeText, hstatus]
    simp only [Engine.sources, size_status, Cycle.Fits]
    omega
  | history windowMs maxBuckets =>
    have hhistory : size (jsonString typeHistoryResp) = 18 := by decide
    have hwidth := history_width float e.history nowMs windowMs (min maxBuckets maxIPCEntries)
    rw [reply_history]
    cases hres : e.history.historyAt nowMs windowMs (min maxBuckets maxIPCEntries) with
    | none =>
      rw [hres] at hwidth
      obtain ⟨w, hw, hbefore⟩ := hwidth
      exact fun hfits => hbefore (hfits.1 w hw)
    | some res =>
      rw [hres] at hwidth
      obtain ⟨hafter, hsize⟩ := hwidth
      refine ⟨List.cons_ne_nil _ _, ?_⟩
      rw [size_envelopeText, hhistory, hsize]
      simp only [Cycle.Fits]
      constructor
      · exact fun hle => ⟨hafter, by omega⟩
      · rintro ⟨-, hle⟩
        omega
  | peers =>
    have hpeers : size (jsonString typePeersResp) = 16 := by decide
    have hclamp : e.Peers.take maxIPCEntries = e.Peers := List.take_take
    refine ⟨List.cons_ne_nil _ _, ?_⟩
    rw [size_envelopeText, hpeers]
    simp only [Engine.sources, Option.map_some, hclamp, size_peersText, Cycle.Fits,
      arrayWidth_perm (e.Peers_perm.map PeerStat.width)]
    omega

theorem writeMsg_reply {m : Message (List Char)} (h : m.payload ≠ []) (w : Bytes) :
    (jsonText.writeMsg w m).1 =
      if size (envelopeText m.type m.payload) ≤ maxFrame then none else some .frameTooLarge :=
  JSON.writeMsg_ofText m h w

theorem serveConn_fits {c : Cycle} (h : c.Fits float) (w : Bytes) (rest : List Cycle) :
    ∃ written, serveConn float w (c :: rest) = serveConn float written rest := by
  have hreply := reply_fits float c
  rw [serveConn]
  cases hm : c.reply float with
  | none =>
    rw [hm] at hreply
    exact absurd h hreply
  | some m =>
    rw [hm] at hreply
    obtain ⟨hne, hfits⟩ := hreply
    have hwrite := writeMsg_reply hne w
    rw [if_pos (hfits.2 h)] at hwrite
    simp only
    cases hmsg : jsonText.writeMsg w m with
    | mk err written =>
      rw [hmsg] at hwrite
      cases hwrite
      exact ⟨written, rfl⟩

theorem serveConn_unfit {c : Cycle} (h : ¬c.Fits float) (w : Bytes) (rest : List Cycle) :
    (serveConn float w (c :: rest)).1 =
      if (c.reply float).isSome then .closed .frameTooLarge else .crashed := by
  have hreply := reply_fits float c
  rw [serveConn]
  cases hm : c.reply float with
  | none => rfl
  | some m =>
    rw [hm] at hreply
    obtain ⟨hne, hfits⟩ := hreply
    have hwrite := writeMsg_reply hne w
    rw [if_neg fun hc => h (hfits.1 hc)] at hwrite
    simp only
    cases hmsg : jsonText.writeMsg w m with
    | mk err written =>
      rw [hmsg] at hwrite
      cases hwrite
      rfl

/-- The pipe is served to the end exactly when each request fits, and too long a frame is all that
closes it. -/
theorem ipc_replies_fit_iff (float : Rat → List Char) (w : Bytes) (cycles : List Cycle) :
    ((serveConn float w cycles).1 = .served ↔ ∀ c ∈ cycles, c.Fits float) ∧
    ∀ err, (serveConn float w cycles).1 = .closed err → err = .frameTooLarge := by
  induction cycles generalizing w with
  | nil => exact ⟨iff_of_true rfl fun c hc => absurd hc List.not_mem_nil, nofun⟩
  | cons c rest ih =>
    rw [List.forall_mem_cons]
    by_cases hfits : c.Fits float
    · obtain ⟨written, hnext⟩ := serveConn_fits hfits w rest
      obtain ⟨hiff, herr⟩ := ih written
      rw [hnext]
      exact ⟨hiff.trans (and_iff_right hfits).symm, herr⟩
    · have hend := serveConn_unfit hfits w rest
      rw [hend]
      split
      · exact ⟨iff_of_false nofun fun h => hfits h.1,
          fun err herr => (PipeEnd.closed.inj herr).symm⟩
      · exact ⟨iff_of_false nofun fun h => hfits h.1, nofun⟩

theorem le_arrayWidth (h : ∀ k ∈ widths, n ≤ k) : widths.length * (n + 1) ≤ arrayWidth widths := by
  unfold arrayWidth
  split
  · rename_i hnil
    rw [hnil, List.length_nil, Nat.zero_mul]
    exact Nat.zero_le 2
  · have hsum : (widths.map (· + 1)).length * (n + 1) ≤ (widths.map (· + 1)).sum := by
      refine List.card_nsmul_le_sum (widths.map (· + 1)) (n + 1) fun k hk => ?_
      obtain ⟨k', hk', rfl⟩ := List.mem_map.1 hk
      exact Nat.succ_le_succ (h k' hk')
    rw [List.length_map] at hsum
    exact hsum.trans (Nat.le_succ _)

theorem arrayWidth_le (h : ∀ k ∈ widths, k < n) : arrayWidth widths ≤ widths.length * n + 2 := by
  unfold arrayWidth
  split
  · exact Nat.le_add_left _ _
  · have hsum : (widths.map (· + 1)).sum ≤ (widths.map (· + 1)).length * n := by
      refine List.sum_le_card_nsmul (widths.map (· + 1)) n fun k hk => ?_
      obtain ⟨k', hk', rfl⟩ := List.mem_map.1 hk
      exact h k' hk'
    rw [List.length_map] at hsum
    omega

theorem digits_le {n : Int} (h : n.natAbs < 10 ^ k) (hk : 0 < k) :
    digits n ≤ if n < 0 then k + 1 else k := by
  have hlen : (Nat.toDigits 10 n.natAbs).length ≤ k :=
    (Nat.length_toDigits_le_iff (by decide) hk).2 h
  unfold digits jsonInt
  split
  · exact Nat.succ_le_succ hlen
  · exact hlen

/-- An address of at most 45 plain bytes, times before the year 5138 and 64-bit totals. -/
structure PeerStat.Proper (p : PeerStat) : Prop where
  ip : size (jsonString p.ip) ≤ 47
  firstSeen : 0 ≤ p.firstSeen ∧ p.firstSeen < 10 ^ 14
  lastSeen : 0 ≤ p.lastSeen ∧ p.lastSeen < 10 ^ 14
  totalBytesIn : -2 ^ 63 ≤ p.totalBytesIn ∧ p.totalBytesIn < 2 ^ 63
  totalBytesOut : -2 ^ 63 ≤ p.totalBytesOut ∧ p.totalBytesOut < 2 ^ 63
  totalConns : -2 ^ 63 ≤ p.totalConns ∧ p.totalConns < 2 ^ 63

theorem PeerStat.Proper.width_lt {p : PeerStat} (h : p.Proper) : p.width < 215 := by
  have htime {n : Int} (hn : 0 ≤ n ∧ n < 10 ^ 14) : digits n ≤ 14 := by
    have hdigits := digits_le (show n.natAbs < 10 ^ 14 by omega) (by decide)
    rwa [if_neg (not_lt.2 hn.1)] at hdigits
  have htotal {n : Int} (hn : -2 ^ 63 ≤ n ∧ n < 2 ^ 63) : digits n ≤ 20 := by
    have hdigits := digits_le (show n.natAbs < 10 ^ 19 by omega) (by decide)
    split at hdigits <;> omega
  have hnames : size "ip".toList = 2 ∧ size "firstSeen".toList = 9 ∧ size "lastSeen".toList = 8 ∧
      size "totalBytesIn".toList = 12 ∧ size "totalBytesOut".toList = 13 ∧
      size "totalConns".toList = 10 := by decide
  have hip := h.ip
  have hfirst := htime h.firstSeen
  have hlast := htime h.lastSeen
  have hin := htotal h.totalBytesIn
  have hout := htotal h.totalBytesOut
  have hconns := htotal h.totalConns
  unfold PeerStat.width fieldWidth quoted
  omega

theorem le_rowsWidth {widths : List Nat} (name : String) (h : ∀ k ∈ widths, n ≤ k) :
    widths.length * (n + 1) ≤ rowsWidth name widths := by
  have hrows := le_arrayWidth h
  unfold rowsWidth optionalWidth fieldWidth
  split
  · rename_i hempty
    rw [List.isEmpty_iff.1 hempty, List.length_nil, Nat.zero_mul]
  · omega

theorem recentPeers_length (e : Engine) : e.recentPeers.length ≤ maxPeersReturned := by
  rw [← e.Peers_perm.length_eq, Engine.Peers, List.length_take]
  exact Nat.min_le_left _ _

theorem peers_reply_fits (float : Rat → List Char) {e : Engine} (nowMs : Nat)
    (h : ∀ p ∈ e.peers, p.Proper) : Cycle.Fits float ⟨e, nowMs, .peers⟩ := by
  have hpeers : size "peers".toList = 5 := by decide
  have hwidth : ∀ k ∈ e.recentPeers.map PeerStat.width, k < 215 :=
    List.forall_mem_map.2 fun p hp => PeerStat.Proper.width_lt (h p (List.mem_of_mem_filter hp))
  have hlen := recentPeers_length e
  have harray := arrayWidth_le hwidth
  rw [List.length_map] at harray
  simp only [Cycle.Fits, fieldWidth, hpeers, maxFrame, maxPeersReturned] at hlen ⊢
  omega

theorem le_quoted (s : String) : 2 ≤ quoted s := by
  have hquote : ('"' : Char).utf8Size = 1 := rfl
  rw [quoted, jsonString, size_cons, size_append, size_cons, size_nil, hquote]
  omega

theorem le_tunnelWidth (t : TunnelStatus) : 52 ≤ t.width := by
  have hnames : size "id".toList = 2 ∧ size "name".toList = 4 ∧ size "localUp".toList = 7 ∧
      size "localKnown".toList = 10 := by decide
  have hflag (b : Bool) : 4 ≤ if b then 4 else 5 := by cases b <;> decide
  have hid := le_quoted t.id
  have hname := le_quoted t.name
  have hup := hflag t.localUp
  have hknown := hflag t.localKnown
  unfold TunnelStatus.width fieldWidth
  omega

/-- The rows of all tunnels, which have no clamp. -/
def Engine.tunnels (e : Engine) : List TunnelStatus :=
  match e.side with
  | .idle => []
  | .agent a => a.tunnels.map AgentTunnel.status
  | .gateway g => g.tunnels

theorem le_statusWidth (float : Rat → List Char) (e : Engine) (nowMs : Int) :
    e.tunnels.length * 53 ≤ e.statusWidth float nowMs := by
  have hrows := le_rowsWidth "tunnels"
    (List.forall_mem_map.2 fun t (_ : t ∈ e.tunnels) => le_tunnelWidth t)
  rw [List.length_map] at hrows
  unfold Engine.statusWidth
  unfold Engine.tunnels at hrows ⊢
  cases hside : e.side with
  | idle => exact Nat.zero_le _
  | agent a =>
    rw [hside] at hrows
    dsimp only at hrows ⊢
    rw [List.map_map] at hrows
    simp only [AgentSide.width]
    exact hrows.trans (by simp only [Function.comp_def]; omega)
  | gateway g =>
    rw [hside] at hrows
    dsimp only at hrows ⊢
    simp only [GatewaySide.width]
    exact hrows.trans (by omega)

theorem tunnels_never_fit (float : Rat → List Char) {e : Engine} (nowMs : Nat)
    (h : 1237 ≤ e.tunnels.length) : ¬Cycle.Fits float ⟨e, nowMs, .status⟩ := by
  have hwidth := le_statusWidth float e nowMs
  simp only [Cycle.Fits, maxFrame]
  omega

theorem le_historyWidth {float : Rat → List Char} {h : History} {nowMs n : Nat}
    {windowMs maxBuckets : Int} {res : HistoryResult}
    (hres : h.historyAt nowMs windowMs maxBuckets = some res)
    (hn : ∀ b ∈ res.buckets, n ≤ bucketWidth float b) :
    res.buckets.length * (n + 1) ≤ historyWidth float h nowMs windowMs maxBuckets := by
  have hwidth := history_width float h nowMs windowMs maxBuckets
  rw [hres] at hwidth
  have hbuckets := le_arrayWidth (List.forall_mem_map.2 hn)
  rw [List.length_map] at hbuckets
  rw [← hwidth.2, size_historyText]
  unfold resultWidth fieldWidth
  omega

/-- Numbers printed as their numerator. -/
def integral (q : Rat) : List Char := jsonInt q.num

/-- A second in which one player's connection moves 10 kB in and 100 kB out. -/
def played : Measures :=
  ⟨10000, 100000, .flat 10000, .flat 100000, .flat 1, .flat 20, .flat 1, .flat 0⟩

/-- Half an hour of such seconds. -/
def playedSeconds : Ring where
  resMs := 1000
  slots := 1800
  buf p := ⟨played, (1699999200 + p) * 1000⟩
  cur := some 1700000999
  curEmpty := false

def playedEngine : Engine where
  role := "agent"
  version := "1"
  pid := 1
  configPath := ""
  processStartMs := 0
  localHostname := ""
  localLANIPs := []
  allTimeBytesIn := 0
  allTimeBytesOut := 0
  cumulativeUptimeMs := 0
  linkSessions := 0
  side := .idle
  history := { newHistory with tiers := [newRing 100 1200, playedSeconds] }
  peers := []
  distinct := List.nodup_nil

theorem le_bucketWidth_played (h : b.toMeasures = played) : 238 ≤ bucketWidth integral b := by
  obtain ⟨m, t⟩ := b
  cases h
  have hin : digits 10000 = 5 := by decide
  have hout : digits 100000 = 6 := by decide
  have hinRate : ohlcWidth integral (.flat 10000) = 20 := by decide +kernel
  have houtRate : ohlcWidth integral (.flat 100000) = 24 := by decide +kernel
  have hconns : ohlcWidth integral (.flat 1) = 4 := by decide +kernel
  have hrtt : ohlcWidth integral (.flat 20) = 8 := by decide +kernel
  have hloss : ohlcWidth integral (.flat 0) = 4 := by decide +kernel
  simp only [bucketWidth, hin, hout, hinRate, houtRate, hconns, hrtt, hloss]
  omega

/-- The last five minutes in 300 buckets do not fit. -/
theorem history_reply_too_long :
    (playedEngine.history.historyAt 1700000999500 300000 300).map (·.buckets.length) = some 300 ∧
      (serveConn integral [] [⟨playedEngine, 1700000999500, .history 300000 300⟩]).1 =
        .closed .frameTooLarge := by
  have hshown : (playedEngine.history.historyAt 1700000999500 300000 300).any (fun res =>
      res.buckets.length = 300 ∧ ∀ b ∈ res.buckets, b.toMeasures = played) = true := by
    decide +kernel
  obtain ⟨res, hres, hall⟩ := (Option.any_eq_true _ _).1 hshown
  obtain ⟨hlen, hplayed⟩ := of_decide_eq_true hall
  have hclamp : min 300 (maxIPCEntries : Int) = 300 := by decide
  have hwidth := le_historyWidth hres fun b hb => le_bucketWidth_played (hplayed b hb)
  have hunfit : ¬Cycle.Fits integral ⟨playedEngine, 1700000999500, .history 300000 300⟩ := by
    rintro ⟨-, hfits⟩
    rw [hlen] at hwidth
    simp only [hclamp, maxFrame] at hfits
    omega
  refine ⟨?_, ?_⟩
  · rw [hres, Option.map_some, hlen]
  · rw [serveConn_unfit hunfit, reply_history, hclamp, hres]
    rfl

end ProxyForward.Ipc

import ProxyForward.HashTunnels
import ProxyForward.JsonText

namespace ProxyForward.Ipc
open JsonText
set_option autoImplicit true

/-- How many of the newest connections a status lists. -/
def maxStatusConns : Nat := 150

/-- How many agents a status lists. -/
def maxStatusAgents : Nat := 24

def jsonBool (b : Bool) : List Char := (if b then "true" else "false").toList

def jsonStrings (xs : List String) : List Char := array (xs.map jsonString)

/-- One live connection, as conntrack shows it. -/
structure Snapshot where
  id : Nat
  agentID : String
  tunnelID : String
  tunnelName : String
  clientAddr : String
  startedAt : Int
  bytesIn : Int
  bytesOut : Int
  playerName : String
  playerUUID : String
  protocol : Int
  rttMs : Rat
  deriving DecidableEq, Repr

structure TunnelStatus where
  agentID : String
  id : String
  name : String
  publicPort : Int
  localUp : Bool
  localKnown : Bool
  bandwidthLimitMbps : Int
  bandwidthLimitScope : String
  deriving DecidableEq, Repr

structure AgentStatus where
  agentID : String
  hostname : String
  lanIPs : List String
  remoteIP : String
  linkUpSinceMs : Int
  rttMillis : Int
  jitterMillis : Rat
  packetLossPct : Rat
  healthScore : String
  linkBytesIn : Int
  linkBytesOut : Int
  tunnels : Int
  players : Int
  deriving DecidableEq, Repr

structure Status where
  role : String
  version : String
  pid : Int
  linkUp : Bool
  rttMillis : Int
  transport : String
  jitterMillis : Rat
  packetLossPct : Rat
  healthScore : String
  localHostname : String
  peerHostname : String
  localLANIPs : List String
  peerLANIPs : List String
  publicIP : String
  peerPublicIP : String
  agentConnected : Bool
  agents : List AgentStatus
  tunnels : List TunnelStatus
  connections : List Snapshot
  connectionsTruncated : Bool
  connectionsTotal : Int
  totalBytesIn : Int
  totalBytesOut : Int
  linkUpSinceMs : Int
  processStartMs : Int
  peerAddr : String
  linkBytesIn : Int
  linkBytesOut : Int
  allTimeBytesIn : Int
  allTimeBytesOut : Int
  cumulativeUptimeMs : Int
  linkSessions : Int
  configPath : String
  deriving DecidableEq, Repr

section
variable (float : Rat → List Char)

def Snapshot.text (s : Snapshot) : List Char :=
  object ([field "id" (jsonInt s.id)] ++
    omitting (s.agentID = "") (field "agentId" (jsonString s.agentID)) ++
    [field "tunnelId" (jsonString s.tunnelID), field "tunnelName" (jsonString s.tunnelName),
      field "clientAddr" (jsonString s.clientAddr), field "startedAt" (jsonInt s.startedAt),
      field "bytesIn" (jsonInt s.bytesIn), field "bytesOut" (jsonInt s.bytesOut)] ++
    omitting (s.playerName = "") (field "playerName" (jsonString s.playerName)) ++
    omitting (s.playerUUID = "") (field "playerUuid" (jsonString s.playerUUID)) ++
    omitting (s.protocol = 0) (field "protocol" (jsonInt s.protocol)) ++
    [field "rttMs" (float s.rttMs)])

def TunnelStatus.text (t : TunnelStatus) : List Char :=
  object (omitting (t.agentID = "") (field "agentId" (jsonString t.agentID)) ++
    [field "id" (jsonString t.id), field "name" (jsonString t.name)] ++
    omitting (t.publicPort = 0) (field "publicPort" (jsonInt t.publicPort)) ++
    [field "localUp" (jsonBool t.localUp), field "localKnown" (jsonBool t.localKnown)] ++
    omitting (t.bandwidthLimitMbps = 0)
      (field "bandwidthLimitMbps" (jsonInt t.bandwidthLimitMbps)) ++
    omitting (t.bandwidthLimitScope = "")
      (field "bandwidthLimitScope" (jsonString t.bandwidthLimitScope)))

def AgentStatus.text (a : AgentStatus) : List Char :=
  object ([field "agentId" (jsonString a.agentID)] ++
    omitting (a.hostname = "") (field "hostname" (jsonString a.hostname)) ++
    omitting (a.lanIPs = []) (field "lanIps" (jsonStrings a.lanIPs)) ++
    omitting (a.remoteIP = "") (field "remoteIp" (jsonString a.remoteIP)) ++
    omitting (a.linkUpSinceMs = 0) (field "linkUpSinceMs" (jsonInt a.linkUpSinceMs)) ++
    [field "rttMillis" (jsonInt a.rttMillis), field "jitterMillis" (float a.jitterMillis),
      field "packetLossPct" (float a.packetLossPct),
      field "healthScore" (jsonString a.healthScore), field "linkBytesIn" (jsonInt a.linkBytesIn),
      field "linkBytesOut" (jsonInt a.linkBytesOut), field "tunnels" (jsonInt a.tunnels),
      field "players" (jsonInt a.players)])

/-- A list that is left out when it has no rows. -/
def rows (name : String) (items : List (List Char)) : List (List Char) :=
  omitting items.isEmpty (field name (array items))

namespace Status

/-- The fields in front of the lists. -/
def front (s : Status) : List (List Char) :=
  [field "role" (jsonString s.role), field "version" (jsonString s.version),
      field "pid" (jsonInt s.pid)] ++
    omitting (!s.linkUp) (field "linkUp" (jsonBool s.linkUp)) ++
    omitting (s.rttMillis = 0) (field "rttMillis" (jsonInt s.rttMillis)) ++
    omitting (s.transport = "") (field "transport" (jsonString s.transport)) ++
    [field "jitterMillis" (float s.jitterMillis), field "packetLossPct" (float s.packetLossPct)] ++
    omitting (s.healthScore = "") (field "healthScore" (jsonString s.healthScore)) ++
    omitting (s.localHostname = "") (field "localHostname" (jsonString s.localHostname)) ++
    omitting (s.peerHostname = "") (field "peerHostname" (jsonString s.peerHostname)) ++
    omitting (s.localLANIPs = []) (field "localLanIps" (jsonStrings s.localLANIPs)) ++
    omitting (s.peerLANIPs = []) (field "peerLanIps" (jsonStrings s.peerLANIPs)) ++
    omitting (s.publicIP = "") (field "publicIp" (jsonString s.publicIP)) ++
    omitting (s.peerPublicIP = "") (field "peerPublicIp" (jsonString s.peerPublicIP)) ++
    omitting (!s.agentConnected) (field "agentConnected" (jsonBool s.agentConnected))

/-- The fields behind the lists. -/
def back (s : Status) : List (List Char) :=
  omitting (!s.connectionsTruncated)
      (field "connectionsTruncated" (jsonBool s.connectionsTruncated)) ++
    omitting (s.connectionsTotal = 0) (field "connectionsTotal" (jsonInt s.connectionsTotal)) ++
    [field "totalBytesIn" (jsonInt s.totalBytesIn), field "totalBytesOut" (jsonInt s.totalBytesOut),
      field "linkUpSinceMs" (jsonInt s.linkUpSinceMs),
      field "processStartMs" (jsonInt s.processStartMs)] ++
    omitting (s.peerAddr = "") (field "peerAddr" (jsonString s.peerAddr)) ++
    [field "linkBytesIn" (jsonInt s.linkBytesIn), field "linkBytesOut" (jsonInt s.linkBytesOut),
      field "allTimeBytesIn" (jsonInt s.allTimeBytesIn),
      field "allTimeBytesOut" (jsonInt s.allTimeBytesOut),
      field "cumulativeUptimeMs" (jsonInt s.cumulativeUptimeMs),
      field "linkSessions" (jsonInt s.linkSessions)] ++
    omitting (s.configPath = "") (field "configPath" (jsonString s.configPath))

def text (s : Status) : List Char :=
  object (s.front float ++ rows "agents" (s.agents.map (AgentStatus.text float)) ++
    rows "tunnels" (s.tunnels.map TunnelStatus.text) ++
    rows "connections" (s.connections.map (Snapshot.text float)) ++ s.back)

end Status

end

/-- A configured tunnel of an agent, with what the agent knows of it. -/
structure AgentTunnel where
  id : String
  name : String
  bandwidthLimitMbps : Int
  bandwidthLimitScope : String
  publicPort : Int
  localUp : Bool
  localKnown : Bool
  deriving DecidableEq, Repr

/-- The link of one connected agent. -/
structure AgentLink where
  agentID : String
  hostname : String
  lanIPs : List String
  remoteIP : String
  linkUpSinceMs : Int
  rttMillis : Int
  jitterMillis : Rat
  packetLossPct : Rat
  linkBytesIn : Int
  linkBytesOut : Int
  deriving DecidableEq, Repr

/-- What a running agent shows. -/
structure AgentSide where
  linkUp : Bool
  rttMillis : Int
  activeTransport : String
  jitterMillis : Rat
  packetLossPct : Rat
  linkUpSinceMs : Int
  linkSessionBytes : Int × Int
  gatewayHost : String
  gatewayPort : Int
  peerHostname : String
  peerLANIPs : List String
  observedIP : String
  tunnels : List AgentTunnel
  conns : List Snapshot
  totals : Int × Int

/-- What a running gateway shows; its tunnels already have the fields of a status. -/
structure GatewaySide where
  agentConnected : Bool
  agentLinkUpSinceMs : Int
  linkSessionBytes : Int × Int
  agentRemoteIP : String
  agentHostname : String
  agentLANIPs : List String
  publicHost : String
  rttMillis : Int
  jitterMillis : Rat
  packetLossPct : Rat
  tunnels : List TunnelStatus
  agents : List AgentLink
  players : String → Int
  conns : List Snapshot
  totals : Int × Int

inductive Side
  | agent (a : AgentSide)
  | gateway (g : GatewaySide)
  | idle

/-- The verdict on a link for the health badge. -/
def healthScore (nowMs : Int) (linkUp : Bool) (jitterMs lossPct : Rat) (upSinceMs : Int) : String :=
  if !linkUp then "bad"
  else
    let up := if 0 < upSinceMs then nowMs - upSinceMs else 0
    if 5 < lossPct ∨ 100 < jitterMs then "bad"
    else if 1 < lossPct ∨ 30 < jitterMs ∨ up < 60000 then "warn"
    else "good"

/-- Host and port, the host in brackets if it has a colon. -/
def joinHostPort (host : String) (port : Int) : String :=
  (if ':' ∈ host.toList then "[" ++ host ++ "]" else host) ++ ":" ++ String.ofList (jsonInt port)

/-- The newest connections; the rest is only counted. -/
def setStatusConns (st : Status) (snaps : List Snapshot) : Status :=
  let st := { st with connectionsTotal := snaps.length }
  if maxStatusConns < snaps.length then
    { st with
      connections := snaps.drop (snaps.length - maxStatusConns)
      connectionsTruncated := true }
  else { st with connections := snaps }

def AgentTunnel.status (t : AgentTunnel) : TunnelStatus :=
  ⟨"", t.id, t.name, t.publicPort, t.localUp, t.localKnown, t.bandwidthLimitMbps,
    t.bandwidthLimitScope⟩

/-- The row of an agent, with its number of tunnels and of players. -/
def GatewaySide.agentStatus (g : GatewaySide) (nowMs : Int) (ag : AgentLink) : AgentStatus where
  agentID := ag.agentID
  hostname := ag.hostname
  lanIPs := ag.lanIPs
  remoteIP := ag.remoteIP
  linkUpSinceMs := ag.linkUpSinceMs
  rttMillis := ag.rttMillis
  jitterMillis := ag.jitterMillis
  packetLossPct := ag.packetLossPct
  healthScore := healthScore nowMs true ag.jitterMillis ag.packetLossPct ag.linkUpSinceMs
  linkBytesIn := ag.linkBytesIn
  linkBytesOut := ag.linkBytesOut
  tunnels := (g.tunnels.filter fun t => t.agentID = ag.agentID).length
  players := g.players ag.agentID

end ProxyForward.Ipc

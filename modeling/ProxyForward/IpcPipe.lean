import ProxyForward.HistoryAt
import ProxyForward.IpcStatus
import ProxyForward.PushFits

namespace ProxyForward.Ipc
open JsonText Stats
set_option autoImplicit true

/-- How many buckets or peers a reply has. -/
def maxIPCEntries : Nat := 300

def maxPeersReturned : Nat := 300

/-- The lifetime record of one client address. -/
structure PeerStat where
  ip : String
  firstSeen : Int
  lastSeen : Int
  totalBytesIn : Int
  totalBytesOut : Int
  totalConns : Int
  deriving DecidableEq, Repr

/-- What the engine has at a request. -/
structure Engine where
  role : String
  version : String
  pid : Int
  configPath : String
  processStartMs : Int
  localHostname : String
  localLANIPs : List String
  allTimeBytesIn : Int
  allTimeBytesOut : Int
  cumulativeUptimeMs : Int
  linkSessions : Int
  side : Side
  history : History
  peers : List PeerStat
  /-- The peers are a map by address. -/
  distinct : (peers.map PeerStat.ip).Nodup

namespace Engine

def status (e : Engine) (nowMs : Int) : Status :=
  let st : Status :=
    { role := e.role, version := e.version, pid := e.pid, configPath := e.configPath
      processStartMs := e.processStartMs, localHostname := e.localHostname
      localLANIPs := e.localLANIPs, jitterMillis := -1, packetLossPct := -1
      healthScore := "unknown", allTimeBytesIn := e.allTimeBytesIn
      allTimeBytesOut := e.allTimeBytesOut, cumulativeUptimeMs := e.cumulativeUptimeMs
      linkSessions := e.linkSessions, linkUp := false, rttMillis := 0, transport := ""
      peerHostname := "", peerLANIPs := [], publicIP := "", peerPublicIP := ""
      agentConnected := false, agents := [], tunnels := [], connections := []
      connectionsTruncated := false, connectionsTotal := 0, totalBytesIn := 0, totalBytesOut := 0
      linkUpSinceMs := 0, peerAddr := "", linkBytesIn := 0, linkBytesOut := 0 }
  match e.side with
  | .idle => st
  | .agent a =>
    let st :=
      { st with
        linkUp := a.linkUp, rttMillis := a.rttMillis, transport := a.activeTransport
        jitterMillis := a.jitterMillis, packetLossPct := a.packetLossPct
        linkUpSinceMs := a.linkUpSinceMs, linkBytesIn := a.linkSessionBytes.1
        linkBytesOut := a.linkSessionBytes.2
        peerAddr := joinHostPort a.gatewayHost a.gatewayPort, peerHostname := a.peerHostname
        peerLANIPs := a.peerLANIPs, publicIP := a.observedIP, peerPublicIP := a.gatewayHost
        healthScore := healthScore nowMs a.linkUp a.jitterMillis a.packetLossPct a.linkUpSinceMs
        tunnels := a.tunnels.map AgentTunnel.status }
    { setStatusConns st a.conns with totalBytesIn := a.totals.1, totalBytesOut := a.totals.2 }
  | .gateway g =>
    let st :=
      { st with
        agentConnected := g.agentConnected, linkUpSinceMs := g.agentLinkUpSinceMs
        linkBytesIn := g.linkSessionBytes.1, linkBytesOut := g.linkSessionBytes.2
        peerAddr := g.agentRemoteIP, peerHostname := g.agentHostname, peerLANIPs := g.agentLANIPs
        publicIP := g.publicHost, peerPublicIP := g.agentRemoteIP }
    let st :=
      if g.agentConnected then
        { st with
          rttMillis := g.rttMillis, jitterMillis := g.jitterMillis
          packetLossPct := g.packetLossPct }
      else st
    let st :=
      { st with
        healthScore :=
          healthScore nowMs st.agentConnected st.jitterMillis st.packetLossPct st.linkUpSinceMs
        tunnels := g.tunnels
        agents := (g.agents.take maxStatusAgents).map (g.agentStatus nowMs) }
    { setStatusConns st g.conns with totalBytesIn := g.totals.1, totalBytesOut := g.totals.2 }

/-- The most recently seen peers come first. -/
def Peers (e : Engine) : List PeerStat :=
  (e.peers.mergeSort fun p q =>
    if p.lastSeen ≠ q.lastSeen then decide (q.lastSeen < p.lastSeen) else decide (p.ip ≤ q.ip)).take
    maxPeersReturned

end Engine

/-- What the pipe serves. A history that panics gives none. -/
structure Sources where
  Status : Int → Status
  History : Option (Nat → Int → Int → Option HistoryResult)
  Peers : Option (List PeerStat)

def Engine.sources (e : Engine) : Sources :=
  ⟨e.status, some e.history.historyAt, some e.Peers⟩

inductive Request
  | status
  | history (windowMs maxBuckets : Int)
  | peers
  deriving DecidableEq, Repr

def typeStatusResp : String := "ipc_status_resp"

def typeHistoryResp : String := "ipc_history_resp"

def typePeersResp : String := "ipc_peers_resp"

section
variable (float : Rat → List Char)

/-- The four fields of a family. -/
def ohlcFields (family : String) (x : OHLC) : List (List Char) :=
  [field (family ++ "o") (float x.o), field (family ++ "h") (float x.h),
    field (family ++ "l") (float x.l), field (family ++ "c") (float x.c)]

def bucketText (b : Bucket) : List Char :=
  object ([field "t" (jsonInt b.T), field "in" (jsonInt b.In), field "out" (jsonInt b.Out)] ++
    ohlcFields float "i" b.inRate ++ ohlcFields float "o" b.outRate ++
    ohlcFields float "c" b.conns ++ ohlcFields float "r" b.rtt ++
    ohlcFields float "p" b.players ++ ohlcFields float "l" b.loss)

def historyText (res : HistoryResult) : List Char :=
  object [field "windowMs" (jsonInt res.windowMs), field "bucketMs" (jsonInt res.bucketMs),
    field "buckets" (array (res.buckets.map (bucketText float)))]

def PeerStat.text (p : PeerStat) : List Char :=
  object [field "ip" (jsonString p.ip), field "firstSeen" (jsonInt p.firstSeen),
    field "lastSeen" (jsonInt p.lastSeen), field "totalBytesIn" (jsonInt p.totalBytesIn),
    field "totalBytesOut" (jsonInt p.totalBytesOut), field "totalConns" (jsonInt p.totalConns)]

/-- A reply without a list of peers has a null. -/
def peersText (peers : Option (List PeerStat)) : List Char :=
  object [field "peers" ((peers.map fun ps => array (ps.map PeerStat.text)).getD "null".toList)]

/-- The answer to a request; there is none where the history source panics. -/
def Sources.reply (src : Sources) (nowMs : Nat) : Request → Option (Message (List Char))
  | .status => some ⟨typeStatusResp, (src.Status nowMs).text float⟩
  | .history windowMs maxBuckets =>
    match src.History with
    | none => some ⟨typeHistoryResp, historyText float ⟨0, 0, []⟩⟩
    | some history => (history nowMs windowMs (min maxBuckets maxIPCEntries)).map fun res =>
        ⟨typeHistoryResp, historyText float res⟩
  | .peers => some ⟨typePeersResp, peersText (src.Peers.map (·.take maxIPCEntries))⟩

/-- Payloads that are JSON texts already. -/
def jsonText : JSON (List Char) := .ofText [] id (fun _ => none) fun _ => none

/-- One request on the pipe: what it asks, when, and what the engine has then. -/
structure Cycle where
  engine : Engine
  nowMs : Nat
  request : Request

def Cycle.reply (c : Cycle) : Option (Message (List Char)) :=
  c.engine.sources.reply float c.nowMs c.request

/-- How a connection ends: with its client, at a reply that is not written, or with the daemon, as
no panic of a handler is recovered. -/
inductive PipeEnd
  | served
  | closed (err : FrameError)
  | crashed
  deriving DecidableEq

/-- The requests of a connection one after the other, with how it ends and what is written by
then. -/
def serveConn : Bytes → List Cycle → PipeEnd × Bytes
  | w, [] => (.served, w)
  | w, c :: rest =>
    match c.reply float with
    | none => (.crashed, w)
    | some m =>
      match jsonText.writeMsg w m with
      | (none, w) => serveConn w rest
      | (some e, w) => (.closed e, w)

end

end ProxyForward.Ipc

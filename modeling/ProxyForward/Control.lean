import Mathlib.Data.List.AList

namespace ProxyForward
set_option autoImplicit true

/-- A string-keyed Go map: at most one entry a key. -/
abbrev GoMap (V : Type) := AList fun _ : String => V

/-- What the gateway needs to know about a tunnel. -/
structure TunnelSpec where
  id : String
  name : String
  type : String
  publicPort : Int
  offlineMOTD : String
  minecraftAware : Bool
  bandwidthLimitMbps : Int
  bandwidthLimitScope : String
  deriving DecidableEq, Repr

def tunnelTCP : String := "tcp"

/-- A tunnel with nothing but an id and a public port. -/
def TunnelSpec.plain (id : String) (publicPort : Int) : TunnelSpec :=
  ⟨id, id, tunnelTCP, publicPort, "", false, 0, ""⟩

def capTunnelSync : String := "tunnel-sync"
def capConnStats : String := "conn-stats"
def capPerConn : String := "per-conn-data"
def capGatewayConfig : String := "gateway-config"

def supportedCapabilities : List String :=
  [capTunnelSync, capConnStats, capPerConn, capGatewayConfig]

/-- The offered capabilities that are supported, in the order of `supported`. -/
def intersectCaps (offered supported : List String) : List String :=
  supported.filter fun c => c ∈ offered

def withoutCap (caps : List String) (drop : String) : List String :=
  caps.filter fun c => c ≠ drop

def errCodePortInUse : String := "port_in_use"
def errCodePortNotAllowed : String := "port_not_allowed"
def errCodeBadTunnel : String := "bad_tunnel"

/-- The full desired set of one session. -/
structure SyncTunnels where
  seq : Nat
  tunnels : List TunnelSpec
  deriving DecidableEq, Repr

structure SyncTunnelResult where
  tunnelID : String
  ok : Bool
  publicPort : Int
  code : String
  message : String
  deriving DecidableEq, Repr

structure SyncResult where
  seq : Nat
  results : List SyncTunnelResult
  deriving DecidableEq, Repr

/-- The authoritative tunnel set, gateway to agent. -/
structure PushConfig where
  generation : Nat
  hash : String
  tunnels : List TunnelSpec
  deriving DecidableEq, Repr

structure ConfigAck where
  generation : Nat
  hash : String
  deriving DecidableEq, Repr

end ProxyForward

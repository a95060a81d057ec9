import ProxyForward.Environment
import Mathlib.Data.List.Sort
import Mathlib.Data.String.Basic

namespace ProxyForward
set_option autoImplicit true

def jsonEscape (c : Char) : List Char :=
  if c = '"' ∨ c = '\\' then ['\\', c]
  else if c.toNat = 8 then ['\\', 'b']
  else if c.toNat = 12 then ['\\', 'f']
  else if c.toNat = 10 then ['\\', 'n']
  else if c.toNat = 13 then ['\\', 'r']
  else if c.toNat = 9 then ['\\', 't']
  else if c.toNat < 32 ∨ c = '<' ∨ c = '>' ∨ c = '&' ∨ c.toNat = 0x2028 ∨ c.toNat = 0x2029 then
    '\\' :: 'u' :: hexDigits 4 c.toNat
  else [c]

def jsonString (s : String) : List Char :=
  '"' :: (s.toList.flatMap jsonEscape ++ ['"'])

def jsonInt (n : Int) : List Char :=
  if n < 0 then '-' :: Nat.toDigits 10 n.natAbs else Nat.toDigits 10 n.natAbs

/-- A field left out when its value is the empty one. -/
def omitEmpty (empty : Bool) (field : List Char) : List Char := if empty then [] else field

/-- The line the JSON encoder writes for one spec. -/
def TunnelSpec.json (s : TunnelSpec) : List Char :=
  "\x7b\"id\":".toList ++ (jsonString s.id ++ (",\"name\":".toList ++ (jsonString s.name ++
  (",\"type\":".toList ++ (jsonString s.type ++ (",\"publicPort\":".toList ++
  (jsonInt s.publicPort ++
  (omitEmpty (s.offlineMOTD = "") (",\"offlineMotd\":".toList ++ jsonString s.offlineMOTD) ++
  (omitEmpty (!s.minecraftAware) ",\"minecraftAware\":true".toList ++
  (omitEmpty (s.bandwidthLimitMbps = 0)
    (",\"bandwidthLimitMbps\":".toList ++ jsonInt s.bandwidthLimitMbps) ++
  (omitEmpty (s.bandwidthLimitScope = "")
    (",\"bandwidthLimitScope\":".toList ++ jsonString s.bandwidthLimitScope) ++
  "\x7d\n".toList)))))))))))

def sortByID (specs : List TunnelSpec) : List TunnelSpec :=
  specs.insertionSort fun a b => a.id ≤ b.id

/-- The text whose digest identifies a tunnel set. -/
def hashInput (specs : List TunnelSpec) : List Char := (sortByID specs).flatMap TunnelSpec.json

/-- The content hash both sides compare to detect config drift. -/
def hashTunnels (env : Env) (specs : List TunnelSpec) : String := env.sha256 (hashInput specs)

end ProxyForward

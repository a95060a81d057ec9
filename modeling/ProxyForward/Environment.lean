import ProxyForward.Control

namespace ProxyForward
set_option autoImplicit true

/-- A failed `net.Listen`: whether the address is in use, and the error's text. -/
structure ListenError where
  inUse : Bool
  text : String
  deriving DecidableEq, Repr

/-- The process that holds a local port. -/
structure Owner where
  pid : Nat
  name : String
  deriving DecidableEq, Repr

/-- What lies outside the program. Its `n`-th answer may depend on everything before it, so every
interleaving with other processes and every clock is some environment. A listen is asked with the
ports the gateway itself still holds. -/
structure Env where
  listen : Nat → String → List Int → Int → Except ListenError Int
  now : Nat → Int
  portOwner : Nat → Int → Option Owner
  isPrint : Char → Bool
  sha256 : List Char → String
  listen_free : listen n addr held p = .ok q → q ∉ held
  listen_port : listen n addr held p = .ok q → p ≠ 0 → q = p
  listen_range : listen n addr held p = .ok q → 1 ≤ q ∧ q ≤ 65535

/-- Listening where nothing but the gateway itself holds ports. -/
def idleListen (held : List Int) (p : Int) : Except ListenError Int :=
  let q := if p = 0 then 49152 + (held.length : Int) else p
  if 1 ≤ q ∧ q ≤ 65535 ∧ q ∉ held then .ok q
  else .error ⟨decide (q ∈ held), "bind: address already in use"⟩

theorem idleListen_ok (h : idleListen held p = .ok q) :
    q = (if p = 0 then 49152 + (held.length : Int) else p) ∧ 1 ≤ q ∧ q ≤ 65535 ∧ q ∉ held := by
  unfold idleListen at h
  generalize (if p = 0 then 49152 + (held.length : Int) else p) = r at h ⊢
  simp only at h
  split at h
  · rename_i hr
    cases h
    exact ⟨rfl, hr⟩
  · cases h

/-- A machine without other servers. Its digest is the text itself. -/
def idleEnv : Env where
  listen _ _ := idleListen
  now n := n
  portOwner _ _ := none
  isPrint c := 32 ≤ c.toNat ∧ c.toNat < 127
  sha256 := String.ofList
  listen_free h := (idleListen_ok h).2.2.2
  listen_port h hp := by rw [(idleListen_ok h).1, if_neg hp]
  listen_range h := ⟨(idleListen_ok h).2.1, (idleListen_ok h).2.2.1⟩

def hexDigits (width n : Nat) : List Char :=
  (List.range width).reverse.map fun i => Nat.digitChar (n >>> (4 * i) % 16)

def quoteRune (isPrint : Char → Bool) (c : Char) : List Char :=
  if c = '"' ∨ c = '\\' then ['\\', c]
  else if isPrint c then [c]
  else if c.toNat = 7 then ['\\', 'a']
  else if c.toNat = 8 then ['\\', 'b']
  else if c.toNat = 12 then ['\\', 'f']
  else if c.toNat = 10 then ['\\', 'n']
  else if c.toNat = 13 then ['\\', 'r']
  else if c.toNat = 9 then ['\\', 't']
  else if c.toNat = 11 then ['\\', 'v']
  else if c.toNat < 32 ∨ c.toNat = 127 then '\\' :: 'x' :: hexDigits 2 c.toNat
  else if c.toNat < 65536 then '\\' :: 'u' :: hexDigits 4 c.toNat
  else '\\' :: 'U' :: hexDigits 8 c.toNat

/-- The `%q` verb of a format string. -/
def quote (isPrint : Char → Bool) (s : String) : String :=
  String.ofList ('"' :: s.toList.flatMap (quoteRune isPrint) ++ ['"'])

def Owner.string (o : Owner) : String :=
  if o.name = "" then "PID " ++ toString o.pid
  else o.name ++ " (PID " ++ toString o.pid ++ ")"

/-- The gateway section of the configuration, as far as listeners depend on it. -/
structure GatewayConfig where
  bindAddr : String
  portAllowlist : List Int
  deriving DecidableEq, Repr

/-- The fixed part of a running gateway. -/
structure Gateway where
  cfg : GatewayConfig
  env : Env

/-- A gateway on the idle machine that allows every port. -/
def idleGateway : Gateway := ⟨⟨"0.0.0.0", []⟩, idleEnv⟩

end ProxyForward

import ProxyForward.Config

namespace ProxyForward
set_option autoImplicit true

/-- The parts of a URL that a pairing code uses. `host` has the port with it. -/
structure Url where
  scheme : String
  host : String
  path : String
  fragment : String
  deriving DecidableEq, Repr

/-- The host without its port, when what follows its last colon is a number or nothing. -/
def Url.splitPort (u : Url) : List Char × List Char :=
  let cs := u.host.toList
  let port := (cs.reverse.takeWhile (· ≠ ':')).reverse
  match cs.reverse.dropWhile (· ≠ ':') with
  | [] => (cs, [])
  | _ :: before => if port.all Char.isDigit then (before.reverse, port) else (cs, [])

def Url.hostname (u : Url) : String :=
  let host := u.splitPort.1
  if host.head? = some '[' ∧ host.getLast? = some ']' then String.ofList (host.drop 1).dropLast
  else String.ofList host

def Url.port (u : Url) : String := String.ofList u.splitPort.2

def isSpace (c : Char) : Bool :=
  (9 ≤ c.toNat ∧ c.toNat ≤ 13) ∨ (8192 ≤ c.toNat ∧ c.toNat ≤ 8202) ∨
    c.toNat ∈ [32, 133, 160, 5760, 8232, 8233, 8239, 8287, 12288]

def trimSpace (s : String) : String :=
  String.ofList ((s.toList.dropWhile isSpace).reverse.dropWhile isSpace).reverse

structure PairingCode where
  host : String
  port : Int
  token : String
  fingerprint : String
  deriving DecidableEq, Repr

def pairingScheme : String := "pxf"
def pairingFormat : String := "v1"
def pairingKindPair : String := "pair"
def maxPairingCodeLen : Nat := 512
def fingerprintPrefix : List Char := "sha256:".toList
def hexAlphabet : List Char := "0123456789abcdefABCDEF".toList

/-- The token of a path `/v1/pair/<token>`. -/
def tokenFromV1Path (pf : Platform) (path : String) : Except String String :=
  let q := quote pf.isPrint
  let cs := path.toList
  let segs := (if cs.head? = some '/' then cs.drop 1 else cs).splitOn '/'
  match segs.map String.ofList with
  | [version, kind, token] =>
    if version ≠ pairingFormat then
      .error ("unsupported pairing code version " ++ q version ++ " (this app understands " ++
        q pairingFormat ++ ") — update the app or re-copy the code")
    else if kind ≠ pairingKindPair then
      .error ("not a pairing invite (expected a " ++ q pairingKindPair ++ " link, got " ++
        q kind ++ ")")
    else if token = "" then .error "pairing code is missing the token"
    else .ok token
  | _ =>
    .error ("pairing code path must be /" ++ pairingFormat ++ "/" ++ pairingKindPair ++ "/<token>")

/-- A number that `validPort` accepts. -/
def parsePort (s : String) : Option Int := (atoi s).filter fun p => (validPort p).isNone

/-- Parse and validate a pairing code. `parse` is the library's URL parser. -/
def parsePairingCode (parse : String → Except String Url) (pf : Platform) (code : String) :
    Except String PairingCode :=
  let s := trimSpace code
  if maxPairingCodeLen < s.utf8ByteSize then
    .error ("pairing code is implausibly long (" ++ toString s.utf8ByteSize ++
      " bytes) — re-copy it from the gateway")
  else match parse s with
  | .error err => .error ("not a valid pairing code: " ++ err)
  | .ok u =>
    if u.scheme ≠ pairingScheme then
      .error ("not a proxyforward pairing code (expected " ++ pairingScheme ++ "://, got " ++
        quote pf.isPrint u.scheme ++ ")")
    else match tokenFromV1Path pf u.path with
    | .error err => .error err
    | .ok token =>
      if u.hostname = "" then .error "pairing code is missing the gateway host"
      else if u.port = "" then .error "pairing code is missing the gateway control port"
      else match parsePort u.port with
      | none => .error ("pairing code has an invalid port " ++ quote pf.isPrint u.port)
      | some port =>
        let fp := u.fragment.toList
        if ¬fingerprintPrefix.isPrefixOf fp ∨
          u.fragment.utf8ByteSize ≠ fingerprintPrefix.length + 64 then
          .error "pairing code is missing a valid sha256 certificate fingerprint"
        else if ¬(fp.drop fingerprintPrefix.length).all (· ∈ hexAlphabet) then
          .error "pairing code fingerprint contains non-hex characters"
        else .ok ⟨u.hostname, port, token, String.ofList (fp.map Char.toLower)⟩

/-- What the parser promises of a code that it accepts. -/
structure PairingCode.Complete (code : PairingCode) : Prop where
  host : code.host ≠ ""
  port : validPort code.port = none
  token : code.token ≠ ""
  fingerprint : fingerprintPrefix.isPrefixOf code.fingerprint.toList = true

theorem tokenFromV1Path_ok (h : tokenFromV1Path pf path = .ok token) : token ≠ "" := by
  unfold tokenFromV1Path at h
  simp only at h
  split at h
  · split at h
    · cases h
    · split at h
      · cases h
      · split at h
        · cases h
        · rename_i hne
          cases h
          exact hne
  · cases h

theorem parsePort_some (h : parsePort s = some p) : validPort p = none := by
  rw [parsePort, Option.filter_eq_some_iff] at h
  exact Option.isNone_iff_eq_none.1 h.2

theorem isPrefixOf_map [BEq α] [LawfulBEq α] (f : α → α) {p l : List α} (hp : p.map f = p)
    (h : p.isPrefixOf l = true) : p.isPrefixOf (l.map f) = true := by
  rw [List.isPrefixOf_iff_prefix] at h ⊢
  rw [← hp]
  exact h.map f

theorem parsePairingCode_ok (h : parsePairingCode parse pf s = .ok code) : code.Complete := by
  unfold parsePairingCode at h
  simp only at h
  split at h
  · cases h
  split at h
  · cases h
  split at h
  · cases h
  split at h
  · cases h
  rename_i token htoken
  split at h
  · cases h
  rename_i hhost
  split at h
  · cases h
  split at h
  · cases h
  rename_i port hport
  split at h
  · cases h
  rename_i hfp
  split at h
  · cases h
  cases h
  obtain ⟨hpre, -⟩ := not_or.1 hfp
  exact {
    host := hhost
    port := parsePort_some hport
    token := tokenFromV1Path_ok htoken
    fingerprint := by
      rw [String.toList_ofList]
      exact isPrefixOf_map _ (by decide) (not_not.1 hpre) }

end ProxyForward

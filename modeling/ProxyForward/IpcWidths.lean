import ProxyForward.HistorySpans
import ProxyForward.IpcPipe

namespace ProxyForward.Ipc
open JsonText Stats
set_option autoImplicit true

/-! How many bytes the values that the engine has take in a reply. -/

def digits (n : Int) : Nat := (jsonInt n).length

/-- A string with its quotes and escapes. -/
def quoted (s : String) : Nat := size (jsonString s)

/-- A field with the quotes of its name, a colon and a comma. -/
def fieldWidth (name : String) (value : Nat) : Nat := size name.toList + value + 4

/-- A field that is left out when it is empty. -/
def optionalWidth (empty : Bool) (name : String) (value : Nat) : Nat :=
  if empty then 0 else fieldWidth name value

def arrayWidth (widths : List Nat) : Nat :=
  if widths = [] then 2 else (widths.map (· + 1)).sum + 1

def stringsWidth (xs : List String) : Nat := arrayWidth (xs.map quoted)

/-- A list of a status, which is left out when it has no rows. -/
def rowsWidth (name : String) (widths : List Nat) : Nat :=
  optionalWidth widths.isEmpty name (arrayWidth widths)

def PeerStat.width (p : PeerStat) : Nat :=
  1 + fieldWidth "ip" (quoted p.ip) + fieldWidth "firstSeen" (digits p.firstSeen) +
    fieldWidth "lastSeen" (digits p.lastSeen) +
    fieldWidth "totalBytesIn" (digits p.totalBytesIn) +
    fieldWidth "totalBytesOut" (digits p.totalBytesOut) +
    fieldWidth "totalConns" (digits p.totalConns)

def TunnelStatus.width (t : TunnelStatus) : Nat :=
  1 + optionalWidth (t.agentID = "") "agentId" (quoted t.agentID) +
    fieldWidth "id" (quoted t.id) + fieldWidth "name" (quoted t.name) +
    optionalWidth (t.publicPort = 0) "publicPort" (digits t.publicPort) +
    fieldWidth "localUp" (if t.localUp then 4 else 5) +
    fieldWidth "localKnown" (if t.localKnown then 4 else 5) +
    optionalWidth (t.bandwidthLimitMbps = 0) "bandwidthLimitMbps" (digits t.bandwidthLimitMbps) +
    optionalWidth (t.bandwidthLimitScope = "") "bandwidthLimitScope" (quoted t.bandwidthLimitScope)

section
variable (float : Rat → List Char)

def Snapshot.width (s : Snapshot) : Nat :=
  1 + fieldWidth "id" (digits s.id) +
    optionalWidth (s.agentID = "") "agentId" (quoted s.agentID) +
    fieldWidth "tunnelId" (quoted s.tunnelID) + fieldWidth "tunnelName" (quoted s.tunnelName) +
    fieldWidth "clientAddr" (quoted s.clientAddr) + fieldWidth "startedAt" (digits s.startedAt) +
    fieldWidth "bytesIn" (digits s.bytesIn) + fieldWidth "bytesOut" (digits s.bytesOut) +
    optionalWidth (s.playerName = "") "playerName" (quoted s.playerName) +
    optionalWidth (s.playerUUID = "") "playerUuid" (quoted s.playerUUID) +
    optionalWidth (s.protocol = 0) "protocol" (digits s.protocol) +
    fieldWidth "rttMs" (size (float s.rttMs))

/-- The row of an agent, with so many tunnels and players. -/
def AgentLink.width (ag : AgentLink) (nowMs : Int) (tunnels : Nat) (players : Int) : Nat :=
  1 + fieldWidth "agentId" (quoted ag.agentID) +
    optionalWidth (ag.hostname = "") "hostname" (quoted ag.hostname) +
    optionalWidth (ag.lanIPs = []) "lanIps" (stringsWidth ag.lanIPs) +
    optionalWidth (ag.remoteIP = "") "remoteIp" (quoted ag.remoteIP) +
    optionalWidth (ag.linkUpSinceMs = 0) "linkUpSinceMs" (digits ag.linkUpSinceMs) +
    fieldWidth "rttMillis" (digits ag.rttMillis) +
    fieldWidth "jitterMillis" (size (float ag.jitterMillis)) +
    fieldWidth "packetLossPct" (size (float ag.packetLossPct)) +
    fieldWidth "healthScore"
      (quoted (healthScore nowMs true ag.jitterMillis ag.packetLossPct ag.linkUpSinceMs)) +
    fieldWidth "linkBytesIn" (digits ag.linkBytesIn) +
    fieldWidth "linkBytesOut" (digits ag.linkBytesOut) + fieldWidth "tunnels" (digits tunnels) +
    fieldWidth "players" (digits players)

def ohlcWidth (x : OHLC) : Nat :=
  size (float x.o) + size (float x.h) + size (float x.l) + size (float x.c)

/-- A bucket, with 163 bytes of names and punctuation. -/
def bucketWidth (b : Bucket) : Nat :=
  163 + digits b.T + digits b.In + digits b.Out + ohlcWidth float b.inRate +
    ohlcWidth float b.outRate + ohlcWidth float b.conns + ohlcWidth float b.rtt +
    ohlcWidth float b.players + ohlcWidth float b.loss

end

theorem size_jsonBool (b : Bool) : size (jsonBool b) = if b then 4 else 5 := by
  cases b <;> decide

theorem weight_field (name : String) (value : List Char) :
    size (field name value) + 1 = fieldWidth name (size value) := by
  rw [size_field, fieldWidth]

theorem weight_omitting (empty : Bool) (name : String) (value : List Char) :
    weight (omitting empty (field name value)) = optionalWidth empty name (size value) := by
  unfold omitting optionalWidth
  split
  · rfl
  · rw [weight_cons, weight_nil, weight_field]

theorem size_array_map {text : α → List Char} {width : α → Nat}
    (h : ∀ x, size (text x) = width x) (xs : List α) :
    size (array (xs.map text)) = arrayWidth (xs.map width) := by
  have hsize : xs.map (fun x => size (text x)) = xs.map width := List.map_congr_left fun x _ => h x
  by_cases hnil : xs = []
  · rw [hnil]
    rfl
  · have hitems : xs.map text ≠ [] := fun hmap => hnil (List.map_eq_nil_iff.1 hmap)
    have hwidths : xs.map width ≠ [] := fun hmap => hnil (List.map_eq_nil_iff.1 hmap)
    rw [size_array_of_ne hitems, arrayWidth, if_neg hwidths, weight, List.map_map, List.map_map]
    congr 2
    exact List.map_congr_left fun x _ => congrArg (· + 1) (h x)

theorem size_jsonStrings (xs : List String) : size (jsonStrings xs) = stringsWidth xs :=
  size_array_map (fun _ => rfl) xs

theorem weight_rows {text : α → List Char} {width : α → Nat} (h : ∀ x, size (text x) = width x)
    (name : String) (xs : List α) :
    weight (rows name (xs.map text)) = rowsWidth name (xs.map width) := by
  rw [rows, weight_omitting, size_array_map h, rowsWidth, List.isEmpty_map, List.isEmpty_map]

theorem arrayWidth_perm (h : List.Perm xs ys) : arrayWidth xs = arrayWidth ys := by
  have hnil : xs = [] ↔ ys = [] := by
    rw [← List.perm_nil, ← List.perm_nil]
    exact ⟨h.symm.trans, h.trans⟩
  simp only [arrayWidth, hnil, (h.map _).sum_eq]

theorem size_peer (p : PeerStat) : size p.text = p.width := by
  unfold PeerStat.text PeerStat.width digits quoted
  rw [size_object_of_ne (List.cons_ne_nil _ _)]
  simp only [weight_cons, weight_nil, weight_field, size_jsonInt]
  omega

theorem size_tunnel (t : TunnelStatus) : size t.text = t.width := by
  unfold TunnelStatus.text TunnelStatus.width digits quoted
  rw [size_object_of_ne]
  · simp only [weight_append, weight_cons, weight_nil, weight_field, weight_omitting, size_jsonInt,
      size_jsonBool]
    omega
  · simp only [ne_eq, List.append_eq_nil_iff, reduceCtorEq, and_false, false_and, not_false_eq_true]

theorem size_snapshot (float : Rat → List Char) (s : Snapshot) :
    size (s.text float) = s.width float := by
  unfold Snapshot.text Snapshot.width digits quoted
  rw [size_object_of_ne]
  · simp only [weight_append, weight_cons, weight_nil, weight_field, weight_omitting, size_jsonInt]
    omega
  · simp only [ne_eq, List.append_eq_nil_iff, reduceCtorEq, and_false, false_and, not_false_eq_true]

theorem size_agent (float : Rat → List Char) (g : GatewaySide) (nowMs : Int) (ag : AgentLink) :
    size ((g.agentStatus nowMs ag).text float) = ag.width float nowMs
      (g.tunnels.filter fun t => t.agentID = ag.agentID).length (g.players ag.agentID) := by
  unfold GatewaySide.agentStatus AgentStatus.text AgentLink.width digits quoted
  dsimp only
  rw [size_object_of_ne]
  · simp only [weight_append, weight_cons, weight_nil, weight_field, weight_omitting, size_jsonInt,
      size_jsonStrings]
    omega
  · simp only [ne_eq, List.append_eq_nil_iff, reduceCtorEq, and_false, false_and, not_false_eq_true]

theorem weight_ohlcFields (float : Rat → List Char) (hfamily : size family.toList = 1) (x : OHLC) :
    weight (ohlcFields float family x) = ohlcWidth float x + 24 := by
  have hletter (suffix : String) (h : size suffix.toList = 1) :
      size (family ++ suffix).toList = 2 := by
    rw [String.toList_append, size_append, hfamily, h]
  have ho := hletter "o" (by decide)
  have hh := hletter "h" (by decide)
  have hl := hletter "l" (by decide)
  have hc := hletter "c" (by decide)
  unfold ohlcFields ohlcWidth
  simp only [weight_cons, weight_nil, size_field, ho, hh, hl, hc]
  omega

theorem size_bucket (float : Rat → List Char) (b : Bucket) :
    size (bucketText float b) = bucketWidth float b := by
  have ht : size "t".toList = 1 := by decide
  have hin : size "in".toList = 2 := by decide
  have hout : size "out".toList = 3 := by decide
  have hi : size "i".toList = 1 := by decide
  have ho : size "o".toList = 1 := by decide
  have hc : size "c".toList = 1 := by decide
  have hr : size "r".toList = 1 := by decide
  have hp : size "p".toList = 1 := by decide
  have hl : size "l".toList = 1 := by decide
  unfold bucketText bucketWidth digits
  rw [size_object_of_ne]
  · simp only [weight_append, weight_cons, weight_nil, weight_ohlcFields float hi,
      weight_ohlcFields float ho, weight_ohlcFields float hc, weight_ohlcFields float hr,
      weight_ohlcFields float hp, weight_ohlcFields float hl, size_field, size_jsonInt, ht, hin,
      hout]
    omega
  · exact List.cons_ne_nil _ _

end ProxyForward.Ipc

import ProxyForward.Chain
import ProxyForward.Config
import ProxyForward.Framing
import ProxyForward.ProxyProto
import ProxyForward.SharedLimiters

namespace ProxyForward
set_option autoImplicit true

def typeOpenConn : String := "open_conn"

/-- The header that the gateway writes on every data leg. -/
structure OpenConn where
  tunnelID : String
  clientAddr : String
  connID : String
  deriving DecidableEq, Repr

/-- The client's address for a PROXY header; `parseIP` reads an IP literal. -/
def proxySource (parseIP : String → Option Bytes) (clientAddr : String) :
    Option ProxyProto.TCPAddr :=
  match splitHostPort clientAddr with
  | .error _ => none
  | .ok (host, portStr) =>
    match parseIP host with
    | none => none
    | some ip => (atoi portStr).map fun port => ⟨ip, port⟩

/-- The gateway's side of a data leg, with the half that copies from the player. -/
inductive GatewayLeg
  | opening
  | copying (half : CopyHalf)
  | gone
  deriving DecidableEq, Repr

/-- The agent's side of a data leg, with the half that copies to the local server. -/
inductive AgentLeg
  | opening
  | dialing (oc : OpenConn) (tun : Tunnel)
  | heading (oc : OpenConn) (tun : Tunnel) (dst : ProxyProto.TCPAddr)
  | copying (tun : Tunnel) (dst : ProxyProto.TCPAddr) (half : CopyHalf)
  | gone
  deriving DecidableEq, Repr

/-- What a player's connection needs of its surroundings. -/
structure PassageEnv where
  json : JSON OpenConn
  parseIP : String → Option Bytes
  oc : OpenConn
  /-- Whether the halves of the gateway and of the agent are limited, to the server and back. -/
  limited : Leg → Leg → Bool

/-- The header of the leg. -/
def PassageEnv.openConn (env : PassageEnv) : Message OpenConn := ⟨typeOpenConn, env.oc⟩

/-- The local server that the agent has dialed for the player, and the header it has got. -/
structure Backend where
  tun : Tunnel
  dst : ProxyProto.TCPAddr
  header : Bytes
  deriving DecidableEq, Repr

/-- A player's connection through gateway and agent. `down` is the way back, from the local server
over the agent's half and the gateway's. -/
structure Passage where
  sent : Bytes
  ended : Bool
  gateway : GatewayLeg
  /-- What the gateway has put on the leg before it copies. -/
  lead : Bytes
  cut : Bool
  lost : Bool
  tunnels : List Tunnel
  agent : AgentLeg
  /-- How much of the leg the agent has read before it copies. -/
  consumed : Nat
  backend : Option Backend
  down : Chain
  deriving DecidableEq, Repr

inductive PassageStep
  | send (bs : Bytes)
  | finish
  | openConn (wn : Nat) (ok : Bool)
  | gateway (l : CopyStep)
  | cut
  | lose
  | configure (tunnels : List Tunnel)
  | readOpen (r : Reader)
  | dial (dst : Option ProxyProto.TCPAddr)
  | header (wn : Nat) (ok : Bool)
  | agent (l : CopyStep)
  | down (l : ChainStep)
  deriving DecidableEq, Repr

namespace Passage

def start (env : PassageEnv) (tunnels : List Tunnel) : Passage where
  sent := []
  ended := false
  gateway := .opening
  lead := []
  cut := false
  lost := false
  tunnels := tunnels
  agent := .opening
  consumed := 0
  backend := none
  down := .start (env.limited .b .a) (env.limited .b .b) (some 0) (some 0)

/-- The half that copies from the player, which counts its bytes. -/
def upFirst (env : PassageEnv) (s : Passage) : CopyHalf :=
  match s.gateway with
  | .copying half => half
  | .opening | .gone => .start (env.limited .a .a) (some 0)

/-- The half that copies to the local server. -/
def upSecond (env : PassageEnv) (s : Passage) : CopyHalf :=
  match s.agent with
  | .copying _ _ half => half
  | .opening | .dialing .. | .heading .. | .gone => .start (env.limited .a .b) (some 0)

/-- The player's bytes on their way, without what the two ends tell each other first. -/
def up (env : PassageEnv) (s : Passage) : Chain :=
  ⟨s.sent, s.ended, s.upFirst env, s.cut, s.lost, s.upSecond env⟩

/-- All that has been put on the leg. -/
def leg (env : PassageEnv) (s : Passage) : Bytes := s.lead ++ (s.upFirst env).accepted

/-- A source that hands out what is on the leg, and ends when nothing more comes. -/
def Offers (env : PassageEnv) (s : Passage) (r : Reader) : Prop :=
  r.bytes <+: s.leg env ∧
    (r.err = .eof → s.lost = true ∨ (s.up env).closed = true ∧ r.bytes = s.leg env)

instance (env : PassageEnv) (s : Passage) (r : Reader) : Decidable (s.Offers env r) :=
  inferInstanceAs (Decidable (_ ∧ (_ → _)))

/-- The agent reads the header of the leg and looks the tunnel up. -/
def opened (env : PassageEnv) (s : Passage) (r : Reader) : Passage :=
  match env.json.readMsg r maxFrame with
  | (.error _, _) => { s with agent := .gone }
  | (.ok msg, r') =>
    if msg.type ≠ typeOpenConn then { s with agent := .gone }
    else
      match env.json.decode msg with
      | .error _ => { s with agent := .gone }
      | .ok oc =>
        match Bwcap.tunnelByID s.tunnels oc.tunnelID with
        | none => { s with agent := .gone }
        | some tun =>
          { s with agent := .dialing oc tun, consumed := r.bytes.length - r'.bytes.length }

/-- The agent splices the local server and the leg. -/
def splice (env : PassageEnv) (s : Passage) (tun : Tunnel) (dst : ProxyProto.TCPAddr)
    (header : Bytes) : Passage :=
  { s with
    agent := .copying tun dst (.start (env.limited .a .b) (some 0))
    backend := some ⟨tun, dst, header⟩ }

/-- The local server sends once it is dialed, and a half copies once its splice has begun. -/
def DownReady (s : Passage) : ChainStep → Bool
  | .send _ | .finish => s.backend.isSome
  | .cut | .lose => true
  | .first _ =>
    match s.agent with
    | .copying .. => true
    | .opening | .dialing .. | .heading .. | .gone => false
  | .second _ =>
    match s.gateway with
    | .copying _ => true
    | .opening | .gone => false

/-- Bytes are read in the order they were written, and an end after all of them; whatever else an
operation can come back with, it may. -/
def step (env : PassageEnv) (s : Passage) : PassageStep → Option Passage
  | .send bs => if s.ended then none else some { s with sent := s.sent ++ bs }
  | .finish => some { s with ended := true }
  | .cut => some { s with cut := true }
  | .lose => some { s with lost := true }
  | .configure tunnels => some { s with tunnels }
  | .openConn wn ok =>
    match s.gateway with
    | .opening =>
      match env.json.writeMsg [] env.openConn with
      | (some _, _) => some { s with gateway := .gone, cut := true }
      | (none, w) =>
        if s.cut = true ∧ (ok = true ∨ wn ≠ 0) then none
        else if ok then
          some { s with gateway := .copying (.start (env.limited .a .a) (some 0)), lead := w }
        else some { s with gateway := .gone, lead := w.take wn, cut := true }
    | _ => none
  | .gateway l =>
    match s.gateway with
    | .copying half =>
      if l.Draws (s.sent.drop half.bytesRead.length) s.ended false ∧ (s.cut = true → l.put = 0) then
        (half.step l).map fun half => { s with gateway := .copying half }
      else none
    | _ => none
  | .readOpen r =>
    match s.agent with
    | .opening => if s.Offers env r then some (s.opened env r) else none
    | _ => none
  | .dial dst =>
    match s.agent, dst with
    | .dialing _ _, none => some { s with agent := .gone }
    | .dialing oc tun, some dst =>
      if tun.options.proxyProtocolV2 then
        some { s with agent := .heading oc tun dst, backend := some ⟨tun, dst, []⟩ }
      else some (s.splice env tun dst [])
    | _, _ => none
  | .header wn ok =>
    match s.agent with
    | .heading oc tun dst =>
      match proxySource env.parseIP oc.clientAddr with
      | none => some { s with agent := .gone }
      | some src =>
        let header := ProxyProto.HeaderV2 src dst
        if ok then some (s.splice env tun dst header)
        else some { s with agent := .gone, backend := some ⟨tun, dst, header.take wn⟩ }
    | _ => none
  | .agent l =>
    match s.agent with
    | .copying tun dst half =>
      if l.Draws ((s.leg env).drop (s.consumed + half.bytesRead.length)) (s.up env).closed
          s.lost then
        (half.step l).map fun half => { s with agent := .copying tun dst half }
      else none
    | _ => none
  | .down l =>
    if s.DownReady l then (s.down.step l).map fun down => { s with down } else none

/-- What the local server has got of the player's bytes. -/
def arrived (env : PassageEnv) (s : Passage) : Bytes := (s.upSecond env).accepted

/-- What a tunnel's local server is to get before the player's bytes. -/
def headerFor (env : PassageEnv) (tun : Tunnel) (dst : ProxyProto.TCPAddr) : Bytes :=
  if tun.options.proxyProtocolV2 then
    match proxySource env.parseIP env.oc.clientAddr with
    | none => []
    | some src => ProxyProto.HeaderV2 src dst
  else []

/-- The whole header is out, and it names the player where the tunnel asks for that. -/
def Announced (env : PassageEnv) (b : Backend) : Prop :=
  b.tun.id = env.oc.tunnelID ∧ b.header = headerFor env b.tun b.dst ∧
    (b.tun.options.proxyProtocolV2 = true →
      ∃ src, proxySource env.parseIP env.oc.clientAddr = some src)

/-- A player's bytes reach the local server of the player's tunnel, in order and after the whole of
its header, and its answer the player; an end that came through is the end of all bytes. -/
structure Arrives (env : PassageEnv) (s : Passage) : Prop where
  routed : ∀ b ∈ s.backend, b.tun.id = env.oc.tunnelID ∧ b.header <+: headerFor env b.tun b.dst
  announced : s.arrived env ≠ [] → ∃ b ∈ s.backend, Announced env b
  up : (s.up env).Delivers
  down : s.down.Delivers

variable {env : PassageEnv} {s t : Passage}

theorem readMsg_offered {j : JSON OpenConn} {m : Message OpenConn} {data body lead rest : Bytes}
    {msg : Envelope} {r' : Reader} (hjson : j.InverseOn m data body) (hfits : j.Fits m)
    (htype : m.type ≠ "") {r : Reader} (hr : r.bytes <+: lead ++ rest)
    (hlead : lead <+: j.frame m) (hpart : lead ≠ j.frame m → rest = [])
    (hread : j.readMsg r maxFrame = (.ok msg, r')) :
    lead = j.frame m ∧ msg.type = m.type ∧ j.decode msg = .ok m.payload ∧
      r.bytes.length - r'.bytes.length = lead.length := by
  have hframe := hjson.frame hfits
  have hall : r.bytes <+: j.frame m ++ rest := by
    by_cases hwhole : lead = j.frame m
    · exact hwhole ▸ hr
    · rw [hpart hwhole, List.append_nil] at hr
      exact (hr.trans hlead).trans (List.prefix_append ..)
  obtain ⟨hlen, -⟩ := JSON.readMsg_ok hread
  -- the length that the bytes declare is that of the header
  have hdeclared : JSON.declared r = body.length := by
    obtain ⟨more, hmore⟩ := hall
    have htake : r.bytes.take 4 = putUint32 body.length := by
      have hfour : 4 ≤ r.bytes.length := by omega
      have htake : (r.bytes ++ more).take 4 = r.bytes.take 4 :=
        List.take_append_of_le_length hfour
      rw [← htake, hmore, hframe, List.append_assoc, List.take_left' (length_putUint32 _)]
    rw [JSON.declared, htake, uint32_putUint32]
    exact Nat.mod_eq_of_lt ((hfits body hjson.encode).trans_lt (by decide))
  have hlong : (j.frame m).length ≤ r.bytes.length := by
    rw [hframe, List.length_append, length_putUint32, ← hdeclared]
    exact hlen
  have hwhole : lead = j.frame m := by
    by_contra hne
    rw [hpart hne, List.append_nil] at hr
    exact hne (hlead.eq_of_length_le (hlong.trans hr.length_le))
  obtain ⟨more, hmore⟩ := List.prefix_of_prefix_length_le (List.prefix_append ..) hall hlong
  obtain ⟨r₁, hread₁, hrest, -, hdecode⟩ := hjson.readMsg hfits htype hmore.symm
  obtain ⟨hmsg, rfl⟩ := Prod.mk.inj (hread.symm.trans hread₁)
  obtain rfl := Except.ok.inj hmsg
  refine ⟨hwhole, rfl, hdecode, ?_⟩
  rw [hrest, ← hmore, List.length_append, hwhole]
  omega

/-- How far the gateway is with the header of the leg. -/
def Leads (env : PassageEnv) (s : Passage) : Prop :=
  match s.gateway with
  | .opening => s.lead = []
  | .copying _ => s.lead = env.json.frame env.openConn ∧ env.json.Fits env.openConn
  | .gone =>
    s.lead = [] ∨ s.lead <+: env.json.frame env.openConn ∧ env.json.Fits env.openConn

/-- The agent has read the header of the leg, and nothing behind it. -/
def HasRead (env : PassageEnv) (s : Passage) : Prop :=
  env.json.Fits env.openConn ∧ s.lead = env.json.frame env.openConn ∧ s.consumed = s.lead.length

/-- What the agent knows, and what the local server has got of its header. -/
def Knows (env : PassageEnv) (s : Passage) : Prop :=
  match s.agent with
  | .opening => s.backend = none
  | .dialing oc tun =>
    s.HasRead env ∧ oc = env.oc ∧ tun.id = env.oc.tunnelID ∧ s.backend = none
  | .heading oc tun dst =>
    s.HasRead env ∧ oc = env.oc ∧ tun.id = env.oc.tunnelID ∧
      tun.options.proxyProtocolV2 = true ∧ s.backend = some ⟨tun, dst, []⟩
  | .copying tun dst _ =>
    s.HasRead env ∧ ∃ header, s.backend = some ⟨tun, dst, header⟩ ∧
      Announced env ⟨tun, dst, header⟩
  | .gone => ∀ b ∈ s.backend, b.tun.id = env.oc.tunnelID ∧ b.header <+: headerFor env b.tun b.dst

structure Inv (env : PassageEnv) (s : Passage) : Prop where
  up : (s.up env).Inv (some 0) (some 0)
  down : s.down.Inv (some 0) (some 0)
  leads : s.Leads env
  knows : s.Knows env

theorem Knows.of_read (h : s.Knows env) (hagent : t.agent = s.agent)
    (hbackend : t.backend = s.backend) (hread : s.HasRead env → t.HasRead env) : t.Knows env := by
  unfold Knows at h ⊢
  rw [hagent, hbackend]
  split at h
  · exact h
  · exact h.imp_left hread
  · exact h.imp_left hread
  · exact h.imp_left hread
  · exact h

theorem Inv.gateway (h : s.Inv env) (hs : s.step env (.gateway l) = some t) : t.Inv env := by
  simp only [step] at hs
  split at hs
  · rename_i half hgateway
    obtain ⟨hdraws, hs⟩ := Option.ite_none_right_eq_some.1 hs
    obtain ⟨half', hhalf, rfl⟩ := Option.map_eq_some_iff.1 hs
    have hfirst : (s.up env).first = half := by
      change s.upFirst env = half
      rw [upFirst, hgateway]
    have hup : (s.up env).step (.first l) = some { s.up env with first := half' } := by
      rw [Chain.step, hfirst]
      refine (if_pos hdraws).trans ?_
      rw [hhalf]
      rfl
    refine ⟨h.up.step hup, h.down, ?_, h.knows.of_read rfl rfl id⟩
    have hleads := h.leads
    rw [Leads, hgateway] at hleads
    exact hleads
  · cases hs

theorem Inv.before_copy (h : s.Inv env) (hbefore : s.upSecond env = .start (env.limited .a .b)
    (some 0)) {agent : AgentLeg} {consumed : Nat} {backend : Option Backend}
    (hafter : upSecond env { s with agent, consumed, backend } =
      .start (env.limited .a .b) (some 0))
        (hknows : Knows env { s with agent, consumed, backend }) :
    Inv env { s with agent, consumed, backend } := by
  have hup : Passage.up env { s with agent, consumed, backend } = s.up env := by
    rw [Passage.up, Passage.up, hafter, hbefore]
    rfl
  exact ⟨hup ▸ h.up, h.down, h.leads, hknows⟩

theorem Inv.dial (h : s.Inv env) (hs : s.step env (.dial dst) = some t) : t.Inv env := by
  have hknows := h.knows
  simp only [step] at hs
  split at hs
  · rename_i oc tun hagent
    obtain rfl := Option.some.inj hs
    rw [Knows, hagent] at hknows
    obtain ⟨-, -, -, hbackend⟩ := hknows
    refine h.before_copy (by rw [upSecond, hagent]) rfl ?_
    intro b hb
    rw [hbackend] at hb
    cases hb
  · rename_i oc tun dst hagent
    rw [Knows, hagent] at hknows
    obtain ⟨hread, rfl, hid, -⟩ := hknows
    have hbefore : s.upSecond env = .start (env.limited .a .b) (some 0) := by
      rw [upSecond, hagent]
    split at hs
    · rename_i hproxy
      obtain rfl := Option.some.inj hs
      exact h.before_copy hbefore rfl ⟨hread, rfl, hid, hproxy, rfl⟩
    · rename_i hproxy
      obtain rfl := Option.some.inj hs
      refine h.before_copy hbefore rfl ⟨hread, [], rfl, hid, ?_, fun h => absurd h hproxy⟩
      exact (if_neg hproxy).symm
  · cases hs

theorem Inv.header (h : s.Inv env) (hs : s.step env (.header wn ok) = some t) : t.Inv env := by
  have hknows := h.knows
  simp only [step] at hs
  split at hs
  · rename_i oc tun dst hagent
    rw [Knows, hagent] at hknows
    obtain ⟨hread, rfl, hid, hproxy, hbackend⟩ := hknows
    have hbefore : s.upSecond env = .start (env.limited .a .b) (some 0) := by
      rw [upSecond, hagent]
    split at hs
    · obtain rfl := Option.some.inj hs
      refine h.before_copy hbefore rfl ?_
      intro b hb
      obtain rfl := Option.some.inj (hbackend.symm.trans hb)
      exact ⟨hid, List.nil_prefix⟩
    · rename_i src hsrc
      have hheader : headerFor env tun dst = ProxyProto.HeaderV2 src dst := by
        rw [headerFor, if_pos hproxy, hsrc]
      split at hs
      · obtain rfl := Option.some.inj hs
        exact h.before_copy hbefore rfl ⟨hread, _, rfl, hid, hheader.symm, fun _ => ⟨src, hsrc⟩⟩
      · obtain rfl := Option.some.inj hs
        refine h.before_copy hbefore rfl ?_
        intro b hb
        obtain rfl := Option.some.inj hb
        exact ⟨hid, hheader ▸ List.take_prefix ..⟩
  · cases hs

theorem Inv.agent (h : s.Inv env) (hs : s.step env (.agent l) = some t) : t.Inv env := by
  have hknows := h.knows
  simp only [step] at hs
  split at hs
  · rename_i tun dst half hagent
    rw [Knows, hagent] at hknows
    obtain ⟨hdraws, hs⟩ := Option.ite_none_right_eq_some.1 hs
    obtain ⟨half', hhalf, rfl⟩ := Option.map_eq_some_iff.1 hs
    have hsecond : (s.up env).second = half := by
      change s.upSecond env = half
      rw [upSecond, hagent]
    -- past the header, the leg holds what the gateway's half has put on it
    have hrest : (s.leg env).drop (s.consumed + half.bytesRead.length) =
        (s.up env).first.accepted.drop half.bytesRead.length := by
      rw [hknows.1.2.2, leg, ← List.drop_drop, List.drop_left]
      rfl
    have hup : (s.up env).step (.second l) = some { s.up env with second := half' } := by
      rw [Chain.step, hsecond]
      refine (if_pos (hrest ▸ hdraws)).trans ?_
      rw [hhalf]
      rfl
    exact ⟨h.up.step hup, h.down, h.leads, hknows⟩
  · cases hs

theorem Inv.down_step (h : s.Inv env) (hs : s.step env (.down l) = some t) : t.Inv env := by
  obtain ⟨-, hs⟩ := Option.ite_none_right_eq_some.1 hs
  obtain ⟨down, hdown, rfl⟩ := Option.map_eq_some_iff.1 hs
  exact ⟨h.up, h.down.step hdown, h.leads, h.knows⟩

theorem Inv.start (env : PassageEnv) (tunnels : List Tunnel) : (start env tunnels).Inv env where
  up := Chain.Inv.start ..
  down := Chain.Inv.start ..
  leads := rfl
  knows := rfl

theorem Inv.arrives (h : s.Inv env) : s.Arrives env where
  routed := by
    have hknows := h.knows
    unfold Knows at hknows
    intro b hb
    split at hknows
    · cases hknows.symm.trans hb
    · cases hknows.2.2.2.symm.trans hb
    · obtain ⟨-, -, hid, -, hbackend⟩ := hknows
      obtain rfl := Option.some.inj (hbackend.symm.trans hb)
      exact ⟨hid, List.nil_prefix⟩
    · obtain ⟨-, header, hbackend, hid, hheader, -⟩ := hknows
      obtain rfl := Option.some.inj (hbackend.symm.trans hb)
      exact ⟨hid, hheader ▸ List.prefix_rfl⟩
    · exact hknows b hb
  announced := by
    have hknows := h.knows
    unfold Knows at hknows
    intro hsome
    split at hknows
    case h_4 tun dst half hagent =>
      obtain ⟨-, header, hbackend, hannounced⟩ := hknows
      exact ⟨_, hbackend, hannounced⟩
    all_goals
      rename_i hagent
      refine absurd ?_ hsome
      rw [arrived, upSecond, hagent]
      rfl
  up := h.up.delivers
  down := h.down.delivers

section Header

variable (hjson : env.json.InverseOn env.openConn data body)
include hjson

theorem frame_ne_nil (hfits : env.json.Fits env.openConn) :
    env.json.frame env.openConn ≠ [] := by
  rw [hjson.frame hfits]
  exact fun hnil => hjson.ne_nil.2 (List.append_eq_nil_iff.1 hnil).2

theorem Inv.header_read (h : s.Inv env) {r r' : Reader} {msg : Envelope} (hr : s.Offers env r)
    (hread : env.json.readMsg r maxFrame = (.ok msg, r')) :
    env.json.Fits env.openConn ∧ s.lead = env.json.frame env.openConn ∧ msg.type = typeOpenConn ∧
      env.json.decode msg = .ok env.oc ∧ r.bytes.length - r'.bytes.length = s.lead.length := by
  have hleads := h.leads
  have hnonempty : s.leg env ≠ [] := by
    intro hnil
    obtain ⟨hlen, -⟩ := JSON.readMsg_ok hread
    have hnone : r.bytes = [] := List.prefix_nil.1 (hnil ▸ hr.1)
    rw [hnone] at hlen
    simp at hlen
  have htype : env.openConn.type ≠ "" := by
    change typeOpenConn ≠ ""
    decide
  unfold Leads at hleads
  cases hgateway : s.gateway with
  | opening =>
    rw [hgateway] at hleads
    refine absurd ?_ hnonempty
    rw [leg, upFirst, hgateway, hleads]
    rfl
  | copying half =>
    rw [hgateway] at hleads
    exact ⟨hleads.2, readMsg_offered hjson hleads.2 htype hr.1 (hleads.1 ▸ List.prefix_rfl)
      (fun hne => absurd hleads.1 hne) hread⟩
  | gone =>
    rw [hgateway] at hleads
    have hnone : (s.upFirst env).accepted = [] := by
      rw [upFirst, hgateway]
      rfl
    rcases hleads with hnil | ⟨hpart, hfits⟩
    · refine absurd ?_ hnonempty
      rw [leg, hnone, hnil]
      rfl
    · exact ⟨hfits, readMsg_offered hjson hfits htype hr.1 hpart (fun _ => hnone) hread⟩

theorem Inv.not_read (h : s.Inv env) (hgateway : s.gateway = .opening) : ¬s.HasRead env := by
  rintro ⟨hfits, hlead, -⟩
  have hleads := h.leads
  rw [Leads, hgateway] at hleads
  exact frame_ne_nil hjson hfits (hlead.symm.trans hleads)

theorem Inv.opened_leg (h : s.Inv env) (hgateway : s.gateway = .opening) (gateway : GatewayLeg)
    (lead : Bytes) (cut : Bool)
    (hfirst : gateway = .copying (.start (env.limited .a .a) (some 0)) ∨ gateway = .gone)
    (hcut : cut = s.cut ∨ cut = true) (hleads : Leads env { s with gateway, lead, cut }) :
    Inv env { s with gateway, lead, cut } := by
  have hup : Passage.up env { s with gateway, lead, cut } = { s.up env with cut } := by
    have hstart : s.upFirst env = .start (env.limited .a .a) (some 0) := by
      rw [upFirst, hgateway]
    rw [Passage.up, Passage.up, hstart]
    rcases hfirst with rfl | rfl
    · rfl
    · rfl
  refine ⟨hup ▸ ?_, h.down, hleads, ?_⟩
  · rcases hcut with rfl | rfl
    · exact h.up
    · have hstep : (s.up env).step .cut = some { s.up env with cut := true } := rfl
      exact h.up.step hstep
  · exact h.knows.of_read rfl rfl fun hread => absurd hread (h.not_read hjson hgateway)

theorem Inv.openConn (h : s.Inv env) (hs : s.step env (.openConn wn ok) = some t) : t.Inv env := by
  simp only [step] at hs
  split at hs
  · rename_i hgateway
    have hlead : s.lead = [] := by
      have hleads := h.leads
      rw [Leads, hgateway] at hleads
      exact hleads
    by_cases hfits : env.json.Fits env.openConn
    · rw [hjson.writeMsg hfits, List.nil_append, ← hjson.frame hfits] at hs
      simp only at hs
      split at hs
      · cases hs
      · split at hs
        · obtain rfl := Option.some.inj hs
          exact h.opened_leg hjson hgateway _ _ _ (.inl rfl) (.inl rfl) ⟨rfl, hfits⟩
        · obtain rfl := Option.some.inj hs
          exact h.opened_leg hjson hgateway _ _ _ (.inr rfl) (.inr rfl)
            (.inr ⟨List.take_prefix .., hfits⟩)
    · have hlong : maxFrame < body.length := by
        by_contra hle
        refine hfits fun body' hbody => ?_
        obtain rfl := Except.ok.inj (hjson.encode.symm.trans hbody)
        exact Nat.le_of_not_lt hle
      rw [JSON.writeMsg_of_lt hjson.encode hlong] at hs
      obtain rfl := Option.some.inj hs
      exact h.opened_leg hjson hgateway _ _ _ (.inr rfl) (.inr rfl) (.inl hlead)
  · cases hs

theorem Inv.readOpen (h : s.Inv env) (hs : s.step env (.readOpen r) = some t) : t.Inv env := by
  simp only [step] at hs
  split at hs
  · rename_i hagent
    obtain ⟨hoffers, hs⟩ := Option.ite_none_right_eq_some.1 hs
    obtain rfl := Option.some.inj hs
    have hbefore : s.upSecond env = .start (env.limited .a .b) (some 0) := by
      rw [upSecond, hagent]
    have hknows := h.knows
    rw [Knows, hagent] at hknows
    have hgone : Inv env { s with agent := .gone } := by
      refine h.before_copy hbefore rfl ?_
      intro b hb
      cases hknows.symm.trans hb
    unfold opened
    split
    · exact hgone
    · rename_i msg r' hread
      obtain ⟨hfits, hlead, htype, hdecode, hlength⟩ := h.header_read hjson hoffers hread
      split
      · exact hgone
      · rw [hdecode]
        simp only
        split
        · exact hgone
        · rename_i tun htun
          refine h.before_copy hbefore rfl ⟨⟨hfits, hlead, hlength⟩, rfl, ?_, hknows⟩
          have hid := List.find?_some htun
          exact of_decide_eq_true hid
  · cases hs

theorem Inv.step (h : s.Inv env) (hs : s.step env l = some t) : t.Inv env := by
  cases l with
  | send bs =>
    simp only [Passage.step] at hs
    split at hs
    · cases hs
    · rename_i hended
      obtain rfl := Option.some.inj hs
      have hup : (s.up env).step (.send bs) = some { s.up env with sent := s.sent ++ bs } :=
        if_neg hended
      exact ⟨h.up.step hup, h.down, h.leads, h.knows.of_read rfl rfl id⟩
  | finish =>
    obtain rfl := Option.some.inj hs
    have hup : (s.up env).step .finish = some { s.up env with ended := true } := rfl
    exact ⟨h.up.step hup, h.down, h.leads, h.knows.of_read rfl rfl id⟩
  | openConn wn ok => exact h.openConn hjson hs
  | gateway l => exact h.gateway hs
  | cut =>
    obtain rfl := Option.some.inj hs
    have hup : (s.up env).step .cut = some { s.up env with cut := true } := rfl
    exact ⟨h.up.step hup, h.down, h.leads, h.knows.of_read rfl rfl id⟩
  | lose =>
    obtain rfl := Option.some.inj hs
    have hup : (s.up env).step .lose = some { s.up env with lost := true } := rfl
    exact ⟨h.up.step hup, h.down, h.leads, h.knows.of_read rfl rfl id⟩
  | configure tunnels =>
    obtain rfl := Option.some.inj hs
    exact ⟨h.up, h.down, h.leads, h.knows.of_read rfl rfl id⟩
  | readOpen r => exact h.readOpen hjson hs
  | dial dst => exact h.dial hs
  | header wn ok => exact h.header hs
  | agent l => exact h.agent hs
  | down l => exact h.down_step hs

/-- Whatever the order of the steps and whatever they come back with. -/
theorem arrives_of_reaches {tunnels : List Tunnel}
    (hr : Runs.Reaches (Passage.step env) (Passage.start env tunnels) ls s) :
    s.Arrives env :=
  (hr.invariant (fun _ _ _ h hs => Inv.step hjson h hs) (Inv.start env tunnels)).arrives

end Header

def loginData : Bytes :=
  "\x7b\"tunnelId\":\"t1\",\"clientAddr\":\"203.0.113.7:52311\",\"connId\":\"1\"\x7d".toUTF8.toList

def loginEnvelope : Bytes := "\x7b\"type\":\"open_conn\",\"data\":".toUTF8.toList ++
    loginData ++ [125]

/-- A player who comes from 203.0.113.7. -/
def loginEnv : PassageEnv where
  json :=
    { zero := ⟨"", "", ""⟩
      marshal oc := if oc = ⟨"t1", "203.0.113.7:52311", "1"⟩ then some loginData else none
      unmarshal bs :=
        if bs = loginData then some ⟨"t1", "203.0.113.7:52311", "1"⟩ else none
      marshalEnvelope env :=
        if env = ⟨"open_conn", loginData⟩ then some loginEnvelope else none
      unmarshalEnvelope bs :=
        if bs = loginEnvelope then some ⟨"open_conn", loginData⟩ else none }
  parseIP host := if host = "203.0.113.7" then some [203, 0, 113, 7] else none
  oc := ⟨"t1", "203.0.113.7:52311", "1"⟩
  limited _ _ := false

/-- The player sends two bytes and closes; the local server gets the header and then these. -/
def loginRun : List PassageStep :=
  [.send [16, 0], .finish, .openConn 0 true, .gateway (.read [16, 0] (some .eof) none),
    .gateway (.write 2 none none),
      .readOpen ⟨[loginEnv.json.frame loginEnv.openConn], .unexpectedEOF⟩,
    .dial (some ⟨[127, 0, 0, 1], 25565⟩), .header 0 true, .agent (.read [16, 0] (some .eof) none),
    .agent (.write 2 none none)]

theorem arrives_login : ∃ s, Runs.Reaches (Passage.step loginEnv)
    (Passage.start loginEnv [⟨"t1", "survival", "tcp", "127.0.0.1:25565", 25565, true,
      ⟨false, true, "", 0, ""⟩⟩]) loginRun s ∧ s.arrived loginEnv = [16, 0] ∧
        s.Arrives loginEnv := by
  have hjson : loginEnv.json.InverseOn loginEnv.openConn loginData loginEnvelope := by
    refine ⟨?_, by decide +kernel, ?_, ?_, ?_⟩ <;>
      simp [loginEnv, PassageEnv.openConn, typeOpenConn]
  have hrun : (Runs.final (Passage.step loginEnv)
      (Passage.start loginEnv [⟨"t1", "survival", "tcp", "127.0.0.1:25565", 25565, true,
        ⟨false, true, "", 0, ""⟩⟩]) loginRun).map (arrived loginEnv) = some [16, 0] := by
    decide +kernel
  obtain ⟨s, hs, harrived⟩ := Option.map_eq_some_iff.1 hrun
  have hreaches := Runs.reaches_of_final hs
  exact ⟨s, hreaches, harrived, arrives_of_reaches hjson hreaches⟩

end Passage

end ProxyForward

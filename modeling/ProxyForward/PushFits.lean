import ProxyForward.Framing
import ProxyForward.JsonText
import ProxyForward.PushedConfig

namespace ProxyForward
open JsonText
set_option autoImplicit true

/-- Encoding into a text; decoding is left open. -/
def JSON.ofText (zero : α) (text : α → List Char) (unmarshal : Bytes → Option α)
    (unmarshalEnvelope : Bytes → Option Envelope) : JSON α where
  zero := zero
  marshal payload := some (bytes (text payload))
  unmarshal := unmarshal
  marshalEnvelope env :=
    some (bytes ('\x7b' :: field "type" (jsonString env.type)) ++
      (if env.data = [] then [] else bytes (',' :: field "data" []) ++ env.data) ++
      bytes ['\x7d'])
  unmarshalEnvelope := unmarshalEnvelope

/-- The envelope's text around the payload's. -/
def envelopeText (type : String) (data : List Char) : List Char :=
  object [field "type" (jsonString type), field "data" data]

namespace JSON

variable {zero : α} {text : α → List Char} {unmarshal : Bytes → Option α}
  {unmarshalEnvelope : Bytes → Option Envelope}

theorem encode_ofText (m : Message α) (hdata : text m.payload ≠ []) :
    (ofText zero text unmarshal unmarshalEnvelope).encode m =
      .ok (bytes (envelopeText m.type (text m.payload))) := by
  have hsize : bytes (text m.payload) ≠ [] := by
    refine List.ne_nil_of_length_pos ?_
    rw [length_bytes]
    exact (List.length_pos_iff.2 hdata).trans_le (length_le_size _)
  simp only [JSON.encode, ofText, if_neg hsize]
  rw [← bytes_append, ← bytes_append, ← bytes_append]
  congr 2

/-- A message is written exactly when the text of its envelope is not too long. -/
theorem writeMsg_ofText (m : Message α) (hdata : text m.payload ≠ []) (w : Bytes) :
    ((ofText zero text unmarshal unmarshalEnvelope).writeMsg w m).1 =
      if size (envelopeText m.type (text m.payload)) ≤ maxFrame then none
      else some .frameTooLarge := by
  unfold writeMsg
  rw [encode_ofText m hdata]
  simp only [length_bytes]
  split
  · rename_i h
    rw [if_neg (not_le.2 h)]
  · rename_i h
    rw [if_pos (not_lt.1 h)]

end JSON

/-- The JSON of a spec. -/
def TunnelSpec.text (s : TunnelSpec) : List Char :=
  object ([field "id" (jsonString s.id), field "name" (jsonString s.name),
      field "type" (jsonString s.type), field "publicPort" (jsonInt s.publicPort)] ++
    omitting (s.offlineMOTD = "") (field "offlineMotd" (jsonString s.offlineMOTD)) ++
    omitting (!s.minecraftAware) (field "minecraftAware" "true".toList) ++
    omitting (s.bandwidthLimitMbps = 0)
      (field "bandwidthLimitMbps" (jsonInt s.bandwidthLimitMbps)) ++
    omitting (s.bandwidthLimitScope = "")
      (field "bandwidthLimitScope" (jsonString s.bandwidthLimitScope)))

theorem TunnelSpec.json_eq (s : TunnelSpec) : s.json = s.text ++ ['\n'] := by
  unfold json text omitting omitEmpty
  by_cases hmotd : s.offlineMOTD = "" <;> by_cases haware : s.minecraftAware = true <;>
    by_cases hlimit : s.bandwidthLimitMbps = 0 <;> by_cases hscope : s.bandwidthLimitScope = "" <;>
    simp [hmotd, haware, hlimit, hscope, object, joined, field]

structure ProposeConfig where
  tunnels : List TunnelSpec
  deriving DecidableEq, Repr

def typePushConfig : String := "push_config"

def typeProposeConfig : String := "propose_config"

def ProposeConfig.text (p : ProposeConfig) : List Char :=
  object [field "tunnels" (array (p.tunnels.map TunnelSpec.text))]

def PushConfig.text (p : PushConfig) : List Char :=
  object [field "generation" (jsonInt p.generation), field "hash" (jsonString p.hash),
    field "tunnels" (array (p.tunnels.map TunnelSpec.text))]

/-- How long the frame of a proposal is, without its length prefix. -/
def ProposeConfig.frameSize (p : ProposeConfig) : Nat :=
  size (envelopeText typeProposeConfig p.text)

def PushConfig.frameSize (p : PushConfig) : Nat := size (envelopeText typePushConfig p.text)

/-- How many digits the public ports take. -/
def portDigits (specs : List TunnelSpec) : Nat :=
  (specs.map fun s => (jsonInt s.publicPort).length).sum

theorem size_envelopeText (type : String) (data : List Char) :
    size (envelopeText type data) = size (jsonString type) + size data + 17 := by
  have htype : size "type".toList = 4 := by decide
  have hdata : size "data".toList = 4 := by decide
  rw [envelopeText, size_object]
  simp only [List.map_cons, List.map_nil, List.sum_cons, List.sum_nil, size_field, htype, hdata,
    List.length_cons, List.length_nil]
  omega

theorem utf8Size_digit {c : Char} (h : c.isDigit = true) : c.utf8Size = 1 := by
  have hle : c.val ≤ 57 := by
    simp only [Char.isDigit, Bool.and_eq_true, decide_eq_true_eq] at h
    exact h.2
  have hascii : c.val ≤ 0x7f := UInt32.le_trans hle (by decide)
  exact if_pos hascii

theorem size_jsonInt (n : Int) : size (jsonInt n) = (jsonInt n).length := by
  refine size_of_ascii fun c hc => ?_
  have hdigits (hmem : c ∈ Nat.toDigits 10 n.natAbs) : c.utf8Size = 1 :=
    utf8Size_digit (Nat.isDigit_of_mem_toDigits (by decide) (by decide) hmem)
  unfold jsonInt at hc
  split at hc
  · obtain rfl | hc := List.mem_cons.1 hc
    · rfl
    · exact hdigits hc
  · exact hdigits hc

/-- Sixty-four lower-case hexadecimal digits, as a digest is written. -/
def IsHexDigest (h : String) : Prop :=
  h.toList.length = 64 ∧ ∀ c ∈ h.toList, c ∈ "0123456789abcdef".toList

instance (h : String) : Decidable (IsHexDigest h) :=
  @instDecidableAnd _ _ (instDecidableEqNat _ _) (List.decidableBAll _ _)

theorem size_digest (h : IsHexDigest s) : size (jsonString s) = 66 := by
  obtain ⟨hlen, hhex⟩ := h
  have hall : ("0123456789abcdef".toList.all fun c =>
      jsonEscape c = [c] ∧ c.utf8Size = 1) = true := by
    decide +kernel
  have hplain : ∀ c ∈ "0123456789abcdef".toList, jsonEscape c = [c] ∧ c.utf8Size = 1 :=
    fun c hc => of_decide_eq_true (List.all_eq_true.1 hall c hc)
  have hsame : ∀ cs : List Char, (∀ c ∈ cs, jsonEscape c = [c]) → cs.flatMap jsonEscape = cs := by
    intro cs hcs
    induction cs with
    | nil => rfl
    | cons c cs ih =>
      obtain ⟨hc, hcs⟩ := List.forall_mem_cons.1 hcs
      rw [List.flatMap_cons, hc, ih hcs]
      rfl
  have hquote : ('"' : Char).utf8Size = 1 := rfl
  rw [jsonString, hsame _ fun c hc => (hplain c (hhex c hc)).1, size_cons, size_append,
    size_of_ascii fun c hc => (hplain c (hhex c hc)).2, hlen, size_cons, size_nil, hquote]

theorem size_text_port (s : TunnelSpec) (p : Int) :
    size { s with publicPort := p }.text + (jsonInt s.publicPort).length =
      size s.text + (jsonInt p).length := by
  unfold TunnelSpec.text
  simp only [size_object, List.map_append, List.sum_append, List.map_cons, List.map_nil,
    List.sum_cons, List.sum_nil, size_field, size_jsonInt, List.length_append, List.length_cons,
    List.length_nil]
  omega

theorem size_array_ports (port : TunnelSpec → Int) (specs : List TunnelSpec) :
    size (array ((specs.map fun s => { s with publicPort := port s }).map TunnelSpec.text)) +
        portDigits specs =
      size (array (specs.map TunnelSpec.text)) +
        portDigits (specs.map fun s => { s with publicPort := port s }) := by
  have hsum : (((specs.map fun s => { s with publicPort := port s }).map TunnelSpec.text).map
        size).sum + portDigits specs =
      ((specs.map TunnelSpec.text).map size).sum +
        portDigits (specs.map fun s => { s with publicPort := port s }) := by
    induction specs with
    | nil => rfl
    | cons s specs ih =>
      have hs := size_text_port s (port s)
      unfold portDigits at ih ⊢
      simp only [List.map_cons, List.sum_cons] at ih ⊢
      omega
  rw [size_array, size_array]
  simp only [List.length_map]
  omega

theorem frameSize_push (p : PushConfig) (h : IsHexDigest p.hash) :
    p.frameSize = (ProposeConfig.mk p.tunnels).frameSize + (jsonInt p.generation).length + 85 := by
  have hpush : size (jsonString typePushConfig) = 13 := by decide
  have hpropose : size (jsonString typeProposeConfig) = 16 := by decide
  have hgeneration : size "generation".toList = 10 := by decide
  have hhash : size "hash".toList = 4 := by decide
  have htunnels : size "tunnels".toList = 7 := by decide
  unfold PushConfig.frameSize ProposeConfig.frameSize PushConfig.text ProposeConfig.text
  rw [size_envelopeText, size_envelopeText, hpush, hpropose, size_object, size_object]
  simp only [List.map_cons, List.map_nil, List.sum_cons, List.sum_nil, size_field, size_jsonInt,
    size_digest h, hgeneration, hhash, htunnels, List.length_cons, List.length_nil]
  omega

theorem frameSize_ports (port : TunnelSpec → Int) (specs : List TunnelSpec) :
    (ProposeConfig.mk (specs.map fun s => { s with publicPort := port s })).frameSize +
        portDigits specs =
      (ProposeConfig.mk specs).frameSize +
        portDigits (specs.map fun s => { s with publicPort := port s }) := by
  have hports := size_array_ports port specs
  unfold ProposeConfig.frameSize ProposeConfig.text
  rw [size_envelopeText, size_envelopeText, size_object, size_object]
  simp only [List.map_cons, List.map_nil, List.sum_cons, List.sum_nil, size_field,
    List.length_cons, List.length_nil] at hports ⊢
  omega

/-- `WriteMsg` takes the push, whatever the decoders. -/
def Sendable (push : PushConfig) : Prop :=
  ∀ (unmarshal : Bytes → Option PushConfig) (unmarshalEnvelope : Bytes → Option Envelope)
    (w : Bytes),
    ((JSON.ofText ⟨0, "", []⟩ PushConfig.text unmarshal unmarshalEnvelope).writeMsg w
      ⟨typePushConfig, push⟩).1 = none

theorem sendable_iff (push : PushConfig) : Sendable push ↔ push.frameSize ≤ maxFrame := by
  have hdata : push.text ≠ [] := List.cons_ne_nil _ _
  have hwrite (unmarshal : Bytes → Option PushConfig) (unmarshalEnvelope : Bytes → Option Envelope)
      (w : Bytes) :
      ((JSON.ofText ⟨0, "", []⟩ PushConfig.text unmarshal unmarshalEnvelope).writeMsg w
        ⟨typePushConfig, push⟩).1 =
        if push.frameSize ≤ maxFrame then none else some .frameTooLarge :=
    JSON.writeMsg_ofText ⟨typePushConfig, push⟩ hdata w
  constructor
  · intro h
    have hnone := h (fun _ => none) (fun _ => none) []
    rw [hwrite] at hnone
    by_contra hlong
    have hsome : (if push.frameSize ≤ maxFrame then none else some FrameError.frameTooLarge) =
        some FrameError.frameTooLarge := if_neg hlong
    cases hsome.symm.trans hnone
  · intro hfits unmarshal unmarshalEnvelope w
    rw [hwrite]
    exact if_pos hfits

namespace Gateway

theorem pushConfigOnConnect_fits {g : Gateway} (hsha : ∀ cs, IsHexDigest (g.env.sha256 cs))
    {st : GatewayState} {push push' : PushConfig} (hhash : IsHexDigest push.hash)
    (hstored : st.agents.desiredConfig sess.agentID = some (push.tunnels, push.generation))
    (hpush : (g.pushConfigOnConnect st sess).1 = some push') (hfits : push.frameSize ≤ maxFrame) :
    push'.frameSize ≤ maxFrame := by
  by_cases hgen : push.generation = 0
  · have hidle : ∀ c ∈ st.agents.desiredConfig sess.agentID, c.2 = 0 := by
      intro c hc
      rw [hstored] at hc
      exact (Option.some.inj hc) ▸ hgen
    rw [pushConfigOnConnect_idle g hidle] at hpush
    cases hpush
  · rw [pushConfigOnConnect_serves g hstored hgen] at hpush
    simp only at hpush
    split at hpush
    · cases hpush
    · cases hpush
      have hsub : ((g.validSpecs sess.scope push.tunnels).map TunnelSpec.text).Sublist
          (push.tunnels.map TunnelSpec.text) := List.filter_sublist.map _
      have hsize := size_array_sublist hsub
      rw [frameSize_push _ hhash] at hfits
      rw [frameSize_push _ (hsha _)]
      unfold ProposeConfig.frameSize ProposeConfig.text at hfits ⊢
      rw [size_envelopeText, size_object] at hfits ⊢
      simp only [pushOf, List.map_cons, List.map_nil, List.sum_cons, List.sum_nil, size_field,
        List.length_cons, List.length_nil] at hfits ⊢
      omega

/-- The push of an adoption is as long as the proposal's valid part, but for the ports' digits and
what a push has more. -/
theorem frameSize_resolved {g : Gateway} (hsha : ∀ cs, IsHexDigest (g.env.sha256 cs)) (gen : Nat)
    (valid : List TunnelSpec) (outcomes : List ReconcileOutcome) :
    (g.pushOf gen (resolvePorts valid outcomes)).frameSize + portDigits valid =
      (ProposeConfig.mk valid).frameSize + portDigits (resolvePorts valid outcomes) +
        (jsonInt gen).length + 85 := by
  have hports := frameSize_ports (fun s => (boundPort outcomes s.id).getD s.publicPort) valid
  rw [frameSize_push _ (hsha _)]
  change (ProposeConfig.mk (resolvePorts valid outcomes)).frameSize + portDigits valid = _ at hports
  change (ProposeConfig.mk (resolvePorts valid outcomes)).frameSize + _ + 85 + _ = _
  change _ = _ + portDigits (resolvePorts valid outcomes) at hports
  simp only [pushOf]
  omega

end Gateway

open Gateway in
/-- An adopted config can be pushed, then and on every later connect, exactly when the proposal
leaves the room that the push needs. -/
theorem adopted_config_pushable_iff (g : Gateway) (hsha : ∀ cs, IsHexDigest (g.env.sha256 cs))
    (st : GatewayState) (sess : AgentSession) (proposed : List TunnelSpec) (written : Bool)
    {stored : List TunnelSpec} {gen : Nat}
    (hstored : st.agents.desiredConfig sess.agentID = some (stored, gen))
    (hbasis : ¬staleBasis st sess gen = true) :
    let valid := g.validSpecs sess.scope proposed
    let resolved := resolvePorts valid (st.actor.reconcile g sess valid).1
    ∃ push st', g.adoptProposal st sess proposed written = (some push, st') ∧
      st'.agents.desiredConfig sess.agentID = some (push.tunnels, push.generation) ∧
      push.tunnels = resolved ∧
      ((Sendable push ∧ ∀ (g' : Gateway) (later : GatewayState) (sess' : AgentSession)
          (push' : PushConfig), (∀ cs, IsHexDigest (g'.env.sha256 cs)) →
          later.agents.desiredConfig sess'.agentID = some (push.tunnels, push.generation) →
          (g'.pushConfigOnConnect later sess').1 = some push' → Sendable push') ↔
        (ProposeConfig.mk valid).frameSize + portDigits resolved +
          (jsonInt (gen + 1)).length + 85 ≤ maxFrame + portDigits valid) := by
  intro valid resolved
  obtain ⟨store, hadopt, hdesired⟩ := adoptProposal_adopts g hstored hbasis proposed written
  refine ⟨_, _, hadopt, hdesired, rfl, ?_⟩
  have hsize : (g.pushOf (gen + 1) resolved).frameSize + portDigits valid =
      (ProposeConfig.mk valid).frameSize + portDigits resolved + (jsonInt (gen + 1)).length + 85 :=
    frameSize_resolved hsha (gen + 1) valid (st.actor.reconcile g sess valid).1
  constructor
  · rintro ⟨hsend, -⟩
    have hfits : (g.pushOf (gen + 1) resolved).frameSize ≤ maxFrame := (sendable_iff _).1 hsend
    omega
  · intro hroom
    have hfits : (g.pushOf (gen + 1) resolved).frameSize ≤ maxFrame := by omega
    refine ⟨(sendable_iff _).2 hfits, fun g' later sess' push' hsha' hlater hpush => ?_⟩
    exact (sendable_iff _).2 (pushConfigOnConnect_fits hsha' (hsha _) hlater hpush hfits)

/-- A gateway whose hashes come out as this digest. -/
def digestGateway (digest : String) : Gateway :=
  { idleGateway with env := { idleEnv with sha256 := fun _ => digest } }

/-- One enrolled agent `a` without a config. -/
def unseededAgent : AgentStore :=
  let issued := (AgentStore.empty.issueEnrollment "ticket" false none ⟨[], []⟩ true).2
  (issued.enroll "key" "a" "ticket" 0 true).2

/-- A tunnel whose name is so many letters long. -/
def namedTunnel (n : Nat) : TunnelSpec :=
  ⟨"t", String.ofList (List.replicate n 'a'), tunnelTCP, 25565, "", false, 0, ""⟩

/-- The SHA-256 digests of the sets with `namedTunnel 3` and `namedTunnel 65437`. -/
def shortDigest : String := "8b94111329ebb85e8efcd8db2ce2a20f4ba12a89d983144a9f3a98f7453b3bb4"

def longDigest : String := "12d7255409f8aca9e2b6920e05dafa4e15b60a65ae21064a9e51124e7e2817e5"

theorem adopted_config_pushable_iff_short :
    let g := digestGateway shortDigest
    let st := g.run (GatewayState.start unseededAgent) [.admitSession (.plain 0 "a")]
    ∃ push st', g.adoptProposal st (.plain 0 "a") [namedTunnel 3] true = (some push, st') ∧
      push.generation = 1 ∧ Sendable push := by
  have hsha : ∀ cs, IsHexDigest ((digestGateway shortDigest).env.sha256 cs) := fun _ =>
    (by decide +kernel : IsHexDigest shortDigest)
  have hstored : ((digestGateway shortDigest).run (GatewayState.start unseededAgent)
      [.admitSession (.plain 0 "a")]).agents.desiredConfig (AgentSession.plain 0 "a").agentID =
        some ([], 0) := by
    decide +kernel
  obtain ⟨push, st', hadopt, hdesired, -, hiff⟩ := adopted_config_pushable_iff
    (digestGateway shortDigest) hsha _ (.plain 0 "a") [namedTunnel 3] true hstored
    (by decide +kernel)
  have hgen : (((digestGateway shortDigest).adoptProposal
      ((digestGateway shortDigest).run (GatewayState.start unseededAgent)
        [.admitSession (.plain 0 "a")]) (.plain 0 "a") [namedTunnel 3] true).1.map
          (·.generation)) = some 1 := by
    decide +kernel
  rw [hadopt] at hgen
  exact ⟨push, st', hadopt, Option.some.inj hgen, (hiff.2 (by decide +kernel)).1⟩

theorem size_letters (n : Nat) :
    size (jsonString (String.ofList (List.replicate n 'a'))) = n + 2 := by
  have hplain : (List.replicate n 'a').flatMap jsonEscape = List.replicate n 'a' := by
    induction n with
    | zero => rfl
    | succ n ih =>
      rw [List.replicate_succ, List.flatMap_cons, ih]
      rfl
  have hquote : ('"' : Char).utf8Size = 1 := rfl
  have hletter : ('a' : Char).utf8Size = 1 := rfl
  rw [jsonString, String.toList_ofList, hplain, size_cons, size_append, size_replicate, size_cons,
    size_nil, hquote, hletter]
  omega

theorem frameSize_namedTunnel (n : Nat) :
    (ProposeConfig.mk [namedTunnel n]).frameSize = n + 99 := by
  have hpropose : size (jsonString typeProposeConfig) = 16 := by decide
  have htunnels : size "tunnels".toList = 7 := by decide
  have hid : size (field "id" (jsonString "t")) = 8 := by decide
  have hname : size "name".toList = 4 := by decide
  have htype : size (field "type" (jsonString tunnelTCP)) = 12 := by decide
  have hport : size (field "publicPort" (jsonInt 25565)) = 18 := by decide
  have htext : (namedTunnel n).text = object [field "id" (jsonString "t"),
      field "name" (jsonString (String.ofList (List.replicate n 'a'))),
      field "type" (jsonString tunnelTCP), field "publicPort" (jsonInt 25565)] := rfl
  unfold ProposeConfig.frameSize ProposeConfig.text
  rw [size_envelopeText, size_object, hpropose]
  simp only [List.map_cons, List.map_nil, List.sum_cons, List.sum_nil, size_field, htunnels,
    size_array, htext, size_object, hid, hname, htype, hport, size_letters, List.length_cons,
    List.length_nil]
  omega

/-- A proposal of just the frame limit is adopted and stored, and cannot be pushed. -/
theorem adopted_config_too_long :
    let g := digestGateway longDigest
    let st := g.run (GatewayState.start unseededAgent) [.admitSession (.plain 0 "a")]
    (ProposeConfig.mk [namedTunnel 65437]).frameSize = maxFrame ∧
    ∃ push st', g.adoptProposal st (.plain 0 "a") [namedTunnel 65437] true = (some push, st') ∧
      st'.agents.desiredConfig "a" = some (push.tunnels, 1) ∧ ¬Sendable push := by
  intro g st
  have hsize : (ProposeConfig.mk [namedTunnel 65437]).frameSize = maxFrame :=
    frameSize_namedTunnel 65437
  have hsha : ∀ cs, IsHexDigest (g.env.sha256 cs) := fun _ =>
    (by decide +kernel : IsHexDigest longDigest)
  have hstored : st.agents.desiredConfig (AgentSession.plain 0 "a").agentID = some ([], 0) := by
    decide +kernel
  have hbasis : ¬Gateway.staleBasis st (.plain 0 "a") 0 = true := by decide +kernel
  obtain ⟨store, hadopt, hdesired⟩ :=
    Gateway.adoptProposal_adopts g hstored hbasis [namedTunnel 65437] true
  have hvalid : g.validSpecs (AgentSession.plain 0 "a").scope [namedTunnel 65437] =
      [namedTunnel 65437] := rfl
  refine ⟨hsize, _, _, hadopt, hdesired, fun hsend => ?_⟩
  have hfits := (sendable_iff _).1 hsend
  have hresolved := Gateway.frameSize_resolved hsha 1
    (g.validSpecs (AgentSession.plain 0 "a").scope [namedTunnel 65437])
    (st.actor.reconcile g (.plain 0 "a")
      (g.validSpecs (AgentSession.plain 0 "a").scope [namedTunnel 65437])).1
  have hdigits : portDigits (g.validSpecs (AgentSession.plain 0 "a").scope
      [namedTunnel 65437]) = 5 := by
    rw [hvalid]
    rfl
  have hframe : (ProposeConfig.mk (g.validSpecs (AgentSession.plain 0 "a").scope
      [namedTunnel 65437])).frameSize = maxFrame := by
    rw [hvalid]
    exact hsize
  rw [hdigits, hframe] at hresolved
  change (g.pushOf 1 _).frameSize ≤ _ at hfits
  omega

end ProxyForward

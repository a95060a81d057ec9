import ProxyForward.Control
import ProxyForward.JsonText
import ProxyForward.HashTunnels
import ProxyForward.PacketRoundTrip

namespace ProxyForward
set_option autoImplicit true

/-- The UTF-16 units of a character. -/
def utf16Units (c : Char) : List Nat :=
  if c.toNat < 0x10000 then [c.toNat]
  else [0xd800 + (c.toNat - 0x10000) / 0x400, 0xdc00 + (c.toNat - 0x10000) % 0x400]

def utf16Encode (cs : List Char) : List Nat := cs.flatMap utf16Units

/-- The code points of UTF-16 units. -/
def utf16Decode : List Nat → List Nat
  | [] => []
  | [u] => [u]
  | hi :: lo :: rest =>
    if 0xd800 ≤ hi ∧ hi < 0xdc00 ∧ 0xdc00 ≤ lo ∧ lo < 0xe000 then
      (0x10000 + (hi - 0xd800) * 0x400 + (lo - 0xdc00)) :: utf16Decode rest
    else hi :: utf16Decode (lo :: rest)

/-- Two bytes, big-endian. -/
def putUint16 (n : Nat) : Bytes := [.ofNat (n / 2 ^ 8), .ofNat n]

/-- The big-endian units of some bytes. -/
def uint16s : Bytes → List Nat
  | b₀ :: b₁ :: rest => (b₀.toNat * 2 ^ 8 + b₁.toNat) :: uint16s rest
  | _ => []

namespace Offline

open JsonText

def maxStatusPacket : Nat := 64

structure OfflineInfo where
  MOTD : String
  VersionName : String
  deriving DecidableEq, Repr

namespace OfflineInfo

def motd (o : OfflineInfo) : String := if o.MOTD = "" then "Server offline" else o.MOTD

def versionName (o : OfflineInfo) : String :=
  if o.VersionName = "" then "offline" else o.VersionName

end OfflineInfo

/-- What the responder fails with. -/
inductive OfflineError
  | mc (err : McError)
  | pingPayload (n : Nat)
  | unexpectedPacket (id : Int)
  deriving DecidableEq, Repr

/-- The JSON of a chat component. -/
def chat (text : String) : List Char := object [field "text" (jsonString text)]

/-- The JSON of the status response. -/
def statusResponse (info : OfflineInfo) : List Char :=
  object [
    field "version" (object [field "name" (jsonString info.versionName),
      field "protocol" (jsonInt (-1))]),
    field "players" (object [field "max" (jsonInt 0), field "online" (jsonInt 0)]),
    field "description" (chat info.motd)]

def statusPacket (info : OfflineInfo) : Bytes :=
  writePacket 0 (appendString (bytes (statusResponse info)))

def disconnectPacket (info : OfflineInfo) : Bytes :=
  writePacket 0 (appendString (bytes (chat info.motd)))

/-- The text of the legacy kick: its fields with a NUL between them. -/
def legacyFields (info : OfflineInfo) : List (List Char) :=
  ["§1".toList, "127".toList, info.versionName.toList,
    info.motd.toList.map fun c => if c.toNat = 0 then ' ' else c, "0".toList, "0".toList]

def join : List (List Char) → List Char
  | [] => []
  | [cs] => cs
  | cs :: rest => cs ++ Char.ofNat 0 :: join rest

/-- The answer to a pre-1.7 ping. The length is written as a 16-bit number. -/
def legacyKick (info : OfflineInfo) : Bytes :=
  let units := utf16Encode (join (legacyFields info))
  0xff :: putUint16 (units.length % 2 ^ 16) ++ units.flatMap putUint16

/-- Up to `n` requests, from a reader with these bytes left: what is written, and the error. -/
def serveStatusPhase (info : OfflineInfo) : Nat → Bytes → List Bytes × Option OfflineError
  | 0, _ => ([], none)
  | n + 1, r =>
    match readPacket r maxStatusPacket with
    | .error _ => ([], none)
    | .ok (id, body, rest) =>
      if id = 0 then
        let (replies, err) := serveStatusPhase info n rest
        (statusPacket info :: replies, err)
      else if id = 1 then
        if body.length ≠ 8 then ([], some (.pingPayload body.length))
        else ([writePacket 1 body], none)
      else ([], some (.unexpectedPacket id))

/-- What a client that sends these bytes, and then closes, is answered. -/
def ServeOffline (info : OfflineInfo) (r : Bytes) : List Bytes × Option OfflineError :=
  match r with
  | [] => ([], some (.mc .eof))
  | first :: _ =>
    if first = 0xfe then ([legacyKick info], none)
    else
      match readPacket r maxHandshakePacket with
      | .error err => ([], some (.mc err))
      | .ok (id, body, rest) =>
        match parseHandshake id body with
        | .error err => ([], some (.mc err))
        | .ok h =>
          if h.nextState = nextStateStatus then serveStatusPhase info 2 rest
          else ([disconnectPacket info], none)

/-- The gateway answers a player whose tunnel is down, if it has something to say. -/
def serveOffline (spec : TunnelSpec) (r : Bytes) : List Bytes :=
  if spec.offlineMOTD = "" then [] else (ServeOffline ⟨spec.offlineMOTD, ""⟩ r).1

/-- What a client asks in the status phase. -/
inductive Request
  | status (body : Bytes)
  | ping (payload : Bytes)
  | other (id : Int) (body : Bytes)
  deriving DecidableEq, Repr

inductive Reply
  | status
  | pong (payload : Bytes)
  deriving DecidableEq, Repr

def Request.packet : Request → Int × Bytes
  | .status body => (0, body)
  | .ping payload => (1, payload)
  | .other id body => (id, body)

/-- What the length of its packet says. -/
def Request.size (q : Request) : Nat := (appendVarInt q.packet.1).length + q.packet.2.length

/-- A request that is no other one in disguise, in a packet whose length has a sign of its own. -/
def Request.Sound (q : Request) : Prop :=
  q.size < 2147483648 ∧
    match q with
    | .status _ | .ping _ => True
    | .other id _ => id ≠ 0 ∧ id ≠ 1 ∧ -2147483648 ≤ id ∧ id < 2147483648

/-- What a client is told: up to two answers, and none after a pong or to a bad request, of a size
that is not read or of another kind. -/
def replies : Nat → List Request → List Reply
  | 0, _ | _ + 1, [] => []
  | n + 1, q :: qs =>
    if maxStatusPacket < q.size then []
    else
      match q with
      | .status _ => .status :: replies n qs
      | .ping payload => if payload.length = 8 then [.pong payload] else []
      | .other .. => []

theorem replies_cons (n : Nat) (q : Request) (qs : List Request) :
    replies (n + 1) (q :: qs) =
      if maxStatusPacket < q.size then []
      else
        match q with
        | .status _ => .status :: replies n qs
        | .ping payload => if payload.length = 8 then [.pong payload] else []
        | .other .. => [] := by
  cases q <;> rfl

/-- The id and the body of a reply. -/
def Reply.packet (info : OfflineInfo) : Reply → Int × Bytes
  | .status => (0, appendString (bytes (statusResponse info)))
  | .pong payload => (1, payload)

/-- The packets that a client with a limit on their size reads. -/
def readPackets (maxSize : Nat) : Nat → Bytes → List (Int × Bytes)
  | 0, _ => []
  | n + 1, r =>
    match readPacket r maxSize with
    | .error _ => []
    | .ok (id, body, rest) => (id, body) :: readPackets maxSize n rest

/-- A legacy client's view of a kick: the fields between the NULs. -/
def readKick : Bytes → Option (List (List Nat))
  | 0xff :: b₀ :: b₁ :: body =>
    if body.length = 2 * (b₀.toNat * 2 ^ 8 + b₁.toNat) then
      some ((utf16Decode (uint16s body)).splitOn 0)
    else none
  | _ => none

theorem char_valid (c : Char) : c.toNat < 0xd800 ∨ 0xdfff < c.toNat ∧ c.toNat < 0x110000 := c.valid

theorem utf16Units_lt (c : Char) : ∀ u ∈ utf16Units c, u < 2 ^ 16 := by
  have hvalid := char_valid c
  unfold utf16Units
  split
  · intro u hu
    rw [List.mem_singleton.1 hu]
    assumption
  · intro u hu
    simp only [List.mem_cons, List.not_mem_nil, or_false] at hu
    omega

theorem utf16Decode_encode (cs : List Char) : utf16Decode (utf16Encode cs) = cs.map Char.toNat := by
  induction cs with
  | nil => rfl
  | cons c cs ih =>
    have hvalid := char_valid c
    have hencode : utf16Encode (c :: cs) = utf16Units c ++ utf16Encode cs := List.flatMap_cons ..
    rw [hencode, utf16Units, List.map_cons, ← ih]
    split
    · cases hrest : utf16Encode cs with
      | nil => rfl
      | cons lo rest =>
        -- a character of one unit is no surrogate
        rw [List.singleton_append, utf16Decode, if_neg (by omega)]
    · rw [List.cons_append, List.cons_append, List.nil_append, utf16Decode, if_pos (by omega)]
      have hpoint : 0x10000 + (0xd800 + (c.toNat - 0x10000) / 0x400 - 0xd800) * 0x400 +
          (0xdc00 + (c.toNat - 0x10000) % 0x400 - 0xdc00) = c.toNat := by
        omega
      rw [hpoint]

theorem uint16s_putUint16 {units : List Nat} (h : ∀ u ∈ units, u < 2 ^ 16) :
    uint16s (units.flatMap putUint16) = units := by
  induction units with
  | nil => rfl
  | cons u units ih =>
    obtain ⟨hu, hunits⟩ := List.forall_mem_cons.1 h
    have hhead : (UInt8.ofNat (u / 2 ^ 8)).toNat * 2 ^ 8 + (UInt8.ofNat u).toNat = u := by
      simp only [UInt8.toNat_ofNat']
      omega
    rw [List.flatMap_cons, putUint16, List.cons_append, List.cons_append, List.nil_append, uint16s,
      ih hunits, hhead]

theorem length_putUint16s (units : List Nat) :
    (units.flatMap putUint16).length = 2 * units.length := by
  induction units with
  | nil => rfl
  | cons u units ih =>
    rw [List.flatMap_cons, List.length_append, ih, List.length_cons]
    change 2 + _ = _
    omega

theorem splitOn_join {fields : List (List Char)} (hne : fields ≠ [])
    (h : ∀ cs ∈ fields, ∀ c ∈ cs, c.toNat ≠ 0) :
    ((join fields).map Char.toNat).splitOn 0 = fields.map (·.map Char.toNat) := by
  have hfree {cs : List Char} (hcs : ∀ c ∈ cs, c.toNat ≠ 0) : 0 ∉ cs.map Char.toNat := by
    intro hin
    obtain ⟨c, hc, hzero⟩ := List.mem_map.1 hin
    exact hcs c hc hzero
  induction fields with
  | nil => exact absurd rfl hne
  | cons cs rest ih =>
    obtain ⟨hcs, hrest⟩ := List.forall_mem_cons.1 h
    cases rest with
    | nil => exact List.splitOn_eq_singleton (hfree hcs)
    | cons cs' rest =>
      have hnul : (Char.ofNat 0).toNat = 0 := rfl
      rw [join, List.map_append, List.map_cons, hnul,
        List.splitOn_append_cons_self_of_not_mem (hfree hcs), ih nofun hrest]
      · rfl
      · exact nofun

theorem nul_free {cs : List Char} (h : (cs.all fun c => c.toNat ≠ 0) = true) :
    ∀ c ∈ cs, c.toNat ≠ 0 := fun c hc => of_decide_eq_true (List.all_eq_true.1 h c hc)

theorem legacyFields_free {info : OfflineInfo} (h : ∀ c ∈ info.versionName.toList, c.toNat ≠ 0) :
    ∀ cs ∈ legacyFields info, ∀ c ∈ cs, c.toNat ≠ 0 := by
  intro cs hcs
  simp only [legacyFields, List.mem_cons, List.not_mem_nil, or_false] at hcs
  rcases hcs with rfl | rfl | rfl | rfl | rfl | rfl
  · exact nul_free rfl
  · exact nul_free rfl
  · exact h
  · intro c hc
    obtain ⟨c', -, rfl⟩ := List.mem_map.1 hc
    split
    · decide
    · assumption
  · exact nul_free rfl
  · exact nul_free rfl

theorem toNat_putUint16 (hn : n < 2 ^ 16) :
    (UInt8.ofNat (n / 2 ^ 8)).toNat * 2 ^ 8 + (UInt8.ofNat n).toNat = n := by
  simp only [UInt8.toNat_ofNat']
  omega

theorem readKick_put (hn : n < 2 ^ 16) (hbody : body.length = 2 * n) :
    readKick (0xff :: (putUint16 n ++ body)) = some ((utf16Decode (uint16s body)).splitOn 0) := by
  change (if body.length = 2 * ((UInt8.ofNat (n / 2 ^ 8)).toNat * 2 ^ 8 + (UInt8.ofNat n).toNat)
    then _ else _) = _
  rw [toNat_putUint16 hn]
  exact if_pos hbody

theorem readKick_legacyKick {info : OfflineInfo}
    (hversion : ∀ c ∈ info.versionName.toList, c.toNat ≠ 0)
    (hfits : (utf16Encode (join (legacyFields info))).length < 2 ^ 16) :
    readKick (legacyKick info) = some ((legacyFields info).map (·.map Char.toNat)) := by
  have hunits : ∀ u ∈ utf16Encode (join (legacyFields info)), u < 2 ^ 16 := by
    intro u hu
    obtain ⟨c, -, hc⟩ := List.mem_flatMap.1 hu
    exact utf16Units_lt c u hc
  have hkick : legacyKick info =
      0xff :: (putUint16 (utf16Encode (join (legacyFields info))).length ++
      (utf16Encode (join (legacyFields info))).flatMap putUint16) := by
    simp only [legacyKick, Nat.mod_eq_of_lt hfits]
    rfl
  have hfields : legacyFields info ≠ [] := by simp [legacyFields]
  rw [hkick, readKick_put hfits (length_putUint16s _), uint16s_putUint16 hunits,
    utf16Decode_encode, splitOn_join hfields (legacyFields_free hversion)]

/-- A length whose VarInt begins like a legacy ping. -/
def LooksLegacy (n : Nat) : Prop := 128 ≤ n ∧ n % 128 = 126

instance : DecidablePred LooksLegacy := fun _ => inferInstanceAs (Decidable (_ ∧ _))

theorem more_byte :
    ∀ g < 128, (UInt8.ofNat g ||| 0x80 = 0xfe ↔ g = 126) ∧ UInt8.ofNat g ≠ 0xfe := by
  decide

theorem head_appendUint (u : BitVec 32) :
    (appendUint u).head? = some 0xfe ↔ LooksLegacy u.toNat := by
  have hshift := toNat_shift u
  obtain ⟨hmore, hlast⟩ := more_byte _ (by rw [toNat_low]; omega : (u &&& 0x7f).toNat < 128)
  rw [appendUint]
  split
  · rename_i hzero
    rw [hzero] at hshift
    have hzero' : (0 : BitVec 32).toNat = 0 := rfl
    rw [List.head?_singleton, Option.some_inj, LooksLegacy]
    exact iff_of_false hlast (by omega)
  · rename_i hne
    have hlarge : 128 ≤ u.toNat := by
      by_contra hsmall
      refine hne (BitVec.eq_of_toNat_eq ?_)
      rw [hshift]
      exact Nat.div_eq_of_lt (not_le.1 hsmall)
    rw [List.head?_cons, Option.some_inj, hmore, toNat_low, LooksLegacy]
    exact (and_iff_right hlarge).symm

theorem head_appendVarInt {n : Nat} (h : n < 2147483648) :
    ∃ b rest, appendVarInt n = b :: rest ∧ (b = 0xfe ↔ LooksLegacy n) := by
  have hhead := head_appendUint (BitVec.ofInt 32 n)
  have hvalue : (BitVec.ofInt 32 n).toNat = n := by
    rw [BitVec.toNat_ofInt]
    omega
  have hdelimits := (appendUint_spells (BitVec.ofInt 32 n)).1
  rw [appendVarInt]
  rw [hvalue] at hhead
  cases hcs : appendUint (BitVec.ofInt 32 n) with
  | nil =>
    rw [hcs] at hdelimits
    exact hdelimits.elim
  | cons b rest =>
    rw [hcs, List.head?_cons, Option.some_inj] at hhead
    exact ⟨b, rest, rfl, hhead⟩

/-- The length that the packet of a handshake declares. -/
def frameLength (h : Handshake) : Nat := (appendVarInt 0).length + h.encode.length

theorem appendVarInt_length (v : Int) : (appendVarInt v).length ≤ 5 := (appendVarInt_pads v).length

theorem frameLength_le {h : Handshake} (hk : h.Known) : frameLength h ≤ maxHandshakePacket := by
  have haddress := hk.serverAddress
  have hid := appendVarInt_length 0
  have hprotocol := appendVarInt_length h.protocolVersion
  have hlength := appendVarInt_length h.serverAddress.length
  have hnext := appendVarInt_length h.nextState
  have hmax : maxServerAddress = 4096 := rfl
  have hpacket : maxHandshakePacket = 8192 := rfl
  simp only [frameLength, Handshake.encode, appendString, List.length_append, List.length_cons,
    List.length_nil]
  omega

theorem serveStatusPhase_packet (info : OfflineInfo) (n : Nat) {id : Int} {body : Bytes}
    (hid : -2147483648 ≤ id ∧ id < 2147483648)
    (hlen : (appendVarInt id).length + body.length ≤ maxStatusPacket) (rest : Bytes) :
    serveStatusPhase info (n + 1) (writePacket id body ++ rest) =
      if id = 0 then
        (statusPacket info :: (serveStatusPhase info n rest).1, (serveStatusPhase info n rest).2)
      else if id = 1 then
        if body.length ≠ 8 then ([], some (.pingPayload body.length))
        else ([writePacket 1 body], none)
      else ([], some (.unexpectedPacket id)) := by
  rw [serveStatusPhase, readPacket_writePacket hid _ _ hlen (by decide)]

theorem serveStatusPhase_requests (info : OfflineInfo) (n : Nat) {qs : List Request}
    (hqs : ∀ q ∈ qs, q.Sound) :
    (serveStatusPhase info n (qs.flatMap fun q => writePacket q.packet.1 q.packet.2)).1 =
      (replies n qs).map fun r => writePacket (r.packet info).1 (r.packet info).2 := by
  induction n generalizing qs with
  | zero => rfl
  | succ n ih =>
    cases qs with
    | nil => rfl
    | cons q qs =>
      obtain ⟨⟨hsize, hq⟩, hrest⟩ := List.forall_mem_cons.1 hqs
      rw [List.flatMap_cons]
      by_cases hlong : maxStatusPacket < q.size
      · have hread := readPacket_long q.packet.1 q.packet.2
          (qs.flatMap fun q => writePacket q.packet.1 q.packet.2) hlong hsize
        rw [replies_cons, if_pos hlong, serveStatusPhase, hread]
        rfl
      rw [replies_cons, if_neg hlong]
      cases q with
      | status body =>
        have hlen : (appendVarInt 0).length + body.length ≤ maxStatusPacket := not_lt.1 hlong
        change (serveStatusPhase info (n + 1) (writePacket 0 body ++ _)).1 = _
        rw [serveStatusPhase_packet info n (by decide) hlen, if_pos rfl, ih hrest]
        rfl
      | ping payload =>
        have hlen : (appendVarInt 1).length + payload.length ≤ maxStatusPacket := not_lt.1 hlong
        change (serveStatusPhase info (n + 1) (writePacket 1 payload ++ _)).1 = _
        rw [serveStatusPhase_packet info n (by decide) hlen, if_neg one_ne_zero, if_pos rfl]
        simp only
        by_cases height : payload.length = 8
        · rw [if_neg (not_not.2 height), if_pos height]
          rfl
        · rw [if_pos height, if_neg height]
          rfl
      | other id body =>
        obtain ⟨hzero, hone, hid⟩ := hq
        have hlen : (appendVarInt id).length + body.length ≤ maxStatusPacket := not_lt.1 hlong
        change (serveStatusPhase info (n + 1) (writePacket id body ++ _)).1 = _
        rw [serveStatusPhase_packet info n hid hlen, if_neg hzero, if_neg hone]
        rfl

theorem readPackets_map {packets : List (Int × Bytes)} (hmax : maxSize < 2147483648)
    (h : ∀ p ∈ packets, (-2147483648 ≤ p.1 ∧ p.1 < 2147483648) ∧
      (appendVarInt p.1).length + p.2.length ≤ maxSize) (hn : packets.length ≤ n) :
    readPackets maxSize n (packets.map fun p => writePacket p.1 p.2).flatten = packets := by
  induction packets generalizing n with
  | nil =>
    cases n with
    | zero => rfl
    | succ n => rfl
  | cons p packets ih =>
    obtain ⟨⟨hid, hlen⟩, hrest⟩ := List.forall_mem_cons.1 h
    cases n with
    | zero => exact absurd hn (Nat.not_succ_le_zero _)
    | succ n =>
      rw [List.map_cons, List.flatten_cons, readPackets, readPacket_writePacket hid _ _ hlen hmax]
      simp only
      rw [ih hrest (Nat.succ_le_succ_iff.1 hn)]

theorem replies_length (n : Nat) (qs : List Request) : (replies n qs).length ≤ n := by
  induction n generalizing qs with
  | zero => rfl
  | succ n ih =>
    cases qs with
    | nil => exact Nat.zero_le _
    | cons q qs =>
      rw [replies_cons]
      split
      · exact Nat.zero_le _
      cases q with
      | status body => exact Nat.succ_le_succ (ih qs)
      | ping payload =>
        simp only
        split
        · exact Nat.succ_le_succ (Nat.zero_le n)
        · exact Nat.zero_le _
      | other id body => exact Nat.zero_le _

/-- How a client that sends a handshake and then requests is answered. -/
def answers (info : OfflineInfo) (h : Handshake) (qs : List Request) : List (Int × Bytes) :=
  if h.nextState = nextStateStatus then (replies 2 qs).map (Reply.packet info)
  else [(0, appendString (bytes (chat info.motd)))]

theorem answers_length (info : OfflineInfo) (h : Handshake) (qs : List Request) :
    (answers info h qs).length ≤ 2 := by
  unfold answers
  split
  · rw [List.length_map]
    exact replies_length 2 qs
  · exact Nat.le_succ 1

theorem ServeOffline_handshake (info : OfflineInfo) {h : Handshake} (hk : h.Known)
    {qs : List Request} (hqs : ∀ q ∈ qs, q.Sound) :
    (ServeOffline info (writePacket 0 h.encode ++
      qs.flatMap fun q => writePacket q.packet.1 q.packet.2)).1 =
      if LooksLegacy (frameLength h) then [legacyKick info]
      else (answers info h qs).map fun p => writePacket p.1 p.2 := by
  have hframe := frameLength_le hk
  have hpacket : maxHandshakePacket = 8192 := rfl
  obtain ⟨b, rest, hhead, hlegacy⟩ := head_appendVarInt (n := frameLength h) (by omega)
  have hread := readPacket_writePacket
    (by decide : -2147483648 ≤ (0 : Int) ∧ (0 : Int) < 2147483648)
    h.encode (qs.flatMap fun q => writePacket q.packet.1 q.packet.2) hframe (by decide)
  have hparse := (parseHandshake_iff h _).2 ⟨hk, h.encode_encodedBy.spells hk⟩
  have hfirst : ∃ more, writePacket 0 h.encode ++
      (qs.flatMap fun q => writePacket q.packet.1 q.packet.2) = b :: more := by
    have hpackets : writePacket 0 h.encode = appendVarInt (frameLength h : Nat) ++
        (appendVarInt 0 ++ h.encode) := by
      simp only [writePacket, frameLength, List.append_assoc]
    rw [hpackets, hhead]
    exact ⟨_, rfl⟩
  obtain ⟨more, hmore⟩ := hfirst
  rw [hmore] at hread ⊢
  unfold ServeOffline
  by_cases hfe : b = 0xfe
  · simp only [if_pos hfe, if_pos (hlegacy.1 hfe)]
  · simp only [if_neg hfe, if_neg fun hl => hfe (hlegacy.2 hl), hread, hparse, answers]
    by_cases hstatus : h.nextState = nextStateStatus
    · rw [if_pos hstatus, if_pos hstatus, serveStatusPhase_requests info 2 hqs, List.map_map]
      rfl
    · rw [if_neg hstatus, if_neg hstatus]
      rfl

/-- A player behind a downed tunnel: a status client that sends a handshake and requests reads the
answers to them, up to two and with its own payload in the pong, and a player who joins reads the
message. A handshake whose length looks like the first byte of a legacy ping gets a legacy kick. -/
theorem conversation (info : OfflineInfo) {h : Handshake} (hk : h.Known) {qs : List Request}
    (hqs : ∀ q ∈ qs, q.Sound) (hmax : maxSize < 2147483648)
    (hroom : ∀ p ∈ answers info h qs, (appendVarInt p.1).length + p.2.length ≤ maxSize)
    (hn : 2 ≤ n) :
    if LooksLegacy (frameLength h) then
      (ServeOffline info (writePacket 0 h.encode ++
        qs.flatMap fun q => writePacket q.packet.1 q.packet.2)).1 = [legacyKick info]
    else readPackets maxSize n (ServeOffline info (writePacket 0 h.encode ++
      qs.flatMap fun q => writePacket q.packet.1 q.packet.2)).1.flatten = answers info h qs := by
  rw [ServeOffline_handshake info hk hqs]
  split
  · rfl
  · refine readPackets_map hmax (fun p hp => ⟨?_, hroom p hp⟩)
      (le_trans (answers_length info h qs) hn)
    have hid : p.1 = 0 ∨ p.1 = 1 := by
      unfold answers at hp
      split at hp
      · obtain ⟨r, -, rfl⟩ := List.mem_map.1 hp
        cases r with
        | status => exact .inl rfl
        | pong payload => exact .inr rfl
      · rw [List.mem_singleton.1 hp]
        exact .inl rfl
    omega

set_option maxRecDepth 4000 in
theorem conversation_refresh :
    let info : OfflineInfo := ⟨"hi", ""⟩
    let h : Handshake := ⟨765, [97], 25565, 1⟩
    let qs : List Request := [.status [], .ping [1, 2, 3, 4, 5, 6, 7, 8]]
    readPackets 32767 2 (ServeOffline info (writePacket 0 h.encode ++
      qs.flatMap fun q => writePacket q.packet.1 q.packet.2)).1.flatten =
      [(0, appendString (bytes (statusResponse info))), (1, [1, 2, 3, 4, 5, 6, 7, 8])] := by
  have hzero := appendVarInt_length 0
  have hone := appendVarInt_length 1
  have hstatus : (Request.status []).size ≤ maxStatusPacket :=
    (Nat.add_le_add_right hzero _).trans (by decide)
  have hping : (Request.ping [1, 2, 3, 4, 5, 6, 7, 8]).size ≤ maxStatusPacket :=
    (Nat.add_le_add_right hone _).trans (by decide)
  have hreplies : replies 2 [.status [], .ping [1, 2, 3, 4, 5, 6, 7, 8]] =
      [.status, .pong [1, 2, 3, 4, 5, 6, 7, 8]] := by
    rw [replies_cons, if_neg (not_lt.2 hstatus), replies_cons, if_neg (not_lt.2 hping)]
    rfl
  have hqs : ∀ q ∈ ([.status [], .ping [1, 2, 3, 4, 5, 6, 7, 8]] : List Request), q.Sound := by
    intro q hq
    simp only [List.mem_cons, List.not_mem_nil, or_false] at hq
    rcases hq with rfl | rfl
    · exact ⟨hstatus.trans_lt (by decide), trivial⟩
    · exact ⟨hping.trans_lt (by decide), trivial⟩
  have hsize : (bytes (statusResponse ⟨"hi", ""⟩)).length = 103 := by
    rw [length_bytes]
    decide
  have hanswers : answers ⟨"hi", ""⟩ ⟨765, [97], 25565, 1⟩
      [.status [], .ping [1, 2, 3, 4, 5, 6, 7, 8]] =
      [(0, appendString (bytes (statusResponse ⟨"hi", ""⟩))), (1, [1, 2, 3, 4, 5, 6, 7, 8])] := by
    have hstatusPhase : (1 : Int) = nextStateStatus := rfl
    rw [answers, if_pos hstatusPhase, hreplies]
    rfl
  have hroom : ∀ p ∈ answers ⟨"hi", ""⟩ ⟨765, [97], 25565, 1⟩
      [.status [], .ping [1, 2, 3, 4, 5, 6, 7, 8]],
      (appendVarInt p.1).length + p.2.length ≤ 32767 := by
    intro p hp
    have hp' : p = (0, appendString (bytes (statusResponse ⟨"hi", ""⟩))) ∨
        p = (1, [1, 2, 3, 4, 5, 6, 7, 8]) := by
      simpa [hanswers] using hp
    rcases hp' with rfl | rfl
    · have hprefix := appendVarInt_length (bytes (statusResponse ⟨"hi", ""⟩)).length
      simp only [appendString, List.length_append]
      omega
    · exact le_trans (Nat.add_le_add_right hone _) (by decide)
  have hplain : ¬LooksLegacy (frameLength ⟨765, [97], 25565, 1⟩) := by
    have hprotocol := appendVarInt_length 765
    have haddress := appendVarInt_length (0 + 1 : Nat)
    intro hlegacy
    have hlarge := hlegacy.1
    simp only [frameLength, Handshake.encode, appendString, List.length_append, List.length_cons,
      List.length_nil] at hlarge
    omega
  have h := conversation ⟨"hi", ""⟩ ⟨by decide, by decide, by decide, by decide⟩ hqs (by decide)
    hroom le_rfl
  rw [if_neg hplain] at h
  exact h.trans hanswers

/-- Bytes that begin with the handshake. -/
def Greets (r : Bytes) (h : Handshake) : Prop :=
  ∃ id body rest, readPacket r maxHandshakePacket = .ok (id, body, rest) ∧
    parseHandshake id body = .ok h

/-- What may be written to a client that sends these bytes. -/
inductive Written (info : OfflineInfo) (r : Bytes) : List Bytes → Prop
  | nothing : Written info r []
  | kick : r.head? = some 0xfe → Written info r [legacyKick info]
  | refused {h : Handshake} : r.head? ≠ some 0xfe → Greets r h → h.nextState ≠ nextStateStatus →
      Written info r [disconnectPacket info]
  | status {h : Handshake} (k : Nat) : r.head? ≠ some 0xfe → Greets r h →
      h.nextState = nextStateStatus → k ≤ 2 →
      Written info r (List.replicate k (statusPacket info))
  | pong {h : Handshake} {payload : Bytes} (k : Nat) : r.head? ≠ some 0xfe → Greets r h →
      h.nextState = nextStateStatus → k ≤ 1 → payload.length = 8 → payload <:+: r →
      Written info r (List.replicate k (statusPacket info) ++ [writePacket 1 payload])

theorem readPacket_parts {id : Int} (h : readPacket r maxSize = .ok (id, body, rest)) :
    body <:+: r ∧ rest <:+ r := by
  unfold readPacket readVarInt at h
  split at h
  · cases h
  · rename_i length r' hr'
    have hsuffix : r' <:+ r := by
      split at hr'
      · cases hr'
        exact List.drop_suffix _ _
      · cases hr'
      · cases hr'
    split at h
    · cases h
    · split at h
      · cases h
      · simp only at h
        split at h
        · cases h
        · rename_i herr
          obtain ⟨-, pre, -, hpre⟩ := BodyReader.varint_none herr
          cases h
          have hbody : (BodyReader.new (r'.take length.toNat)).varint.2.rest <:+
              r'.take length.toNat := ⟨pre, hpre.symm⟩
          exact ⟨hbody.isInfix.trans ((List.take_prefix _ _).isInfix.trans hsuffix.isInfix),
            (List.drop_suffix _ _).trans hsuffix⟩

theorem serveStatusPhase_writes (info : OfflineInfo) (n : Nat) (r : Bytes) :
    ∃ k, (k ≤ n ∧ (serveStatusPhase info n r).1 = List.replicate k (statusPacket info)) ∨
      (k < n ∧ ∃ payload, payload.length = 8 ∧ payload <:+: r ∧
        (serveStatusPhase info n r).1 =
          List.replicate k (statusPacket info) ++ [writePacket 1 payload]) := by
  induction n generalizing r with
  | zero => exact ⟨0, .inl ⟨le_rfl, rfl⟩⟩
  | succ n ih =>
    have hnone : ∃ k, (k ≤ n + 1 ∧ [] = List.replicate k (statusPacket info)) ∨
        (k < n + 1 ∧ ∃ payload : Bytes, payload.length = 8 ∧ payload <:+: r ∧
          [] = List.replicate k (statusPacket info) ++ [writePacket 1 payload]) :=
      ⟨0, .inl ⟨Nat.zero_le _, rfl⟩⟩
    rw [serveStatusPhase]
    split
    · exact hnone
    · rename_i id body rest hread
      obtain ⟨hbody, hrest⟩ := readPacket_parts hread
      split
      · obtain ⟨k, ⟨hk, heq⟩ | ⟨hk, payload, hlen, hin, heq⟩⟩ := ih rest
        · refine ⟨k + 1, .inl ⟨Nat.succ_le_succ hk, ?_⟩⟩
          rw [List.replicate_succ, ← heq]
        · refine ⟨k + 1, .inr ⟨Nat.succ_lt_succ hk, payload, hlen, hin.trans hrest.isInfix, ?_⟩⟩
          rw [List.replicate_succ, List.cons_append, ← heq]
      · split
        · split
          · exact hnone
          · rename_i height
            exact ⟨0, .inr ⟨Nat.succ_pos n, body, not_not.1 height, hbody, rfl⟩⟩
        · exact hnone

/-- Whatever a stranger sends, it is written no more than two messages; only the first byte gets it
a legacy kick, only a whole handshake anything else, and only eight bytes of its own come back. -/
theorem offline_writes (spec : TunnelSpec) (r : Bytes) :
    Written ⟨spec.offlineMOTD, ""⟩ r (serveOffline spec r) ∧
      (spec.offlineMOTD = "" → serveOffline spec r = []) := by
  refine ⟨?_, fun hmotd => if_pos hmotd⟩
  unfold serveOffline
  generalize OfflineInfo.mk spec.offlineMOTD "" = info
  split
  · exact .nothing
  · unfold ServeOffline
    split
    · exact .nothing
    · rename_i first more
      split
      · rename_i hfirst
        exact .kick (congrArg some hfirst)
      · rename_i hfirst
        have hhead : (first :: more).head? ≠ some 0xfe := fun h => hfirst (Option.some_inj.1 h)
        split
        · exact .nothing
        · rename_i id body rest hread
          split
          · exact .nothing
          · rename_i h hparse
            have hgreets : Greets (first :: more) h := ⟨id, body, rest, hread, hparse⟩
            split
            · rename_i hstatus
              obtain ⟨k, ⟨hk, heq⟩ | ⟨hk, payload, hlen, hin, heq⟩⟩ :=
                serveStatusPhase_writes info 2 rest
              · rw [heq]
                exact .status k hhead hgreets hstatus hk
              · rw [heq]
                exact .pong k hhead hgreets hstatus (Nat.le_of_lt_succ hk) hlen
                  (hin.trans (readPacket_parts hread).2.isInfix)
            · rename_i hlogin
              exact .refused hhead hgreets hlogin

/-- A pre-1.7 client whose ping the gateway answers reads the tunnel's message, whatever else it
sends. -/
theorem legacy_ping {spec : TunnelSpec} (hmotd : spec.offlineMOTD ≠ "") (hr : r.head? = some 0xfe)
    (hfits : (utf16Encode (join (legacyFields ⟨spec.offlineMOTD, ""⟩))).length < 2 ^ 16) :
    (serveOffline spec r).map readKick =
      [some ((legacyFields ⟨spec.offlineMOTD, ""⟩).map (·.map Char.toNat))] := by
  have hversion : ∀ c ∈ (OfflineInfo.mk spec.offlineMOTD "").versionName.toList, c.toNat ≠ 0 := by
    change ∀ c ∈ "offline".toList, c.toNat ≠ 0
    exact nul_free rfl
  cases r with
  | nil => cases hr
  | cons first more =>
    have hfirst : first = 0xfe := Option.some_inj.1 hr
    rw [serveOffline, if_neg hmotd, ServeOffline, if_pos hfirst, List.map_singleton,
      readKick_legacyKick hversion hfits]

theorem legacy_ping_hi : (serveOffline { TunnelSpec.plain "t" 1 with offlineMOTD := "hi" }
    [0xfe, 1]).map readKick =
    [some ((legacyFields ⟨"hi", ""⟩).map (·.map Char.toNat))] :=
  legacy_ping (by decide) rfl (by decide)

end Offline

end ProxyForward

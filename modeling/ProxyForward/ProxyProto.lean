import ProxyForward.PacketRoundTrip

namespace ProxyForward.ProxyProto
set_option autoImplicit true

/-- The 12 bytes that open every PROXY v2 header. -/
def signature : Bytes :=
  [0x0D, 0x0A, 0x0D, 0x0A, 0x00, 0x0D, 0x0A, 0x51, 0x55, 0x49, 0x54, 0x0A]

def verCmdProxy : UInt8 := 0x21
def verCmdLocal : UInt8 := 0x20
def famTCP4 : UInt8 := 0x11
def famTCP6 : UInt8 := 0x21

/-- What goes before an IPv4 address in 16 bytes. -/
def v4InV6Prefix : Bytes := List.replicate 10 0 ++ [0xff, 0xff]

/-- The four bytes of an IPv4 address, in either form. -/
def To4 (ip : Bytes) : Option Bytes :=
  if ip.length = 4 then some ip
  else if ip.length = 16 ∧ ip.take 12 = v4InV6Prefix then some (ip.drop 12)
  else none

/-- The 16 bytes of an address; nothing for an invalid one. -/
def To16 (ip : Bytes) : Bytes :=
  if ip.length = 4 then v4InV6Prefix ++ ip
  else if ip.length = 16 then ip
  else []

/-- An address and a port, both of which may be invalid. -/
structure TCPAddr where
  IP : Bytes
  Port : Int
  deriving DecidableEq, Repr

/-- The port as the two bytes that `AppendUint16` appends. -/
def appendUint16 (n : Int) : Bytes :=
  [UInt8.ofNat ((n % 65536).toNat / 256), UInt8.ofNat (n % 65536).toNat]

def HeaderV2 (src dst : TCPAddr) : Bytes :=
  match To4 src.IP, To4 dst.IP with
  | some sip, some dip =>
    signature ++ [verCmdProxy, famTCP4] ++ appendUint16 12 ++
      (sip ++ dip ++ appendUint16 src.Port ++ appendUint16 dst.Port)
  | _, _ =>
    signature ++ [verCmdProxy, famTCP6] ++ appendUint16 36 ++
      (To16 src.IP ++ To16 dst.IP ++ appendUint16 src.Port ++ appendUint16 dst.Port)

/-- The header of a connection whose source does not matter. -/
def LocalV2 : Bytes := signature ++ [verCmdLocal, famTCP4] ++ appendUint16 0

/-- A 4-byte or 16-byte address with a port in range. -/
structure ValidAddr extends TCPAddr where
  ip : IP.length = 4 ∨ IP.length = 16
  port : 0 ≤ Port ∧ Port ≤ 65535

section Decoder

/-- A connection as a header describes it. -/
structure Proxied where
  src : TCPAddr
  dst : TCPAddr
  deriving DecidableEq, Repr

/-- `\r\n\r\n\0\r\nQUIT\n` -/
def v2Signature : Bytes :=
  [13, 10, 13, 10, 0, 13, 10] ++ ['Q', 'U', 'I', 'T'].map (fun c => UInt8.ofNat c.toNat) ++ [10]

def uint16 (hi lo : UInt8) : Nat := hi.toNat * 256 + lo.toNat

/-- An address block: two addresses of a size, two ports, and extensions. -/
def decodeBlock (size : Nat) (block : Bytes) : Option Proxied :=
  match block.drop (2 * size) with
  | s₀ :: s₁ :: d₀ :: d₁ :: _ =>
    some ⟨⟨block.take size, uint16 s₀ s₁⟩, ⟨(block.drop size).take size, uint16 d₀ d₁⟩⟩
  | _ => none

/-- A reader of the format: the connection, unless the header says that it is local or unspecified,
and what comes after the header. -/
def decodeV2 (bs : Bytes) : Option (Option Proxied × Bytes) :=
  if bs.take 12 ≠ v2Signature then none
  else match bs.drop 12 with
  | verCmd :: fam :: l₀ :: l₁ :: rest =>
    let length := uint16 l₀ l₁
    if verCmd.toNat / 16 ≠ 2 ∨ rest.length < length then none
    else if verCmd.toNat % 16 = 0 then some (none, rest.drop length)
    else if verCmd.toNat % 16 ≠ 1 then none
    else if fam = 0x00 then some (none, rest.drop length)
    else if fam = 0x11 then
      (decodeBlock 4 (rest.take length)).map fun p => (some p, rest.drop length)
    else if fam = 0x21 then
      (decodeBlock 16 (rest.take length)).map fun p => (some p, rest.drop length)
    else none
  | _ => none

/-- The length that a header declares, after the prefix of 16 bytes. -/
def declaredLength (bs : Bytes) : Option Nat :=
  match bs.drop 14 with
  | l₀ :: l₁ :: _ => some (uint16 l₀ l₁)
  | _ => none

end Decoder

theorem uint16_append {n : Int} (h : 0 ≤ n ∧ n ≤ 65535) :
    (uint16 (UInt8.ofNat ((n % 65536).toNat / 256)) (UInt8.ofNat (n % 65536).toNat) : Int) = n := by
  rw [uint16, uint16_bytes (by omega)]
  omega

theorem decodeBlock_append {sip dip : Bytes} (hs : sip.length = size) (hd : dip.length = size)
    {sport dport : Int} (hsport : 0 ≤ sport ∧ sport ≤ 65535) (hdport : 0 ≤ dport ∧ dport ≤ 65535) :
    decodeBlock size (sip ++ dip ++ appendUint16 sport ++ appendUint16 dport) =
      some ⟨⟨sip, sport⟩, ⟨dip, dport⟩⟩ := by
  have hports : (sip ++ dip ++ appendUint16 sport ++ appendUint16 dport).drop (2 * size) =
      appendUint16 sport ++ appendUint16 dport := by
    rw [List.append_assoc (sip ++ dip)]
    exact List.drop_left' (by rw [List.length_append]; omega)
  have hsrc : (sip ++ dip ++ appendUint16 sport ++ appendUint16 dport).take size = sip := by
    rw [List.append_assoc, List.append_assoc]
    exact List.take_left' hs
  have hdst : ((sip ++ dip ++ appendUint16 sport ++ appendUint16 dport).drop size).take
    size = dip := by
    rw [List.append_assoc, List.append_assoc, List.drop_left' hs]
    exact List.take_left' hd
  unfold decodeBlock
  rw [hports, hsrc, hdst]
  simp only [appendUint16, List.cons_append, List.nil_append]
  rw [uint16_append hsport, uint16_append hdport]

theorem length_block {sip dip : Bytes} (hs : sip.length = size) (hd : dip.length = size)
    (sport dport : Int) :
    (sip ++ dip ++ appendUint16 sport ++ appendUint16 dport).length = 2 * size + 4 := by
  rw [List.length_append, List.length_append, List.length_append, hs, hd]
  simp only [appendUint16, List.length_cons, List.length_nil]
  omega

theorem To4_some {ip v : Bytes} (h : To4 ip = some v) :
    v.length = 4 ∧ To16 ip = v4InV6Prefix ++ v := by
  unfold To4 at h
  split at h
  · rename_i hfour
    cases h
    exact ⟨hfour, by rw [To16, if_pos hfour]⟩
  · rename_i hfour
    split at h
    · rename_i hmapped
      obtain ⟨hlen, hprefix⟩ := hmapped
      cases h
      refine ⟨by rw [List.length_drop, hlen], ?_⟩
      rw [To16, if_neg hfour, if_pos hlen, ← hprefix, List.take_append_drop]
    · cases h

theorem To16_length {ip : Bytes} (h : ip.length = 4 ∨ ip.length = 16) : (To16 ip).length = 16 := by
  unfold To16
  split
  · rename_i hfour
    rw [List.length_append, hfour]
    rfl
  · rename_i hfour
    have hlen := h.resolve_left hfour
    rw [if_pos hlen, hlen]

/-- An address as a header carries it beside another: in four bytes if both are IPv4. -/
def carried (ip other : Bytes) : Bytes :=
  match To4 ip, To4 other with
  | some v, some _ => v
  | _, _ => To16 ip

theorem To16_carried {ip : Bytes} (h : ip.length = 4 ∨ ip.length = 16) (other : Bytes) :
    To16 (carried ip other) = To16 ip := by
  unfold carried
  split
  · rename_i v w hv hw
    obtain ⟨hlen, heq⟩ := To4_some hv
    rw [heq, To16, if_pos hlen]
  · have hlen := To16_length h
    rw [To16, if_neg (by omega), if_pos hlen]

theorem decodeV2_block {size : Nat} {fam : UInt8}
    (hfam : fam = famTCP4 ∧ size = 4 ∨ fam = famTCP6 ∧ size = 16) {block : Bytes} {p : Proxied}
    (hblock : decodeBlock size block = some p) (hlen : block.length = 2 * size + 4)
    (payload : Bytes) :
    let header := signature ++ [verCmdProxy, fam] ++ appendUint16 (2 * size + 4 : Nat) ++ block
    decodeV2 (header ++ payload) = some (some p, payload) ∧
      header.length = 16 + (2 * size + 4) ∧ declaredLength header = some (2 * size + 4) := by
  intro header
  have hsize : size ≤ 16 := by omega
  have hdeclared := uint16_append (n := (2 * size + 4 : Nat)) (by omega)
  have hheader : header.length = 16 + (2 * size + 4) := by
    rw [show header.length = 16 + block.length from (List.length_append).trans rfl, hlen]
  have hdrop : (header ++ payload).drop 12 = verCmdProxy :: fam ::
      UInt8.ofNat (((2 * size + 4 : Nat) % 65536 : Int).toNat / 256) ::
        UInt8.ofNat ((2 * size + 4 : Nat) % 65536 : Int).toNat :: (block ++ payload) := rfl
  have hdrop' : header.drop 14 =
      UInt8.ofNat (((2 * size + 4 : Nat) % 65536 : Int).toNat / 256) ::
        UInt8.ofNat ((2 * size + 4 : Nat) % 65536 : Int).toNat :: block := rfl
  have htake : (header ++ payload).take 12 = v2Signature := rfl
  refine ⟨?_, hheader, ?_⟩
  · unfold decodeV2
    rw [hdrop, if_neg (not_not.2 htake)]
    simp only
    rw [Int.natCast_inj.1 hdeclared, ← hlen, List.take_left, List.drop_left]
    rw [if_neg (not_or.2 ⟨by decide, by rw [List.length_append]; omega⟩), if_neg (by decide),
      if_neg (by decide)]
    obtain ⟨rfl, rfl⟩ | ⟨rfl, rfl⟩ := hfam
    · rw [if_neg (by decide), if_pos (by decide), hblock]
      rfl
    · rw [if_neg (by decide), if_neg (by decide), if_pos (by decide), hblock]
      rfl
  · rw [declaredLength, hdrop']
    exact congrArg some (Int.natCast_inj.1 hdeclared)

theorem headerV2_four {src dst : TCPAddr} (hs : To4 src.IP = some sip)
    (hd : To4 dst.IP = some dip) :
    HeaderV2 src dst = signature ++ [verCmdProxy, famTCP4] ++ appendUint16 (2 * 4 + 4 : Nat) ++
      (sip ++ dip ++ appendUint16 src.Port ++ appendUint16 dst.Port) := by
  rw [HeaderV2, hs, hd]
  rfl

theorem headerV2_sixteen {src dst : TCPAddr} (h : To4 src.IP = none ∨ To4 dst.IP = none) :
    HeaderV2 src dst = signature ++ [verCmdProxy, famTCP6] ++ appendUint16 (2 * 16 + 4 : Nat) ++
      (To16 src.IP ++ To16 dst.IP ++ appendUint16 src.Port ++ appendUint16 dst.Port) := by
  rw [HeaderV2]
  split
  · rename_i hs hd
    rw [hs, hd] at h
    obtain h | h := h
    · cases h
    · cases h
  · rfl

theorem carried_four (hs : To4 ip = some v) (hd : To4 other = some w) : carried ip other = v := by
  rw [carried, hs, hd]

theorem carried_sixteen (h : To4 ip = none ∨ To4 other = none) : carried ip other = To16 ip := by
  rw [carried]
  split
  · rename_i hs hd
    rw [hs, hd] at h
    obtain h | h := h
    · cases h
    · cases h
  · rfl

theorem localV2_decodes (payload : Bytes) : decodeV2 (LocalV2 ++ payload) = some (none, payload) :=
  rfl

/-- A reader of the format gets the addresses and the ports out of a header, in the header's family,
and the payload after it; the header declares just what it has after its prefix. -/
theorem headerV2_decodes (src dst : ValidAddr) (payload : Bytes) :
    let header := HeaderV2 src.toTCPAddr dst.toTCPAddr
    decodeV2 (header ++ payload) =
        some (some ⟨⟨carried src.IP dst.IP, src.Port⟩, ⟨carried dst.IP src.IP, dst.Port⟩⟩,
          payload) ∧
      (To16 (carried src.IP dst.IP) = To16 src.IP ∧ To16 (carried dst.IP src.IP) = To16 dst.IP) ∧
      16 ≤ header.length ∧ declaredLength header = some (header.length - 16) := by
  intro header
  have hsame := And.intro (To16_carried src.ip dst.IP) (To16_carried dst.ip src.IP)
  by_cases hfour : ∃ sip dip, To4 src.IP = some sip ∧ To4 dst.IP = some dip
  · obtain ⟨sip, dip, hs, hd⟩ := hfour
    have hslen := (To4_some hs).1
    have hdlen := (To4_some hd).1
    obtain ⟨hdecode, hlength, hdeclared⟩ := decodeV2_block (.inl ⟨rfl, rfl⟩)
      (decodeBlock_append hslen hdlen src.port dst.port) (length_block hslen hdlen _ _) payload
    rw [← headerV2_four hs hd] at hdecode hlength hdeclared
    have hlen : header.length = 16 + _ := hlength
    rw [← carried_four hs hd, ← carried_four hd hs] at hdecode
    exact ⟨hdecode, hsame, by omega, hdeclared.trans (congrArg some (by omega))⟩
  · have hsixteen : To4 src.IP = none ∨ To4 dst.IP = none := by
      cases hs : To4 src.IP with
      | none => exact .inl rfl
      | some sip =>
        cases hd : To4 dst.IP with
        | none => exact .inr rfl
        | some dip => exact absurd ⟨sip, dip, hs, hd⟩ hfour
    have hslen := To16_length src.ip
    have hdlen := To16_length dst.ip
    obtain ⟨hdecode, hlength, hdeclared⟩ := decodeV2_block (.inr ⟨rfl, rfl⟩)
      (decodeBlock_append hslen hdlen src.port dst.port) (length_block hslen hdlen _ _) payload
    rw [← headerV2_sixteen hsixteen] at hdecode hlength hdeclared
    have hlen : header.length = 16 + _ := hlength
    rw [← carried_sixteen hsixteen, ← carried_sixteen hsixteen.symm] at hdecode
    exact ⟨hdecode, hsame, by omega, hdeclared.trans (congrArg some (by omega))⟩

end ProxyForward.ProxyProto

import ProxyForward.Packet

namespace ProxyForward
set_option autoImplicit true

/-- The encoding loop. -/
def appendUint (u : BitVec 32) : Bytes :=
  let b := UInt8.ofNat (u &&& 0x7f).toNat
  if u >>> 7 = 0 then [b] else (b ||| 0x80) :: appendUint (u >>> 7)
termination_by u.toNat
decreasing_by
  rename_i hne
  have hpos : u.toNat ≠ 0 := by
    intro hzero
    apply hne
    rw [BitVec.eq_of_toNat_eq (x := u) (y := 0) hzero]
    rfl
  rw [BitVec.toNat_ushiftRight, Nat.shiftRight_eq_div_pow]
  exact Nat.div_lt_self (Nat.pos_of_ne_zero hpos) (by decide)

/-- The bytes that `AppendVarInt` appends for a 32-bit value. -/
def appendVarInt (v : Int) : Bytes := appendUint (BitVec.ofInt 32 v)

def appendString (s : Bytes) : Bytes := appendVarInt s.length ++ s

/-- A framed packet on the wire. -/
def writePacket (id : Int) (body : Bytes) : Bytes :=
  let idBytes := appendVarInt id
  appendVarInt (idBytes.length + body.length : Nat) ++ idBytes ++ body

/-- The fields of a handshake, as a client encodes them. -/
def Handshake.encode (h : Handshake) : Bytes :=
  appendVarInt h.protocolVersion ++ appendString h.serverAddress ++
    [UInt8.ofNat (h.serverPort / 256), UInt8.ofNat h.serverPort] ++ appendVarInt h.nextState

/-- Bytes with the high bit up to a last one without. -/
def Delimits : Bytes → Prop
  | [] => False
  | b :: bs => if b &&& 0x80 = 0 then bs = [] else Delimits bs

/-- The number that the groups of seven bits spell, lowest first. -/
def groupsValue : Bytes → Nat
  | [] => 0
  | b :: bs => (b &&& 0x7f).toNat + 128 * groupsValue bs

/-- The bytes are a VarInt of the value as a 32-bit number, perhaps with zero groups on top. -/
structure Pads (v : Int) (bs : Bytes) : Prop where
  delimits : Delimits bs
  length : bs.length ≤ 5
  value : groupsValue bs = (BitVec.ofInt 32 v).toNat

/-- The bytes are a VarInt that spells the value up to the bits past the 32nd, which a fifth byte
has room for. -/
structure Spells (v : Int) (bs : Bytes) : Prop where
  delimits : Delimits bs
  length : bs.length ≤ 5
  value : (BitVec.ofNat 32 (groupsValue bs)).toInt = v

theorem group_byte : ∀ g < 128,
    (UInt8.ofNat g &&& 0x80 = 0 ∧ (UInt8.ofNat g &&& 0x7f).toNat = g) ∧
      (UInt8.ofNat g ||| 0x80) &&& 0x80 ≠ 0 ∧ ((UInt8.ofNat g ||| 0x80) &&& 0x7f).toNat = g := by
  decide

theorem toNat_low (u : BitVec 32) : (u &&& 0x7f).toNat = u.toNat % 128 := by
  rw [BitVec.toNat_and]
  exact Nat.and_two_pow_sub_one_eq_mod u.toNat 7

theorem toNat_shift (u : BitVec 32) : (u >>> 7).toNat = u.toNat / 128 := by
  rw [BitVec.toNat_ushiftRight, Nat.shiftRight_eq_div_pow]

theorem appendUint_spells (u : BitVec 32) :
    Delimits (appendUint u) ∧ groupsValue (appendUint u) = u.toNat := by
  induction u using appendUint.induct with
  | case1 u hzero =>
    have hsmall := toNat_shift u
    obtain ⟨⟨hlast, hvalue⟩, -⟩ := group_byte _
      (by rw [toNat_low]; omega : (u &&& 0x7f).toNat < 128)
    rw [hzero] at hsmall
    rw [appendUint, if_pos hzero, Delimits, if_pos hlast, groupsValue, hvalue, groupsValue,
      toNat_low]
    refine ⟨rfl, ?_⟩
    have hzero' : (0 : BitVec 32).toNat = 0 := rfl
    omega
  | case2 u hne ih =>
    obtain ⟨hdelimits, hrest⟩ := ih
    obtain ⟨-, hmore, hvalue⟩ := group_byte _ (by rw [toNat_low]; omega : (u &&& 0x7f).toNat < 128)
    rw [appendUint, if_neg hne, Delimits, if_neg hmore, groupsValue, hvalue, hrest, toNat_low,
      toNat_shift]
    exact ⟨hdelimits, Nat.mod_add_div _ _⟩

theorem appendUint_length (k : Nat) (u : BitVec 32) (h : u.toNat < 2 ^ (7 * (k + 1))) :
    (appendUint u).length ≤ k + 1 := by
  induction k generalizing u with
  | zero =>
    have hzero : u >>> 7 = 0 := by
      apply BitVec.eq_of_toNat_eq
      rw [toNat_shift]
      exact Nat.div_eq_of_lt h
    rw [appendUint, if_pos hzero, List.length_singleton]
  | succ k ih =>
    rw [appendUint]
    split
    · rw [List.length_singleton]
      omega
    · rw [List.length_cons]
      refine Nat.succ_le_succ (ih _ ?_)
      rw [toNat_shift]
      refine Nat.div_lt_of_lt_mul ?_
      rw [Nat.mul_comm]
      rwa [Nat.mul_succ 7 (k + 1), Nat.pow_add] at h

theorem appendVarInt_pads (v : Int) : Pads v (appendVarInt v) where
  delimits := (appendUint_spells _).1
  length := appendUint_length 4 _ (by have := (BitVec.ofInt 32 v).isLt; omega)
  value := (appendUint_spells _).2

theorem Pads.spells (h : Pads v bs) (hv : -2147483648 ≤ v ∧ v < 2147483648) : Spells v bs where
  delimits := h.delimits
  length := h.length
  value := by
    rw [h.value, BitVec.ofNat_toNat, BitVec.setWidth_eq, BitVec.toInt_ofInt]
    exact Int.bmod_eq_of_le (by omega) (by omega)

theorem low_lt (b : UInt8) : (b &&& 0x7f).toNat < 128 := by
  rw [UInt8.toNat_and]
  exact Nat.lt_of_le_of_lt Nat.and_le_right (by decide)

theorem or_group {a k : Nat} (ha : a < 2 ^ k) (g : Nat) :
    BitVec.ofNat 32 a ||| (BitVec.ofNat 32 g <<< k) = BitVec.ofNat 32 (a + 2 ^ k * g) := by
  rw [Nat.add_comm, Nat.two_pow_add_eq_or_of_lt ha, BitVec.ofNat_or, BitVec.or_comm]
  congr 1
  apply BitVec.eq_of_toNat_eq
  rw [BitVec.toNat_shiftLeft, BitVec.toNat_ofNat, BitVec.toNat_ofNat, Nat.shiftLeft_eq,
    Nat.mod_mul_mod, Nat.mul_comm]

theorem group_lt {a i g : Nat} (ha : a < 2 ^ (7 * i)) (hg : g < 128) :
    a + 2 ^ (7 * i) * g < 2 ^ (7 * (i + 1)) := by
  calc a + 2 ^ (7 * i) * g < 2 ^ (7 * i) + 2 ^ (7 * i) * g := Nat.add_lt_add_right ha _
    _ = 2 ^ (7 * i) * (g + 1) := by rw [Nat.mul_succ, Nat.add_comm]
    _ ≤ 2 ^ (7 * i) * 128 := Nat.mul_le_mul_left _ hg
    _ = 2 ^ (7 * (i + 1)) := by rw [Nat.mul_succ 7 i, Nat.pow_add]

theorem groupsValue_cons (a i : Nat) (b : UInt8) (bs : Bytes) :
    a + 2 ^ (7 * i) * groupsValue (b :: bs) =
      a + 2 ^ (7 * i) * (b &&& 0x7f).toNat + 2 ^ (7 * (i + 1)) * groupsValue bs := by
  rw [groupsValue, Nat.mul_succ, Nat.pow_add, Nat.mul_add, Nat.add_assoc, Nat.mul_assoc]

theorem varIntFrom_delimits (hd : Delimits pre) (hlen : i + pre.length ≤ 5) (ha : a < 2 ^ (7 * i))
    (rest : Bytes) :
    varIntFrom (BitVec.ofNat 32 a) i (pre ++ rest) =
      .value (BitVec.ofNat 32 (a + 2 ^ (7 * i) * groupsValue pre)).toInt (i + pre.length) := by
  induction pre generalizing i a with
  | nil => exact hd.elim
  | cons b pre ih =>
    have hlow := low_lt b
    rw [List.length_cons] at hlen
    rw [List.cons_append, varIntFrom, or_group ha]
    rw [Delimits] at hd
    split at hd
    · rename_i hb
      rw [if_pos hb, hd]
      rfl
    · rename_i hb
      have hmore : 0 < pre.length := by
        cases pre with
        | nil => exact hd.elim
        | cons c pre => exact Nat.succ_pos _
      rw [if_neg hb, if_neg (by omega), ih hd (by omega) (group_lt ha hlow), groupsValue_cons,
        List.length_cons, Nat.add_assoc i 1, Nat.add_comm 1]

theorem varIntFrom_reads (h : varIntFrom (BitVec.ofNat 32 a) i bs = .value v n)
    (ha : a < 2 ^ (7 * i)) (hi : i ≤ 4) :
    ∃ pre rest, bs = pre ++ rest ∧ n = i + pre.length ∧ n ≤ 5 ∧ Delimits pre ∧
      v = (BitVec.ofNat 32 (a + 2 ^ (7 * i) * groupsValue pre)).toInt := by
  induction bs generalizing i a with
  | nil => cases h
  | cons b bs ih =>
    rw [varIntFrom, or_group ha] at h
    split at h
    · rename_i hb
      cases h
      refine ⟨[b], bs, rfl, rfl, Nat.succ_le_succ hi, ?_, ?_⟩
      · rw [Delimits, if_pos hb]
      · rfl
    · rename_i hb
      split at h
      · cases h
      · obtain ⟨pre, rest, rfl, hn, hle, hd, hv⟩ := ih h (group_lt ha (low_lt b)) (by omega)
        refine ⟨b :: pre, rest, rfl, ?_, hle, ?_, ?_⟩
        · rw [hn, List.length_cons]
          omega
        · rwa [Delimits, if_neg hb]
        · rw [groupsValue_cons, hv]

/-- The decoder reads exactly the VarInts. -/
theorem varIntFrom_spells (h : Spells v pre) (rest : Bytes) :
    varIntFrom 0 0 (pre ++ rest) = .value v pre.length := by
  have hread := varIntFrom_delimits (a := 0) (i := 0) h.delimits (by have := h.length; omega)
    (by decide) rest
  rw [Nat.mul_zero, Nat.pow_zero, Nat.one_mul, Nat.zero_add, Nat.zero_add, h.value] at hread
  exact hread

theorem spells_of_varIntFrom (h : varIntFrom 0 0 bs = .value v n) :
    ∃ pre, Spells v pre ∧ bs = pre ++ bs.drop n ∧ n = pre.length := by
  obtain ⟨pre, rest, rfl, hn, hle, hd, hv⟩ :=
    varIntFrom_reads (a := 0) (i := 0) h (by decide) (by decide)
  rw [Nat.zero_add] at hn
  rw [Nat.mul_zero, Nat.pow_zero, Nat.one_mul, Nat.zero_add] at hv
  refine ⟨pre, ⟨hd, by omega, hv.symm⟩, ?_, hn⟩
  rw [hn, List.drop_left]

namespace BodyReader

theorem varint_spells (h : Spells v pre) (rest : Bytes) :
    (BodyReader.mk (pre ++ rest) none).varint = (v, ⟨rest, none⟩) := by
  simp only [varint, ne_eq, not_true_eq_false, if_false, varIntFrom_spells h, List.drop_left]

theorem varint_none {r : BodyReader} (h : r.varint.2.err = none) :
    r.err = none ∧ ∃ pre, Spells r.varint.1 pre ∧ r.rest = pre ++ r.varint.2.rest := by
  unfold varint at h ⊢
  split at h
  · rename_i herr
    exact absurd h herr
  · rename_i hok
    rw [if_neg hok]
    refine ⟨not_not.1 hok, ?_⟩
    cases hv : varIntFrom 0 0 r.rest with
    | value v n =>
      obtain ⟨pre, hpre, heq, hn⟩ := spells_of_varIntFrom hv
      exact ⟨pre, hpre, heq⟩
    | truncated n =>
      rw [hv] at h
      simp only [fail, not_not.1 hok, if_true] at h
      cases h
    | tooBig =>
      rw [hv] at h
      simp only [fail, not_not.1 hok, if_true] at h
      cases h

theorem string_spells (h : Spells (s.length : Nat) pre) (hlen : s.length ≤ maxBytes)
    (rest : Bytes) :
    (BodyReader.mk (pre ++ (s ++ rest)) none).string maxBytes = (s, ⟨rest, none⟩) := by
  unfold string
  rw [varint_spells h]
  simp only [ne_eq, not_true_eq_false, if_false, Int.toNat_natCast]
  rw [if_neg (by omega), if_neg (by rw [List.length_append]; omega), List.take_left, List.drop_left]

theorem string_none {r : BodyReader} (h : (r.string maxBytes).2.err = none) :
    r.err = none ∧ ∃ pre, Spells ((r.string maxBytes).1.length : Nat) pre ∧
      (r.string maxBytes).1.length ≤ maxBytes ∧
        r.rest = pre ++ ((r.string maxBytes).1 ++ (r.string maxBytes).2.rest) := by
  unfold string at h ⊢
  simp only at h ⊢
  split at h
  · rename_i herr
    exact absurd h herr
  · rename_i hok
    rw [if_neg hok]
    obtain ⟨herr, pre, hpre, heq⟩ := varint_none (not_not.1 hok)
    refine ⟨herr, pre, ?_⟩
    split at h
    · simp only [fail, not_not.1 hok, if_true] at h
      cases h
    · rename_i hrange
      rw [if_neg hrange]
      split at h
      · simp only [fail, not_not.1 hok, if_true] at h
        cases h
      · rename_i hroom
        rw [if_neg hroom, List.take_append_drop, List.length_take, Nat.min_eq_left (by omega),
          Int.toNat_of_nonneg (by omega)]
        exact ⟨hpre, by omega, heq⟩

theorem uint16_none {r : BodyReader} (h : r.uint16.2.err = none) :
    r.err = none ∧ ∃ b₀ b₁ : UInt8, r.uint16.1 = b₀.toNat * 256 + b₁.toNat ∧
      r.rest = b₀ :: b₁ :: r.uint16.2.rest := by
  unfold uint16 at h ⊢
  split at h
  · rename_i herr
    exact absurd h herr
  · rename_i hok
    rw [if_neg hok]
    refine ⟨not_not.1 hok, ?_⟩
    split at h
    · rename_i b₀ b₁ rest heq
      rw [heq]
      exact ⟨b₀, b₁, rfl, rfl⟩
    · simp only [fail, not_not.1 hok, if_true] at h
      cases h

end BodyReader

theorem readVarInt_writePacket (id : Int) (body rest : Bytes)
    (hlen : (appendVarInt id).length + body.length < 2147483648) :
    readVarInt (writePacket id body ++ rest) =
      .ok (((appendVarInt id).length + body.length : Nat), appendVarInt id ++ body ++ rest) := by
  have hframe := (appendVarInt_pads ((appendVarInt id).length + body.length : Nat)).spells
    ⟨by omega, by omega⟩
  rw [readVarInt, writePacket, List.append_assoc, List.append_assoc, varIntFrom_spells hframe]
  simp only [List.drop_left, List.append_assoc]

theorem readPacket_long (id : Int) (body rest : Bytes)
    (hlong : maxSize < (appendVarInt id).length + body.length)
    (hlen : (appendVarInt id).length + body.length < 2147483648) :
    readPacket (writePacket id body ++ rest) maxSize =
      .error (.packetLength ((appendVarInt id).length + body.length : Nat) maxSize) := by
  rw [readPacket, readVarInt_writePacket id body rest hlen]
  exact if_pos (.inr (Int.ofNat_lt.2 hlong))

theorem readPacket_writePacket {id : Int} (hid : -2147483648 ≤ id ∧ id < 2147483648)
    (body rest : Bytes)
    (hlen : (appendVarInt id).length + body.length ≤ maxSize) (hmax : maxSize < 2147483648) :
    readPacket (writePacket id body ++ rest) maxSize = .ok (id, body, rest) := by
  have hidBytes := (appendVarInt_pads id).spells hid
  have hpos : 0 < (appendVarInt id).length := by
    have hd := hidBytes.delimits
    cases hcs : appendVarInt id with
    | nil =>
      rw [hcs] at hd
      exact hd.elim
    | cons b bs => exact Nat.succ_pos _
  have hread := readVarInt_writePacket id body rest (hlen.trans_lt hmax)
  have hroom : (appendVarInt id ++ body ++ rest).length =
      (appendVarInt id).length + body.length + rest.length := by
    rw [List.length_append, List.length_append]
  have hframed : (appendVarInt id ++ body ++ rest).take ((appendVarInt id).length + body.length) =
      appendVarInt id ++ body := by
    rw [← List.length_append, List.take_left]
  have hrest : (appendVarInt id ++ body ++ rest).drop ((appendVarInt id).length + body.length) =
      rest := by
    rw [← List.length_append, List.drop_left]
  unfold readPacket
  rw [hread]
  simp only [Int.toNat_natCast]
  rw [if_neg (by omega), if_neg (by omega), hframed, hrest, BodyReader.new,
    BodyReader.varint_spells hidBytes]

/-- A handshake that a packet can carry. -/
structure Handshake.Known (h : Handshake) : Prop where
  protocolVersion : -2147483648 ≤ h.protocolVersion ∧ h.protocolVersion < 2147483648
  serverAddress : h.serverAddress.length ≤ maxServerAddress
  serverPort : h.serverPort < 65536
  nextState : h.nextState = nextStateStatus ∨ h.nextState = nextStateLogin ∨
    h.nextState = nextStateTransfer

/-- The bytes are the fields of the handshake, with its VarInts written in some way. -/
def Handshake.EncodedBy (spells : Int → Bytes → Prop) (h : Handshake) (body : Bytes) : Prop :=
  ∃ protocol length next, spells h.protocolVersion protocol ∧
    spells (h.serverAddress.length : Nat) length ∧ spells h.nextState next ∧
      body = protocol ++ (length ++ (h.serverAddress ++
        (UInt8.ofNat (h.serverPort / 256) :: UInt8.ofNat h.serverPort :: next)))

theorem Handshake.encode_encodedBy (h : Handshake) : h.EncodedBy Pads h.encode :=
  ⟨_, _, _, appendVarInt_pads _, appendVarInt_pads _, appendVarInt_pads _, by
    rw [Handshake.encode, appendString, List.append_assoc, List.append_assoc, List.append_assoc]
    rfl⟩

theorem Handshake.EncodedBy.spells {h : Handshake} (hk : h.Known) (he : h.EncodedBy Pads body) :
    h.EncodedBy Spells body := by
  obtain ⟨protocol, length, next, hprotocol, hlength, hnext, heq⟩ := he
  have hstate : -2147483648 ≤ h.nextState ∧ h.nextState < 2147483648 := by
    obtain hn | hn | hn := hk.nextState <;> rw [hn] <;> decide
  have haddress : (h.serverAddress.length : Int) < 2147483648 := by
    have hle := hk.serverAddress
    have hmax : maxServerAddress = 4096 := rfl
    omega
  exact ⟨protocol, length, next, hprotocol.spells hk.protocolVersion,
    hlength.spells ⟨by omega, haddress⟩, hnext.spells hstate, heq⟩

theorem uint16_bytes {port : Nat} (h : port < 65536) :
    (UInt8.ofNat (port / 256)).toNat * 256 + (UInt8.ofNat port).toNat = port := by
  rw [UInt8.toNat_ofNat', UInt8.toNat_ofNat']
  omega

theorem bytes_uint16 (b₀ b₁ : UInt8) :
    UInt8.ofNat ((b₀.toNat * 256 + b₁.toNat) / 256) = b₀ ∧
      UInt8.ofNat (b₀.toNat * 256 + b₁.toNat) = b₁ := by
  have h₀ := b₀.toNat_lt
  have h₁ := b₁.toNat_lt
  constructor
  · apply UInt8.toNat_inj.1
    rw [UInt8.toNat_ofNat']
    omega
  · apply UInt8.toNat_inj.1
    rw [UInt8.toNat_ofNat']
    omega

theorem Spells.range (h : Spells v bs) : -2147483648 ≤ v ∧ v < 2147483648 := by
  rw [← h.value]
  exact ⟨BitVec.le_toInt _, BitVec.toInt_lt⟩

theorem parseHandshake_iff (h : Handshake) (body : Bytes) :
    parseHandshake 0 body = .ok h ↔ h.Known ∧ h.EncodedBy Spells body := by
  constructor
  · intro hparse
    unfold parseHandshake at hparse
    rw [if_neg (not_not.2 rfl)] at hparse
    simp only at hparse
    split at hparse
    · cases hparse
    rename_i herr
    split at hparse
    · cases hparse
    rename_i hrest
    split at hparse
    · rename_i hstate
      cases hparse
      obtain ⟨herr, next, hnext, heq₃⟩ := BodyReader.varint_none herr
      obtain ⟨herr, b₀, b₁, hport, heq₂⟩ := BodyReader.uint16_none herr
      obtain ⟨herr, length, hlength, haddress, heq₁⟩ := BodyReader.string_none herr
      obtain ⟨-, protocol, hprotocol, heq₀⟩ := BodyReader.varint_none herr
      obtain ⟨hb₀, hb₁⟩ := bytes_uint16 b₀ b₁
      have h₀ := b₀.toNat_lt
      have h₁ := b₁.toNat_lt
      refine ⟨⟨hprotocol.range, haddress, ?_, hstate⟩, protocol, length, next, hprotocol, hlength,
        hnext, ?_⟩
      · simp only [hport]
        omega
      · simp only [hport, hb₀, hb₁]
        rw [not_not.1 hrest, List.append_nil] at heq₃
        rw [← heq₃, ← heq₂, ← heq₁]
        exact heq₀
    · cases hparse
  · rintro ⟨hk, protocol, length, next, hprotocol, hlength, hnext, rfl⟩
    obtain ⟨protocolVersion, serverAddress, serverPort, nextState⟩ := h
    have hnext' := BodyReader.varint_spells hnext []
    rw [List.append_nil] at hnext'
    unfold parseHandshake
    rw [if_neg (not_not.2 rfl), BodyReader.new]
    simp only [BodyReader.varint_spells hprotocol,
      BodyReader.string_spells hlength hk.serverAddress]
    simp only [BodyReader.uint16, ne_eq, not_true_eq_false, if_false, hnext']
    rw [if_pos hk.nextState, uint16_bytes hk.serverPort]

/-- Packets and handshakes are read as they were written, the reader of a packet leaves what
follows, and nothing else is taken for a handshake: a VarInt may be padded with zero groups, or have
bits past the 32nd in a fifth byte. -/
theorem packets_round_trip :
    (∀ (maxSize : Nat) (id : Int) (body rest : Bytes), maxSize < 2147483648 →
      -2147483648 ≤ id ∧ id < 2147483648 → (appendVarInt id).length + body.length ≤ maxSize →
        readPacket (writePacket id body ++ rest) maxSize = .ok (id, body, rest)) ∧
    (∀ h : Handshake, h.Known → parseHandshake 0 h.encode = .ok h) ∧
    ∀ (body : Bytes) (h : Handshake),
      parseHandshake 0 body = .ok h ↔ h.Known ∧ h.EncodedBy Spells body := by
  refine ⟨fun maxSize id body rest hmax hid hlen => ?_, fun h hk => ?_, fun body h => ?_⟩
  · exact readPacket_writePacket hid body rest hlen hmax
  · exact (parseHandshake_iff h _).2 ⟨hk, h.encode_encodedBy.spells hk⟩
  · exact parseHandshake_iff h body

/-- A packet with a five-byte id in a frame of exactly the size allowed. -/
theorem packets_round_trip_cap :
    readPacket (writePacket (-1) [104, 105] ++ [7]) 7 = .ok (-1, [104, 105], [7]) ∧
      parseHandshake 0 (Handshake.encode ⟨-1, [104], 25565, 2⟩) = .ok ⟨-1, [104], 25565, 2⟩ := by
  have hlen := appendUint_length 4 (BitVec.ofInt 32 (-1)) (by decide)
  obtain ⟨hpacket, hhandshake, -⟩ := packets_round_trip
  constructor
  · exact hpacket 7 (-1) [104, 105] [7] (by decide) (by decide) (Nat.add_le_add_right hlen 2)
  · exact hhandshake ⟨-1, [104], 25565, 2⟩ ⟨by decide, by decide, by decide, by decide⟩

/-- A protocol version of five bytes whose last has bits past the 32nd: accepted, and padded with no
zeros. -/
theorem overflowing_varint_accepted : ¬∀ body : Bytes,
    (∃ h, parseHandshake 0 body = .ok h) ↔ ∃ h : Handshake, h.Known ∧ h.EncodedBy Pads body := by
  intro hclaim
  obtain ⟨h, -, protocol, length, next, hprotocol, -, -, heq⟩ :=
    (hclaim [0xff, 0xff, 0xff, 0xff, 0x7f, 0, 0, 0, 1]).1 ⟨⟨-1, [], 0, 1⟩, by decide⟩
  have hread := varIntFrom_delimits (a := 0) (i := 0) hprotocol.delimits
    (by have := hprotocol.length; omega) (by decide) (length ++ (h.serverAddress ++
      (UInt8.ofNat (h.serverPort / 256) :: UInt8.ofNat h.serverPort :: next)))
  rw [← heq] at hread
  have hfive : 0 + protocol.length = 5 := (VarInt.value.inj hread).2.symm
  have hfirst := congrArg (List.take protocol.length) heq
  rw [List.take_left, show protocol.length = 5 by omega] at hfirst
  have hvalue := hprotocol.value
  have hlt := (BitVec.ofInt 32 h.protocolVersion).isLt
  rw [← hvalue, ← hfirst] at hlt
  exact absurd hlt (by decide)

end ProxyForward

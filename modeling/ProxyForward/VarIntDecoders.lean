import ProxyForward.PacketRoundTrip

namespace ProxyForward.VarIntDecoders
set_option autoImplicit true

/-- `v | uint32(b&0x7f) << (7 * n)`. -/
def orGroup (v : BitVec 32) (b : UInt8) (n : Nat) : BitVec 32 :=
  v ||| (BitVec.ofNat 32 (b &&& 0x7f).toNat <<< (7 * n))

/-- What `ReadVarInt` returns, and what its reader has left. -/
structure Read where
  value : Int
  n : Nat
  err : Option McError
  rest : Bytes
  deriving DecidableEq, Repr

/-- `io.ReadFull` into a buffer of one byte. -/
def readFull : Bytes → Except McError (UInt8 × Bytes)
  | [] => .error .eof
  | b :: r => .ok (b, r)

theorem readFull_ok (h : readFull r = .ok (b, r')) : r = b :: r' := by
  cases r with
  | nil => cases h
  | cons c r =>
    cases h
    rfl

/-- The loop of `ReadVarInt`: it counts the byte before it asks whether it was the fifth. -/
def readLoop (r : Bytes) (v : BitVec 32) (n : Nat) : Read :=
  match h : readFull r with
  | .error err =>
    let err := if err = .eof ∧ 0 < n then .unexpectedEOF else err
    ⟨0, n, some err, r⟩
  | .ok (b, r') =>
    let v := orGroup v b n
    let n := n + 1
    if b &&& 0x80 = 0 then ⟨v.toInt, n, none, r'⟩
    else if n = 5 then ⟨0, n, some .varIntTooBig, r'⟩
    else readLoop r' v n
termination_by r.length
decreasing_by
  rw [readFull_ok h, List.length_cons]
  exact Nat.lt_succ_self _

def readVarInt (r : Bytes) : Read := readLoop r 0 0

/-- A body and an offset into it, with a sticky error. -/
structure BodyReader where
  b : Bytes
  off : Nat
  err : Option McError
  deriving DecidableEq, Repr

namespace BodyReader

def fail (r : BodyReader) (err : McError) : BodyReader :=
  if r.err = none then { r with err := some err } else r

/-- The loop of `varint`: the offset moves before the groups are counted. -/
def varintLoop (r : BodyReader) (v : BitVec 32) (n : Nat) : Int × BodyReader :=
  if h : r.b.length ≤ r.off then (0, r.fail .truncated)
  else
    let b := r.b[r.off]
    let r' := { r with off := r.off + 1 }
    let v := orGroup v b n
    let n := n + 1
    if b &&& 0x80 = 0 then (v.toInt, r')
    else if n = 5 then (0, r'.fail .varIntTooBig)
    else varintLoop r' v n
termination_by r.b.length - r.off

def varint (r : BodyReader) : Int × BodyReader :=
  if r.err ≠ none then (0, r) else r.varintLoop 0 0

end BodyReader

/-- What `readVarIntPrefix` returns. -/
structure Prefix where
  val : Int
  n : Int
  ok : Bool
  deriving DecidableEq, Repr

/-- The loop of `readVarIntPrefix`, over the index of the byte. -/
def prefixLoop (buf : Bytes) (v : BitVec 32) (i : Nat) : Prefix :=
  if h : buf.length ≤ i then ⟨0, i, false⟩
  else
    let b := buf[i]
    let v := orGroup v b i
    if b &&& 0x80 = 0 then ⟨v.toInt, i + 1, true⟩
    else if i = 4 then ⟨0, -1, false⟩
    else prefixLoop buf v (i + 1)
termination_by buf.length - i

def readVarIntPrefix (buf : Bytes) : Prefix := prefixLoop buf 0 0

/-- The reader's view of what the groups spell, `n` bytes in. -/
def Read.of (r : Bytes) (n : Nat) : VarInt → Read
  | .value v m => ⟨v, m, none, r.drop (m - n)⟩
  | .truncated m => ⟨0, m, some (if m = 0 then .eof else .unexpectedEOF), []⟩
  | .tooBig => ⟨0, 5, some .varIntTooBig, r.drop (5 - n)⟩

/-- The body reader's view, `n` bytes after the VarInt began. -/
def BodyReader.of (r : BodyReader) (n : Nat) : VarInt → Int × BodyReader
  | .value v m => (v, { r with off := r.off + (m - n) })
  | .truncated m => (0, { r with off := r.off + (m - n), err := some .truncated })
  | .tooBig => (0, { r with off := r.off + (5 - n), err := some .varIntTooBig })

/-- The sniffer's view. -/
def Prefix.of : VarInt → Prefix
  | .value v m => ⟨v, m, true⟩
  | .truncated m => ⟨0, m, false⟩
  | .tooBig => ⟨0, -1, false⟩

theorem varIntFrom_cons (v : BitVec 32) (i : Nat) (b : UInt8) (bs : Bytes) :
    varIntFrom v i (b :: bs) =
      if b &&& 0x80 = 0 then .value (orGroup v b i).toInt (i + 1)
      else if i = 4 then .tooBig else varIntFrom (orGroup v b i) (i + 1) bs := by
  rw [varIntFrom, orGroup]

theorem readLoop_eq (hn : n ≤ 4) : readLoop r v n = Read.of r n (varIntFrom v n r) := by
  induction r generalizing v n with
  | nil =>
    rw [readLoop, varIntFrom, Read.of]
    simp only [readFull, true_and]
    split <;> split <;> first | rfl | omega
  | cons b r ih =>
    rw [readLoop, varIntFrom_cons]
    simp only [readFull]
    by_cases hb : b &&& 0x80 = 0
    · rw [if_pos hb, if_pos hb, Read.of, Nat.add_sub_cancel_left, List.drop_succ_cons,
        List.drop_zero]
    · rw [if_neg hb, if_neg hb]
      by_cases hlast : n = 4
      · rw [if_pos (by omega), if_pos hlast, hlast, Read.of]
        rfl
      · rw [if_neg (by omega), if_neg hlast, ih (by omega)]
        cases hv : varIntFrom (orGroup v b n) (n + 1) r with
        | value w m =>
          have hm := (varIntFrom_value hv (by omega)).1
          rw [Read.of, Read.of, show m - n = m - (n + 1) + 1 by omega, List.drop_succ_cons]
        | truncated m => rfl
        | tooBig => rw [Read.of, Read.of, show 5 - n = 5 - (n + 1) + 1 by omega,
            List.drop_succ_cons]

theorem varintLoop_eq (r : BodyReader) (herr : r.err = none) (hn : n ≤ 4) :
    r.varintLoop v n = r.of n (varIntFrom v n (r.b.drop r.off)) := by
  induction hk : r.b.length - r.off generalizing r v n with
  | zero =>
    rw [BodyReader.varintLoop, dif_pos (by omega), List.drop_eq_nil_of_le (by omega), varIntFrom,
      BodyReader.of, BodyReader.fail, if_pos herr, Nat.sub_self, Nat.add_zero]
  | succ k ih =>
    have hlt : r.off < r.b.length := by omega
    rw [BodyReader.varintLoop, dif_neg (by omega), List.drop_eq_getElem_cons hlt, varIntFrom_cons]
    simp only
    by_cases hb : r.b[r.off] &&& 0x80 = 0
    · rw [if_pos hb, if_pos hb, BodyReader.of, Nat.add_sub_cancel_left]
    · rw [if_neg hb, if_neg hb]
      by_cases hlast : n = 4
      · rw [if_pos (by omega), if_pos hlast, hlast, BodyReader.of, BodyReader.fail, if_pos herr]
      · rw [if_neg (by omega), if_neg hlast,
          ih { r with off := r.off + 1 } herr (by omega) (by simp only; omega)]
        cases hv : varIntFrom (orGroup v r.b[r.off] n) (n + 1) (r.b.drop (r.off + 1)) with
        | value w m =>
          have hm := (varIntFrom_value hv (by omega)).1
          simp only [BodyReader.of, show r.off + 1 + (m - (n + 1)) = r.off + (m - n) by omega]
        | truncated m =>
          have hm := (varIntFrom_truncated hv (by omega)).1
          simp only [BodyReader.of, show r.off + 1 + (m - (n + 1)) = r.off + (m - n) by omega]
        | tooBig =>
          simp only [BodyReader.of, show r.off + 1 + (5 - (n + 1)) = r.off + (5 - n) by omega]

theorem prefixLoop_eq (hi : i ≤ 4) :
    prefixLoop buf v i = Prefix.of (varIntFrom v i (buf.drop i)) := by
  induction hk : buf.length - i generalizing i v with
  | zero =>
    rw [prefixLoop, dif_pos (by omega), List.drop_eq_nil_of_le (by omega), varIntFrom, Prefix.of]
  | succ k ih =>
    have hlt : i < buf.length := by omega
    rw [prefixLoop, dif_neg (by omega), List.drop_eq_getElem_cons hlt, varIntFrom_cons]
    simp only
    split
    · rfl
    · split
      · rfl
      · exact ih (by omega) (by omega)

theorem decoders_eq (bs : Bytes) :
    readVarInt bs = Read.of bs 0 (varIntFrom 0 0 bs) ∧
      (BodyReader.mk bs 0 none).varint = (BodyReader.mk bs 0 none).of 0 (varIntFrom 0 0 bs) ∧
        readVarIntPrefix bs = Prefix.of (varIntFrom 0 0 bs) := by
  refine ⟨readLoop_eq (by omega), ?_, prefixLoop_eq (by omega)⟩
  rw [BodyReader.varint, if_neg (not_not.2 rfl)]
  exact varintLoop_eq _ rfl (by omega)

/-- The byte says that another follows. -/
def Continues (b : UInt8) : Prop := b &&& 0x80 ≠ 0

instance : Decidable (Continues b) := inferInstanceAs (Decidable (b &&& 0x80 ≠ 0))

/-- The bytes end where a VarInt of at most five bytes has not. -/
def EndsInside (bs : Bytes) : Prop := bs.length ≤ 4 ∧ ∀ b ∈ bs, Continues b

/-- The fifth byte still continues. -/
def OverLong (bs : Bytes) : Prop := 5 ≤ bs.length ∧ ∀ b ∈ bs.take 5, Continues b

theorem varIntFrom_cases (v : BitVec 32) (hi : i ≤ 4) (bs : Bytes) :
    (varIntFrom v i bs = .truncated (i + bs.length) ∧ i + bs.length ≤ 4 ∧
        ∀ b ∈ bs, Continues b) ∨
      (varIntFrom v i bs = .tooBig ∧ 5 ≤ i + bs.length ∧ ∀ b ∈ bs.take (5 - i), Continues b) ∨
        ∃ w n, varIntFrom v i bs = .value w n ∧ ∃ b ∈ bs.take (5 - i), ¬Continues b := by
  induction bs generalizing v i with
  | nil => exact .inl ⟨rfl, hi, fun b hb => (List.not_mem_nil hb).elim⟩
  | cons b bs ih =>
    rw [varIntFrom_cons, show 5 - i = 4 - i + 1 by omega, List.take_succ_cons,
      List.forall_mem_cons, List.forall_mem_cons, List.length_cons]
    by_cases hb : b &&& 0x80 = 0
    · rw [if_pos hb]
      exact .inr (.inr ⟨_, _, rfl, b, List.mem_cons_self, not_not.2 hb⟩)
    · rw [if_neg hb]
      by_cases hlast : i = 4
      · rw [if_pos hlast, hlast]
        exact .inr (.inl ⟨rfl, by omega, hb, fun c hc => (List.not_mem_nil hc).elim⟩)
      · rw [if_neg hlast]
        have hnext := ih (orGroup v b i) (by omega : i + 1 ≤ 4)
        rw [show 5 - (i + 1) = 4 - i by omega, Nat.add_right_comm i 1] at hnext
        rcases hnext with h | h | h
        · exact .inl ⟨h.1, h.2.1, hb, h.2.2⟩
        · exact .inr (.inl ⟨h.1, h.2.1, hb, h.2.2⟩)
        · obtain ⟨w, n, hvalue, c, hc, hstop⟩ := h
          exact .inr (.inr ⟨w, n, hvalue, c, List.mem_cons_of_mem b hc, hstop⟩)

theorem endsInside_iff : EndsInside bs ↔ ∃ n, varIntFrom 0 0 bs = .truncated n := by
  rcases varIntFrom_cases 0 (Nat.zero_le 4) bs with h | h | h
  · obtain ⟨hread, hlength, hall⟩ := h
    rw [Nat.zero_add] at hlength
    exact iff_of_true ⟨hlength, hall⟩ ⟨_, hread⟩
  · obtain ⟨hread, hlength, -⟩ := h
    constructor
    · intro hends
      have hfour := hends.1
      omega
    · intro hends
      obtain ⟨n, hn⟩ := hends
      rw [hread] at hn
      cases hn
  · obtain ⟨w, n, hread, b, hb, hstop⟩ := h
    constructor
    · intro hends
      exact absurd (hends.2 b (List.mem_of_mem_take hb)) hstop
    · intro hends
      obtain ⟨m, hm⟩ := hends
      rw [hread] at hm
      cases hm

theorem overLong_iff : OverLong bs ↔ varIntFrom 0 0 bs = .tooBig := by
  rcases varIntFrom_cases 0 (Nat.zero_le 4) bs with h | h | h
  · obtain ⟨hread, hlength, -⟩ := h
    constructor
    · intro hlong
      have hfive := hlong.1
      omega
    · intro hlong
      rw [hread] at hlong
      cases hlong
  · obtain ⟨hread, hlength, hall⟩ := h
    rw [Nat.zero_add] at hlength
    exact iff_of_true ⟨hlength, hall⟩ hread
  · obtain ⟨w, n, hread, b, hb, hstop⟩ := h
    constructor
    · intro hlong
      exact absurd (hlong.2 b hb) hstop
    · intro hlong
      rw [hread] at hlong
      cases hlong

theorem decoders_succeed (h : (readVarInt bs).err = none ∨
    (BodyReader.mk bs 0 none).varint.2.err = none ∨ (readVarIntPrefix bs).ok = true) :
    ∃ v n, readVarInt bs = ⟨v, n, none, bs.drop n⟩ ∧
      (BodyReader.mk bs 0 none).varint = (v, ⟨bs, n, none⟩) ∧
        readVarIntPrefix bs = ⟨v, n, true⟩ := by
  obtain ⟨hread, hbody, hprefix⟩ := decoders_eq bs
  rw [hread, hbody, hprefix] at h ⊢
  cases hv : varIntFrom 0 0 bs with
  | value v n =>
    refine ⟨v, n, rfl, ?_, rfl⟩
    rw [BodyReader.of, Nat.sub_zero, Nat.zero_add]
  | truncated n =>
    rw [hv] at h
    rcases h with h | h | h
    · cases h
    · cases h
    · cases h
  | tooBig =>
    rw [hv] at h
    rcases h with h | h | h
    · cases h
    · cases h
    · cases h

theorem decoders_truncated (bs : Bytes) :
    (EndsInside bs ↔ (readVarInt bs).err = some (if bs = [] then .eof else .unexpectedEOF)) ∧
      (EndsInside bs ↔ (BodyReader.mk bs 0 none).varint.2.err = some .truncated) ∧
        (EndsInside bs ↔ readVarIntPrefix bs = ⟨0, bs.length, false⟩) := by
  obtain ⟨hread, hbody, hprefix⟩ := decoders_eq bs
  rw [hread, hbody, hprefix, endsInside_iff]
  cases hv : varIntFrom 0 0 bs with
  | value v n => simp [Read.of, BodyReader.of, Prefix.of]
  | truncated n =>
    have hn : n = bs.length := by
      rw [(varIntFrom_truncated hv (by omega)).1, Nat.zero_add]
    simp [Read.of, BodyReader.of, Prefix.of, hn]
  | tooBig =>
    have hfive := (overLong_iff.2 hv).1
    have hne : bs ≠ [] := by
      intro hnil
      rw [hnil] at hfive
      exact absurd hfive (by decide)
    simp [Read.of, BodyReader.of, Prefix.of, hne]

theorem decoders_overLong (bs : Bytes) :
    (OverLong bs ↔ (readVarInt bs).err = some .varIntTooBig) ∧
      (OverLong bs ↔ (BodyReader.mk bs 0 none).varint.2.err = some .varIntTooBig) ∧
        (OverLong bs ↔ readVarIntPrefix bs = ⟨0, -1, false⟩) := by
  obtain ⟨hread, hbody, hprefix⟩ := decoders_eq bs
  rw [hread, hbody, hprefix, overLong_iff]
  cases hv : varIntFrom 0 0 bs with
  | value v n => simp [Read.of, BodyReader.of, Prefix.of]
  | truncated n =>
    have hne : (if n = 0 then McError.eof else .unexpectedEOF) ≠ .varIntTooBig := by
      split
      · decide
      · decide
    simp [Read.of, BodyReader.of, Prefix.of, hne]
  | tooBig => simp [Read.of, BodyReader.of, Prefix.of]

theorem decoders_encoded (hv : -2147483648 ≤ v ∧ v < 2147483648) (rest : Bytes) :
    readVarInt (appendVarInt v ++ rest) = ⟨v, (appendVarInt v).length, none, rest⟩ ∧
      (BodyReader.mk (appendVarInt v ++ rest) 0 none).varint =
        (v, ⟨appendVarInt v ++ rest, (appendVarInt v).length, none⟩) ∧
        readVarIntPrefix (appendVarInt v ++ rest) = ⟨v, (appendVarInt v).length, true⟩ := by
  obtain ⟨hread, hbody, hprefix⟩ := decoders_eq (appendVarInt v ++ rest)
  rw [hread, hbody, hprefix, varIntFrom_spells ((appendVarInt_pads v).spells hv)]
  refine ⟨?_, ?_, rfl⟩
  · rw [Read.of, Nat.sub_zero, List.drop_left]
  · rw [BodyReader.of, Nat.sub_zero, Nat.zero_add]

/-- When one decoder succeeds all do, with one value and one count; each fails in its own words on
the same bytes; and all give back an encoded value. -/
theorem decoders_agree (bs : Bytes) :
    ((readVarInt bs).err = none ∨ (BodyReader.mk bs 0 none).varint.2.err = none ∨
        (readVarIntPrefix bs).ok = true →
      ∃ v n, readVarInt bs = ⟨v, n, none, bs.drop n⟩ ∧
        (BodyReader.mk bs 0 none).varint = (v, ⟨bs, n, none⟩) ∧
          readVarIntPrefix bs = ⟨v, n, true⟩) ∧
    ((EndsInside bs ↔ (readVarInt bs).err = some (if bs = [] then .eof else .unexpectedEOF)) ∧
      (EndsInside bs ↔ (BodyReader.mk bs 0 none).varint.2.err = some .truncated) ∧
        (EndsInside bs ↔ readVarIntPrefix bs = ⟨0, bs.length, false⟩)) ∧
    ((OverLong bs ↔ (readVarInt bs).err = some .varIntTooBig) ∧
      (OverLong bs ↔ (BodyReader.mk bs 0 none).varint.2.err = some .varIntTooBig) ∧
        (OverLong bs ↔ readVarIntPrefix bs = ⟨0, -1, false⟩)) ∧
    ∀ v : Int, -2147483648 ≤ v → v < 2147483648 →
      readVarInt (appendVarInt v ++ bs) = ⟨v, (appendVarInt v).length, none, bs⟩ ∧
        (BodyReader.mk (appendVarInt v ++ bs) 0 none).varint =
          (v, ⟨appendVarInt v ++ bs, (appendVarInt v).length, none⟩) ∧
        readVarIntPrefix (appendVarInt v ++ bs) = ⟨v, (appendVarInt v).length, true⟩ := by
  refine ⟨decoders_succeed, decoders_truncated bs, decoders_overLong bs, ?_⟩
  intro v hlow hhigh
  exact decoders_encoded ⟨hlow, hhigh⟩ bs

theorem readVarInt_refines (bs : Bytes) :
    ProxyForward.readVarInt bs =
      match (readVarInt bs).err with
      | none => .ok ((readVarInt bs).value, (readVarInt bs).rest)
      | some err => .error err := by
  rw [(decoders_eq bs).1, ProxyForward.readVarInt]
  cases varIntFrom 0 0 bs with
  | value v n => rfl
  | truncated n => rfl
  | tooBig => rfl

theorem varint_refines (bs : Bytes) :
    (ProxyForward.BodyReader.new bs).varint =
      let r := (BodyReader.mk bs 0 none).varint
      (r.1, ⟨bs.drop r.2.off, r.2.err⟩) := by
  rw [(decoders_eq bs).2.1, ProxyForward.BodyReader.varint, ProxyForward.BodyReader.new,
    if_neg (not_not.2 rfl)]
  cases varIntFrom 0 0 bs with
  | value v n => simp [BodyReader.of]
  | truncated n => simp [BodyReader.of, ProxyForward.BodyReader.fail]
  | tooBig => simp [BodyReader.of, ProxyForward.BodyReader.fail]

theorem readVarIntPrefix_refines (bs : Bytes) :
    readVarIntPrefix bs = Prefix.of (ProxyForward.readVarIntPrefix bs) :=
  (decoders_eq bs).2.2

end ProxyForward.VarIntDecoders

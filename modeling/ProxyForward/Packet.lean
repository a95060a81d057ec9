import Mathlib.Data.List.TakeDrop
import Mathlib.Data.BitVec

namespace ProxyForward
set_option autoImplicit true

abbrev Bytes := List UInt8

/-- What reading a packet fails with. -/
inductive McError
  | eof | unexpectedEOF | varIntTooBig | truncated
  | stringTooLong (declared cap : Int)
  | packetLength (length maxSize : Int)
  | badPacketID (err : McError)
  | notHandshake (id : Int)
  | badHandshake (err : McError)
  | trailingBytes (n : Nat)
  | unknownNextState (n : Int)
  | badLoginStart (err : McError)
  | badName (name : Bytes)
  deriving DecidableEq, Repr

/-- A VarInt at the front of some bytes: its value and length, or what is wrong. -/
inductive VarInt
  | value (v : Int) (n : Nat)
  | truncated (n : Nat)
  | tooBig
  deriving DecidableEq, Repr

/-- The decoding loop, after `i` bytes that gave `v`. -/
def varIntFrom (v : BitVec 32) (i : Nat) : Bytes → VarInt
  | [] => .truncated i
  | b :: bs =>
    let v := v ||| (BitVec.ofNat 32 (b &&& 0x7f).toNat <<< (7 * i))
    if b &&& 0x80 = 0 then .value v.toInt (i + 1)
    else if i = 4 then .tooBig
    else varIntFrom v (i + 1) bs

def readVarIntPrefix (buf : Bytes) : VarInt := varIntFrom 0 0 buf

/-- `ReadVarInt` from a reader with these bytes left: the value and the bytes after it. -/
def readVarInt (r : Bytes) : Except McError (Int × Bytes) :=
  match varIntFrom 0 0 r with
  | .value v n => .ok (v, r.drop n)
  | .truncated n => .error (if n = 0 then .eof else .unexpectedEOF)
  | .tooBig => .error .varIntTooBig

/-- A reader of a packet body: the bytes from its offset on, and its first error. -/
structure BodyReader where
  rest : Bytes
  err : Option McError
  deriving DecidableEq, Repr

namespace BodyReader

def new (body : Bytes) : BodyReader := ⟨body, none⟩

def fail (r : BodyReader) (err : McError) : BodyReader :=
  { r with err := if r.err = none then some err else r.err }

def varint (r : BodyReader) : Int × BodyReader :=
  if r.err ≠ none then (0, r)
  else
    match varIntFrom 0 0 r.rest with
    | .value v n => (v, { r with rest := r.rest.drop n })
    | .truncated n => (0, ({ r with rest := r.rest.drop n } : BodyReader).fail .truncated)
    | .tooBig => (0, ({ r with rest := r.rest.drop 5 } : BodyReader).fail .varIntTooBig)

def string (r : BodyReader) (maxBytes : Nat) : Bytes × BodyReader :=
  let (n, r) := r.varint
  if r.err ≠ none then ([], r)
  else if n < 0 ∨ (maxBytes : Int) < n then ([], r.fail (.stringTooLong n maxBytes))
  else if r.rest.length < n.toNat then ([], r.fail .truncated)
  else (r.rest.take n.toNat, { r with rest := r.rest.drop n.toNat })

def uint16 (r : BodyReader) : Nat × BodyReader :=
  if r.err ≠ none then (0, r)
  else
    match r.rest with
    | b₀ :: b₁ :: rest => (b₀.toNat * 256 + b₁.toNat, { r with rest := rest })
    | _ => (0, r.fail .truncated)

def boolean (r : BodyReader) : Bool × BodyReader :=
  if r.err ≠ none then (false, r)
  else
    match r.rest with
    | b :: rest => (b ≠ 0, { r with rest := rest })
    | [] => (false, r.fail .truncated)

/-- A UUID that is not there is no error. -/
def uuid (r : BodyReader) : Option Bytes × BodyReader :=
  if r.err ≠ none ∨ r.rest.length < 16 then (none, r)
  else (some (r.rest.take 16), { r with rest := r.rest.drop 16 })

def skip (r : BodyReader) (n : Int) : BodyReader :=
  if r.err ≠ none then r
  else if n < 0 ∨ (r.rest.length : Int) < n then r.fail .truncated
  else { r with rest := r.rest.drop n.toNat }

def skipByteArray (r : BodyReader) (maxBytes : Nat) : BodyReader :=
  let (n, r) := r.varint
  if r.err ≠ none then r
  else if n < 0 ∨ (maxBytes : Int) < n then r.fail (.stringTooLong n maxBytes)
  else r.skip n

end BodyReader

def maxHandshakePacket : Nat := 8192
def maxServerAddress : Nat := 4096
def maxSigField : Nat := 8192
def loginStartID : Int := 0
def nextStateStatus : Int := 1
def nextStateLogin : Int := 2
def nextStateTransfer : Int := 3

/-- A framed packet from a reader with these bytes left: its id, its body, and the bytes after
it. -/
def readPacket (r : Bytes) (maxSize : Nat) : Except McError (Int × Bytes × Bytes) :=
  match readVarInt r with
  | .error err => .error err
  | .ok (length, r) =>
    if length ≤ 0 ∨ (maxSize : Int) < length then .error (.packetLength length maxSize)
    else if r.length < length.toNat then .error (if r = [] then .eof else .unexpectedEOF)
    else
      let (id, rd) := (BodyReader.new (r.take length.toNat)).varint
      match rd.err with
      | some err => .error (.badPacketID err)
      | none => .ok (id, rd.rest, r.drop length.toNat)

structure Handshake where
  protocolVersion : Int
  serverAddress : Bytes
  serverPort : Nat
  nextState : Int
  deriving DecidableEq, Repr

def parseHandshake (id : Int) (body : Bytes) : Except McError Handshake :=
  if id ≠ 0 then .error (.notHandshake id)
  else
    let (protocolVersion, rd) := (BodyReader.new body).varint
    let (serverAddress, rd) := rd.string maxServerAddress
    let (serverPort, rd) := rd.uint16
    let (nextState, rd) := rd.varint
    match rd.err with
    | some err => .error (.badHandshake err)
    | none =>
      if rd.rest ≠ [] then .error (.trailingBytes rd.rest.length)
      else if nextState = nextStateStatus ∨ nextState = nextStateLogin ∨
        nextState = nextStateTransfer
      then .ok ⟨protocolVersion, serverAddress, serverPort, nextState⟩
      else .error (.unknownNextState nextState)

structure LoginStart where
  name : Bytes
  uuid : Option Bytes
  deriving DecidableEq, Repr

/-- A byte that `nameRe` allows. -/
def nameByte (b : UInt8) : Bool :=
  ('A'.toNat ≤ b.toNat && b.toNat ≤ 'Z'.toNat) || ('a'.toNat ≤ b.toNat && b.toNat ≤ 'z'.toNat) ||
    ('0'.toNat ≤ b.toNat && b.toNat ≤ '9'.toNat) || b.toNat = '_'.toNat

def nameRe (name : Bytes) : Bool :=
  1 ≤ name.length && name.length ≤ 16 && name.all nameByte

def skipSignatureData (rd : BodyReader) : BodyReader :=
  let (hasSig, rd) := rd.boolean
  if hasSig then ((rd.skip 8).skipByteArray maxSigField).skipByteArray maxSigField else rd

/-- The UUID field of a protocol's layout, after the name. -/
def loginUUID (protocol : Int) (rd : BodyReader) : Option Bytes :=
  let optional (rd : BodyReader) : Option Bytes :=
    let (present, rd) := rd.boolean
    if present then rd.uuid.1 else none
  if 764 ≤ protocol then rd.uuid.1
  else if 761 ≤ protocol then optional rd
  else if protocol = 760 then optional (skipSignatureData rd)
  else none

def parseLoginStart (protocol : Int) (body : Bytes) : Except McError LoginStart :=
  let (name, rd) := (BodyReader.new body).string 16
  match rd.err with
  | some err => .error (.badLoginStart err)
  | none =>
    if nameRe name then .ok ⟨name, loginUUID protocol rd⟩ else .error (.badName name)

theorem varIntFrom_value (h : varIntFrom v i bs = .value w n) (hi : i ≤ 4) :
    i < n ∧ n ≤ 5 ∧ n ≤ i + bs.length := by
  induction bs generalizing v i with
  | nil => cases h
  | cons b bs ih =>
    simp only [varIntFrom] at h
    split at h
    · cases h
      simp only [List.length_cons]
      omega
    · split at h
      · cases h
      · have := ih h (by omega)
        simp only [List.length_cons]
        omega

theorem varIntFrom_truncated (h : varIntFrom v i bs = .truncated n) (hi : i ≤ 4) :
    n = i + bs.length ∧ n ≤ 4 := by
  induction bs generalizing v i with
  | nil =>
    cases h
    exact ⟨rfl, hi⟩
  | cons b bs ih =>
    simp only [varIntFrom] at h
    split at h
    · cases h
    · split at h
      · cases h
      · obtain ⟨hn, hle⟩ := ih h (by omega)
        exact ⟨by rw [hn, List.length_cons]; omega, hle⟩

theorem varIntFrom_append (h : ∀ n, varIntFrom v i bs ≠ .truncated n) (more : Bytes) :
    varIntFrom v i (bs ++ more) = varIntFrom v i bs := by
  induction bs generalizing v i with
  | nil => exact absurd rfl (h i)
  | cons b bs ih =>
    simp only [List.cons_append, varIntFrom] at h ⊢
    split
    · rfl
    · rename_i hb
      rw [if_neg hb] at h
      split
      · rfl
      · rename_i hi
        rw [if_neg hi] at h
        exact ih h

theorem varIntFrom_of_length (hbs : 5 ≤ bs.length) (n : Nat) :
    varIntFrom 0 0 bs ≠ .truncated n := by
  intro h
  obtain ⟨hn, hle⟩ := varIntFrom_truncated h (by omega)
  omega

theorem varIntFrom_long (hbs : 5 ≤ bs.length) (more : Bytes) :
    varIntFrom 0 0 (bs ++ more) = varIntFrom 0 0 bs :=
  varIntFrom_append (varIntFrom_of_length hbs) more

theorem varint_append (hbs : 5 ≤ bs.length) (more : Bytes) :
    (BodyReader.new (bs ++ more)).varint =
      let r := (BodyReader.new bs).varint
      (r.1, ⟨r.2.rest ++ more, r.2.err⟩) := by
  simp only [BodyReader.varint, BodyReader.new, ne_eq, not_true_eq_false, if_false,
    varIntFrom_long hbs]
  cases h : varIntFrom 0 0 bs with
  | value v n =>
    have hn := varIntFrom_value h (by omega)
    simp only [List.drop_append_of_le_length (show n ≤ bs.length by omega)]
  | truncated n => exact absurd h (varIntFrom_of_length hbs n)
  | tooBig => simp only [BodyReader.fail, if_true, List.drop_append_of_le_length hbs]

/-- The name that a login start begins with, if it is one. -/
def readName (body : Bytes) : Option Bytes :=
  let r := (BodyReader.new body).string 16
  if r.2.err = none ∧ nameRe r.1 = true then some r.1 else none

theorem parseLoginStart_name (protocol : Int) (body : Bytes) :
    (parseLoginStart protocol body).toOption.map LoginStart.name = readName body := by
  unfold parseLoginStart readName
  simp only
  cases herr : ((BodyReader.new body).string 16).2.err with
  | some err => simp [Except.toOption]
  | none =>
    cases hname : nameRe ((BodyReader.new body).string 16).1 <;> simp [Except.toOption]

theorem varint_rest_length (bs : Bytes) :
    bs.length ≤ (BodyReader.new bs).varint.2.rest.length + 5 := by
  simp only [BodyReader.varint, BodyReader.new, ne_eq, not_true_eq_false, if_false]
  cases hv : varIntFrom 0 0 bs with
  | value v n =>
    have hn := varIntFrom_value hv (by omega)
    simp only [List.length_drop]
    omega
  | truncated n =>
    have hn := varIntFrom_truncated hv (by omega)
    simp only [BodyReader.fail, List.length_drop]
    omega
  | tooBig =>
    simp only [BodyReader.fail, List.length_drop]
    omega

theorem readName_append (hbs : 21 ≤ bs.length) (more : Bytes) :
    readName (bs ++ more) = readName bs := by
  have hstring : ∃ rest, (BodyReader.new (bs ++ more)).string 16 =
      (((BodyReader.new bs).string 16).1, ⟨rest, ((BodyReader.new bs).string 16).2.err⟩) := by
    simp only [BodyReader.string, varint_append (show 5 ≤ bs.length by omega)]
    have hlen := varint_rest_length bs
    generalize (BodyReader.new bs).varint = r at hlen ⊢
    obtain ⟨n, rest, err⟩ := r
    simp only at hlen ⊢
    split
    · exact ⟨_, rfl⟩
    · split
      · exact ⟨_, rfl⟩
      · rename_i hn
        have hle : n.toNat ≤ rest.length := by omega
        rw [if_neg (by rw [List.length_append]; omega), if_neg (by omega),
          List.take_append_of_le_length hle]
        exact ⟨_, rfl⟩
  obtain ⟨rest, hrest⟩ := hstring
  simp only [readName, hrest]

end ProxyForward

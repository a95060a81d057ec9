import ProxyForward.Packet

namespace ProxyForward
set_option autoImplicit true

def maxFrame : Nat := 64 * 1024

/-- The data is raw JSON. -/
structure Envelope where
  type : String
  data : Bytes
  deriving DecidableEq, Repr

inductive ReadError
  | eof | unexpectedEOF
  | other (text : String)
  deriving DecidableEq, Repr

inductive FrameError
  | marshal (msgType : String)
  | marshalEnvelope
  | frameTooLarge
  | read (err : ReadError)
  | badEnvelope
  | missingType
  | badPayload (msgType : String)
  deriving DecidableEq, Repr

/-- JSON encoding and decoding of payloads and of envelopes. -/
structure JSON (α : Type) where
  zero : α
  marshal : α → Option Bytes
  unmarshal : Bytes → Option α
  marshalEnvelope : Envelope → Option Bytes
  unmarshalEnvelope : Bytes → Option Envelope

structure Message (α : Type) where
  type : String
  payload : α
  deriving DecidableEq, Repr

/-- Four bytes, big-endian; a larger number loses its high part. -/
def putUint32 (n : Nat) : Bytes :=
  [.ofNat (n / 2 ^ 24), .ofNat (n / 2 ^ 16), .ofNat (n / 2 ^ 8), .ofNat n]

def uint32 (bs : Bytes) : Nat := bs.foldl (fun n b => n * 2 ^ 8 + b.toNat) 0

/-- A byte source: the pieces in which reads hand out its bytes, and what they fail with after
that. -/
structure Reader where
  pieces : List Bytes
  err : ReadError
  deriving DecidableEq, Repr

def Reader.bytes (r : Reader) : Bytes := r.pieces.flatten

/-- Reads until there are `k` bytes or no more; a read hands out a piece, or as much of it as is
asked for. -/
def fill : Nat → List Bytes → Bytes × List Bytes
  | 0, ps => ([], ps)
  | _ + 1, [] => ([], [])
  | k + 1, p :: ps =>
    if p.length ≤ k + 1 then
      let (bs, rest) := fill (k + 1 - p.length) ps
      (p ++ bs, rest)
    else (p.take (k + 1), p.drop (k + 1) :: ps)

def Reader.readFull (r : Reader) (k : Nat) : Except ReadError Bytes × Reader :=
  let (bs, pieces) := fill k r.pieces
  let res :=
    if bs.length = k then .ok bs
    else if bs ≠ [] ∧ r.err = .eof then .error .unexpectedEOF
    else .error r.err
  (res, { r with pieces })

namespace JSON

variable {α : Type} (j : JSON α)

/-- The envelope's JSON. -/
def encode (m : Message α) : Except FrameError Bytes :=
  match j.marshal m.payload with
  | none => .error (.marshal m.type)
  | some data =>
    match j.marshalEnvelope ⟨m.type, data⟩ with
    | none => .error .marshalEnvelope
    | some env => .ok env

/-- The error, if any, and what is written so far. -/
def writeMsg (w : Bytes) (m : Message α) : Option FrameError × Bytes :=
  match j.encode m with
  | .error e => (some e, w)
  | .ok env =>
    if maxFrame < env.length then (some .frameTooLarge, w)
    else (none, w ++ (putUint32 env.length ++ env))

def readMsg (r : Reader) (maxFrame : Nat) : Except FrameError Envelope × Reader :=
  match r.readFull 4 with
  | (.error e, r) => (.error (.read e), r)
  | (.ok lenBuf, r) =>
    let n := uint32 lenBuf
    if n = 0 ∨ maxFrame % 2 ^ 32 < n then (.error .frameTooLarge, r)
    else
      match r.readFull n with
      | (.error e, r) => (.error (.read e), r)
      | (.ok buf, r) =>
        match j.unmarshalEnvelope buf with
        | none => (.error .badEnvelope, r)
        | some env => (if env.type = "" then .error .missingType else .ok env, r)

/-- The payload of an envelope; one without data has the zero value. -/
def decode (env : Envelope) : Except FrameError α :=
  if env.data = [] then .ok j.zero
  else
    match j.unmarshal env.data with
    | none => .error (.badPayload env.type)
    | some payload => .ok payload

/-- Reads up to a number of messages, until one fails. -/
def readMsgs (maxFrame : Nat) : Nat → Reader → List (Message α) × Option FrameError × Reader
  | 0, r => ([], none, r)
  | n + 1, r =>
    match j.readMsg r maxFrame with
    | (.error e, r) => ([], some e, r)
    | (.ok env, r) =>
      match j.decode env with
      | .error e => ([], some e, r)
      | .ok payload =>
        let (ms, e, r) := readMsgs maxFrame n r
        (⟨env.type, payload⟩ :: ms, e, r)

end JSON

theorem length_putUint32 (n : Nat) : (putUint32 n).length = 4 := rfl

theorem uint32_putUint32 (n : Nat) : uint32 (putUint32 n) = n % 2 ^ 32 := by
  simp only [uint32, putUint32, List.foldl_cons, List.foldl_nil, UInt8.toNat_ofNat']
  omega

theorem fill_spec (k : Nat) (ps : List Bytes) :
    (fill k ps).1 = ps.flatten.take k ∧ (fill k ps).2.flatten = ps.flatten.drop k := by
  induction ps generalizing k with
  | nil => cases k <;> exact ⟨rfl, rfl⟩
  | cons p ps ih =>
    cases k with
    | zero => exact ⟨rfl, rfl⟩
    | succ k =>
      rw [fill, List.flatten_cons]
      by_cases hp : p.length ≤ k + 1
      · obtain ⟨htake, hdrop⟩ := ih (k + 1 - p.length)
        rw [if_pos hp, List.take_append, List.drop_append, List.take_of_length_le hp,
          List.drop_of_length_le hp]
        exact ⟨congrArg (p ++ ·) htake, hdrop⟩
      · have hlt : k + 1 - p.length = 0 := by omega
        rw [if_neg hp, List.take_append, List.drop_append, hlt]
        exact ⟨(List.append_nil _).symm, List.flatten_cons ..⟩

namespace Reader

theorem readFull_of_le {r : Reader} (h : k ≤ r.bytes.length) :
    ∃ r', r.readFull k = (.ok (r.bytes.take k), r') ∧ r'.bytes = r.bytes.drop k ∧
      r'.err = r.err := by
  obtain ⟨htake, hdrop⟩ := fill_spec k r.pieces
  refine ⟨{ r with pieces := (fill k r.pieces).2 }, ?_, hdrop, rfl⟩
  simp only [readFull, htake]
  exact congrArg (·, _) (if_pos (List.length_take_of_le h))

theorem readFull_of_lt {r : Reader} (h : r.bytes.length < k) :
    ∃ e r', r.readFull k = (.error e, r') := by
  have hfill := (fill_spec k r.pieces).1
  have hne : (r.pieces.flatten.take k).length ≠ k := by
    rw [List.length_take]
    change min k r.bytes.length ≠ k
    omega
  simp only [readFull, hfill, if_neg hne]
  split
  · exact ⟨_, _, rfl⟩
  · exact ⟨_, _, rfl⟩

theorem readFull_nil {r : Reader} (h : r.bytes = []) (hk : 0 < k) :
    (r.readFull k).1 = .error r.err := by
  have hfill : (fill k r.pieces).1 = [] := by
    rw [(fill_spec k r.pieces).1]
    change r.bytes.take k = []
    rw [h, List.take_nil]
  simp only [readFull, hfill, List.length_nil, if_neg hk.ne, ne_eq, not_true_eq_false, false_and,
    if_false]

end Reader

namespace JSON

variable {α : Type} {j : JSON α}

/-- Encoding and decoding are inverse on a message, and neither its payload nor its envelope is
encoded as no bytes at all. -/
structure InverseOn (j : JSON α) (m : Message α) (data env : Bytes) : Prop where
  marshal : j.marshal m.payload = some data
  ne_nil : data ≠ [] ∧ env ≠ []
  unmarshal : j.unmarshal data = some m.payload
  marshalEnvelope : j.marshalEnvelope ⟨m.type, data⟩ = some env
  unmarshalEnvelope : j.unmarshalEnvelope env = some ⟨m.type, data⟩

theorem InverseOn.encode (h : j.InverseOn m data env) : j.encode m = .ok env := by
  simp only [JSON.encode, h.marshal, h.marshalEnvelope]

/-- The bytes of a message: the length of its envelope, and the envelope. -/
def frame (j : JSON α) (m : Message α) : Bytes := (j.writeMsg [] m).2

def Fits (j : JSON α) (m : Message α) : Prop := ∀ env, j.encode m = .ok env → env.length ≤ maxFrame

theorem InverseOn.writeMsg (h : j.InverseOn m data env) (hfits : j.Fits m) (w : Bytes) :
    j.writeMsg w m = (none, w ++ (putUint32 env.length ++ env)) := by
  simp only [JSON.writeMsg, h.encode]
  exact if_neg (hfits env h.encode).not_gt

theorem InverseOn.frame (h : j.InverseOn m data env) (hfits : j.Fits m) :
    j.frame m = putUint32 env.length ++ env := by
  rw [JSON.frame, h.writeMsg hfits]
  exact List.nil_append _

theorem writeMsg_of_lt (henv : j.encode m = .ok env) (h : maxFrame < env.length) (w : Bytes) :
    j.writeMsg w m = (some .frameTooLarge, w) := by
  simp only [JSON.writeMsg, henv]
  exact if_pos h

/-- The declared length of the next frame. -/
def declared (r : Reader) : Nat := uint32 (r.bytes.take 4)

theorem readMsg_of_refused {r : Reader} {cap : Nat} (hlen : 4 ≤ r.bytes.length)
    (h : declared r = 0 ∨ cap % 2 ^ 32 < declared r) :
    ∃ r', j.readMsg r cap = (.error .frameTooLarge, r') ∧ r'.bytes = r.bytes.drop 4 := by
  obtain ⟨r', hread, hrest, -⟩ := Reader.readFull_of_le hlen
  refine ⟨r', ?_, hrest⟩
  simp only [readMsg, hread]
  exact if_pos h

theorem readMsg_frame {r : Reader} {cap : Nat}
    (hbytes : r.bytes = putUint32 body.length ++ (body ++ rest))
    (hbody : body ≠ []) (hcap : body.length ≤ cap) (h32 : cap < 2 ^ 32)
    (henv : j.unmarshalEnvelope body = some env) (htype : env.type ≠ "") :
    ∃ r', j.readMsg r cap = (.ok env, r') ∧ r'.bytes = rest ∧ r'.err = r.err := by
  have hlen : 4 ≤ r.bytes.length := by
    rw [hbytes, List.length_append]
    exact Nat.le_add_right ..
  obtain ⟨r₁, hread, hrest, herr⟩ := Reader.readFull_of_le hlen
  have hdeclared : uint32 (r.bytes.take 4) = body.length := by
    rw [hbytes, List.take_left' (length_putUint32 _), uint32_putUint32]
    exact Nat.mod_eq_of_lt (hcap.trans_lt h32)
  have hbytes₁ : r₁.bytes = body ++ rest := by
    rw [hrest, hbytes, List.drop_left' (length_putUint32 _)]
  have hlen₁ : body.length ≤ r₁.bytes.length := by
    rw [hbytes₁, List.length_append]
    exact Nat.le_add_right ..
  obtain ⟨r₂, hread₂, hrest₂, herr₂⟩ := Reader.readFull_of_le hlen₁
  refine ⟨r₂, ?_, ?_, herr₂.trans herr⟩
  · have hpos : ¬(body.length = 0 ∨ cap % 2 ^ 32 < body.length) := by
      rw [Nat.mod_eq_of_lt h32, List.length_eq_zero_iff]
      exact not_or.2 ⟨hbody, hcap.not_gt⟩
    simp only [readMsg, hread, hdeclared, if_neg hpos, hread₂, hbytes₁, List.take_left', henv,
      if_neg htype]
  · rw [hrest₂, hbytes₁, List.drop_left' rfl]

theorem readMsg_ok {r r' : Reader} {cap : Nat} (h : j.readMsg r cap = (.ok env, r')) :
    4 + declared r ≤ r.bytes.length ∧ r'.bytes = r.bytes.drop (4 + declared r) := by
  by_cases hlen : 4 ≤ r.bytes.length
  · obtain ⟨r₁, hread, hrest, -⟩ := Reader.readFull_of_le hlen
    simp only [readMsg, hread] at h
    split at h
    · exact nomatch congrArg Prod.fst h
    · by_cases hbody : declared r ≤ r₁.bytes.length
      · obtain ⟨r₂, hread₂, hrest₂, -⟩ := Reader.readFull_of_le hbody
        change (match r₁.readFull (declared r) with
          | (.error e, r) => _
          | (.ok buf, r) => _) = _ at h
        rw [hread₂] at h
        have hr : r₂ = r' := by
          simp only at h
          split at h
          · exact nomatch congrArg Prod.fst h
          · exact congrArg Prod.snd h
        rw [hrest, List.length_drop] at hbody
        rw [← hr, hrest₂, hrest, List.drop_drop]
        exact ⟨by omega, rfl⟩
      · obtain ⟨e, r₂, hread₂⟩ := Reader.readFull_of_lt (Nat.lt_of_not_le hbody)
        change (match r₁.readFull (declared r) with
          | (.error e, r) => _
          | (.ok buf, r) => _) = _ at h
        rw [hread₂] at h
        exact nomatch congrArg Prod.fst h
  · obtain ⟨e, r₁, hread⟩ := Reader.readFull_of_lt (Nat.lt_of_not_le hlen)
    simp only [readMsg, hread] at h
    exact nomatch congrArg Prod.fst h

theorem readMsg_eof {r : Reader} (h : r.bytes = []) (cap : Nat) :
    (j.readMsg r cap).1 = .error (.read r.err) := by
  have hread := Reader.readFull_nil h (by decide : 0 < 4)
  unfold readMsg
  generalize r.readFull 4 = res at hread ⊢
  obtain ⟨_, r'⟩ := res
  simp only at hread
  rw [hread]

theorem InverseOn.readMsg {r : Reader} (h : j.InverseOn m data env) (hfits : j.Fits m)
    (htype : m.type ≠ "")
    (hr : r.bytes = j.frame m ++ rest) :
    ∃ r', j.readMsg r maxFrame = (.ok ⟨m.type, data⟩, r') ∧ r'.bytes = rest ∧ r'.err = r.err ∧
      j.decode ⟨m.type, data⟩ = .ok m.payload := by
  rw [h.frame hfits, List.append_assoc] at hr
  obtain ⟨r', hread, hrest, herr⟩ := readMsg_frame hr h.ne_nil.2 (hfits env h.encode) (by decide)
    h.unmarshalEnvelope htype
  refine ⟨r', hread, hrest, herr, ?_⟩
  simp only [decode, if_neg h.ne_nil.1, h.unmarshal]

theorem readMsgs_frames {msgs : List (Message α)} {r : Reader}
    (hjson : ∀ m ∈ msgs, ∃ data env, j.InverseOn m data env) (hfits : ∀ m ∈ msgs, j.Fits m)
    (htype : ∀ m ∈ msgs, m.type ≠ "") (hr : r.bytes = msgs.flatMap j.frame ++ rest) :
    ∃ r', j.readMsgs maxFrame msgs.length r = (msgs, none, r') ∧ r'.bytes = rest ∧
      r'.err = r.err := by
  induction msgs generalizing r with
  | nil => exact ⟨r, rfl, hr, rfl⟩
  | cons m msgs ih =>
    obtain ⟨⟨data, env, hm⟩, hjson⟩ := List.forall_mem_cons.1 hjson
    obtain ⟨hfitsm, hfits⟩ := List.forall_mem_cons.1 hfits
    obtain ⟨htypem, htype⟩ := List.forall_mem_cons.1 htype
    rw [List.flatMap_cons, List.append_assoc] at hr
    obtain ⟨r₁, hread, hrest, herr, hdecode⟩ := hm.readMsg hfitsm htypem hr
    obtain ⟨r₂, hreads, hrest₂, herr₂⟩ := ih hjson hfits htype hrest
    refine ⟨r₂, ?_, hrest₂, herr₂.trans herr⟩
    simp only [List.length_cons, readMsgs, hread, hdecode, hreads]

theorem writeMsgs_frames {msgs : List (Message α)}
    (hjson : ∀ m ∈ msgs, ∃ data env, j.InverseOn m data env)
    (hfits : ∀ m ∈ msgs, j.Fits m) (w : Bytes) :
    msgs.foldl (fun w m => (j.writeMsg w m).2) w = w ++ msgs.flatMap j.frame := by
  induction msgs generalizing w with
  | nil => exact (List.append_nil w).symm
  | cons m msgs ih =>
    obtain ⟨⟨data, env, hm⟩, hjson⟩ := List.forall_mem_cons.1 hjson
    obtain ⟨hfitsm, hfits⟩ := List.forall_mem_cons.1 hfits
    rw [List.foldl_cons, ih hjson hfits, hm.writeMsg hfitsm, List.flatMap_cons, hm.frame hfitsm,
      List.append_assoc]

/-- What is written is read back message by message, however it is split; what does not fit is not
written, and what a frame declares out of bounds or does not hold is not read. -/
theorem framing_exact (j : JSON α) (msgs : List (Message α))
    (hjson : ∀ m ∈ msgs, ∃ data env, j.InverseOn m data env) (hfits : ∀ m ∈ msgs, j.Fits m)
    (htype : ∀ m ∈ msgs, m.type ≠ "") :
    (∀ r : Reader, r.bytes = msgs.foldl (fun w m => (j.writeMsg w m).2) [] →
      ∃ r', j.readMsgs maxFrame msgs.length r = (msgs, none, r') ∧ r'.bytes = [] ∧
        (j.readMsg r' maxFrame).1 = .error (.read r.err)) ∧
    (∀ m ∈ msgs, ∀ (r : Reader) (rest : Bytes), r.bytes = (j.writeMsg [] m).2 ++ rest →
      ∃ env r', j.readMsg r maxFrame = (.ok env, r') ∧ r'.bytes = rest ∧
        env.type = m.type ∧ j.decode env = .ok m.payload) ∧
    (∀ m env w, j.encode m = .ok env → maxFrame < env.length →
      j.writeMsg w m = (some .frameTooLarge, w)) ∧
    (∀ (r : Reader) (cap : Nat), 4 ≤ r.bytes.length → declared r = 0 ∨ cap < declared r →
      ∃ r', j.readMsg r cap = (.error .frameTooLarge, r') ∧ r'.bytes = r.bytes.drop 4) ∧
    ∀ (r : Reader) (cap : Nat), r.bytes.length < 4 + declared r →
      ∃ e r', j.readMsg r cap = (.error e, r') := by
  refine ⟨fun r hr => ?_, fun m hm r rest hr => ?_, fun m env w henv h => writeMsg_of_lt henv h w,
    fun r cap hlen h => readMsg_of_refused hlen
      (h.imp_right (Nat.mod_le cap _).trans_lt), fun r cap hlen => ?_⟩
  · rw [writeMsgs_frames hjson hfits, List.nil_append] at hr
    obtain ⟨r', hreads, hrest, herr⟩ := readMsgs_frames hjson hfits htype
      (hr.trans (List.append_nil _).symm)
    exact ⟨r', hreads, hrest, herr ▸ readMsg_eof hrest maxFrame⟩
  · obtain ⟨data, env, hinverse⟩ := hjson m hm
    obtain ⟨r', hread, hrest, -, hdecode⟩ := hinverse.readMsg (hfits m hm) (htype m hm) hr
    exact ⟨_, r', hread, hrest, rfl, hdecode⟩
  · cases hread : j.readMsg r cap with
    | mk res r' =>
      cases res with
      | error e => exact ⟨e, r', rfl⟩
      | ok env => exact absurd (readMsg_ok hread).1 (Nat.not_le_of_lt hlen)

end JSON

structure Ping where
  seq : Nat
  sentUnixNano : Int
  deriving DecidableEq, Repr

def ninthPing : Message Ping := ⟨"ping", ⟨9, 1700000000000000000⟩⟩

def pingData : Bytes := "\x7b\"seq\":9,\"sentUnixNano\":1700000000000000000\x7d".toUTF8.toList

def pingEnvelope : Bytes :=
  ("\x7b\"type\":\"ping\",\"data\":" ++
    "\x7b\"seq\":9,\"sentUnixNano\":1700000000000000000\x7d\x7d").toUTF8.toList

/-- The JSON of that ping. -/
def pingJSON : JSON Ping where
  zero := ⟨0, 0⟩
  marshal ping := if ping = ninthPing.payload then some pingData else none
  unmarshal bs := if bs = pingData then some ninthPing.payload else none
  marshalEnvelope env := if env = ⟨"ping", pingData⟩ then some pingEnvelope else none
  unmarshalEnvelope bs := if bs = pingEnvelope then some ⟨"ping", pingData⟩ else none

/-- Two pings come back from a source that hands out single bytes. -/
theorem framing_exact_pings : ∃ r', pingJSON.readMsgs maxFrame 2
      ⟨([ninthPing, ninthPing].foldl (fun w m => (pingJSON.writeMsg w m).2) []).map fun b => [b],
        .eof⟩ =
    ([ninthPing, ninthPing], none, r') ∧ r'.bytes = [] := by
  have hping : ∀ m ∈ [ninthPing, ninthPing], m = ninthPing := by
    intro m hm
    simpa using hm
  have hjson : pingJSON.InverseOn ninthPing pingData pingEnvelope := by
    refine ⟨?_, by decide +kernel, ?_, ?_, ?_⟩ <;> simp only [pingJSON, ninthPing, if_true]
  have hfits : pingJSON.Fits ninthPing := by
    intro env henv
    rw [hjson.encode] at henv
    obtain rfl := Except.ok.inj henv
    decide +kernel
  obtain ⟨hread, -⟩ := JSON.framing_exact pingJSON [ninthPing, ninthPing]
    (fun m hm => ⟨_, _, hping m hm ▸ hjson⟩) (fun m hm => hping m hm ▸ hfits)
    fun m hm => hping m hm ▸ by decide
  obtain ⟨r', hreads, hrest, -⟩ := hread ⟨_, .eof⟩
    ((List.flatMap_def ..).symm.trans (List.flatMap_singleton' _))
  exact ⟨r', hreads, hrest⟩

end ProxyForward

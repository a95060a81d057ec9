import ProxyForward.Packet

namespace ProxyForward
set_option autoImplicit true

inductive FrameStatus
  | ok (body : Bytes) (consumed : Nat)
  | incomplete
  | bad
  deriving DecidableEq, Repr

/-- The first complete packet of a buffer, if there is one. -/
def splitFrame (buf : Bytes) (maxSize : Nat) : FrameStatus :=
  match readVarIntPrefix buf with
  | .tooBig => .bad
  | .truncated _ => .incomplete
  | .value length n =>
    if length ≤ 0 ∨ (maxSize : Int) < length then .bad
    else if buf.length < n + length.toNat then .incomplete
    else .ok ((buf.drop n).take length.toNat) (n + length.toNat)

def packetID (body : Bytes) : Option (Int × Bytes) :=
  let (id, rd) := (BodyReader.new body).varint
  if rd.err = none then some (id, rd.rest) else none

inductive SniffState
  | handshake | login | done
  deriving DecidableEq, Repr

/-- `handshake` means something only when `haveH` is set. -/
structure Sniffer where
  buf : Bytes
  state : SniffState
  proto : Int
  handshake : Handshake
  login : Option LoginStart
  haveH : Bool
  deriving DecidableEq, Repr

def newSniffer : Sniffer := ⟨[], .handshake, 0, ⟨0, [], 0, 0⟩, none, false⟩

def maxSniffBytes : Nat := maxHandshakePacket + 4096

/-- The handshake's intent is a login or a transfer. -/
def Handshake.startsLogin (h : Handshake) : Prop :=
  h.nextState = nextStateLogin ∨ h.nextState = nextStateTransfer

instance (h : Handshake) : Decidable h.startsLogin := inferInstanceAs (Decidable (_ ∨ _))

namespace Sniffer

def give (s : Sniffer) : Sniffer := { s with state := .done, buf := [] }

/-- The round of the loop of `advance` that waits for the login start, which is the last one. -/
def advanceLogin (s : Sniffer) : Sniffer :=
  match splitFrame s.buf maxHandshakePacket with
  | .incomplete => s
  | .bad => s.give
  | .ok body consumed =>
    let s := { s with buf := s.buf.drop consumed }
    match packetID body with
    | none => s.give
    | some (id, payload) =>
      if id ≠ loginStartID then s.give
      else
        match parseLoginStart s.proto payload with
        | .ok ls => { s with login := some ls, state := .done }
        | .error _ => { s with state := .done }

/-- The loop of `advance`: a round for the handshake and, after one that says login, a round for the
login start. -/
def advance (s : Sniffer) : Sniffer :=
  match s.state with
  | .done => s
  | .login => s.advanceLogin
  | .handshake =>
    match splitFrame s.buf maxHandshakePacket with
    | .incomplete => s
    | .bad => s.give
    | .ok body consumed =>
      let s := { s with buf := s.buf.drop consumed }
      match packetID body with
      | none => s.give
      | some (id, payload) =>
        match parseHandshake id payload with
        | .error _ => s.give
        | .ok h =>
          let s := { s with handshake := h, haveH := true, proto := h.protocolVersion }
          if h.startsLogin then { s with state := .login }.advanceLogin
          else { s with state := .done }

def feed (s : Sniffer) (p : Bytes) : Sniffer :=
  if s.state = .done then s
  else
    let room := maxSniffBytes - s.buf.length
    let s := if 0 < room then { s with buf := s.buf ++ p.take room } else s
    let s := s.advance
    if s.state ≠ .done ∧ maxSniffBytes ≤ s.buf.length then s.give else s

/-- What the sniff learned, if it has parsed a handshake. -/
def outcome (s : Sniffer) : Option (Handshake × Option LoginStart) :=
  if s.haveH then some (s.handshake, s.login) else none

end Sniffer

/-- What the chunks of a stream tell a sniffer; it ignores those after its verdict. -/
def sniff (chunks : List Bytes) : Option (Handshake × Option LoginStart) :=
  (chunks.foldl Sniffer.feed newSniffer).outcome

/-- What the pull parser finds in the stream. -/
def pullLogin (stream : Bytes) : Option (Handshake × Option LoginStart) :=
  match readPacket stream maxHandshakePacket with
  | .error _ => none
  | .ok (id, body, rest) =>
    match parseHandshake id body with
    | .error _ => none
    | .ok h =>
      if h.startsLogin then
        match readPacket rest maxHandshakePacket with
        | .error _ => some (h, none)
        | .ok (id, body, _) =>
          if id ≠ loginStartID then some (h, none)
          else some (h, (parseLoginStart h.protocolVersion body).toOption)
      else some (h, none)

/-- However the stream is cut, the sniffer learns the same, and what the pull parser finds. -/
def SniffsAnyCut (stream : Bytes) : Prop :=
  (∀ chunks chunks' : List Bytes, chunks.flatten = stream → chunks'.flatten = stream →
    sniff chunks = sniff chunks') ∧
  ∀ chunks : List Bytes, chunks.flatten = stream → sniff chunks = pullLogin stream

/-- The stream starts with a login handshake and a login start, which span so many bytes. -/
def CarriesLogin (stream : Bytes) (span : Nat) : Prop :=
  ∃ body n id payload h body' n' payload' ls,
    splitFrame stream maxHandshakePacket = .ok body n ∧ packetID body = some (id, payload) ∧
    parseHandshake id payload = .ok h ∧ h.startsLogin ∧
    splitFrame (stream.drop n) maxHandshakePacket = .ok body' n' ∧
    packetID body' = some (loginStartID, payload') ∧
    parseLoginStart h.protocolVersion payload' = .ok ls ∧ span = n + n'

theorem splitFrame_ok (h : splitFrame buf maxSize = .ok body n) :
    n ≤ buf.length ∧ 0 < n ∧ body = (buf.take n).drop (n - body.length) ∧ body.length ≤ n ∧
      n ≤ body.length + 5 := by
  unfold splitFrame at h
  split at h
  · cases h
  · cases h
  · rename_i length k hv
    split at h
    · cases h
    · split at h
      · cases h
      · cases h
        have hk := varIntFrom_value hv (by omega)
        have hlen : ((buf.drop k).take length.toNat).length = length.toNat := by
          rw [List.length_take, List.length_drop]
          omega
        rw [hlen, Nat.add_sub_cancel, List.drop_take, Nat.add_sub_cancel_left]
        exact ⟨by omega, by omega, rfl, by omega, by omega⟩

theorem splitFrame_body_le (h : splitFrame buf maxSize = .ok body n) : body.length ≤ maxSize := by
  unfold splitFrame at h
  split at h
  · cases h
  · cases h
  · split at h
    · cases h
    · split at h
      · cases h
      · cases h
        rw [List.length_take]
        omega

theorem splitFrame_incomplete (h : splitFrame buf maxSize = .incomplete) :
    buf.length < maxSize + 5 := by
  unfold splitFrame at h
  split at h
  · cases h
  · rename_i hv
    have hn := varIntFrom_truncated hv (by omega)
    omega
  · rename_i length k hv
    split at h
    · cases h
    · split at h
      · have hk := varIntFrom_value hv (by omega)
        omega
      · cases h

theorem splitFrame_append (h : splitFrame buf maxSize ≠ .incomplete) (more : Bytes) :
    splitFrame (buf ++ more) maxSize = splitFrame buf maxSize := by
  unfold splitFrame readVarIntPrefix at h ⊢
  cases hv : varIntFrom 0 0 buf with
  | truncated n => exact absurd (by rw [hv]) h
  | tooBig =>
    rw [varIntFrom_append (by rw [hv]; exact fun n => VarInt.noConfusion), hv]
  | value length n =>
    rw [varIntFrom_append (by rw [hv]; exact fun n => VarInt.noConfusion), hv]
    rw [hv] at h
    simp only at h ⊢
    split
    · rfl
    · rename_i hl
      rw [if_neg hl] at h
      split at h
      · exact absurd rfl h
      · rename_i hlen
        have hk := varIntFrom_value hv (by omega)
        rw [if_neg hlen, if_neg (by rw [List.length_append]; omega),
          List.drop_append_of_le_length (by omega),
          List.take_append_of_le_length (by rw [List.length_drop]; omega)]

theorem splitFrame_longer (hy : splitFrame y maxSize = .incomplete) (hlen : 5 ≤ y.length)
    (h : splitFrame (y ++ w) maxSize = .ok body n) : y.length < n := by
  unfold splitFrame readVarIntPrefix at hy h
  rw [varIntFrom_long hlen] at h
  cases hv : varIntFrom 0 0 y with
  | truncated k => exact absurd hv (varIntFrom_of_length hlen k)
  | tooBig =>
    rw [hv] at h
    cases h
  | value length k =>
    simp only [hv] at hy h
    split at h
    · cases h
    · rename_i hl
      rw [if_neg hl] at hy
      split at h
      · cases h
      · cases h
        split at hy
        · assumption
        · cases hy

/-- What the round for the login start makes of a buffer, unless it waits for more. -/
def loginVerdict (proto : Int) (buf : Bytes) : Option (Option LoginStart) :=
  match splitFrame buf maxHandshakePacket with
  | .incomplete => none
  | .bad => some none
  | .ok body _ =>
    match packetID body with
    | none => some none
    | some (id, payload) =>
      if id ≠ loginStartID then some none else some (parseLoginStart proto payload).toOption

/-- What the round for the handshake makes of a buffer. -/
inductive Head
  | incomplete | bad
  | status (h : Handshake)
  | login (h : Handshake) (consumed : Nat)
  deriving DecidableEq, Repr

def headOf (buf : Bytes) : Head :=
  match splitFrame buf maxHandshakePacket with
  | .incomplete => .incomplete
  | .bad => .bad
  | .ok body consumed =>
    match packetID body with
    | none => .bad
    | some (id, payload) =>
      match parseHandshake id payload with
      | .error _ => .bad
      | .ok h => if h.startsLogin then .login h consumed else .status h

theorem splitFrame_of_loginVerdict (h : loginVerdict proto buf = none) :
    splitFrame buf maxHandshakePacket = .incomplete := by
  unfold loginVerdict at h
  split at h
  · assumption
  · cases h
  · split at h
    · cases h
    · split at h <;> cases h

theorem splitFrame_of_headOf (h : headOf buf = .incomplete) :
    splitFrame buf maxHandshakePacket = .incomplete := by
  unfold headOf at h
  split at h
  · assumption
  · cases h
  · split at h
    · cases h
    · split at h
      · cases h
      · split at h <;> cases h

theorem loginVerdict_append (h : loginVerdict proto buf = some r) (more : Bytes) :
    loginVerdict proto (buf ++ more) = some r := by
  have hne : splitFrame buf maxHandshakePacket ≠ .incomplete := by
    intro hi
    simp only [loginVerdict, hi, reduceCtorEq] at h
  rw [loginVerdict, splitFrame_append hne more]
  exact h

theorem headOf_append (h : headOf buf ≠ .incomplete) (more : Bytes) :
    headOf (buf ++ more) = headOf buf := by
  have hne : splitFrame buf maxHandshakePacket ≠ .incomplete := by
    intro hi
    exact h (by rw [headOf, hi])
  rw [headOf, splitFrame_append hne more]
  rfl

theorem headOf_login (h : headOf buf = .login hs n) :
    n ≤ buf.length ∧ n ≤ maxHandshakePacket + 5 := by
  unfold headOf at h
  split at h
  · cases h
  · cases h
  · rename_i body consumed hf
    split at h
    · cases h
    · split at h
      · cases h
      · split at h
        · cases h
          have hn := splitFrame_ok hf
          have hb := splitFrame_body_le hf
          exact ⟨hn.1, by omega⟩
        · cases h

theorem carriesLogin_iff : CarriesLogin stream span ↔
    ∃ h n body n' ls, headOf stream = .login h n ∧
      splitFrame (stream.drop n) maxHandshakePacket = .ok body n' ∧
      loginVerdict h.protocolVersion (stream.drop n) = some (some ls) ∧ span = n + n' := by
  constructor
  · rintro ⟨body, n, id, payload, h, body', n', payload', ls, hf, hp, hh, hl, hf', hp', hls, rfl⟩
    refine ⟨h, n, body', n', ls, ?_, hf', ?_, rfl⟩
    · simp only [headOf, hf, hp, hh, if_pos hl]
    · simp only [loginVerdict, hf', hp', hls, ne_eq, not_true_eq_false, if_false, Except.toOption]
  · rintro ⟨h, n, body', n', ls, hhead, hf', hv, rfl⟩
    unfold headOf at hhead
    split at hhead
    · cases hhead
    · cases hhead
    · rename_i body k hf
      split at hhead
      · cases hhead
      · rename_i id payload hp
        split at hhead
        · cases hhead
        · rename_i hh
          split at hhead
          · rename_i hl
            cases hhead
            simp only [loginVerdict, hf'] at hv
            split at hv
            · cases hv
            · rename_i id' payload' hp'
              split at hv
              · cases hv
              · rename_i hid
                obtain rfl := not_not.1 hid
                cases hls : parseLoginStart h.protocolVersion payload' with
                | error err =>
                  rw [hls] at hv
                  cases hv
                | ok ls' =>
                  exact ⟨body, n, id, payload, h, body', n', payload', ls', hf, hp, hh, hl,
                    hf', hp', hls, rfl⟩
          · cases hhead

theorem readPacket_toOption (r : Bytes) (maxSize : Nat) :
    (readPacket r maxSize).toOption =
      match splitFrame r maxSize with
      | .incomplete | .bad => none
      | .ok body n => (packetID body).map fun p => (p.1, p.2, r.drop n) := by
  unfold readPacket readVarInt splitFrame readVarIntPrefix
  cases hv : varIntFrom 0 0 r with
  | truncated n => rfl
  | tooBig => rfl
  | value length n =>
    have hn := varIntFrom_value hv (by omega)
    simp only
    split
    · rfl
    · rw [List.length_drop]
      by_cases hlen : r.length < n + length.toNat
      · rw [if_pos (by omega), if_pos hlen]
        rfl
      · rw [if_neg (by omega), if_neg hlen]
        simp only [packetID, List.drop_drop]
        cases herr : (BodyReader.new ((r.drop n).take length.toNat)).varint.2.err <;> rfl

theorem readPacket_ok (hf : splitFrame r maxSize = .ok body n) (hp : packetID body = some p) :
    readPacket r maxSize = .ok (p.1, p.2, r.drop n) := by
  have h := readPacket_toOption r maxSize
  simp only [hf, hp, Option.map_some] at h
  cases hr : readPacket r maxSize with
  | error err =>
    rw [hr] at h
    cases h
  | ok q =>
    rw [hr] at h
    rw [Option.some.inj h]

theorem readPacket_error (h : ∀ body n p, splitFrame r maxSize = .ok body n →
    packetID body ≠ some p) :
    ∃ err, readPacket r maxSize = .error err := by
  have ht := readPacket_toOption r maxSize
  cases hr : readPacket r maxSize with
  | error err => exact ⟨err, rfl⟩
  | ok q =>
    rw [hr] at ht
    cases hf : splitFrame r maxSize with
    | incomplete =>
      rw [hf] at ht
      cases ht
    | bad =>
      rw [hf] at ht
      cases ht
    | ok body n =>
      simp only [hf] at ht
      obtain ⟨p, hp, -⟩ := Option.map_eq_some_iff.1 ht.symm
      exact absurd hp (h body n p hf)

theorem pullLogin_rest (h : Handshake) (rest : Bytes) :
    (match readPacket rest maxHandshakePacket with
      | .error _ => some (h, none)
      | .ok (id, body, _) =>
        if id ≠ loginStartID then some (h, none)
        else some (h, (parseLoginStart h.protocolVersion body).toOption)) =
      some (h, (loginVerdict h.protocolVersion rest).join) := by
  have herror (hno : ∀ body n p, splitFrame rest maxHandshakePacket = .ok body n →
      packetID body ≠ some p) (hv : (loginVerdict h.protocolVersion rest).join = none) :
      (match readPacket rest maxHandshakePacket with
        | .error _ => some (h, none)
        | .ok (id, body, _) =>
          if id ≠ loginStartID then some (h, none)
          else some (h, (parseLoginStart h.protocolVersion body).toOption)) =
        some (h, (loginVerdict h.protocolVersion rest).join) := by
    obtain ⟨err, hr⟩ := readPacket_error hno
    rw [hr, hv]
  cases hf : splitFrame rest maxHandshakePacket with
  | incomplete => exact herror (by simp [hf]) (by simp [loginVerdict, hf])
  | bad => exact herror (by simp [hf]) (by simp [loginVerdict, hf])
  | ok body n =>
    cases hp : packetID body with
    | none =>
      refine herror (fun body' n' p hf' => ?_) (by simp [loginVerdict, hf, hp])
      obtain ⟨rfl, rfl⟩ := FrameStatus.ok.inj (hf.symm.trans hf')
      simp [hp]
    | some p =>
      simp only [readPacket_ok hf hp, loginVerdict, hf, hp]
      split <;> rfl

theorem pullLogin_eq (stream : Bytes) : pullLogin stream =
    match headOf stream with
    | .incomplete | .bad => none
    | .status h => some (h, none)
    | .login h n => some (h, (loginVerdict h.protocolVersion (stream.drop n)).join) := by
  have herror (hno : ∀ body n p, splitFrame stream maxHandshakePacket = .ok body n →
      packetID body ≠ some p) : pullLogin stream = none := by
    obtain ⟨err, hr⟩ := readPacket_error hno
    rw [pullLogin, hr]
  unfold headOf
  cases hf : splitFrame stream maxHandshakePacket with
  | incomplete => exact herror (by simp [hf])
  | bad => exact herror (by simp [hf])
  | ok body n =>
    cases hp : packetID body with
    | none =>
      simp only [hp]
      refine herror fun body' n' p hf' => ?_
      obtain ⟨rfl, rfl⟩ := FrameStatus.ok.inj (hf.symm.trans hf')
      simp [hp]
    | some p =>
      simp only [pullLogin, readPacket_ok hf hp, hp]
      cases parseHandshake p.1 p.2 with
      | error err => rfl
      | ok h =>
        by_cases hl : h.startsLogin
        · simp only [if_pos hl]
          exact pullLogin_rest h (stream.drop n)
        · simp only [if_neg hl]

theorem packetID_append (hbs : 5 ≤ bs.length) (more : Bytes) :
    packetID (bs ++ more) = (packetID bs).map fun p => (p.1, p.2 ++ more) := by
  simp only [packetID, varint_append hbs]
  split
  · rfl
  · rfl

theorem packetID_length (h : packetID bs = some p) : bs.length ≤ p.2.length + 5 := by
  have hlen := varint_rest_length bs
  simp only [packetID] at h
  split at h
  · cases h
    exact hlen
  · cases h

/-- An incomplete packet with its first bytes there decides how many more it needs, and whether it
will be a login start. -/
theorem loginVerdict_long (hy : loginVerdict proto y = none) (hlen : 64 ≤ y.length) :
    ∃ (need : Nat) (found : Bool), ∀ w : Bytes,
      (w.length < need → loginVerdict proto (y ++ w) = none) ∧
      (need ≤ w.length → ∃ r, loginVerdict proto (y ++ w) = some r ∧ r.isSome = found) := by
  have hframe := splitFrame_of_loginVerdict hy
  unfold splitFrame readVarIntPrefix at hframe
  cases hv : varIntFrom 0 0 y with
  | truncated n => exact absurd hv (varIntFrom_of_length (by omega) n)
  | tooBig =>
    rw [hv] at hframe
    cases hframe
  | value length n =>
    have hn := varIntFrom_value hv (by omega)
    simp only [hv] at hframe
    split at hframe
    · cases hframe
    · rename_i hl
      split at hframe
      · rename_i hshort
        have hsplit (w : Bytes) : splitFrame (y ++ w) maxHandshakePacket =
            if (y ++ w).length < n + length.toNat then .incomplete
            else .ok (((y ++ w).drop n).take length.toNat) (n + length.toNat) := by
          rw [splitFrame, readVarIntPrefix, varIntFrom_long (by omega), hv]
          exact if_neg hl
        refine ⟨n + length.toNat - y.length,
          match packetID (y.drop n) with
          | none => false
          | some (id, payload) => id = loginStartID && (readName payload).isSome, fun w => ⟨?_, ?_⟩⟩
        · intro hw
          rw [loginVerdict, hsplit, if_pos (by rw [List.length_append]; omega)]
        · intro hw
          have hbody : ((y ++ w).drop n).take length.toNat =
              y.drop n ++ w.take (length.toNat - (y.drop n).length) := by
            rw [List.drop_append_of_le_length (by omega), List.take_append,
              List.take_of_length_le (by rw [List.length_drop]; omega)]
          rw [loginVerdict, hsplit, if_neg (by rw [List.length_append]; omega), hbody]
          simp only [packetID_append (show 5 ≤ (y.drop n).length by rw [List.length_drop]; omega)]
          cases hp : packetID (y.drop n) with
          | none => exact ⟨none, rfl, rfl⟩
          | some p =>
            have hpay := packetID_length hp
            rw [List.length_drop] at hpay
            simp only [Option.map_some]
            by_cases hid : p.1 ≠ loginStartID
            · exact ⟨none, if_pos hid, by simp [hid]⟩
            · refine ⟨_, if_neg hid, ?_⟩
              rw [← Option.isSome_map (f := LoginStart.name), parseLoginStart_name,
                readName_append (by omega)]
              simp [not_not.1 hid]
      · cases hframe

end ProxyForward

import ProxyForward.Sniffer

namespace ProxyForward
set_option autoImplicit true

namespace Sniffer

def waiting (b : Bytes) : Sniffer := { newSniffer with buf := b }

def inLogin (h : Handshake) (b : Bytes) : Sniffer := ⟨b, .login, h.protocolVersion, h, none, true⟩

/-- A sniffer as the rounds leave it. -/
inductive View
  | waiting (b : Bytes)
  | login (h : Handshake) (b : Bytes)
  | done (o : Option (Handshake × Option LoginStart))

def Shows (s : Sniffer) : View → Prop
  | .waiting b => s = waiting b
  | .login h b => s = inLogin h b
  | .done o => s.state = .done ∧ s.outcome = o

def loginView (h : Handshake) (b : Bytes) : View :=
  match loginVerdict h.protocolVersion b with
  | none => .login h b
  | some r => .done (some (h, r))

def headView (b : Bytes) : View :=
  match headOf b with
  | .incomplete => .waiting b
  | .bad => .done none
  | .status h => .done (some (h, none))
  | .login h n => loginView h (b.drop n)

theorem advanceLogin_shows (h : Handshake) (b : Bytes) :
    (inLogin h b).advanceLogin.Shows (loginView h b) := by
  unfold advanceLogin loginView loginVerdict
  simp only [inLogin]
  cases splitFrame b maxHandshakePacket with
  | incomplete => exact rfl
  | bad => exact ⟨rfl, rfl⟩
  | ok body n =>
    simp only
    cases packetID body with
    | none => exact ⟨rfl, rfl⟩
    | some p =>
      simp only
      by_cases hid : p.1 ≠ loginStartID
      · simp only [if_pos hid]
        exact ⟨rfl, rfl⟩
      · simp only [if_neg hid]
        cases parseLoginStart h.protocolVersion p.2 <;> exact ⟨rfl, rfl⟩

theorem advance_shows (b : Bytes) : (waiting b).advance.Shows (headView b) := by
  unfold advance headView headOf
  simp only [waiting, newSniffer]
  cases splitFrame b maxHandshakePacket with
  | incomplete => exact rfl
  | bad => exact ⟨rfl, rfl⟩
  | ok body n =>
    simp only
    cases packetID body with
    | none => exact ⟨rfl, rfl⟩
    | some p =>
      simp only
      cases parseHandshake p.1 p.2 with
      | error err => exact ⟨rfl, rfl⟩
      | ok h =>
        by_cases hl : h.startsLogin
        · simp only [if_pos hl]
          exact advanceLogin_shows h (b.drop n)
        · simp only [if_neg hl]
          exact ⟨rfl, rfl⟩

/-- The bytes a view still holds are fewer than the cap. -/
def View.Small : View → Prop
  | .waiting b | .login _ b => b.length < maxHandshakePacket + 5
  | .done _ => True

theorem loginView_small (h : Handshake) (b : Bytes) : (loginView h b).Small := by
  unfold loginView
  cases hv : loginVerdict h.protocolVersion b with
  | none => exact splitFrame_incomplete (splitFrame_of_loginVerdict hv)
  | some r => trivial

theorem headView_small (b : Bytes) : (headView b).Small := by
  unfold headView
  cases hh : headOf b with
  | incomplete => exact splitFrame_incomplete (splitFrame_of_headOf hh)
  | bad => trivial
  | status h => trivial
  | login h n => exact loginView_small h _

theorem shows_capped {s : Sniffer} (h : s.Shows v) (hv : v.Small) :
    (if s.state ≠ .done ∧ maxSniffBytes ≤ s.buf.length then s.give else s).Shows v := by
  rw [if_neg]
  · exact h
  · rintro ⟨hs, hlen⟩
    have hcap : maxSniffBytes = maxHandshakePacket + 4096 := rfl
    cases v with
    | waiting b =>
      obtain rfl := h
      simp only [View.Small, waiting] at hv hlen
      omega
    | login hd b =>
      obtain rfl := h
      simp only [View.Small, inLogin] at hv hlen
      omega
    | done o => exact hs h.1

/-- A chunk fills the buffer up to the cap; the rest of it is dropped. -/
def filled (b p : Bytes) : Bytes := b ++ p.take (maxSniffBytes - b.length)

theorem filled_of_full (h : ¬0 < maxSniffBytes - b.length) (p : Bytes) : filled b p = b := by
  rw [filled, Nat.eq_zero_of_not_pos h, List.take_zero, List.append_nil]

theorem feed_waiting (b p : Bytes) : ((waiting b).feed p).Shows (headView (filled b p)) := by
  have hbuf : (if 0 < maxSniffBytes - (waiting b).buf.length then
      { waiting b with buf := (waiting b).buf ++ p.take (maxSniffBytes - (waiting b).buf.length) }
      else waiting b) = waiting (filled b p) := by
    split
    · rfl
    · rename_i hroom
      exact congrArg waiting (filled_of_full hroom p).symm
  have hnot : (waiting b).state ≠ .done := SniffState.noConfusion
  simp only [feed, if_neg hnot, hbuf]
  exact shows_capped (advance_shows _) (headView_small _)

theorem feed_login (h : Handshake) (b p : Bytes) :
    ((inLogin h b).feed p).Shows (loginView h (filled b p)) := by
  have hbuf : (if 0 < maxSniffBytes - (inLogin h b).buf.length then
      { inLogin h b with
        buf := (inLogin h b).buf ++ p.take (maxSniffBytes - (inLogin h b).buf.length) }
      else inLogin h b) = inLogin h (filled b p) := by
    split
    · rfl
    · rename_i hroom
      exact congrArg (inLogin h) (filled_of_full hroom p).symm
  have hnot : (inLogin h b).state ≠ .done := SniffState.noConfusion
  simp only [feed, if_neg hnot, hbuf]
  exact shows_capped (advanceLogin_shows h _) (loginView_small _ _)

theorem feed_done {s : Sniffer} (h : s.Shows (.done o)) (p : Bytes) :
    (s.feed p).Shows (.done o) := by
  rw [feed, if_pos h.1]
  exact h

theorem filled_append (hb : b.length ≤ maxSniffBytes) (p : Bytes) :
    ∃ rest, b ++ p = filled b p ++ rest ∧
      (rest = [] ∨ (filled b p).length = maxSniffBytes) := by
  refine ⟨p.drop (maxSniffBytes - b.length), ?_, ?_⟩
  · rw [filled, List.append_assoc, List.take_append_drop]
  · rw [List.drop_eq_nil_iff, filled, List.length_append, List.length_take]
    omega

/-- A chunk was cut off inside the login packet: `y` was the buffer's part of it, and `z` are the
bytes taken up since; more bytes than `z` have come after `y`. -/
def Lost (x : Bytes) (h : Handshake) (y z : Bytes) : Prop :=
  ∃ n z', headOf x = .login h n ∧ x.drop n = y ++ z' ∧ z.length < z'.length ∧
    maxSniffBytes ≤ n + y.length ∧ loginVerdict h.protocolVersion y = none

/-- How a view stands to the bytes fed so far. -/
def Tracks (x : Bytes) : View → Prop
  | .waiting b => b = x ∧ headOf x = .incomplete
  | .login h b => loginVerdict h.protocolVersion b = none ∧
      ((∃ n, headOf x = .login h n ∧ b = x.drop n) ∨ ∃ y z, Lost x h y z ∧ b = y ++ z)
  | .done o => (∀ w, pullLogin (x ++ w) = o) ∨
      ∃ h y z r, Lost x h y z ∧ loginVerdict h.protocolVersion (y ++ z) = some r ∧ o = some (h, r)

theorem drop_append_of_head (hx : headOf x = .login h n) (w : Bytes) :
    (x ++ w).drop n = x.drop n ++ w :=
  List.drop_append_of_le_length (headOf_login hx).1

theorem headOf_append_login (hx : headOf x = .login h n) (w : Bytes) :
    headOf (x ++ w) = .login h n := by
  rw [headOf_append (by rw [hx]; exact Head.noConfusion), hx]

theorem Lost.append (hl : Lost x h y z) (hp : p.length ≤ q.length) :
    Lost (x ++ q) h y (z ++ p) := by
  obtain ⟨n, z', hx, hdrop, hlt, hlen, hnone⟩ := hl
  refine ⟨n, z' ++ q, headOf_append_login hx q, ?_, ?_, hlen, hnone⟩
  · rw [drop_append_of_head hx, hdrop, List.append_assoc]
  · rw [List.length_append, List.length_append]
    omega

theorem pullLogin_of_verdict (hx : headOf x = .login h n) (hdrop : x.drop n = c ++ rest)
    (hv : loginVerdict h.protocolVersion c = some r) (w : Bytes) :
    pullLogin (x ++ w) = some (h, r) := by
  rw [pullLogin_eq, headOf_append_login hx]
  simp only [drop_append_of_head hx, hdrop, List.append_assoc, loginVerdict_append hv,
    Option.join_some]

theorem tracks_loginView (hx : headOf x = .login h n) (hdrop : x.drop n = c ++ rest)
    (hrest : rest = [] ∨ maxSniffBytes ≤ n + c.length) : Tracks x (loginView h c) := by
  unfold loginView
  cases hv : loginVerdict h.protocolVersion c with
  | some r => exact .inl (pullLogin_of_verdict hx hdrop hv)
  | none =>
    refine ⟨hv, ?_⟩
    cases rest with
    | nil => exact .inl ⟨n, hx, by rw [hdrop, List.append_nil]⟩
    | cons e rest =>
      have hlen := hrest.resolve_left (List.cons_ne_nil e rest)
      exact .inr ⟨c, [], ⟨n, e :: rest, hx, hdrop, Nat.succ_pos _, hlen, hv⟩,
        (List.append_nil c).symm⟩

theorem tracks_headView (hx : x = c ++ rest) (hrest : rest = [] ∨ c.length = maxSniffBytes) :
    Tracks x (headView c) := by
  subst hx
  unfold headView
  cases hh : headOf c with
  | incomplete =>
    have hnil : rest = [] := by
      refine hrest.resolve_right fun hlen => ?_
      have hsmall := splitFrame_incomplete (splitFrame_of_headOf hh)
      have hcap : maxSniffBytes = maxHandshakePacket + 4096 := rfl
      omega
    subst hnil
    rw [List.append_nil]
    exact ⟨rfl, hh⟩
  | bad =>
    refine .inl fun w => ?_
    rw [List.append_assoc, pullLogin_eq, headOf_append (by rw [hh]; exact Head.noConfusion), hh]
  | status h =>
    refine .inl fun w => ?_
    rw [List.append_assoc, pullLogin_eq, headOf_append (by rw [hh]; exact Head.noConfusion), hh]
  | login h n =>
    have hn := (headOf_login hh).1
    refine tracks_loginView (headOf_append_login hh rest) (drop_append_of_head hh rest) ?_
    refine hrest.imp_right fun hlen => ?_
    rw [List.length_drop]
    omega

theorem tracks_lost (hl : Lost x h y z) : Tracks x (loginView h (y ++ z)) := by
  unfold loginView
  cases hv : loginVerdict h.protocolVersion (y ++ z) with
  | none => exact ⟨hv, .inr ⟨y, z, hl, rfl⟩⟩
  | some r => exact .inr ⟨h, y, z, r, hl, hv, rfl⟩

theorem feed_tracks {s : Sniffer} (hs : s.Shows v) (hsmall : v.Small) (ht : Tracks x v)
    (p : Bytes) :
    ∃ v', (s.feed p).Shows v' ∧ v'.Small ∧ Tracks (x ++ p) v' := by
  have hcap : maxSniffBytes = maxHandshakePacket + 4096 := rfl
  cases v with
  | waiting b =>
    obtain rfl := hs
    obtain ⟨rfl, -⟩ := ht
    obtain ⟨rest, hsplit, hrest⟩ := filled_append (show b.length ≤ maxSniffBytes by
      simp only [View.Small] at hsmall
      omega) p
    exact ⟨_, feed_waiting b p, headView_small _, tracks_headView hsplit hrest⟩
  | login h b =>
    obtain rfl := hs
    obtain ⟨-, ⟨n, hx, rfl⟩ | ⟨y, z, hl, rfl⟩⟩ := ht
    · obtain ⟨rest, hsplit, hrest⟩ := filled_append (show (x.drop n).length ≤ maxSniffBytes by
        simp only [View.Small] at hsmall
        omega) p
      refine ⟨_, feed_login h _ p, loginView_small _ _, ?_⟩
      refine tracks_loginView (headOf_append_login hx p)
        ((drop_append_of_head hx p).trans hsplit) ?_
      exact hrest.imp_right fun hlen => by omega
    · refine ⟨_, feed_login h _ p, loginView_small _ _, ?_⟩
      rw [filled, List.append_assoc]
      exact tracks_lost (hl.append (List.length_take_le' _ p))
  | done o =>
    refine ⟨.done o, feed_done hs p, trivial, ?_⟩
    obtain ho | ⟨h, y, z, r, hl, hv, rfl⟩ := ht
    · exact .inl fun w => by rw [List.append_assoc, ho]
    · refine .inr ⟨h, y, z, r, ?_, hv, rfl⟩
      have hl' := hl.append (show ([] : Bytes).length ≤ p.length from Nat.zero_le _)
      rwa [List.append_nil] at hl'

theorem foldl_tracks {s : Sniffer} (hs : s.Shows v) (hsmall : v.Small) (ht : Tracks x v)
    (chunks : List Bytes) :
    ∃ v', (chunks.foldl feed s).Shows v' ∧ Tracks (x ++ chunks.flatten) v' := by
  induction chunks generalizing s v x with
  | nil =>
    rw [List.flatten_nil, List.append_nil]
    exact ⟨v, hs, ht⟩
  | cons p chunks ih =>
    obtain ⟨v', hs', hsmall', ht'⟩ := feed_tracks hs hsmall ht p
    rw [List.foldl_cons, List.flatten_cons, ← List.append_assoc]
    exact ih hs' hsmall' ht'

theorem Lost.spans (hl : Lost x h y z) (hn : headOf x = .login h n)
    (hv : loginVerdict h.protocolVersion (x.drop n) = some (some ls)) :
    ∃ span, maxSniffBytes < span ∧ CarriesLogin x span := by
  obtain ⟨n', z', hx, hdrop, hlt, hlen, hnone⟩ := hl
  obtain ⟨-, rfl⟩ := Head.login.inj (hx.symm.trans hn)
  have hcap : maxSniffBytes = maxHandshakePacket + 4096 := rfl
  have hn' := (headOf_login hx).2
  cases hf : splitFrame (x.drop n') maxHandshakePacket with
  | incomplete =>
    rw [loginVerdict, hf] at hv
    cases hv
  | bad =>
    rw [loginVerdict, hf] at hv
    cases hv
  | ok body m =>
    have hlong := splitFrame_longer (splitFrame_of_loginVerdict hnone) (by omega) (hdrop ▸ hf)
    exact ⟨n' + m, by omega, carriesLogin_iff.2 ⟨h, n', body, m, ls, hx, hf, hv, rfl⟩⟩

theorem Lost.no_login (hl : Lost x h y z)
    (hfit : ∀ span, CarriesLogin x span → span ≤ maxSniffBytes) :
    pullLogin x = some (h, none) ∧ (loginVerdict h.protocolVersion (y ++ z)).join = none := by
  obtain ⟨n, z', hx, hdrop, hlt, hlen, hnone⟩ := id hl
  have hcap : maxSniffBytes = maxHandshakePacket + 4096 := rfl
  have hn := (headOf_login hx).2
  have hno : ∀ ls, loginVerdict h.protocolVersion (x.drop n) ≠ some (some ls) := by
    intro ls hls
    obtain ⟨span, hlong, hcarries⟩ := hl.spans hx hls
    exact absurd (hfit span hcarries) (by omega)
  obtain ⟨need, found, hneed⟩ := loginVerdict_long hnone (by omega)
  constructor
  · rw [pullLogin_eq, hx]
    simp only
    cases hv : loginVerdict h.protocolVersion (x.drop n) with
    | none => rfl
    | some r =>
      cases r with
      | none => rfl
      | some ls => exact absurd hv (hno ls)
  · cases hv : loginVerdict h.protocolVersion (y ++ z) with
    | none => rfl
    | some r =>
      cases r with
      | none => rfl
      | some ls =>
        -- the bytes that came decide the same way as those that were kept
        have hz : need ≤ z.length := by
          refine not_lt.1 fun hshort => ?_
          rw [(hneed z).1 hshort] at hv
          cases hv
        obtain ⟨r, hr, hfound⟩ := (hneed z).2 hz
        obtain ⟨r', hr', hfound'⟩ := (hneed z').2 (by omega)
        obtain rfl := Option.some.inj (hv.symm.trans hr)
        obtain ⟨ls', rfl⟩ := Option.isSome_iff_exists.1 (hfound'.trans hfound.symm)
        exact absurd (hdrop ▸ hr') (hno ls')

end Sniffer

theorem sniff_eq_pullLogin (hfit : ∀ span, CarriesLogin stream span → span ≤ maxSniffBytes)
    (hchunks : chunks.flatten = stream) : sniff chunks = pullLogin stream := by
  obtain ⟨v, hs, ht⟩ := Sniffer.foldl_tracks (show newSniffer.Shows (.waiting []) from rfl)
    (show ([] : Bytes).length < _ by decide)
    (show Sniffer.Tracks [] (.waiting []) from ⟨rfl, rfl⟩) chunks
  rw [List.nil_append, hchunks] at ht
  unfold sniff
  cases v with
  | waiting b =>
    obtain ⟨rfl, hhead⟩ := ht
    rw [hs, pullLogin_eq, hhead]
    rfl
  | login h b =>
    rw [hs]
    obtain ⟨hnone, ⟨n, hx, rfl⟩ | ⟨y, z, hl, rfl⟩⟩ := ht
    · rw [pullLogin_eq, hx]
      simp only [hnone]
      rfl
    · rw [(hl.no_login hfit).1]
      rfl
  | done o =>
    rw [hs.2]
    obtain ho | ⟨h, y, z, r, hl, hv, rfl⟩ := ht
    · have hstream := ho []
      rw [List.append_nil] at hstream
      exact hstream.symm
    · obtain ⟨hpull, hjoin⟩ := hl.no_login hfit
      rw [hv] at hjoin
      rw [hpull]
      exact congrArg (fun r => some (h, r)) hjoin

theorem sniff_loses_login (hc : CarriesLogin stream span) (hlong : maxSniffBytes < span) :
    sniff [stream] ≠ pullLogin stream := by
  obtain ⟨h, n, body, n', ls, hhead, hf, hv, rfl⟩ := carriesLogin_iff.1 hc
  have hcap : maxSniffBytes = maxHandshakePacket + 4096 := rfl
  have hn' := splitFrame_ok hf
  rw [List.length_drop] at hn'
  have hn := headOf_login hhead
  have hlen : (stream.take maxSniffBytes).length = maxSniffBytes := by
    rw [List.length_take]
    omega
  have hkept : headOf (stream.take maxSniffBytes) = .login h n := by
    rw [← headOf_append ?_ (stream.drop maxSniffBytes), List.take_append_drop, hhead]
    intro hi
    have hsmall := splitFrame_incomplete (splitFrame_of_headOf hi)
    omega
  have hdrop : stream.drop n = (stream.take maxSniffBytes).drop n ++ stream.drop maxSniffBytes := by
    rw [← List.drop_append_of_le_length (by omega), List.take_append_drop]
  have hcut : splitFrame ((stream.take maxSniffBytes).drop n) maxHandshakePacket = .incomplete := by
    by_contra hne
    have hsame := splitFrame_append hne (stream.drop maxSniffBytes)
    rw [← hdrop, hf] at hsame
    have hm := (splitFrame_ok hsame.symm).1
    rw [List.length_drop] at hm
    omega
  have hnone : loginVerdict h.protocolVersion ((stream.take maxSniffBytes).drop n) = none := by
    rw [loginVerdict, hcut]
  have hshows : (newSniffer.feed stream).Shows (.login h ((stream.take maxSniffBytes).drop n)) := by
    have hfeed := Sniffer.feed_waiting [] stream
    rw [show Sniffer.filled [] stream = stream.take maxSniffBytes from List.nil_append _] at hfeed
    simp only [Sniffer.headView, hkept, Sniffer.loginView, hnone] at hfeed
    exact hfeed
  have hsniff : sniff [stream] = some (h, none) :=
    congrArg Sniffer.outcome (show newSniffer.feed stream = _ from hshows)
  rw [hsniff, pullLogin_eq, hhead]
  simp only [hv]
  exact fun heq => absurd (Prod.mk.inj (Option.some.inj heq)).2 (Option.some_ne_none ls).symm

/-- Exactly the streams whose login fits the cap are sniffed the same however they are cut. -/
theorem sniffsAnyCut_iff (stream : Bytes) :
    SniffsAnyCut stream ↔ ∀ span, CarriesLogin stream span → span ≤ maxSniffBytes := by
  constructor
  · intro hs span hc
    refine not_lt.1 fun hlong => ?_
    exact sniff_loses_login hc hlong (hs.2 [stream] (by simp))
  · intro hfit
    refine ⟨fun chunks chunks' hx hx' => ?_, fun chunks hx => sniff_eq_pullLogin hfit hx⟩
    rw [sniff_eq_pullLogin hfit hx, sniff_eq_pullLogin hfit hx']

theorem splitFrame_body (pre body rest : Bytes) (maxSize : Nat)
    (hv : varIntFrom 0 0 (pre ++ body ++ rest) = .value body.length pre.length)
    (hpos : 0 < body.length) (hle : body.length ≤ maxSize) :
    splitFrame (pre ++ body ++ rest) maxSize = .ok body (pre.length + body.length) := by
  rw [splitFrame, readVarIntPrefix, hv]
  simp only [Int.toNat_natCast]
  rw [if_neg (by omega), if_neg (by simp only [List.length_append]; omega), List.append_assoc,
    List.drop_left, List.take_left]

/-- The body of a login handshake with the longest server address. -/
def longHandshake : Bytes :=
  [0x00, 0x2f, 0x80, 0x20] ++ List.replicate 4096 0x61 ++ [0x63, 0xdd, 0x02]

/-- The largest body of a login start. -/
def longLoginStart : Bytes := [0x00, 0x01, 0x61] ++ List.replicate 8189 0x00

def longLogin : Bytes := [0x87, 0x20] ++ longHandshake ++ ([0x80, 0x40] ++ longLoginStart)

theorem longHandshake_length : longHandshake.length = 4103 := by
  simp only [longHandshake, List.length_append, List.length_replicate, List.length_cons,
    List.length_nil]

theorem longLoginStart_length : longLoginStart.length = 8192 := by
  simp only [longLoginStart, List.length_append, List.length_replicate, List.length_cons,
    List.length_nil]

theorem splitFrame_longLogin :
    splitFrame longLogin maxHandshakePacket = .ok longHandshake 4105 := by
  have hframe := splitFrame_body [0x87, 0x20] longHandshake ([0x80, 0x40] ++ longLoginStart)
    maxHandshakePacket (by rw [longHandshake_length]; rfl) (by rw [longHandshake_length]; decide)
    (by rw [longHandshake_length]; decide)
  rw [longHandshake_length] at hframe
  exact hframe

theorem splitFrame_longLogin_rest :
    splitFrame (longLogin.drop 4105) maxHandshakePacket = .ok longLoginStart 8194 := by
  have hrest : longLogin.drop 4105 = [0x80, 0x40] ++ longLoginStart ++ [] := by
    rw [List.append_nil]
    exact List.drop_left' (by rw [List.length_append, longHandshake_length]; rfl)
  have hframe := splitFrame_body [0x80, 0x40] longLoginStart []
    maxHandshakePacket (by rw [longLoginStart_length]; rfl) (by rw [longLoginStart_length]; decide)
    (by rw [longLoginStart_length]; decide)
  rw [longLoginStart_length, ← hrest] at hframe
  exact hframe

theorem string_of_varint (pre str rest : Bytes) (maxBytes : Nat)
    (hv : varIntFrom 0 0 (pre ++ str ++ rest) = .value str.length pre.length)
    (hmax : str.length ≤ maxBytes) :
    (BodyReader.new (pre ++ str ++ rest)).string maxBytes = (str, .new rest) := by
  simp only [BodyReader.string, BodyReader.varint, BodyReader.new, hv, ne_eq, not_true_eq_false,
    if_false, Int.toNat_natCast]
  rw [if_neg (by omega), List.append_assoc, List.drop_left,
    if_neg (by rw [List.length_append]; omega), List.take_left, List.drop_left]

theorem parseHandshake_long : parseHandshake 0 longHandshake.tail =
    .ok ⟨47, List.replicate 4096 0x61, 25565, 2⟩ := by
  have hstring := string_of_varint [0x80, 0x20] (List.replicate 4096 0x61) [0x63, 0xdd, 0x02]
    maxServerAddress (by rw [List.length_replicate]; rfl)
      (by rw [List.length_replicate]; exact le_rfl)
  have htail : (BodyReader.new longHandshake.tail).varint =
      (47, .new ([0x80, 0x20] ++ List.replicate 4096 0x61 ++ [0x63, 0xdd, 0x02])) := rfl
  simp only [parseHandshake, htail, hstring]
  rfl

theorem parseLoginStart_long : parseLoginStart 47 longLoginStart.tail = .ok ⟨[0x61], none⟩ := by
  have hstring := string_of_varint [0x01] [0x61] (List.replicate 8189 0x00) 16 rfl (by decide)
  have htail : longLoginStart.tail = [0x01] ++ [0x61] ++ List.replicate 8189 0x00 := rfl
  simp only [parseLoginStart, htail, hstring]
  rfl

theorem longLogin_carriesLogin : CarriesLogin longLogin 12299 :=
  ⟨longHandshake, 4105, 0, longHandshake.tail, ⟨47, List.replicate 4096 0x61, 25565, 2⟩,
    longLoginStart, 8194, longLoginStart.tail, ⟨[0x61], none⟩, splitFrame_longLogin, rfl,
    parseHandshake_long, by decide, splitFrame_longLogin_rest, rfl, parseLoginStart_long, rfl⟩

/-- A login of the longest address and the largest packet is lost when it comes in one chunk. -/
theorem sniff_depends_on_cut : ¬SniffsAnyCut longLogin := fun hs =>
  sniff_loses_login longLogin_carriesLogin (by decide) (hs.2 [longLogin] (List.append_nil _))

end ProxyForward

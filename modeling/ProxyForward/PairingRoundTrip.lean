import ProxyForward.IpcStatus
import ProxyForward.Pairing
import ProxyForward.SaveTunnels

namespace ProxyForward
set_option autoImplicit true

/-- The library's URLs: its parser and printer, and the IPv6 literals it takes in brackets. -/
structure NetUrl where
  parse : String → Except String Url
  render : Url → String
  ip6 : String → Bool

/-- The characters of a host that is a name or an IPv4 address. -/
def nameChar (c : Char) : Bool :=
  c.isAlphanum || c ∈ "-._~!$&'()*+,;=<>\"%]".toList || 128 ≤ c.toNat

namespace NetUrl

/-- A name or a bracketed literal, and a port. -/
def Authority (net : NetUrl) (host : String) : Prop :=
  ∃ name port : List Char, port.all Char.isDigit = true ∧
    (name.all nameChar = true ∧ host.toList = name ++ ':' :: port ∨
      net.ip6 (String.ofList name) = true ∧
        host.toList = '[' :: (name ++ [']']) ++ ':' :: port)

/-- The URLs that go both ways. -/
structure WellFormed (net : NetUrl) (u : Url) : Prop where
  scheme : u.scheme = pairingScheme
  host : net.Authority u.host
  path : u.path.toList.head? = some '/'

/-- What a correct library does: literals have colons and names do not, so a host with a port is one
or the other; a printed URL has no white space and is read back. -/
structure Lawful (net : NetUrl) : Prop where
  colon : ∀ s, net.ip6 s = true → ':' ∈ s.toList
  authority : ∀ s u, net.parse s = .ok u → u.port ≠ "" → net.Authority u.host
  printed : ∀ u, net.WellFormed u → ∀ c ∈ (net.render u).toList, isSpace c = false
  read : ∀ u, net.WellFormed u → net.parse (net.render u) = .ok u

end NetUrl

namespace PairingCode

def url (p : PairingCode) : Url where
  scheme := pairingScheme
  host := Ipc.joinHostPort p.host p.port
  path := "/" ++ pairingFormat ++ "/" ++ pairingKindPair ++ "/" ++ p.token
  fragment := p.fingerprint

/-- The line that a gateway shows. -/
def string (net : NetUrl) (p : PairingCode) : String := net.render p.url

/-- The codes that can be shown: a DNS name, an IPv4 or an IPv6 address, a port, a token that is one
path segment, and a fingerprint in lower case. -/
structure Renderable (net : NetUrl) (p : PairingCode) : Prop where
  host : p.host ≠ "" ∧ p.host.toList.all nameChar = true ∨ net.ip6 p.host = true
  port : validPort p.port = none
  token : p.token ≠ "" ∧ '/' ∉ p.token.toList
  fingerprint : ∃ hex : List Char, hex.length = 64 ∧ (∀ c ∈ hex, c ∈ "0123456789abcdef".toList) ∧
    p.fingerprint = String.ofList (fingerprintPrefix ++ hex)

end PairingCode

theorem forall_of_all {p : α → Prop} [DecidablePred p] {l : List α}
    (h : l.all (fun a => decide (p a)) = true) : ∀ a ∈ l, p a :=
  fun a ha => of_decide_eq_true (List.all_eq_true.1 h a ha)

theorem trimSpace_of_forall {s : String} (h : ∀ c ∈ s.toList, isSpace c = false) :
    trimSpace s = s := by
  have hdrop (cs : List Char) (hcs : ∀ c ∈ cs, isSpace c = false) : cs.dropWhile isSpace = cs := by
    cases cs with
    | nil => rfl
    | cons c cs =>
      exact List.dropWhile_cons_of_neg (by rw [hcs c List.mem_cons_self]; exact Bool.false_ne_true)
  rw [trimSpace, hdrop _ h, hdrop _ fun c hc => h c (List.mem_reverse.1 hc), List.reverse_reverse,
    String.ofList_toList]

theorem Url.splitPort_join {u : Url} {name digits : List Char}
    (hhost : u.host.toList = name ++ ':' :: digits) (hdigits : digits.all Char.isDigit = true) :
    u.splitPort = (name, digits) := by
  have hdigit : ∀ c ∈ digits.reverse, decide (c ≠ ':') = true := by
    intro c hc
    have hd := List.all_eq_true.1 hdigits c (List.mem_reverse.1 hc)
    refine decide_eq_true fun heq => ?_
    subst heq
    exact absurd hd (by decide)
  have hrev : u.host.toList.reverse = digits.reverse ++ ':' :: name.reverse := by
    rw [hhost, List.reverse_append, List.reverse_cons, List.append_assoc, List.singleton_append]
  have htake : (':' :: name.reverse).takeWhile (fun c => decide (c ≠ ':')) = [] :=
    List.takeWhile_cons_of_neg (by decide)
  have hdrop : (':' :: name.reverse).dropWhile (fun c => decide (c ≠ ':')) = ':' :: name.reverse :=
    List.dropWhile_cons_of_neg (by decide)
  unfold Url.splitPort
  simp only
  rw [hrev, List.takeWhile_append_of_pos hdigit, List.dropWhile_append_of_pos hdigit, htake, hdrop,
    List.append_nil, List.reverse_reverse]
  refine (if_pos hdigits).trans ?_
  rw [List.reverse_reverse]

theorem Url.hostname_join {u : Url} {name digits : List Char}
    (hhost : u.host.toList = name ++ ':' :: digits) (hdigits : digits.all Char.isDigit = true)
    (hname : name.head? ≠ some '[') : u.hostname = String.ofList name := by
  unfold Url.hostname
  rw [Url.splitPort_join hhost hdigits]
  exact if_neg fun h => hname h.1

theorem Url.hostname_literal {u : Url} {literal digits : List Char}
    (hhost : u.host.toList = '[' :: (literal ++ [']']) ++ ':' :: digits)
    (hdigits : digits.all Char.isDigit = true) : u.hostname = String.ofList literal := by
  unfold Url.hostname
  rw [Url.splitPort_join hhost hdigits]
  have hlast : ('[' :: (literal ++ [']'])).getLast? = some ']' := by
    rw [← List.cons_append, List.getLast?_append]
    rfl
  refine (if_pos ⟨rfl, hlast⟩).trans ?_
  rw [List.drop_one, List.tail_cons, List.dropLast_concat]

theorem digits?_toDigits (n : Nat) : digits? (Nat.toDigits 10 n) = some (n : Int) := by
  have hdigits : (Nat.toDigits 10 n).all Char.isDigit = true :=
    List.all_eq_true.2 fun c hc => Nat.isDigit_of_mem_toDigits (by decide) (by decide) hc
  have hfold (cs : List Char) (k : Nat) :
      cs.foldl (fun (n : Int) c => 10 * n + (c.toNat - 48 : Nat)) (k : Int) =
        (Nat.ofDigitChars 10 cs k : Int) := by
    induction cs generalizing k with
    | nil => rfl
    | cons c cs ih =>
      rw [List.foldl_cons, Nat.ofDigitChars_cons]
      exact ih (10 * k + (c.toNat - '0'.toNat))
  rw [digits?, if_neg (not_or.2 ⟨Nat.toDigits_ne_nil, not_not.2 hdigits⟩)]
  exact congrArg some ((hfold _ 0).trans (congrArg _ Nat.ofDigitChars_ten_toDigits))

theorem atoi_toDigits {n : Nat} (h : n ≤ 65535) :
    atoi (String.ofList (Nat.toDigits 10 n)) = some (n : Int) := by
  have hread := digits?_toDigits n
  have hrange : -9223372036854775808 ≤ (n : Int) ∧ (n : Int) ≤ 9223372036854775807 := by omega
  unfold atoi
  rw [String.toList_ofList]
  cases hcs : Nat.toDigits 10 n with
  | nil => exact absurd hcs Nat.toDigits_ne_nil
  | cons c cs =>
    have hc : c.isDigit = true := Nat.isDigit_of_mem_toDigits (b := 10) (n := n) (by decide)
      (by decide) (hcs ▸ List.mem_cons_self)
    rw [hcs] at hread
    split
    · rename_i heq
      cases heq
      exact absurd hc (by decide)
    · rename_i heq
      cases heq
      exact absurd hc (by decide)
    · simp only
      rw [hread, Option.filter_some, if_pos (decide_eq_true hrange)]

theorem utf8ByteSize_ofList {cs : List Char} (h : ∀ c ∈ cs, c.toNat < 128) :
    (String.ofList cs).utf8ByteSize = cs.length := by
  induction cs with
  | nil => rfl
  | cons c cs ih =>
    obtain ⟨hc, hcs⟩ := List.forall_mem_cons.1 h
    have hone : c.utf8Size = 1 :=
      Char.utf8Size_eq_one_iff.2 (UInt32.le_iff_toNat_le.2 (Nat.le_of_lt_succ hc))
    rw [String.ofList_cons, String.utf8ByteSize_append, String.utf8ByteSize_singleton, ih hcs,
      List.length_cons, Nat.add_comm, hone]

theorem tokenFromV1Path_path (pf : Platform) {token : String} (hne : token ≠ "")
    (hslash : '/' ∉ token.toList) :
    tokenFromV1Path pf ("/" ++ pairingFormat ++ "/" ++ pairingKindPair ++ "/" ++ token) =
      .ok token := by
  have hpath : ("/" ++ pairingFormat ++ "/" ++ pairingKindPair ++ "/" ++ token).toList =
      '/' :: ("v1".toList ++ '/' :: ("pair".toList ++ '/' :: token.toList)) := by
    simp only [String.toList_append]
    rfl
  unfold tokenFromV1Path
  simp only [hpath, List.head?_cons, if_true, List.drop_one, List.tail_cons]
  rw [List.splitOn_append_cons_self_of_not_mem (by decide),
    List.splitOn_append_cons_self_of_not_mem (by decide), List.splitOn_eq_singleton hslash]
  simp only [List.map_cons, List.map_nil, String.ofList_toList]
  rw [if_neg (by decide), if_neg (by decide), if_neg hne]

theorem jsonInt_port {p : Int} (h : validPort p = none) : jsonInt p = Nat.toDigits 10 p.toNat := by
  have hrange : ¬(p < 1 ∨ 65535 < p) := by
    intro hbad
    rw [validPort, if_pos hbad] at h
    cases h
  rw [jsonInt, if_neg (by omega)]
  congr 1
  omega

theorem parsePort_jsonInt {p : Int} (h : validPort p = none) :
    parsePort (String.ofList (jsonInt p)) = some p := by
  have hrange : ¬(p < 1 ∨ 65535 < p) := by
    intro hbad
    rw [validPort, if_pos hbad] at h
    cases h
  have hp : (p.toNat : Int) = p := by omega
  rw [parsePort, jsonInt_port h, atoi_toDigits (by omega), hp, Option.filter_some, h]
  rfl

namespace PairingCode

theorem Renderable.joined {net : NetUrl} (hnet : net.Lawful) {p : PairingCode}
    (h : p.Renderable net) :
    net.Authority p.url.host ∧ p.url.hostname = p.host ∧
      p.url.port = String.ofList (jsonInt p.port) := by
  have hdigits : (jsonInt p.port).all Char.isDigit = true := by
    rw [jsonInt_port h.port]
    exact List.all_eq_true.2 fun c hc => Nat.isDigit_of_mem_toDigits (by decide) (by decide) hc
  obtain ⟨-, hname⟩ | hip := h.host
  · have hcolon : ':' ∉ p.host.toList := by
      intro hc
      exact absurd (List.all_eq_true.1 hname ':' hc) (by decide)
    have hbracket : p.host.toList.head? ≠ some '[' := by
      intro hc
      exact absurd (List.all_eq_true.1 hname '[' (List.mem_of_mem_head? hc)) (by decide)
    have hhost : p.url.host.toList = p.host.toList ++ ':' :: jsonInt p.port := by
      rw [url, Ipc.joinHostPort, if_neg hcolon, String.toList_append, String.toList_append,
        String.toList_ofList (l := jsonInt p.port), List.append_assoc]
      rfl
    refine ⟨⟨_, _, hdigits, .inl ⟨hname, hhost⟩⟩, ?_, ?_⟩
    · rw [Url.hostname_join hhost hdigits hbracket, String.ofList_toList]
    · rw [Url.port, Url.splitPort_join hhost hdigits]
  · have hhost : p.url.host.toList = '[' :: (p.host.toList ++ [']']) ++ ':' :: jsonInt p.port := by
      rw [url, Ipc.joinHostPort, if_pos (hnet.colon _ hip)]
      simp only [String.toList_append, String.toList_ofList, List.append_assoc, List.cons_append]
      rfl
    refine ⟨⟨_, _, hdigits, .inr ⟨?_, hhost⟩⟩, ?_, ?_⟩
    · rwa [String.ofList_toList]
    · rw [Url.hostname_literal hhost hdigits, String.ofList_toList]
    · rw [Url.port, Url.splitPort_join hhost hdigits]

theorem Renderable.host_ne {net : NetUrl} (hnet : net.Lawful) {p : PairingCode}
    (h : p.Renderable net) : p.host ≠ "" := by
  obtain ⟨hne, -⟩ | hip := h.host
  · exact hne
  · intro hempty
    have hcolon := hnet.colon _ hip
    rw [hempty] at hcolon
    exact absurd hcolon List.not_mem_nil

theorem url_wellFormed {net : NetUrl} (hnet : net.Lawful) {p : PairingCode}
    (h : p.Renderable net) : net.WellFormed p.url where
  scheme := rfl
  host := (h.joined hnet).1
  path := by
    rw [url]
    simp only [String.toList_append]
    rfl

theorem hex_lower {hex : List Char} (h : ∀ c ∈ hex, c ∈ "0123456789abcdef".toList) :
    (∀ c ∈ hex, c ∈ hexAlphabet) ∧ hex.map Char.toLower = hex ∧ ∀ c ∈ hex, c.toNat < 128 := by
  have hall : ∀ c ∈ "0123456789abcdef".toList,
      c ∈ hexAlphabet ∧ c.toLower = c ∧ c.toNat < 128 :=
    forall_of_all (by decide)
  refine ⟨fun c hc => (hall c (h c hc)).1, ?_, fun c hc => (hall c (h c hc)).2.2⟩
  conv_rhs => rw [← List.map_id hex]
  exact List.map_congr_left fun c hc => (hall c (h c hc)).2.1

theorem Renderable.parse_string {net : NetUrl} (hnet : net.Lawful) (pf : Platform) {p : PairingCode}
    (h : p.Renderable net) (hlen : (p.string net).utf8ByteSize ≤ maxPairingCodeLen) :
    parsePairingCode net.parse pf (p.string net) = .ok p := by
  have hwell := url_wellFormed hnet h
  obtain ⟨-, hhost, hport⟩ := h.joined hnet
  obtain ⟨hne, hslash⟩ := h.token
  obtain ⟨hex, hexlen, hlower, hfp⟩ := h.fingerprint
  obtain ⟨halphabet, hmap, hascii⟩ := hex_lower hlower
  have htoken : tokenFromV1Path pf p.url.path = .ok p.token := tokenFromV1Path_path pf hne hslash
  have hport_ne : p.url.port ≠ "" := by
    rw [hport, jsonInt_port h.port]
    intro hempty
    have hnil := congrArg String.toList hempty
    rw [String.toList_ofList] at hnil
    exact Nat.toDigits_ne_nil hnil
  have hlist : p.url.fragment.toList = fingerprintPrefix ++ hex := by
    rw [url, hfp, String.toList_ofList]
  have hprefix : fingerprintPrefix.isPrefixOf (fingerprintPrefix ++ hex) = true :=
    List.isPrefixOf_iff_prefix.2 (List.prefix_append _ _)
  have hsize : p.url.fragment.utf8ByteSize = fingerprintPrefix.length + 64 := by
    have hpre : ∀ c ∈ fingerprintPrefix, c.toNat < 128 := forall_of_all (by decide)
    have hbytes : ∀ c ∈ fingerprintPrefix ++ hex, c.toNat < 128 := by
      intro c hc
      obtain hc | hc := List.mem_append.1 hc
      · exact hpre c hc
      · exact hascii c hc
    rw [url, hfp, utf8ByteSize_ofList hbytes, List.length_append, hexlen]
  have hdrop : (fingerprintPrefix ++ hex).drop fingerprintPrefix.length = hex :=
    List.drop_left
  have hfold : (fingerprintPrefix ++ hex).map Char.toLower = fingerprintPrefix ++ hex := by
    rw [List.map_append, hmap]
    rfl
  have hhex : hex.all (· ∈ hexAlphabet) = true :=
    List.all_eq_true.2 fun c hc => decide_eq_true (halphabet c hc)
  rw [string] at hlen ⊢
  unfold parsePairingCode
  simp only
  rw [trimSpace_of_forall (hnet.printed _ hwell), if_neg (Nat.not_lt.2 hlen), hnet.read _ hwell]
  simp only [htoken]
  rw [if_neg (not_not.2 hwell.scheme), hhost, if_neg (h.host_ne hnet), if_neg hport_ne, hport,
    parsePort_jsonInt h.port]
  simp only [hlist, hsize, hdrop, hfold]
  rw [if_neg (not_or.2 ⟨not_not.2 hprefix, not_not.2 rfl⟩), if_neg (not_not.2 hhex), ← hfp]

end PairingCode

theorem not_mem_of_mem_splitOn [DecidableEq α] {sep : α} {xs part : List α}
    (h : part ∈ xs.splitOn sep) : sep ∉ part := by
  induction xs generalizing part with
  | nil =>
    rw [List.splitOn_nil, List.mem_singleton] at h
    rw [h]
    exact List.not_mem_nil
  | cons x xs ih =>
    rw [List.splitOn_cons_eq_if_modifyHead] at h
    split at h
    · obtain rfl | h := List.mem_cons.1 h
      · exact List.not_mem_nil
      · exact ih h
    · rename_i hx
      cases hsplit : xs.splitOn sep with
      | nil => exact absurd hsplit (List.splitOn_ne_nil _ _)
      | cons first rest =>
        rw [hsplit] at h ih
        rw [List.modifyHead_cons] at h
        obtain rfl | h := List.mem_cons.1 h
        · rw [List.mem_cons, not_or]
          refine ⟨fun heq => hx ?_, ih List.mem_cons_self⟩
          rw [heq, beq_self_eq_true]
        · exact ih (List.mem_cons_of_mem _ h)

theorem tokenFromV1Path_segment (h : tokenFromV1Path pf path = .ok token) :
    '/' ∉ token.toList := by
  unfold tokenFromV1Path at h
  simp only at h
  split at h
  · rename_i version kind token' hsegs
    have hmem : token' ∈ [version, kind, token'] := .tail _ (.tail _ (.head _))
    rw [← hsegs] at hmem
    obtain ⟨part, hpart, rfl⟩ := List.mem_map.1 hmem
    split at h
    · cases h
    · split at h
      · cases h
      · split at h
        · cases h
        · cases h
          rw [String.toList_ofList]
          exact not_mem_of_mem_splitOn hpart
  · cases h

theorem renderable_of_parse {net : NetUrl} (hnet : net.Lawful)
    (h : parsePairingCode net.parse pf s = .ok p) : p.Renderable net := by
  have hcomplete := parsePairingCode_ok h
  unfold parsePairingCode at h
  simp only at h
  split at h
  · cases h
  split at h
  · cases h
  rename_i u hparse
  split at h
  · cases h
  split at h
  · cases h
  rename_i token htoken
  split at h
  · cases h
  rename_i hhost
  split at h
  · cases h
  rename_i hport
  split at h
  · cases h
  split at h
  · cases h
  rename_i hfp
  split at h
  · cases h
  rename_i hhex
  cases h
  obtain ⟨hpre, hsize⟩ := not_or.1 hfp
  refine ⟨?_, hcomplete.port, ⟨hcomplete.token, tokenFromV1Path_segment htoken⟩, ?_⟩
  · obtain ⟨name, digits, hdigits, ⟨hname, hu⟩ | ⟨hip, hu⟩⟩ := hnet.authority _ _ hparse hport
    · have hbracket : name.head? ≠ some '[' := by
        intro hc
        exact absurd (List.all_eq_true.1 hname '[' (List.mem_of_mem_head? hc)) (by decide)
      have heq := Url.hostname_join hu hdigits hbracket
      refine .inl ⟨hhost, ?_⟩
      rw [heq, String.toList_ofList]
      exact hname
    · refine .inr ?_
      rw [Url.hostname_literal hu hdigits]
      exact hip
  · obtain ⟨hex, hu⟩ := List.isPrefixOf_iff_prefix.1 (not_not.1 hpre)
    have hall : ∀ c ∈ hexAlphabet, c.toLower ∈ "0123456789abcdef".toList ∧ c.toNat < 128 :=
      forall_of_all (by decide)
    have halphabet : ∀ c ∈ hex, c ∈ hexAlphabet := by
      rw [← hu, List.drop_left] at hhex
      exact fun c hc => of_decide_eq_true (List.all_eq_true.1 (not_not.1 hhex) c hc)
    have hascii : ∀ c ∈ fingerprintPrefix ++ hex, c.toNat < 128 := by
      have hprefix : ∀ c ∈ fingerprintPrefix, c.toNat < 128 := forall_of_all (by decide)
      intro c hc
      obtain hc | hc := List.mem_append.1 hc
      · exact hprefix c hc
      · exact (hall c (halphabet c hc)).2
    refine ⟨hex.map Char.toLower, ?_, ?_, ?_⟩
    · have hlen := utf8ByteSize_ofList hascii
      rw [hu, String.ofList_toList, not_not.1 hsize, ← hu, List.length_append] at hlen
      rw [List.length_map]
      omega
    · intro c hc
      obtain ⟨d, hd, rfl⟩ := List.mem_map.1 hc
      exact (hall d (halphabet d hd)).1
    · rw [← hu, List.map_append]
      rfl

/-- A code that is shown is read back as it is, and a code that is accepted, shown again, is
accepted as the same. -/
theorem pairing_round_trip (net : NetUrl) (hnet : net.Lawful) (pf : Platform) :
    (∀ p : PairingCode, p.Renderable net → (p.string net).utf8ByteSize ≤ maxPairingCodeLen →
      parsePairingCode net.parse pf (p.string net) = .ok p) ∧
    ∀ s p, parsePairingCode net.parse pf s = .ok p →
      (p.string net).utf8ByteSize ≤ maxPairingCodeLen →
      parsePairingCode net.parse pf (p.string net) = .ok p :=
  ⟨fun _ hp => hp.parse_string hnet pf,
    fun _ _ hs => (renderable_of_parse hnet hs).parse_string hnet pf⟩

/-- The characters that a small URL library escapes. -/
def escapedUrl (c : Char) : Bool := isSpace c || c ∈ ['%', '#', '?']

def escapeUrlChar (c : Char) : List Char :=
  if escapedUrl c then ['%', Char.ofNat (c.toNat + 65536)] else [c]

def escapeUrl (cs : List Char) : List Char := cs.flatMap escapeUrlChar

def unescapeUrl : List Char → List Char
  | [] => []
  | c :: cs =>
    if c = '%' then
      match cs with
      | [] => ['%']
      | d :: cs => Char.ofNat (d.toNat - 65536) :: unescapeUrl cs
    else c :: unescapeUrl cs

theorem escapedUrl_toNat (h : escapedUrl c = true) :
    c.toNat ≤ 12288 ∧ (Char.ofNat (c.toNat + 65536)).toNat = c.toNat + 65536 := by
  have hsmall : c.toNat ≤ 12288 := by
    rw [escapedUrl, Bool.or_eq_true] at h
    obtain hspace | hmark := h
    · simp only [isSpace, decide_eq_true_eq, List.mem_cons, List.not_mem_nil, or_false] at hspace
      omega
    · revert hmark
      simp only [List.mem_cons, List.not_mem_nil, or_false, decide_eq_true_eq]
      rintro (rfl | rfl | rfl) <;> decide
  have hvalid : (c.toNat + 65536).isValidChar := .inr ⟨by omega, by omega⟩
  refine ⟨hsmall, ?_⟩
  rw [Char.ofNat, dif_pos hvalid]
  rfl

theorem unescapeUrl_escapeUrl (cs : List Char) : unescapeUrl (escapeUrl cs) = cs := by
  induction cs with
  | nil => rfl
  | cons c cs ih =>
    have hcons : escapeUrl (c :: cs) = escapeUrlChar c ++ escapeUrl cs := List.flatMap_cons
    rw [hcons, escapeUrlChar]
    by_cases hc : escapedUrl c = true
    · obtain ⟨-, hcode⟩ := escapedUrl_toNat hc
      rw [if_pos hc, List.cons_append, List.cons_append, List.nil_append, unescapeUrl, if_pos rfl,
        ih, hcode, Nat.add_sub_cancel, Char.ofNat_toNat]
    · have hne : c ≠ '%' := by
        rintro rfl
        exact hc (by decide)
      rw [if_neg hc, List.cons_append, List.nil_append, unescapeUrl.eq_def]
      simp only [if_neg hne, ih]

theorem mem_escapeUrl (h : c ∈ escapeUrl cs) :
    c ∈ cs ∧ escapedUrl c = false ∨ c = '%' ∨ 65536 ≤ c.toNat := by
  obtain ⟨d, hmem, hd⟩ := List.mem_flatMap.1 h
  rw [escapeUrlChar] at hd
  split at hd
  · rename_i hesc
    obtain rfl | hd := List.mem_cons.1 hd
    · exact .inr (.inl rfl)
    · rw [List.mem_singleton.1 hd, (escapedUrl_toNat hesc).2]
      exact .inr (.inr (Nat.le_add_left _ _))
  · rename_i hesc
    rw [List.mem_singleton.1 hd]
    exact .inl ⟨hmem, Bool.eq_false_iff.2 hesc⟩

theorem not_mem_escapeUrl {c : Char} (hc : c.toNat < 65536) (hne : c ≠ '%')
    (h : c ∉ cs ∨ escapedUrl c = true) : c ∉ escapeUrl cs := by
  intro hmem
  obtain ⟨hcs, hesc⟩ | rfl | hlarge := mem_escapeUrl hmem
  · obtain hnot | hyes := h
    · exact hnot hcs
    · rw [hesc] at hyes
      cases hyes
  · exact hne rfl
  · omega

def plainIp6 (s : String) : Bool := s == "2001:db8::1"

/-- The check of the host, when there is a port. -/
def hostOk (u : Url) : Bool :=
  u.splitPort.2 = [] || u.splitPort.1.all nameChar ||
    plainIp6 u.hostname && u.splitPort.1 = '[' :: (u.hostname.toList ++ [']'])

/-- A small URL library, for codes without users and queries. -/
def plainNet : NetUrl where
  ip6 := plainIp6
  render u := String.ofList ("pxf://".toList ++ (escapeUrl u.host.toList ++
    (escapeUrl u.path.toList ++ '#' :: escapeUrl u.fragment.toList)))
  parse s :=
    let rest := s.toList.drop 6
    let host := rest.takeWhile (· ≠ '/')
    let path := (rest.drop host.length).takeWhile (· ≠ '#')
    let fragment := rest.drop (host.length + path.length + 1)
    let u : Url := ⟨"pxf", String.ofList (unescapeUrl host), String.ofList (unescapeUrl path),
      String.ofList (unescapeUrl fragment)⟩
    if "pxf://".toList.isPrefixOf s.toList && hostOk u then .ok u else .error "invalid URL"

theorem splitPort_some {u : Url} (h : u.splitPort.2 ≠ []) :
    u.host.toList = u.splitPort.1 ++ ':' :: u.splitPort.2 ∧
      u.splitPort.2.all Char.isDigit = true := by
  revert h
  unfold Url.splitPort
  simp only
  split
  · exact fun h => absurd rfl h
  · rename_i head before heq
    split
    · rename_i hdigits
      intro _
      refine ⟨?_, hdigits⟩
      have hhead : head = ':' := by
        have hne : u.host.toList.reverse.dropWhile (fun c => decide (c ≠ ':')) ≠ [] := by
          rw [heq]
          exact List.cons_ne_nil _ _
        have hnot := List.head_dropWhile_not (fun c => decide (c ≠ ':')) hne
        simp only [heq, List.head_cons] at hnot
        simpa using hnot
      have hall := List.takeWhile_append_dropWhile (p := fun c => decide (c ≠ ':'))
        (l := u.host.toList.reverse)
      rw [heq, hhead] at hall
      have hrev := congrArg List.reverse hall
      rw [List.reverse_reverse, List.reverse_append, List.reverse_cons, List.append_assoc] at hrev
      exact hrev.symm
    · exact fun h => absurd rfl h

theorem hostOk_of_authority {u : Url} (h : plainNet.Authority u.host) : hostOk u = true := by
  obtain ⟨name, digits, hdigits, ⟨hname, hu⟩ | ⟨hip, hu⟩⟩ := h
  · rw [hostOk, Url.splitPort_join hu hdigits, hname, Bool.or_true, Bool.true_or]
  · have hip : plainIp6 (String.ofList name) = true := hip
    rw [hostOk, Url.splitPort_join hu hdigits, Url.hostname_literal hu hdigits, hip,
      String.toList_ofList, Bool.true_and, decide_eq_true rfl, Bool.or_true]

theorem slash_not_mem_host {u : Url} (h : plainNet.Authority u.host) : '/' ∉ u.host.toList := by
  have hdigit {digits : List Char} (hdigits : digits.all Char.isDigit = true) : '/' ∉ digits :=
    fun hmem => absurd (List.all_eq_true.1 hdigits '/' hmem) (by decide)
  obtain ⟨name, digits, hdigits, ⟨hname, hu⟩ | ⟨hip, hu⟩⟩ := h
  · have hslash : '/' ∉ name := fun hmem => absurd (List.all_eq_true.1 hname '/' hmem) (by decide)
    rw [hu, List.mem_append, List.mem_cons]
    exact not_or.2 ⟨hslash, not_or.2 ⟨by decide, hdigit hdigits⟩⟩
  · have hliteral : name = "2001:db8::1".toList := by
      rw [← eq_of_beq hip, String.toList_ofList]
    rw [hu, List.mem_append, List.mem_cons (a := '/') (b := ':'), hliteral]
    exact not_or.2 ⟨by decide, not_or.2 ⟨by decide, hdigit hdigits⟩⟩

theorem plainNet_lawful : plainNet.Lawful where
  colon s hs := by
    rw [eq_of_beq hs]
    decide
  authority s u hparse hport := by
    have hu : hostOk u = true := by
      simp only [plainNet] at hparse
      split at hparse
      · rename_i hok
        rw [Except.ok.inj hparse] at hok
        exact (Bool.and_eq_true_iff.1 hok).2
      · cases hparse
    have hne : u.splitPort.2 ≠ [] := fun hnil => hport (by rw [Url.port, hnil])
    obtain ⟨hhost, hdigits⟩ := splitPort_some hne
    rw [hostOk, Bool.or_eq_true, Bool.or_eq_true, Bool.and_eq_true, decide_eq_true_eq,
      decide_eq_true_eq] at hu
    obtain (hnil | hname) | ⟨hip, hname⟩ := hu
    · exact absurd hnil hne
    · exact ⟨_, _, hdigits, .inl ⟨hname, hhost⟩⟩
    · refine ⟨u.hostname.toList, _, hdigits, .inr ⟨?_, ?_⟩⟩
      · rw [String.ofList_toList]
        exact hip
      · rw [← hname]
        exact hhost
  printed u hu c hc := by
    have hspace {cs : List Char} (h : c ∈ escapeUrl cs) : isSpace c = false := by
      obtain ⟨-, hesc⟩ | rfl | hlarge := mem_escapeUrl h
      · exact (Bool.or_eq_false_iff.1 hesc).1
      · decide
      · refine decide_eq_false ?_
        simp only [List.mem_cons, List.not_mem_nil, or_false]
        omega
    simp only [plainNet, String.toList_ofList, List.mem_append, List.mem_cons] at hc
    obtain hc | hc | hc | rfl | hc := hc
    · have hscheme : ∀ c ∈ "pxf://".toList, isSpace c = false := forall_of_all (by decide)
      exact hscheme c hc
    · exact hspace hc
    · exact hspace hc
    · decide
    · exact hspace hc
  read u hu := by
    obtain ⟨scheme, host, path, fragment⟩ := u
    obtain ⟨hscheme, hhost, hpath⟩ := hu
    have hslash : ∀ c ∈ escapeUrl host.toList, decide (c ≠ '/') = true := by
      refine fun c hc => decide_eq_true fun heq => ?_
      rw [heq] at hc
      exact not_mem_escapeUrl (by decide) (by decide) (.inl (slash_not_mem_host hhost)) hc
    have hhash : ∀ c ∈ escapeUrl path.toList, decide (c ≠ '#') = true := by
      refine fun c hc => decide_eq_true fun heq => ?_
      rw [heq] at hc
      exact not_mem_escapeUrl (by decide) (by decide) (.inr (by decide)) hc
    have hhead : escapeUrl path.toList ++ '#' :: escapeUrl fragment.toList =
        '/' :: (escapeUrl (path.toList.drop 1) ++ '#' :: escapeUrl fragment.toList) := by
      obtain ⟨rest, hrest⟩ := List.head?_eq_some_iff.1 hpath
      rw [show path.toList = '/' :: rest from hrest]
      rfl
    have htake : (escapeUrl host.toList ++ (escapeUrl path.toList ++
        '#' :: escapeUrl fragment.toList)).takeWhile (· ≠ '/') = escapeUrl host.toList := by
      rw [List.takeWhile_append_of_pos hslash, hhead, List.takeWhile_cons_of_neg (by decide),
        List.append_nil]
    have htake' : (escapeUrl path.toList ++ '#' :: escapeUrl fragment.toList).takeWhile (· ≠ '#') =
        escapeUrl path.toList := by
      rw [List.takeWhile_append_of_pos hhash, List.takeWhile_cons_of_neg (by decide),
        List.append_nil]
    have hdrop : (escapeUrl host.toList ++ (escapeUrl path.toList ++
        '#' :: escapeUrl fragment.toList)).drop
          ((escapeUrl host.toList).length + (escapeUrl path.toList).length + 1) =
        escapeUrl fragment.toList := by
      rw [Nat.add_assoc, ← List.drop_drop, List.drop_left, ← List.drop_drop, List.drop_left,
        List.drop_one, List.tail_cons]
    have hprefix : "pxf://".toList.isPrefixOf ("pxf://".toList ++ (escapeUrl host.toList ++
        (escapeUrl path.toList ++ '#' :: escapeUrl fragment.toList))) = true :=
      List.isPrefixOf_iff_prefix.2 (List.prefix_append _ _)
    have hskip (rest : List Char) : ("pxf://".toList ++ rest).drop 6 = rest :=
      List.drop_left' rfl
    have hok : hostOk ⟨"pxf", host, path, fragment⟩ = true := hostOk_of_authority hhost
    simp only [plainNet, String.toList_ofList, hskip, htake, List.drop_left, htake', hdrop,
      unescapeUrl_escapeUrl, String.ofList_toList, hprefix, hok, Bool.and_self, if_true]
    rw [show scheme = "pxf" from hscheme]

/-- A code with an IPv6 host is shown with brackets and read back without; pasted with a space, a
padded port and an upper-case fingerprint it is the same code. -/
theorem pairing_round_trip_ip6 :
    let p : PairingCode := ⟨"2001:db8::1", 8474, "v6token", String.ofList
      (fingerprintPrefix ++ List.replicate 64 'c')⟩
    let s := String.ofList (" pxf://[2001:db8::1]:08474/v1/pair/v6token#sha256:".toList ++
      List.replicate 64 'C')
    parsePairingCode plainNet.parse plainPlatform (p.string plainNet) = .ok p ∧
      parsePairingCode plainNet.parse plainPlatform s = .ok p ∧
      parsePairingCode plainNet.parse plainPlatform (p.string plainNet) = .ok p := by
  intro p s
  have hp : p.Renderable plainNet := by
    refine ⟨.inr rfl, rfl, ⟨by decide, by decide⟩, List.replicate 64 'c', List.length_replicate, ?_,
      rfl⟩
    exact forall_of_all (by decide)
  have hlen : (p.string plainNet).utf8ByteSize ≤ maxPairingCodeLen := by decide +kernel
  have hs : parsePairingCode plainNet.parse plainPlatform s = .ok p := by decide +kernel
  obtain ⟨hshown, haccepted⟩ := pairing_round_trip plainNet plainNet_lawful plainPlatform
  exact ⟨hshown p hp hlen, hs, haccepted s p hs hlen⟩

end ProxyForward

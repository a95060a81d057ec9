import ProxyForward.Environment
import ProxyForward.Exposition
import ProxyForward.HashInput
import ProxyForward.IpcStatus

namespace ProxyForward.Metrics
set_option autoImplicit true
open Ipc Exposition

/-- `strings.ReplaceAll` of one character. -/
def replaceAll (s : List Char) (old : Char) (new : List Char) : List Char :=
  s.flatMap fun c => if c = old then new else [c]

/-- Escapes the value of a label: backslash, double quote, newline. -/
def escapeLabel (s : String) : String :=
  String.ofList (replaceAll (replaceAll (replaceAll s.toList '\\' ['\\', '\\']) '"' ['\\', '"'])
    '\n' ['\\', 'n'])

/-- A header, and the series that the body has. -/
def metric (name typ help body : String) : String :=
  "# HELP " ++ name ++ " " ++ help ++ "\n# TYPE " ++ name ++ " " ++ typ ++ "\n" ++ body ++ "\n"

/-- `%d`. -/
def decimal (n : Int) : String := String.ofList (jsonInt n)

/-- A metric of one series without labels. -/
def oneSeries (name typ help value : String) : String := metric name typ help (name ++ " " ++ value)

def byDirection (name help : String) (bytesIn bytesOut : Int) : String :=
  metric name "counter" help
    (name ++ "\x7bdirection=\"in\"\x7d " ++ decimal bytesIn ++ "\n" ++
      name ++ "\x7bdirection=\"out\"\x7d " ++ decimal bytesOut)

def concat : List String → String
  | [] => ""
  | s :: ss => s ++ concat ss

def tunnelName : String := "proxyforward_tunnel_local_up"

def tunnelHelp : String := "1 when the tunnel's local backend is reachable, else 0."

section

-- `unicode.IsPrint`, and the text of a float
variable (isPrint : Char → Bool) (formatFloat : Rat → List Char)

/-- `%q` of an escaped label. -/
def label (s : String) : String := quote isPrint (escapeLabel s)

def tunnelLine (t : TunnelStatus) : String :=
  tunnelName ++ "\x7btunnel_id=" ++ label isPrint t.id ++ ",name=" ++ label isPrint t.name ++
    "\x7d " ++ decimal (if t.localUp then 1 else 0) ++ "\n"

/-- The lines of the tunnels, with their header unless it is `printed`. -/
def tunnelLines (printed : Bool) : List TunnelStatus → String
  | [] => ""
  | t :: ts =>
    if !t.localKnown then tunnelLines printed ts
    else
      (if printed then ""
        else "# HELP " ++ tunnelName ++ " " ++ tunnelHelp ++ "\n# TYPE " ++ tunnelName ++
          " gauge\n") ++ (tunnelLine isPrint t ++ tunnelLines true ts)

/-- The metrics but the first and those of the tunnels; a gauge that is unknown is left out. -/
def statusMetrics (st : Status) (players : Int) : List String :=
  [oneSeries "proxyforward_link_up" "gauge" "1 when the control link to the peer is up, else 0."
      (decimal (if st.linkUp || st.agentConnected then 1 else 0)),
    oneSeries "proxyforward_connections" "gauge" "Currently tracked proxied connections."
      (decimal st.connectionsTotal),
    oneSeries "proxyforward_players" "gauge" "Currently connected distinct players."
      (decimal players),
    byDirection "proxyforward_bytes_total" "Bytes relayed this engine run, by direction."
      st.totalBytesIn st.totalBytesOut,
    byDirection "proxyforward_alltime_bytes_total" "Bytes relayed over all runs, by direction."
      st.allTimeBytesIn st.allTimeBytesOut,
    byDirection "proxyforward_link_bytes_total"
      "Bytes over the control link this session, by direction." st.linkBytesIn st.linkBytesOut,
    oneSeries "proxyforward_link_sessions_total" "counter"
      "Control-link sessions established over all runs." (decimal st.linkSessions),
    oneSeries "proxyforward_uptime_ms_total" "counter" "Cumulative engine uptime in milliseconds."
      (decimal st.cumulativeUptimeMs),
    if 0 ≤ st.rttMillis then
      oneSeries "proxyforward_link_rtt_ms" "gauge" "Control-link round-trip time in milliseconds."
        (decimal st.rttMillis)
    else "",
    if 0 ≤ st.jitterMillis then
      oneSeries "proxyforward_link_jitter_ms" "gauge" "Control-link jitter in milliseconds."
        (String.ofList (formatFloat st.jitterMillis))
    else "",
    if 0 ≤ st.packetLossPct then
      oneSeries "proxyforward_link_loss_pct" "gauge" "Control-link packet loss percentage."
        (String.ofList (formatFloat st.packetLossPct))
    else ""]

def writeMetrics (st : Status) (players : Int) : String :=
  metric "proxyforward_build_info" "gauge" "Build version and role; value is always 1."
      ("proxyforward_build_info\x7bversion=" ++ label isPrint st.version ++ ",role=" ++
        label isPrint st.role ++ "\x7d 1") ++
    (concat (statusMetrics formatFloat st players) ++ tunnelLines isPrint false st.tunnels)

end

def seriesOf (name : String) (labels : List (String × String)) (value : List Char) : Series :=
  ⟨name.toList, labels.map fun l => (l.1.toList, l.2.toList), value, none⟩

/-- A header and series, as they are meant. -/
def meantMetric (name typ help : String) (series : List Series) : List Entry :=
  .comment (" HELP " ++ name ++ " " ++ help).toList ::
    .comment (" TYPE " ++ name ++ " " ++ typ).toList :: series.map .series

def meantOne (name typ help : String) (value : List Char) : List Entry :=
  meantMetric name typ help [seriesOf name [] value]

def meantByDirection (name help : String) (bytesIn bytesOut : Int) : List Entry :=
  meantMetric name "counter" help [seriesOf name [("direction", "in")] (jsonInt bytesIn),
    seriesOf name [("direction", "out")] (jsonInt bytesOut)]

def meantTunnel (t : TunnelStatus) : Series :=
  seriesOf tunnelName [("tunnel_id", t.id), ("name", t.name)] (jsonInt (if t.localUp then 1 else 0))

/-- One series for each tunnel of known health. -/
def meantTunnels (ts : List TunnelStatus) : List Entry :=
  if ts.filter TunnelStatus.localKnown = [] then []
  else
    meantMetric tunnelName "gauge" tunnelHelp ((ts.filter TunnelStatus.localKnown).map meantTunnel)

def meantStatus (formatFloat : Rat → List Char) (st : Status) (players : Int) :
    List (List Entry) :=
  [meantOne "proxyforward_link_up" "gauge" "1 when the control link to the peer is up, else 0."
      (jsonInt (if st.linkUp || st.agentConnected then 1 else 0)),
    meantOne "proxyforward_connections" "gauge" "Currently tracked proxied connections."
      (jsonInt st.connectionsTotal),
    meantOne "proxyforward_players" "gauge" "Currently connected distinct players."
      (jsonInt players),
    meantByDirection "proxyforward_bytes_total" "Bytes relayed this engine run, by direction."
      st.totalBytesIn st.totalBytesOut,
    meantByDirection "proxyforward_alltime_bytes_total"
      "Bytes relayed over all runs, by direction." st.allTimeBytesIn st.allTimeBytesOut,
    meantByDirection "proxyforward_link_bytes_total"
      "Bytes over the control link this session, by direction." st.linkBytesIn st.linkBytesOut,
    meantOne "proxyforward_link_sessions_total" "counter"
      "Control-link sessions established over all runs." (jsonInt st.linkSessions),
    meantOne "proxyforward_uptime_ms_total" "counter" "Cumulative engine uptime in milliseconds."
      (jsonInt st.cumulativeUptimeMs),
    if 0 ≤ st.rttMillis then
      meantOne "proxyforward_link_rtt_ms" "gauge" "Control-link round-trip time in milliseconds."
        (jsonInt st.rttMillis)
    else [],
    if 0 ≤ st.jitterMillis then
      meantOne "proxyforward_link_jitter_ms" "gauge" "Control-link jitter in milliseconds."
        (formatFloat st.jitterMillis)
    else [],
    if 0 ≤ st.packetLossPct then
      meantOne "proxyforward_link_loss_pct" "gauge" "Control-link packet loss percentage."
        (formatFloat st.packetLossPct)
    else []]

/-- What the text of the metrics is to say. -/
def meantMetrics (formatFloat : Rat → List Char) (st : Status) (players : Int) : List Entry :=
  meantMetric "proxyforward_build_info" "gauge" "Build version and role; value is always 1."
      [seriesOf "proxyforward_build_info" [("version", st.version), ("role", st.role)] ['1']] ++
    ((meantStatus formatFloat st players).flatten ++ meantTunnels st.tunnels)

/-- A text of printable characters that neither escape touches. -/
def Plain (isPrint : Char → Bool) (s : String) : Prop :=
  ∀ c ∈ s.toList, c ≠ '\\' ∧ c ≠ '"' ∧ c ≠ '\n' ∧ isPrint c = true

/-- The values that become labels are plain. -/
def PlainValues (isPrint : Char → Bool) (st : Status) : Prop :=
  Plain isPrint st.version ∧ Plain isPrint st.role ∧
    ∀ t ∈ st.tunnels, t.localKnown = true → Plain isPrint t.id ∧ Plain isPrint t.name

/-- What the three passes make of one character. -/
def escapeChar (c : Char) : List Char :=
  if c = '\\' then ['\\', '\\'] else if c = '"' then ['\\', '"']
  else if c = '\n' then ['\\', 'n'] else [c]

theorem escapeLabel_toList (s : String) : (escapeLabel s).toList = s.toList.flatMap escapeChar := by
  unfold escapeLabel replaceAll
  rw [String.toList_ofList, List.flatMap_assoc, List.flatMap_assoc]
  congr 1
  funext c
  unfold escapeChar
  by_cases hslash : c = '\\'
  · subst hslash
    rfl
  · by_cases hquote : c = '"'
    · subst hquote
      rfl
    · by_cases hline : c = '\n'
      · subst hline
        rfl
      · simp [hslash, hquote, hline]

theorem mem_hexDigits (h : c ∈ hexDigits width n) : c ≠ '"' ∧ c ≠ '\\' ∧ c ≠ '\n' := by
  obtain ⟨i, -, rfl⟩ := List.mem_map.1 h
  have hlt : n >>> (4 * i) % 16 < 16 := Nat.mod_lt _ (by decide)
  have hall : ∀ k : Fin 16, Nat.digitChar k ≠ '"' ∧ Nat.digitChar k ≠ '\\' ∧
      Nat.digitChar k ≠ '\n' := by decide
  exact hall ⟨_, hlt⟩

/-- What `%q` makes of a character that is not printed: an escape, with hexadecimal digits or
without. -/
theorem quoteRune_escape {isPrint : Char → Bool} {c : Char} (hspecial : ¬(c = '"' ∨ c = '\\'))
    (hprint : ¬isPrint c = true) (hline : c ≠ '\n') : ∃ d raw,
      quoteRune isPrint c = '\\' :: d :: raw ∧ (d ≠ '\\' ∧ d ≠ '"' ∧ d ≠ 'n' ∧ d ≠ '\n') ∧
        ∀ e ∈ raw, e ≠ '"' ∧ e ≠ '\\' ∧ e ≠ '\n' := by
  have hten : ¬c.toNat = 10 := fun h => hline (Char.toNat_inj.1 h)
  have hshort {d : Char} (hd : d ≠ '\\' ∧ d ≠ '"' ∧ d ≠ 'n' ∧ d ≠ '\n') :
      ∃ d' raw, ['\\', d] = '\\' :: d' :: raw ∧ (d' ≠ '\\' ∧ d' ≠ '"' ∧ d' ≠ 'n' ∧ d' ≠ '\n') ∧
        ∀ e ∈ raw, e ≠ '"' ∧ e ≠ '\\' ∧ e ≠ '\n' :=
    ⟨d, [], rfl, hd, fun e he => absurd he List.not_mem_nil⟩
  have hhex {d : Char} (hd : d ≠ '\\' ∧ d ≠ '"' ∧ d ≠ 'n' ∧ d ≠ '\n') (width : Nat) :
      ∃ d' raw, '\\' :: d :: hexDigits width c.toNat = '\\' :: d' :: raw ∧
        (d' ≠ '\\' ∧ d' ≠ '"' ∧ d' ≠ 'n' ∧ d' ≠ '\n') ∧
          ∀ e ∈ raw, e ≠ '"' ∧ e ≠ '\\' ∧ e ≠ '\n' :=
    ⟨d, _, rfl, hd, fun e he => mem_hexDigits he⟩
  rw [quoteRune, if_neg hspecial, if_neg hprint, if_neg hten]
  by_cases h : c.toNat = 7
  · rw [if_pos h]
    exact hshort (by decide)
  rw [if_neg h]
  by_cases h : c.toNat = 8
  · rw [if_pos h]
    exact hshort (by decide)
  rw [if_neg h]
  by_cases h : c.toNat = 12
  · rw [if_pos h]
    exact hshort (by decide)
  rw [if_neg h]
  by_cases h : c.toNat = 13
  · rw [if_pos h]
    exact hshort (by decide)
  rw [if_neg h]
  by_cases h : c.toNat = 9
  · rw [if_pos h]
    exact hshort (by decide)
  rw [if_neg h]
  by_cases h : c.toNat = 11
  · rw [if_pos h]
    exact hshort (by decide)
  rw [if_neg h]
  by_cases h : c.toNat < 32 ∨ c.toNat = 127
  · rw [if_pos h]
    exact hhex (by decide) 2
  rw [if_neg h]
  by_cases h : c.toNat < 65536
  · rw [if_pos h]
    exact hhex (by decide) 4
  rw [if_neg h]
  exact hhex (by decide) 8

/-- A quoted character is read as itself when it is printed, and else as something longer, or not at
all. -/
theorem spells_quoteRune (strict : Bool) (isPrint : Char → Bool) {c : Char} (hline : c ≠ '\n') :
    ∃ out, Exposition.Spells strict (quoteRune isPrint c) out ∧
      (out = some [c] ↔ c = '"' ∨ c = '\\' ∨ isPrint c = true) ∧
        ∀ w, out = some w → w = [c] ∨ 2 ≤ w.length := by
  by_cases hspecial : c = '"' ∨ c = '\\'
  · have hout : Exposition.unescape strict c = some [c] := if_pos hspecial.symm
    rw [quoteRune, if_pos hspecial]
    refine ⟨some [c], hout ▸ spells_escape strict c, ?_, ?_⟩
    · exact iff_of_true rfl (hspecial.imp id .inl)
    · rintro w ⟨⟩
      exact .inl rfl
  · obtain ⟨hquote, hslash⟩ := not_or.1 hspecial
    by_cases hprint : isPrint c = true
    · rw [quoteRune, if_neg hspecial, if_pos hprint]
      refine ⟨some [c], spells_plain hquote hslash, ?_, ?_⟩
      · exact iff_of_true rfl (.inr (.inr hprint))
      · rintro w ⟨⟩
        exact .inl rfl
    · obtain ⟨d, raw, hraw, ⟨hd, hd', hn, -⟩, hplain⟩ := quoteRune_escape hspecial hprint hline
      have hunknown : Exposition.unescape strict d = if strict then none else some ['\\', d] := by
        rw [Exposition.unescape, if_neg (not_or.2 ⟨hd, hd'⟩), if_neg hn]
      have hself : Exposition.Spells strict raw (some raw) :=
        spells_self fun e he => ⟨(hplain e he).1, (hplain e he).2.1⟩
      have hspells := (spells_escape strict d).append hself
      rw [hunknown] at hspells
      have hlong : ∀ w, ((if strict then none else some ['\\', d]).bind fun w =>
          (some raw).map (w ++ ·)) = some w → 2 ≤ w.length := by
        intro w hw
        cases strict with
        | true => cases hw
        | false =>
          cases hw
          change 2 ≤ (['\\', d] ++ raw).length
          rw [List.length_append, List.length_cons, List.length_singleton]
          omega
      rw [hraw]
      refine ⟨_, hspells, iff_of_false ?_ ?_, fun w hw => .inr (hlong w hw)⟩
      · intro hsame
        have htwo := hlong [c] hsame
        rw [List.length_singleton] at htwo
        omega
      · rintro (h | h | h)
        · exact hquote h
        · exact hslash h
        · exact hprint h

/-- The characters that come back as they are. -/
def PlainChar (isPrint : Char → Bool) (c : Char) : Prop :=
  c ≠ '\\' ∧ c ≠ '"' ∧ c ≠ '\n' ∧ isPrint c = true

theorem spells_special (strict : Bool) (isPrint : Char → Bool) {d : Char}
    (hd : d = '"' ∨ d = '\\') :
    Exposition.Spells strict (quoteRune isPrint d) (some [d]) := by
  have hout : Exposition.unescape strict d = some [d] := if_pos hd.symm
  rw [quoteRune, if_pos hd]
  exact hout ▸ spells_escape strict d

theorem spells_afterSlash {strict : Bool} (isPrint : Char → Bool) {d : Char} {raw : List Char}
    {out : Option (List Char)} (hraw : Exposition.Spells strict raw out)
    (hlen : ∀ w, out = some w → 1 ≤ w.length) (hnot : ¬PlainChar isPrint d) :
    ∃ out, Exposition.Spells strict (quoteRune isPrint '\\' ++ raw) out ∧
      (out = some [d] ↔ PlainChar isPrint d) ∧ ∀ w, out = some w → w = [d] ∨ 2 ≤ w.length := by
  have hslash := spells_special strict isPrint (d := '\\') (.inr rfl)
  have hlong : ∀ w, (out.map (['\\'] ++ ·)) = some w → 2 ≤ w.length := by
    intro w hw
    obtain ⟨w', hw', rfl⟩ := Option.map_eq_some_iff.1 hw
    have hone := hlen w' hw'
    rw [List.length_append, List.length_singleton]
    omega
  refine ⟨_, hslash.append hraw, iff_of_false ?_ hnot, fun w hw => .inr (hlong w hw)⟩
  intro hself
  have htwo := hlong [d] hself
  rw [List.length_singleton] at htwo
  omega

theorem spells_escaped (strict : Bool) (isPrint : Char → Bool) (c : Char) :
    ∃ out, Exposition.Spells strict ((escapeChar c).flatMap (quoteRune isPrint)) out ∧
      (out = some [c] ↔ PlainChar isPrint c) ∧ ∀ w, out = some w → w = [c] ∨ 2 ≤ w.length := by
  have hspecial {d : Char} (hd : d = '"' ∨ d = '\\') :
      Exposition.Spells strict (quoteRune isPrint d ++ []) (some [d]) := by
    rw [List.append_nil]
    exact spells_special strict isPrint hd
  unfold escapeChar
  by_cases hc : c = '\\'
  · subst hc
    apply spells_afterSlash isPrint (hspecial (.inr rfl))
    · rintro w ⟨⟩
      exact Nat.le_refl 1
    · exact fun h => h.1 rfl
  · rw [if_neg hc]
    by_cases hc' : c = '"'
    · subst hc'
      apply spells_afterSlash isPrint (hspecial (.inl rfl))
      · rintro w ⟨⟩
        exact Nat.le_refl 1
      · exact fun h => h.2.1 rfl
    · rw [if_neg hc']
      by_cases hline : c = '\n'
      · subst hline
        obtain ⟨out, hspells, -, hlen⟩ :=
          spells_quoteRune strict isPrint (c := 'n') (by decide)
        apply spells_afterSlash isPrint (hspells.append .nil)
        · intro w hw
          obtain ⟨w', hw', hw⟩ := Option.bind_eq_some_iff.1 hw
          cases hw
          change 1 ≤ (w' ++ []).length
          rw [List.append_nil]
          obtain rfl | htwo := hlen w' hw'
          · exact Nat.le_refl 1
          · omega
        · exact fun h => h.2.2.1 rfl
      · rw [if_neg hline, List.flatMap_singleton]
        obtain ⟨out, hspells, hself, hlen⟩ := spells_quoteRune strict isPrint hline
        refine ⟨out, hspells, hself.trans ?_, hlen⟩
        constructor
        · intro h
          exact ⟨hc, hc', hline, (h.resolve_left hc').resolve_left hc⟩
        · exact fun h => .inr (.inr h.2.2.2)

/-- The text of a label, whose value comes back exactly when it is plain. -/
theorem labelText_label (strict : Bool) (isPrint : Char → Bool) {name : List Char}
    (hname : name ≠ [] ∧ ∀ c ∈ name, isLabelChar c = true) (s : String) :
    ∃ l : LabelText strict, l.text = name ++ '=' :: (label isPrint s).toList ∧
      (l.label = some (name, s.toList) ↔ Plain isPrint s) := by
  choose out hspells hself hlen using spells_escaped strict isPrint
  have hraw : Exposition.Spells strict ((escapeLabel s).toList.flatMap (quoteRune isPrint))
      (spelling out s.toList) := by
    rw [escapeLabel_toList, List.flatMap_assoc]
    exact spells_flatMap fun c _ => hspells c
  refine ⟨⟨name, _, _, hname, hraw⟩, ?_, ?_⟩
  · unfold LabelText.text label quote
    dsimp only
    rw [String.toList_ofList, List.cons_append]
  · have hiff : (⟨name, _, _, hname, hraw⟩ : LabelText strict).label = some (name, s.toList) ↔
        spelling out s.toList = some s.toList := by
      unfold LabelText.label
      dsimp only
      constructor
      · intro h
        obtain ⟨w, hw, heq⟩ := Option.map_eq_some_iff.1 h
        rw [hw, (Prod.mk.inj heq).2]
      · intro h
        rw [h]
        rfl
    rw [hiff, spelling_eq_self_iff hlen]
    exact forall₂_congr fun c _ => hself c

/-- A series with two labels is read as it is meant exactly when both values are plain. -/
theorem readLine_twoLabels (strict : Bool) (isPrint : Char → Bool) {name n n' : String}
    (hname : isName name.toList = true) (hn : n.toList ≠ [] ∧ ∀ c ∈ n.toList, isLabelChar c = true)
    (hn' : n'.toList ≠ [] ∧ ∀ c ∈ n'.toList, isLabelChar c = true) {value : List Char}
    (hvalue : value ≠ []) (hspace : ∀ c ∈ value, c ≠ ' ') (s s' : String) :
    readLine strict (name.toList ++ '\x7b' :: (n.toList ++ '=' :: (label isPrint s).toList ++
        ',' :: (n'.toList ++ '=' :: (label isPrint s').toList ++ '\x7d' :: ' ' :: value))) =
        some (.series (seriesOf name [(n, s), (n', s')] value)) ↔
      Plain isPrint s ∧ Plain isPrint s' := by
  obtain ⟨l, htext, hplain⟩ := labelText_label strict isPrint hn s
  obtain ⟨l', htext', hplain'⟩ := labelText_label strict isPrint hn' s'
  have hline := readLine_seriesText hname [l, l'] hvalue hspace
  have hne : ¬[l, l'] = [] := List.cons_ne_nil _ _
  rw [seriesText, if_neg hne, labelsText, labelsText, htext, htext'] at hline
  simp only [List.append_assoc, List.cons_append, List.nil_append] at hline ⊢
  rw [hline, ← hplain, ← hplain', List.mapM_cons, List.mapM_cons, List.mapM_nil]
  cases l.label with
  | none =>
    constructor
    · intro h
      cases h
    · intro h
      cases h.1
  | some x =>
    cases l'.label with
    | none =>
      constructor
      · intro h
        cases h
      · intro h
        cases h.2
    | some x' =>
      constructor
      · intro h
        cases h
        exact ⟨rfl, rfl⟩
      · intro h
        obtain ⟨hx, hx'⟩ := h
        cases hx
        cases hx'
        rfl

/-- The texts of a header can be written as they are. -/
def headerFine (name typ help : String) : Bool :=
  isName name.toList && typ.toList.all (· ≠ '\n') && help.toList.all (· ≠ '\n')

theorem headerFine_iff : headerFine name typ help = true ↔ isName name.toList = true ∧
    (∀ c ∈ typ.toList, c ≠ '\n') ∧ ∀ c ∈ help.toList, c ≠ '\n' := by
  simp only [headerFine, Bool.and_eq_true, List.all_eq_true, decide_eq_true_eq, and_assoc]

theorem isName_ne_newline (h : isName name = true) : ∀ c ∈ name, c ≠ '\n' := by
  rintro c hc rfl
  have hall := List.all_eq_true.1 (Bool.and_eq_true_iff.1 h).1 '\n' hc
  exact absurd hall (by decide)

theorem newline_toList : "\n".toList = ['\n'] := by simp

theorem block_comment {line : List Char} (hline : ∀ c ∈ line, c ≠ '\n') :
    Block strict ('#' :: line ++ ['\n']) [.comment line] True := by
  have hhash : ∀ c ∈ '#' :: line, c ≠ '\n' := List.forall_mem_cons.2 ⟨by decide, hline⟩
  exact (block_line hhash _).congr (iff_of_true rfl trivial)

/-- The two lines before the series of a metric. -/
def header (name typ help : String) : String :=
  "# HELP " ++ name ++ " " ++ help ++ "\n# TYPE " ++ name ++ " " ++ typ ++ "\n"

theorem block_header (hfine : headerFine name typ help = true) :
    Block strict (header name typ help).toList (meantMetric name typ help []) True := by
  obtain ⟨hname, htyp, hhelp⟩ := headerFine_iff.1 hfine
  have hname' := isName_ne_newline hname
  have hhead : "# HELP ".toList = '#' :: " HELP ".toList := by simp
  have hhead' : "\n# TYPE ".toList = '\n' :: '#' :: " TYPE ".toList := by simp
  have hhelp' : ∀ c ∈ " HELP ".toList, c ≠ '\n' := by simp
  have htype' : ∀ c ∈ " TYPE ".toList, c ≠ '\n' := by simp
  have hspace : ∀ c ∈ " ".toList, c ≠ '\n' := by simp
  have hfirst : Block strict ('#' :: (" HELP " ++ name ++ " " ++ help).toList ++ ['\n'])
      [.comment (" HELP " ++ name ++ " " ++ help).toList] True := by
    apply block_comment
    simp only [String.toList_append, List.forall_mem_append]
    exact ⟨⟨⟨hhelp', hname'⟩, hspace⟩, hhelp⟩
  have hsecond : Block strict ('#' :: (" TYPE " ++ name ++ " " ++ typ).toList ++ ['\n'])
      [.comment (" TYPE " ++ name ++ " " ++ typ).toList] True := by
    apply block_comment
    simp only [String.toList_append, List.forall_mem_append]
    exact ⟨⟨⟨htype', hname'⟩, hspace⟩, htyp⟩
  have htext : (header name typ help).toList =
      '#' :: (" HELP " ++ name ++ " " ++ help).toList ++ ['\n'] ++
        ('#' :: (" TYPE " ++ name ++ " " ++ typ).toList ++ ['\n']) := by
    simp only [header, String.toList_append, hhead, hhead', newline_toList, List.append_assoc,
      List.cons_append, List.nil_append]
  rw [htext]
  exact (hfirst.append hsecond).congr and_self_iff

theorem block_metric (hfine : headerFine name typ help = true) {body : String}
    (hbody : Block strict (body.toList ++ ['\n']) (series.map .series) ok) :
    Block strict (metric name typ help body).toList (meantMetric name typ help series) ok := by
  have htext : (metric name typ help body).toList =
      (header name typ help).toList ++ (body.toList ++ ['\n']) := by
    have hmetric : metric name typ help body = header name typ help ++ body ++ "\n" := rfl
    rw [hmetric, String.toList_append, String.toList_append, List.append_assoc, newline_toList]
  rw [htext]
  exact ((block_header hfine).append hbody).congr (iff_of_eq (true_and _))

theorem jsonInt_value (n : Int) :
    jsonInt n ≠ [] ∧ ∀ c ∈ jsonInt n, c ≠ ' ' ∧ c ≠ '\n' := by
  constructor
  · unfold jsonInt
    split
    · exact List.cons_ne_nil _ _
    · exact Nat.toDigits_ne_nil
  · intro c hc
    have hdigit (h : c ∈ Nat.toDigits 10 n.natAbs) : c.isDigit = true :=
      Nat.isDigit_of_mem_toDigits (by decide) (by decide) h
    have hchar : c.isDigit = true ∨ c = '-' := by
      unfold jsonInt at hc
      split at hc
      · obtain h | h := List.mem_cons.1 hc
        · exact .inr h
        · exact .inl (hdigit h)
      · exact .inl (hdigit hc)
    constructor
    · rintro rfl
      exact absurd hchar (by decide)
    · rintro rfl
      exact absurd hchar (by decide)

theorem block_series {name : List Char} (hname : isName name = true)
    {labels : List (LabelText strict)} (ls : List (List Char × List Char))
    (hlabels : labels.mapM LabelText.label = some ls)
    (htext : ∀ c ∈ seriesText name labels value, c ≠ '\n') (hvalue : value ≠ [])
    (hspace : ∀ c ∈ value, c ≠ ' ') : Block strict (seriesText name labels value ++ ['\n'])
      [.series ⟨name, ls, value, none⟩] True := by
  refine (block_line htext _).congr (iff_of_true ?_ trivial)
  rw [readLine_seriesText hname labels hvalue hspace, hlabels]
  rfl

theorem block_oneSeries (hfine : headerFine name typ help = true) {value : List Char}
    (hvalue : value ≠ [] ∧ ∀ c ∈ value, c ≠ ' ' ∧ c ≠ '\n') :
    Block strict (oneSeries name typ help (String.ofList value)).toList
      (meantOne name typ help value) True := by
  obtain ⟨hname, -, -⟩ := headerFine_iff.1 hfine
  apply block_metric hfine
  have htext : (name ++ " " ++ String.ofList value).toList =
      seriesText name.toList ([] : List (LabelText strict)) value := by
    have hspace : " ".toList = [' '] := by simp
    rw [String.toList_append, String.toList_append, hspace, String.toList_ofList, seriesText,
      if_pos rfl, List.append_assoc]
    rfl
  rw [htext]
  apply block_series hname [] rfl _ hvalue.1 fun c hc => (hvalue.2 c hc).1
  intro c hc
  rw [← htext] at hc
  simp only [String.toList_append, String.toList_ofList, List.mem_append] at hc
  obtain (hc | hc) | hc := hc
  · exact isName_ne_newline hname c hc
  · have hspace : c = ' ' := by simpa using hc
    rw [hspace]
    decide
  · exact (hvalue.2 c hc).2

theorem decimal_toList (n : Int) : (decimal n).toList = jsonInt n := String.toList_ofList

/-- A label whose value no escape touches. -/
def fixedLabel (strict : Bool) (name value : String)
    (hname : name.toList ≠ [] ∧ ∀ c ∈ name.toList, isLabelChar c = true)
    (hvalue : ∀ c ∈ value.toList, c ≠ '"' ∧ c ≠ '\\') : LabelText strict :=
  ⟨name.toList, value.toList, some value.toList, hname, spells_self hvalue⟩

theorem block_direction (strict : Bool) {name : String} (hname : isName name.toList = true)
    (direction : String)
    (hdirection : ∀ c ∈ direction.toList, c ≠ '"' ∧ c ≠ '\\' ∧ c ≠ '\n') (n : Int) {text : String}
    (htext : text.toList = '\x7b' :: ("direction".toList ++ '=' :: '"' ::
      (direction.toList ++ ['"', '\x7d', ' ']))) :
    Block strict ((name ++ text ++ decimal n).toList ++ ['\n'])
      [.series (seriesOf name [("direction", direction)] (jsonInt n))] True := by
  have hlabel : "direction".toList ≠ [] ∧ ∀ c ∈ "direction".toList, isLabelChar c = true := by
    constructor
    · simp
    · simp [isLabelChar]
  let l : LabelText strict := fixedLabel strict "direction" direction hlabel fun c hc =>
    ⟨(hdirection c hc).1, (hdirection c hc).2.1⟩
  have hseries : (name ++ text ++ decimal n).toList = seriesText name.toList [l] (jsonInt n) := by
    have hne : ¬[l] = [] := List.cons_ne_nil _ _
    rw [seriesText, if_neg hne, String.toList_append, String.toList_append, htext, decimal_toList]
    simp only [l, fixedLabel, labelsText, LabelText.text, List.append_assoc, List.cons_append,
      List.nil_append]
  have hvalue := jsonInt_value n
  rw [hseries]
  apply block_series hname [("direction".toList, direction.toList)] rfl _ hvalue.1
    fun c hc => (hvalue.2 c hc).1
  intro c hc
  rw [← hseries, String.toList_append, String.toList_append, htext, decimal_toList] at hc
  simp only [List.mem_append, List.mem_cons, List.not_mem_nil, or_false] at hc
  have hletters : ∀ c ∈ "direction".toList, c ≠ '\n' := by simp
  rcases hc with (hc | rfl | hc | rfl | rfl | hc | rfl | rfl | rfl) | hc
  · exact isName_ne_newline hname c hc
  · decide
  · exact hletters c hc
  · decide
  · decide
  · exact (hdirection c hc).2.2
  · decide
  · decide
  · decide
  · exact (hvalue.2 c hc).2

theorem block_byDirection (hfine : headerFine name "counter" help = true)
    (bytesIn bytesOut : Int) :
    Block strict (byDirection name help bytesIn bytesOut).toList
      (meantByDirection name help bytesIn bytesOut) True := by
  obtain ⟨hname, -, -⟩ := headerFine_iff.1 hfine
  have hin : "\x7bdirection=\"in\"\x7d ".toList = '\x7b' :: ("direction".toList ++ '=' :: '"' ::
      ("in".toList ++ ['"', '\x7d', ' '])) := by simp
  have hout : "\x7bdirection=\"out\"\x7d ".toList = '\x7b' :: ("direction".toList ++ '=' :: '"' ::
      ("out".toList ++ ['"', '\x7d', ' '])) := by simp
  apply block_metric hfine
  have hfirst := block_direction strict hname "in" (by simp) bytesIn hin
  have hsecond := block_direction strict hname "out" (by simp) bytesOut hout
  have hboth := (hfirst.append hsecond).congr (and_self_iff)
  have htext : (name ++ "\x7bdirection=\"in\"\x7d " ++ decimal bytesIn ++ "\n" ++ name ++
      "\x7bdirection=\"out\"\x7d " ++ decimal bytesOut).toList ++ ['\n'] =
      (name ++ "\x7bdirection=\"in\"\x7d " ++ decimal bytesIn).toList ++ ['\n'] ++
        ((name ++ "\x7bdirection=\"out\"\x7d " ++ decimal bytesOut).toList ++ ['\n']) := by
    simp only [String.toList_append, newline_toList, List.append_assoc]
  rw [htext]
  exact hboth

theorem block_concat {texts : List String} {meants : List (List Entry)}
    (h : List.Forall₂ (fun text meant => Block strict text.toList meant True) texts meants) :
    Block strict (concat texts).toList meants.flatten True := by
  induction h with
  | nil => exact .nil
  | cons h _ ih =>
    rw [concat, String.toList_append, List.flatten_cons]
    exact (h.append ih).congr and_self_iff

theorem block_known (known : Prop) [Decidable known]
    (h : Block strict text.toList meant True) :
    Block strict (if known then text else "").toList (if known then meant else []) True := by
  split
  · exact h
  · exact .nil

theorem block_statusMetrics (strict : Bool) {formatFloat : Rat → List Char}
    (hfloat : ∀ x, formatFloat x ≠ [] ∧ ∀ c ∈ formatFloat x, c ≠ ' ' ∧ c ≠ '\n') (st : Status)
    (players : Int) : Block strict (concat (statusMetrics formatFloat st players)).toList
      (meantStatus formatFloat st players).flatten True := by
  apply block_concat
  unfold statusMetrics meantStatus
  refine .cons ?_ (.cons ?_ (.cons ?_ (.cons ?_ (.cons ?_ (.cons ?_ (.cons ?_ (.cons ?_ (.cons ?_
    (.cons ?_ (.cons ?_ .nil))))))))))
  · exact block_oneSeries (by simp [headerFine, isName, isNameChar, isLabelChar]) (jsonInt_value _)
  · exact block_oneSeries (by simp [headerFine, isName, isNameChar, isLabelChar]) (jsonInt_value _)
  · exact block_oneSeries (by simp [headerFine, isName, isNameChar, isLabelChar]) (jsonInt_value _)
  · exact block_byDirection (by simp [headerFine, isName, isNameChar, isLabelChar]) _ _
  · exact block_byDirection (by simp [headerFine, isName, isNameChar, isLabelChar]) _ _
  · exact block_byDirection (by simp [headerFine, isName, isNameChar, isLabelChar]) _ _
  · exact block_oneSeries (by simp [headerFine, isName, isNameChar, isLabelChar]) (jsonInt_value _)
  · exact block_oneSeries (by simp [headerFine, isName, isNameChar, isLabelChar]) (jsonInt_value _)
  · exact block_known _ (block_oneSeries (by simp [headerFine, isName, isNameChar, isLabelChar])
      (jsonInt_value _))
  · exact block_known _ (block_oneSeries (by simp [headerFine, isName, isNameChar, isLabelChar])
      (hfloat _))
  · exact block_known _ (block_oneSeries (by simp [headerFine, isName, isNameChar, isLabelChar])
      (hfloat _))

theorem mem_quoteRune (isPrint : Char → Bool) {c d : Char} (hline : c ≠ '\n')
    (hd : d ∈ quoteRune isPrint c) : d ≠ '\n' := by
  by_cases hspecial : c = '"' ∨ c = '\\'
  · rw [quoteRune, if_pos hspecial] at hd
    obtain rfl | hd := List.mem_cons.1 hd
    · decide
    · rw [List.mem_singleton.1 hd]
      exact hline
  · by_cases hprint : isPrint c = true
    · rw [quoteRune, if_neg hspecial, if_pos hprint] at hd
      rw [List.mem_singleton.1 hd]
      exact hline
    · obtain ⟨e, raw, hraw, ⟨-, -, -, he⟩, hplain⟩ := quoteRune_escape hspecial hprint hline
      rw [hraw] at hd
      obtain rfl | hd := List.mem_cons.1 hd
      · decide
      · obtain rfl | hd := List.mem_cons.1 hd
        · exact he
        · exact (hplain d hd).2.2

theorem label_ne_newline (isPrint : Char → Bool) (s : String) :
    ∀ c ∈ (label isPrint s).toList, c ≠ '\n' := by
  intro c hc
  rw [label, quote, String.toList_ofList, List.cons_append, List.mem_cons, List.mem_append,
    List.mem_singleton, escapeLabel_toList, List.flatMap_assoc, List.mem_flatMap] at hc
  obtain rfl | ⟨d, -, hd⟩ | rfl := hc
  · decide
  · obtain ⟨e, he, hc⟩ := List.mem_flatMap.1 hd
    apply mem_quoteRune isPrint _ hc
    unfold escapeChar at he
    by_cases hline : d = '\n'
    · subst hline
      rintro rfl
      revert he
      decide
    · rintro rfl
      split at he
      · revert he
        decide
      · split at he
        · revert he
          decide
        · exact hline (List.mem_singleton.1 he).symm
  · decide

theorem block_twoLabels (strict : Bool) (isPrint : Char → Bool) {name n n' : String}
    (hname : isName name.toList = true) (hn : n.toList ≠ [] ∧ ∀ c ∈ n.toList, isLabelChar c = true)
    (hn' : n'.toList ≠ [] ∧ ∀ c ∈ n'.toList, isLabelChar c = true) (value : List Char)
    (hvalue : value ≠ [] ∧ ∀ c ∈ value, c ≠ ' ' ∧ c ≠ '\n') (s s' : String) {text : List Char}
    (htext : text = name.toList ++ '\x7b' :: (n.toList ++ '=' :: (label isPrint s).toList ++
      ',' :: (n'.toList ++ '=' :: (label isPrint s').toList ++ '\x7d' :: ' ' :: value))) :
    Block strict (text ++ ['\n']) [.series (seriesOf name [(n, s), (n', s')] value)]
      (Plain isPrint s ∧ Plain isPrint s') := by
  have hletter {m : List Char} (hm : ∀ c ∈ m, isLabelChar c = true) : ∀ c ∈ m, c ≠ '\n' := by
    rintro c hc rfl
    exact absurd (hm _ hc) (by decide)
  have hline : ∀ c ∈ text, c ≠ '\n' := by
    rw [htext]
    simp only [List.forall_mem_append, List.forall_mem_cons]
    exact ⟨isName_ne_newline hname,
      by decide, ⟨hletter hn.2, by decide, label_ne_newline isPrint s⟩,
      by decide, ⟨hletter hn'.2, by decide, label_ne_newline isPrint s'⟩, by decide, by decide,
      fun c hc => (hvalue.2 c hc).2⟩
  refine (block_line hline _).congr ?_
  rw [htext]
  exact readLine_twoLabels strict isPrint hname hn hn' hvalue.1 (fun c hc => (hvalue.2 c hc).1) s s'

theorem block_buildInfo (strict : Bool) (isPrint : Char → Bool) (version role : String) :
    Block strict
      (metric "proxyforward_build_info" "gauge" "Build version and role; value is always 1."
        ("proxyforward_build_info\x7bversion=" ++ label isPrint version ++ ",role=" ++
          label isPrint role ++ "\x7d 1")).toList
      (meantMetric "proxyforward_build_info" "gauge" "Build version and role; value is always 1."
        [seriesOf "proxyforward_build_info" [("version", version), ("role", role)] ['1']])
      (Plain isPrint version ∧ Plain isPrint role) := by
  apply block_metric (by simp [headerFine, isName, isNameChar, isLabelChar])
  have hversion : "version".toList ≠ [] ∧ ∀ c ∈ "version".toList, isLabelChar c = true := by
    simp [isLabelChar]
  have hrole : "role".toList ≠ [] ∧ ∀ c ∈ "role".toList, isLabelChar c = true := by
    simp [isLabelChar]
  apply block_twoLabels strict isPrint (by simp [isName, isNameChar, isLabelChar]) hversion hrole
    ['1'] (by simp)
  have hopen : "proxyforward_build_info\x7bversion=".toList =
      "proxyforward_build_info".toList ++ '\x7b' :: ("version".toList ++ ['=']) := by
    simp
  have hmid : ",role=".toList = ',' :: ("role".toList ++ ['=']) := by simp
  have hclose : "\x7d 1".toList = ['\x7d', ' ', '1'] := by simp
  simp only [String.toList_append, hopen, hmid, hclose, List.append_assoc, List.cons_append,
    List.nil_append]

theorem block_tunnelLine (strict : Bool) (isPrint : Char → Bool) (t : TunnelStatus) :
    Block strict (tunnelLine isPrint t).toList [.series (meantTunnel t)]
      (Plain isPrint t.id ∧ Plain isPrint t.name) := by
  have hid : "tunnel_id".toList ≠ [] ∧ ∀ c ∈ "tunnel_id".toList, isLabelChar c = true := by
    simp [isLabelChar]
  have hname : "name".toList ≠ [] ∧ ∀ c ∈ "name".toList, isLabelChar c = true := by
    simp [isLabelChar]
  have hopen : "\x7btunnel_id=".toList = '\x7b' :: ("tunnel_id".toList ++ ['=']) := by
    simp
  have hmid : ",name=".toList = ',' :: ("name".toList ++ ['=']) := by simp
  have hclose : "\x7d ".toList = ['\x7d', ' '] := by simp
  have hisName : isName tunnelName.toList = true := by
    simp [tunnelName, isName, isNameChar, isLabelChar]
  rw [tunnelLine, String.toList_append, newline_toList]
  apply block_twoLabels strict isPrint hisName hid hname _ (jsonInt_value _)
  simp only [String.toList_append, hopen, hmid, hclose, decimal_toList, List.append_assoc,
    List.cons_append, List.nil_append]

/-- The values of a list of tunnels that become labels are plain. -/
def PlainTunnels (isPrint : Char → Bool) (ts : List TunnelStatus) : Prop :=
  ∀ t ∈ ts, t.localKnown = true → Plain isPrint t.id ∧ Plain isPrint t.name

theorem plainTunnels_unknown (hknown : t.localKnown = false) :
    PlainTunnels isPrint (t :: ts) ↔ PlainTunnels isPrint ts := by
  rw [PlainTunnels, PlainTunnels, List.forall_mem_cons]
  exact ⟨And.right, fun h => ⟨fun hk => absurd (hknown.symm.trans hk) Bool.false_ne_true, h⟩⟩

theorem block_printed (strict : Bool) (isPrint : Char → Bool) (ts : List TunnelStatus) :
    Block strict (tunnelLines isPrint true ts).toList
      (((ts.filter TunnelStatus.localKnown).map meantTunnel).map .series)
      (PlainTunnels isPrint ts) := by
  induction ts with
  | nil => exact Block.nil.congr (iff_of_true trivial nofun)
  | cons t ts ih =>
    unfold tunnelLines
    cases hknown : t.localKnown with
    | false =>
      rw [List.filter_cons_of_neg (by simp [hknown])]
      exact ih.congr (plainTunnels_unknown hknown).symm
    | true =>
      rw [List.filter_cons_of_pos hknown, List.map_cons, List.map_cons]
      have hboth := (block_tunnelLine strict isPrint t).append ih
      rw [← String.toList_append] at hboth
      refine hboth.congr ?_
      rw [PlainTunnels, PlainTunnels, List.forall_mem_cons]
      exact and_congr_left fun _ => ⟨fun h _ => h, fun h => h hknown⟩

theorem block_tunnels (strict : Bool) (isPrint : Char → Bool) (ts : List TunnelStatus) :
    Block strict (tunnelLines isPrint false ts).toList (meantTunnels ts)
      (PlainTunnels isPrint ts) := by
  induction ts with
  | nil => exact Block.nil.congr (iff_of_true trivial nofun)
  | cons t ts ih =>
    cases hknown : t.localKnown with
    | false =>
      have hskip : tunnelLines isPrint false (t :: ts) = tunnelLines isPrint false ts := by
        rw [tunnelLines, hknown]
        rfl
      have hmeant : meantTunnels (t :: ts) = meantTunnels ts := by
        rw [meantTunnels, meantTunnels, List.filter_cons_of_neg (by simp [hknown])]
      rw [hskip, hmeant]
      exact ih.congr (plainTunnels_unknown hknown).symm
    | true =>
      -- the header comes before the line of the first known tunnel
      have hfine : headerFine tunnelName "gauge" tunnelHelp = true := by
        simp [headerFine, tunnelName, tunnelHelp, isName, isNameChar, isLabelChar]
      have hprinted := block_printed strict isPrint (t :: ts)
      have hne : ¬(t :: ts).filter TunnelStatus.localKnown = [] := by
        rw [List.filter_cons_of_pos hknown]
        exact List.cons_ne_nil _ _
      have htext : tunnelLines isPrint false (t :: ts) =
          header tunnelName "gauge" tunnelHelp ++ tunnelLines isPrint true (t :: ts) := by
        have hheader : "# HELP " ++ tunnelName ++ " " ++ tunnelHelp ++ "\n# TYPE " ++ tunnelName ++
            " gauge\n" = header tunnelName "gauge" tunnelHelp := by
          simp [header, ← String.toList_inj]
        have hstep (printed : Bool) : tunnelLines isPrint printed (t :: ts) =
            (if printed then "" else header tunnelName "gauge" tunnelHelp) ++
              (tunnelLine isPrint t ++ tunnelLines isPrint true ts) := by
          rw [tunnelLines, hknown, hheader]
          rfl
        rw [hstep, hstep, if_neg Bool.false_ne_true, if_pos rfl, String.empty_append]
      rw [meantTunnels, if_neg hne, htext, String.toList_append]
      exact ((block_header hfine).append hprinted).congr (iff_of_eq (true_and _))

theorem block_writeMetrics (strict : Bool) (isPrint : Char → Bool)
    {formatFloat : Rat → List Char}
    (hfloat : ∀ x, formatFloat x ≠ [] ∧ ∀ c ∈ formatFloat x, c ≠ ' ' ∧ c ≠ '\n') (st : Status)
    (players : Int) :
    Block strict (writeMetrics isPrint formatFloat st players).toList
      (meantMetrics formatFloat st players) (PlainValues isPrint st) := by
  have hall := (block_buildInfo strict isPrint st.version st.role).append
    ((block_statusMetrics strict hfloat st players).append
    (block_tunnels strict isPrint st.tunnels))
  rw [← String.toList_append, ← String.toList_append] at hall
  refine hall.congr ⟨?_, ?_⟩
  · rintro ⟨⟨hversion, hrole⟩, -, htunnels⟩
    exact ⟨hversion, hrole, htunnels⟩
  · rintro ⟨hversion, hrole, htunnels⟩
    exact ⟨⟨hversion, hrole⟩, trivial, htunnels⟩

/-- Read as the text exposition format has it, the metrics say what they are to say exactly when
every value that becomes a label is plain. -/
theorem metrics_survive_iff (strict : Bool) (isPrint : Char → Bool) (formatFloat : Rat → List Char)
    (hfloat : ∀ x, formatFloat x ≠ [] ∧ ∀ c ∈ formatFloat x, c ≠ ' ' ∧ c ≠ '\n') (st : Status)
    (players : Int) :
    read strict (writeMetrics isPrint formatFloat st players).toList =
        some (meantMetrics formatFloat st players) ↔ PlainValues isPrint st :=
  (block_writeMetrics strict isPrint hfloat st players).read_iff

/-- A gateway with one tunnel of this name. -/
def oneTunnel (name : String) : Status where
  role := "gateway"
  version := "dev"
  pid := 1
  linkUp := false
  rttMillis := -1
  transport := ""
  jitterMillis := -1
  packetLossPct := -1
  healthScore := ""
  localHostname := ""
  peerHostname := ""
  localLANIPs := []
  peerLANIPs := []
  publicIP := ""
  peerPublicIP := ""
  agentConnected := true
  agents := []
  tunnels := [⟨"", "abc", name, 25565, true, true, 0, ""⟩]
  connections := []
  connectionsTruncated := false
  connectionsTotal := 0
  totalBytesIn := 0
  totalBytesOut := 0
  linkUpSinceMs := 0
  processStartMs := 0
  peerAddr := ""
  linkBytesIn := 0
  linkBytesOut := 0
  allTimeBytesIn := 0
  allTimeBytesOut := 0
  cumulativeUptimeMs := 0
  linkSessions := 0
  configPath := ""

/-- The printable characters of ASCII. -/
def asciiPrint (c : Char) : Bool := 32 ≤ c.toNat && c.toNat < 127

theorem metrics_survive_plainName :
    read true (writeMetrics asciiPrint (fun _ => ['0']) (oneTunnel "mc") 0).toList =
        some (meantMetrics (fun _ => ['0']) (oneTunnel "mc") 0) ↔
      PlainValues asciiPrint (oneTunnel "mc") :=
  metrics_survive_iff true asciiPrint (fun _ => ['0'])
    (fun _ => ⟨List.cons_ne_nil _ _, fun c hc => by rw [List.mem_singleton.1 hc]; decide⟩)
    (oneTunnel "mc") 0

/-- A quote in a tunnel's name is escaped twice. -/
theorem quoted_name_escaped_twice :
    ¬∃ strict, ∀ (isPrint : Char → Bool) (formatFloat : Rat → List Char),
      (∀ x, formatFloat x ≠ [] ∧ ∀ c ∈ formatFloat x, c ≠ ' ' ∧ c ≠ '\n') →
        ∀ (st : Status) (players : Int),
          read strict (writeMetrics isPrint formatFloat st players).toList =
            some (meantMetrics formatFloat st players) := by
  rintro ⟨strict, h⟩
  have hzero : ∀ _ : Rat, ['0'] ≠ [] ∧ ∀ c ∈ ['0'], c ≠ ' ' ∧ c ≠ '\n' :=
    fun _ => ⟨List.cons_ne_nil _ _, fun c hc => by rw [List.mem_singleton.1 hc]; decide⟩
  have hread := h asciiPrint (fun _ => ['0']) hzero (oneTunnel "a\"b") 0
  obtain ⟨-, -, hplain⟩ := (block_writeMetrics strict asciiPrint hzero _ 0).read_iff.1 hread
  obtain ⟨-, hname⟩ := hplain _ (List.mem_singleton_self _) rfl
  exact (hname '"' (by simp)).2.1 rfl

end ProxyForward.Metrics

import ProxyForward.Config
import ProxyForward.Packet
import ProxyForward.Replacer

namespace ProxyForward
set_option autoImplicit true

/-- A config with the host that only pairing codes and bundles read. -/
structure AppConfig extends Config where
  publicHost : String
  deriving DecidableEq, Repr

def utf8 (s : String) : Bytes := s.toUTF8.toList

def redactedSecret : String := "[redacted]"
def redactedHost : String := "[redacted-host]"

/-- The values that `redactConfig` masks: the secrets and the hosts that are not empty. -/
def maskedValues (cfg : AppConfig) : List String :=
  ([cfg.gateway.token, cfg.publicHost, cfg.gateway.bindAddr, cfg.agent.token, cfg.agent.agentID,
    cfg.agent.certFingerprint, cfg.agent.enrollTicket, cfg.agent.gatewayHost,
    cfg.metrics.prometheusAddr] ++ cfg.agent.tunnels.map (·.localAddr)).filter (· ≠ "")

def minScrubLen : Nat := 4

/-- The values that the scrubber is given, in this order, each with its placeholder. -/
def scrubFields (cfg : AppConfig) : List (String × String) :=
  [(cfg.gateway.token, redactedSecret), (cfg.agent.token, redactedSecret),
    (cfg.agent.agentID, redactedSecret), (cfg.agent.certFingerprint, redactedSecret),
    (cfg.publicHost, redactedHost), (cfg.gateway.bindAddr, redactedHost),
    (cfg.agent.gatewayHost, redactedHost), (cfg.metrics.prometheusAddr, redactedHost)] ++
  cfg.agent.tunnels.map fun t => (t.localAddr, redactedHost)

abbrev LogScrubber := Replacer.Pairs UInt8

def LogScrubber.add (s : LogScrubber) (field : String × String) : LogScrubber :=
  if minScrubLen ≤ (utf8 field.1).length then s ++ [(utf8 field.1, utf8 field.2)] else s

def newLogScrubber (cfg : AppConfig) : LogScrubber := (scrubFields cfg).foldl LogScrubber.add []

def LogScrubber.clean (s : LogScrubber) (line : Bytes) : Bytes :=
  if s = [] then line else Replacer.replace s line

/-- A masked value that is not too short occurs in the cleaned line inside placeholders only. -/
def Covers (cfg : AppConfig) (line : Bytes) : Prop :=
  ∀ v ∈ maskedValues cfg, minScrubLen ≤ (utf8 v).length →
    ∀ pre post, (newLogScrubber cfg).clean line = pre ++ utf8 v ++ post →
      Replacer.Inside (Replacer.scan (newLogScrubber cfg) 0 line) pre (utf8 v)

theorem mem_addAll {s : LogScrubber} {fields : List (String × String)} :
    p ∈ fields.foldl LogScrubber.add s ↔
      p ∈ s ∨ ∃ f ∈ fields, minScrubLen ≤ (utf8 f.1).length ∧ p = (utf8 f.1, utf8 f.2) := by
  induction fields generalizing s with
  | nil => simp only [List.foldl_nil, List.not_mem_nil, false_and, exists_false, or_false]
  | cons f fields ih =>
    rw [List.foldl_cons, ih, List.exists_mem_cons_iff, ← or_assoc]
    apply or_congr_left
    unfold LogScrubber.add
    split
    · rename_i hlen
      rw [List.mem_append, List.mem_singleton, and_iff_right hlen]
    · rename_i hlen
      rw [iff_self_or]
      exact fun h => absurd h.1 hlen

theorem mem_newLogScrubber :
    p ∈ newLogScrubber cfg ↔
      ∃ f ∈ scrubFields cfg, minScrubLen ≤ (utf8 f.1).length ∧ p = (utf8 f.1, utf8 f.2) := by
  rw [newLogScrubber, mem_addAll]
  exact or_iff_right List.not_mem_nil

theorem newLogScrubber_ne_nil (hp : p ∈ newLogScrubber cfg) : p.1 ≠ [] := by
  obtain ⟨f, -, hlen, rfl⟩ := mem_newLogScrubber.1 hp
  exact List.ne_nil_of_length_pos (Nat.lt_of_lt_of_le (by decide) hlen)

theorem masked_cases (hv : v ∈ maskedValues cfg) :
    v = cfg.agent.enrollTicket ∨ ∃ f ∈ scrubFields cfg, f.1 = v := by
  obtain ⟨hmem, -⟩ := List.mem_filter.1 hv
  rcases List.mem_append.1 hmem with hmem | hmem
  · simp only [List.mem_cons, List.not_mem_nil, or_false] at hmem
    unfold scrubFields
    rcases hmem with rfl | rfl | rfl | rfl | rfl | rfl | rfl | rfl | rfl
    case inr.inr.inr.inr.inr.inr.inl => exact .inl rfl
    all_goals
      right
      simp [or_and_right, exists_or]
  · obtain ⟨t, ht, rfl⟩ := List.mem_map.1 hmem
    exact .inr ⟨_, List.mem_append_right _ (List.mem_map.2 ⟨t, ht, rfl⟩), rfl⟩

theorem clean_eq (s : LogScrubber) (line : Bytes) : s.clean line = Replacer.replace s line := by
  unfold LogScrubber.clean
  split
  · rename_i hs
    subst hs
    rw [Replacer.replace, Replacer.scan_of_not_infix fun p hp =>
      absurd hp List.not_mem_nil, Replacer.texts_map_kept]
  · rfl

theorem covers_all_iff :
    (∀ line, Covers cfg line) ↔ ∀ v ∈ maskedValues cfg, minScrubLen ≤ (utf8 v).length →
      (∃ p ∈ newLogScrubber cfg, p.1 <:+: utf8 v) ∧ ¬Replacer.Spells (newLogScrubber cfg)
        (utf8 v) := by
  have hne : ∀ p ∈ newLogScrubber cfg, p.1 ≠ [] := fun p hp => newLogScrubber_ne_nil hp
  have hiff {v : String} (hlen : minScrubLen ≤ (utf8 v).length) :=
    Replacer.hides_iff hne
      (List.ne_nil_of_length_pos (Nat.lt_of_lt_of_le (by decide) hlen) : utf8 v ≠ [])
  simp only [Covers, clean_eq]
  constructor
  · intro h v hv hlen
    exact (hiff hlen).1 fun line => h line v hv hlen
  · intro h line v hv hlen
    exact (hiff hlen).2 (h v hv hlen) line

/-- The ticket is too short to be scrubbed, or no line that holds it goes unscrubbed. -/
def TicketKnown (cfg : AppConfig) : Prop :=
  (utf8 cfg.agent.enrollTicket).length < minScrubLen ∨
    ∃ p ∈ newLogScrubber cfg, p.1 <:+: utf8 cfg.agent.enrollTicket

theorem mem_maskedValues_ticket (h : cfg.agent.enrollTicket ≠ "") :
    cfg.agent.enrollTicket ∈ maskedValues cfg :=
  List.mem_filter.2 ⟨by simp, decide_eq_true h⟩

theorem covers_iff_known :
    (∀ line, Covers cfg line) ↔ TicketKnown cfg ∧
      ∀ v ∈ maskedValues cfg, minScrubLen ≤ (utf8 v).length →
        ¬Replacer.Spells (newLogScrubber cfg) (utf8 v) := by
  rw [covers_all_iff]
  constructor
  · intro h
    refine ⟨?_, fun v hv hlen => (h v hv hlen).2⟩
    by_cases hlen : minScrubLen ≤ (utf8 cfg.agent.enrollTicket).length
    · refine .inr (h _ (mem_maskedValues_ticket ?_) hlen).1
      intro hempty
      rw [hempty] at hlen
      exact absurd hlen (by decide +kernel)
    · exact .inl (Nat.lt_of_not_le hlen)
  · rintro ⟨hticket, hspells⟩ v hv hlen
    refine ⟨?_, hspells v hv hlen⟩
    obtain rfl | ⟨f, hmem, rfl⟩ := masked_cases hv
    · exact hticket.resolve_left (Nat.not_lt.2 hlen)
    · exact ⟨_, mem_newLogScrubber.2 ⟨f, hmem, hlen, rfl⟩, List.infix_rfl⟩

theorem placeholder_edges (hp : p ∈ newLogScrubber cfg) :
    p.2.head? = some (0x5b : UInt8) ∧ p.2.getLast? = some 0x5d := by
  obtain ⟨f, hf, -, rfl⟩ := mem_newLogScrubber.1 hp
  have hplaceholder : f.2 = redactedSecret ∨ f.2 = redactedHost := by
    rcases List.mem_append.1 hf with hf | hf
    · simp only [List.mem_cons, List.not_mem_nil, or_false] at hf
      rcases hf with rfl | rfl | rfl | rfl | rfl | rfl | rfl | rfl
      all_goals first | exact .inl rfl | exact .inr rfl
    · obtain ⟨t, -, rfl⟩ := List.mem_map.1 hf
      exact .inr rfl
  rcases hplaceholder with h | h
  all_goals
    simp only [h]
    decide +kernel

/-- Every log line is covered if and only if the scrubber knows the ticket and no masked value is
spelled across the edge of a placeholder. -/
theorem every_line_covered_iff (cfg : AppConfig) :
    (∀ line, Covers cfg line) ↔ TicketKnown cfg ∧
      ∀ v ∈ maskedValues cfg, minScrubLen ≤ (utf8 v).length →
        ¬Replacer.Spells (newLogScrubber cfg) (utf8 v) := covers_iff_known

theorem covers_iff_ticketKnown
    (hplain : ∀ v ∈ maskedValues cfg, (0x5b : UInt8) ∉ utf8 v ∧ 0x5d ∉ utf8 v) :
    (∀ line, Covers cfg line) ↔ TicketKnown cfg := by
  rw [covers_iff_known, and_iff_left]
  intro v hv _
  exact Replacer.not_spells (fun p hp => placeholder_edges hp) (hplain v hv).1 (hplain v hv).2

/-- An agent that is pairing. -/
def pairingConfig : AppConfig where
  role := roleAgent
  agent := ⟨"6f1c", "gw.example", 8474, "", "sha256:aa", transportAuto, [], "tkt_9f2c"⟩
  gateway := ⟨⟨"0.0.0.0", []⟩, 8474, "", 4096, 32, 10⟩
  metrics := ⟨false, ""⟩
  loggingLevel := "info"
  uiTheme := "system"
  analytics := ⟨90, "", ""⟩
  publicHost := ""

/-- The ticket stands in a log line, and no placeholder does. -/
theorem ticket_in_the_log : ¬∀ cfg line, Covers cfg line := by
  intro h
  have hkept : ∀ x ∈ Replacer.scan (newLogScrubber pairingConfig) 0
    (utf8 "enrolling with tkt_9f2c"), x.isPut = false := by decide +kernel
  obtain ⟨ps₁, old, new, ps₂, -, -, hscan, -⟩ :=
    h pairingConfig (utf8 "enrolling with tkt_9f2c") "tkt_9f2c" (by decide +kernel)
      (by decide +kernel)
      (utf8 "enrolling with ") [] (by decide +kernel)
  rw [hscan] at hkept
  exact absurd (hkept _ (List.mem_append_right _ List.mem_cons_self)) nofun

end ProxyForward

import ProxyForward.SetupAgent
import ProxyForward.Validation

namespace ProxyForward
set_option autoImplicit true

/-- What reading the file at the config path gives: there is none, it cannot be read, or its text
parses over the defaults or fails to. -/
inductive ConfigRead where
  | missing
  | failed (err : String)
  | parsed (r : Except String Config)

def Config.load (pf : Platform) (path : String) : ConfigRead → Except String Config
  | .missing => .ok defaultConfig
  | .failed err => .error ("read config: " ++ err)
  | .parsed (.error err) => .error ("parse " ++ path ++ ": " ++ err)
  | .parsed (.ok cfg) =>
    match cfg.validationError pf with
    | some err => .error ("invalid config " ++ path ++ ": " ++ err)
    | none => .ok cfg

/-- The fields that the command sets. Unlike the wizard it leaves `enrollTicket` as it is. -/
def AgentConfig.pairedByCommand (env : SetupEnv) (c : AgentConfig) (code : PairingCode)
    (localAddr : String) (publicPort : Int) : AgentConfig :=
  { c with
    agentID := if c.agentID = "" then newID env.agentID else c.agentID
    gatewayHost := code.host
    gatewayPort := code.port
    token := code.token
    certFingerprint := code.fingerprint
    tunnels := if c.tunnels = [] then
        [{ firstTunnel env localAddr publicPort with
          localAddr := localAddr, publicPort := publicPort }]
      else c.tunnels }

/-- The command `pair`. Its result is the error, or the config that it saves. -/
def pairCommand (env : SetupEnv) (path : String) (read : ConfigRead)
    (pairingCode localAddr : String) (publicPort : Int) : Except String Config :=
  match parsePairingCode env.parse env.pf pairingCode with
  | .error err => .error err
  | .ok code =>
    match Config.load env.pf path read with
    | .error err => .error err
    | .ok cfg =>
      if cfg.role = roleGateway then
        .error ("this machine is configured as a gateway; an agent pairs from a different " ++
          "machine (or pass --config for a separate config)")
      else
        let cfg := { cfg with
          role := roleAgent
          agent := cfg.agent.pairedByCommand env code localAddr publicPort }
        match cfg.save env.pf env.ioError with
        | some err => .error err
        | none => .ok cfg

/-- The long-term identity of an agent: the key, and what signs with its private half. -/
structure AgentKey where
  pub : PubKey
  sign : String → String

namespace AgentConfig

/-- The key, the signature and the ticket of a hello; all are empty when the identity cannot be
loaded. -/
def authFields (c : AgentConfig) : Option AgentKey → PubKey × String × String
  | none => ("", "", "")
  | some key => (key.pub, key.sign (agentAuthMessage c.certFingerprint), c.enrollTicket)

/-- The hello of a control connection. `state` is the agent's view of its config. -/
def hello (c : AgentConfig) (key : Option AgentKey) (offer : List String) (state : String × Nat) :
    Hello :=
  let (pub, sig, ticket) := c.authFields key
  let (configHash, configGeneration) := if capGatewayConfig ∈ offer then state else ("", 0)
  ⟨c.token, c.agentID, pub, sig, ticket, offer, configHash, configGeneration⟩

/-- The two are paired with one gateway, with one credential. -/
structure SamePairing (a b : AgentConfig) : Prop where
  host : a.gatewayHost = b.gatewayHost
  port : a.gatewayPort = b.gatewayPort
  fingerprint : a.certFingerprint = b.certFingerprint
  token : a.token = b.token
  ticket : a.enrollTicket = b.enrollTicket

/-- No gateway tells the hello of one from the hello of the other by whether it accepts it. -/
def SameAdmission (a b : AgentConfig) : Prop :=
  ∀ (key : Option AgentKey) (offer : List String) (state : String × Nat) (auth : Authority)
    (store : AgentStore) (now : Int) (written : Bool),
    (auth.compositeValidate store (a.hello key offer state) now written).1.isOk =
      (auth.compositeValidate store (b.hello key offer state) now written).1.isOk

end AgentConfig

/-- The hellos differ in their agent ids only, which both are empty or derived from a key, or
neither is. -/
structure Hello.Alike (a b : Hello) : Prop where
  token : a.token = b.token
  agentPubKey : a.agentPubKey = b.agentPubKey
  agentSig : a.agentSig = b.agentSig
  enrollTicket : a.enrollTicket = b.enrollTicket
  named : a.agentID = "" ↔ b.agentID = ""
  derived : isDerivedAgentID a.agentID = isDerivedAgentID b.agentID

namespace Authority

variable {auth : Authority} {store : AgentStore} {a b : Hello}

theorem sharedTokenValidate_isOk (h : a.Alike b) (token : String) :
    (sharedTokenValidate token a).isOk = (sharedTokenValidate token b).isOk := by
  unfold sharedTokenValidate
  rw [h.token, h.derived]
  by_cases htoken : b.token ≠ token
  · rw [if_pos htoken, if_pos htoken]
  rw [if_neg htoken, if_neg htoken]
  by_cases hnamed : b.agentID = ""
  · rw [if_pos hnamed, if_pos (h.named.2 hnamed)]
  rw [if_neg hnamed, if_neg (mt h.named.1 hnamed)]
  split <;> rfl

theorem fallback_isOk (h : a.Alike b) (err : ValidateError) :
    (auth.fallback a err).isOk = (auth.fallback b err).isOk := by
  unfold fallback
  rw [h.token]
  split
  case h_5 =>
    split
    · split
      · exact sharedTokenValidate_isOk h _
      · rfl
    · rfl
  all_goals rfl

theorem enroll_isOk (h : a.Alike b) (now : Int) (written : Bool) :
    (auth.enroll store a now written).1.isOk = (auth.enroll store b now written).1.isOk := by
  unfold enroll
  rw [h.agentPubKey, h.enrollTicket]
  split
  · rfl
  · exact fallback_isOk h _

theorem compositeValidate_isOk (h : a.Alike b) (now : Int) (written : Bool) :
    (auth.compositeValidate store a now written).1.isOk =
      (auth.compositeValidate store b now written).1.isOk := by
  unfold compositeValidate validate
  rw [h.agentPubKey, h.agentSig, h.enrollTicket]
  by_cases hkey : b.agentPubKey = ""
  · rw [if_pos hkey, if_pos hkey]
    cases auth.sharedToken with
    | none => rfl
    | some token => exact sharedTokenValidate_isOk h token
  rw [if_neg hkey, if_neg hkey]
  by_cases hsig : ¬auth.verifyAgentAuth b.agentPubKey b.agentSig = true
  · simp only [if_pos hsig]
    exact fallback_isOk h _
  rw [if_neg hsig, if_neg hsig]
  cases store.lookup b.agentPubKey with
  | some r =>
    by_cases hrevoked : r.revoked = true
    · simp only [if_pos hrevoked]
    · simp only [if_neg hrevoked]
  | none =>
    by_cases hticket : b.enrollTicket = ""
    · simp only [if_pos hticket]
      exact fallback_isOk h _
    · simp only [if_neg hticket]
      exact enroll_isOk h now written

theorem compositeValidate_unknown (hkey : a.agentPubKey ≠ "")
    (hsig : auth.verifyAgentAuth a.agentPubKey a.agentSig = true)
    (hnone : store.lookup a.agentPubKey = none) (now : Int) (written : Bool) :
    auth.compositeValidate store a now written =
      if a.enrollTicket = "" then (auth.fallback a .badToken, store)
      else auth.enroll store a now written := by
  unfold compositeValidate validate
  rw [if_neg hkey, if_neg (not_not.2 hsig), hnone]
  by_cases hticket : a.enrollTicket = ""
  · simp only [if_pos hticket]
  · simp only [if_neg hticket]

end Authority

theorem hexDigits_hex (h : c ∈ hexDigits 2 n) : c ∈ hexAlphabet := by
  obtain ⟨i, -, rfl⟩ := List.mem_map.1 h
  have hlt : n >>> (4 * i) % 16 < 16 := Nat.mod_lt _ (by decide)
  generalize n >>> (4 * i) % 16 = d at hlt
  revert d
  decide

theorem newID_not_derived (bytes : Vector UInt8 16) : isDerivedAgentID (newID bytes) = false := by
  rw [Bool.eq_false_iff]
  intro h
  rw [isDerivedAgentID, newID, String.toList_ofList, List.isPrefixOf_iff_prefix] at h
  have hmem : 'g' ∈ bytes.toList.flatMap fun b => hexDigits 2 b.toNat := h.subset (by decide)
  obtain ⟨b, -, hb⟩ := List.mem_flatMap.1 hmem
  exact absurd (hexDigits_hex hb) (by decide)

namespace AgentConfig

variable {a b c : AgentConfig} {code : PairingCode}

theorem SamePairing.admission (h : a.SamePairing b) (hnamed : a.agentID = "" ↔ b.agentID = "")
    (hderived : isDerivedAgentID a.agentID = isDerivedAgentID b.agentID) : a.SameAdmission b := by
  intro key offer state auth store now written
  have hfields : a.authFields key = b.authFields key := by
    cases key with
    | none => rfl
    | some key => simp only [authFields, h.fingerprint, h.ticket]
  apply Authority.compositeValidate_isOk
  unfold hello
  rw [hfields]
  exact ⟨h.token, rfl, rfl, rfl, hnamed, hderived⟩

/-- A gateway without shared tokens that takes any signature of a key. -/
def ticketAuthority : Authority := ⟨none, "", id, fun _ _ _ => true⟩

/-- The store of a gateway that has issued one ticket. -/
def storeOf (ticket : String) : AgentStore :=
  (AgentStore.empty.issueEnrollment ticket false none ⟨[], []⟩ true).2

theorem admitted_iff (hticket : ticket ≠ "") (c : AgentConfig) :
    (ticketAuthority.compositeValidate (storeOf ticket) (c.hello (some ⟨sampleKey, id⟩) [] ("", 0))
      0 true).1.isOk = true ↔ c.enrollTicket = ticket := by
  have hkey : (c.hello (some ⟨sampleKey, id⟩) [] ("", 0)).agentPubKey ≠ "" := by
    change sampleKey ≠ ""
    decide
  have hsig : ticketAuthority.verifyAgentAuth
    (c.hello (some ⟨sampleKey, id⟩) [] ("", 0)).agentPubKey
      (c.hello (some ⟨sampleKey, id⟩) [] ("", 0)).agentSig = true := if_neg (by
    change ¬sampleKey.length ≠ ed25519PublicKeySize
    decide)
  have hheld : (c.hello (some ⟨sampleKey, id⟩) [] ("", 0)).enrollTicket = c.enrollTicket := rfl
  rw [Authority.compositeValidate_unknown hkey hsig rfl, hheld]
  by_cases hempty : c.enrollTicket = ""
  · rw [if_pos hempty, hempty]
    exact iff_of_false Bool.false_ne_true hticket.symm
  rw [if_neg hempty, Authority.enroll, AgentStore.enroll, hheld]
  by_cases hsame : c.enrollTicket = ticket
  · have hissued : (storeOf ticket).nonces.lookup ticket =
        some ⟨none, false, ⟨[], []⟩, false⟩ := AList.lookup_insert _
    rw [hsame, hissued]
    exact iff_of_true rfl rfl
  · have hunknown : (storeOf ticket).nonces.lookup c.enrollTicket = none :=
      (AList.lookup_insert_ne hsame).trans (AList.lookup_empty _)
    rw [hunknown]
    exact iff_of_false Bool.false_ne_true hsame

theorem SameAdmission.ticket (h : a.SameAdmission b) : a.enrollTicket = b.enrollTicket := by
  have hsame (ticket : String) (hticket : ticket ≠ "") :
      a.enrollTicket = ticket ↔ b.enrollTicket = ticket := by
    rw [← admitted_iff hticket a, ← admitted_iff hticket b, h]
  by_cases ha : a.enrollTicket = ""
  · by_cases hb : b.enrollTicket = ""
    · rw [ha, hb]
    · exact (hsame _ hb).2 rfl
  · exact ((hsame _ ha).1 rfl).symm

theorem pairedByCommand_same_iff {env env' : SetupEnv}
    (hlegacy : isEnrollTicket code.token = false) :
    (c.pairedByCommand env' code localAddr' publicPort').SamePairing
      (c.paired env code localAddr publicPort) ↔ c.enrollTicket = "" := by
  have hlegacy := ne_true_of_eq_false hlegacy
  constructor
  · intro h
    have hticket : c.enrollTicket = if isEnrollTicket code.token then code.token else "" := h.ticket
    rwa [if_neg hlegacy] at hticket
  · intro h
    have htoken : (if isEnrollTicket code.token then "" else code.token) = code.token :=
      if_neg hlegacy
    have hticket : (if isEnrollTicket code.token then code.token else "") = "" := if_neg hlegacy
    exact ⟨rfl, rfl, rfl, htoken.symm, h.trans hticket.symm⟩

theorem pairedByCommand_agentID {env env' : SetupEnv} :
    ((c.pairedByCommand env' code localAddr' publicPort').agentID = "" ↔
      (c.paired env code localAddr publicPort).agentID = "") ∧
    isDerivedAgentID (c.pairedByCommand env' code localAddr' publicPort').agentID =
      isDerivedAgentID (c.paired env code localAddr publicPort).agentID := by
  simp only [pairedByCommand, paired]
  split
  · exact ⟨iff_of_false (newID_ne _) (newID_ne _),
      (newID_not_derived _).trans (newID_not_derived _).symm⟩
  · exact ⟨Iff.rfl, rfl⟩

end AgentConfig

theorem pairCommand_ok {env : SetupEnv}
    (hcode : parsePairingCode env.parse env.pf pairingCode = .ok code)
    (hload : Config.load env.pf path file = .ok c)
    (h : pairCommand env path file pairingCode localAddr publicPort = .ok p) :
    p.agent = c.agent.pairedByCommand env code localAddr publicPort := by
  rw [pairCommand, hcode, hload] at h
  dsimp only at h
  split at h
  · cases h
  · split at h
    · cases h
    · cases h
      rfl

theorem pairCommand_saves {env : SetupEnv}
    (hcode : parsePairingCode env.parse env.pf pairingCode = .ok code)
    (hload : Config.load env.pf path file = .ok c) (hrole : c.role ≠ roleGateway)
    (hsave : ({ c with
      role := roleAgent
      agent := c.agent.pairedByCommand env code localAddr publicPort } : Config).save env.pf
        env.ioError = none) :
    pairCommand env path file pairingCode localAddr publicPort =
      .ok { c with
        role := roleAgent
        agent := c.agent.pairedByCommand env code localAddr publicPort } := by
  rw [pairCommand, hcode, hload]
  dsimp only
  rw [if_neg hrole, hsave]

theorem Config.save_agent {pf : Platform} {c : Config} (hrole : c.role = roleAgent)
    (h : c.save pf ioError = none) : validateAgent pf c.agent = [] := by
  have hvalid : c.validate pf = [] := by
    by_contra hinvalid
    exact Config.save_invalid hinvalid ioError h
  simp only [Config.validate, hrole, if_true, List.append_eq_nil_iff] at hvalid
  exact hvalid.1.1.1.1.1.1.2

theorem SetupApp.setupAgent_saves {env : SetupEnv} {app : SetupApp}
    (hcode : parsePairingCode env.parse env.pf pairingCode = .ok code)
    (hmode : app.mode ≠ .attached)
    (hsave : (app.config.paired env code localAddr publicPort).save env.pf env.ioError = none) :
    (app.setupAgent env pairingCode localAddr publicPort).1 = none ∧
      (app.setupAgent env pairingCode localAddr publicPort).2.saved =
        some (app.config.paired env code localAddr publicPort) := by
  rw [setupAgent_accepted hcode hmode]
  dsimp only
  rw [hsave]
  exact ⟨rfl, startEngineLocked_saved _⟩

theorem SetupApp.setupAgent_saved {env : SetupEnv} {app : SetupApp}
    (h : (app.setupAgent env pairingCode localAddr publicPort).1 = none) :
    ∃ code, parsePairingCode env.parse env.pf pairingCode = .ok code ∧
      isEnrollTicket code.token = false ∧
      (app.setupAgent env pairingCode localAddr publicPort).2.saved =
        some (app.config.paired env code localAddr publicPort) := by
  cases hcode : parsePairingCode env.parse env.pf pairingCode with
  | error err =>
    rw [setupAgent, hcode] at h
    cases h
  | ok code =>
    by_cases hmode : app.mode = .attached
    · rw [setupAgent, hcode] at h
      dsimp only at h
      rw [if_pos hmode] at h
      cases h
    · cases hsave : (app.config.paired env code localAddr publicPort).save env.pf env.ioError with
      | some err =>
        rw [setupAgent_accepted hcode hmode] at h
        dsimp only at h
        rw [hsave] at h
        cases h
      | none =>
        have hrole : (app.config.paired env code localAddr publicPort).role = roleAgent := rfl
        have hvalid := Config.save_agent hrole hsave
        obtain ⟨hlegacy, -⟩ := (AgentConfig.validate_paired (parsePairingCode_ok hcode)).1 hvalid
        exact ⟨code, rfl, hlegacy, (setupAgent_saves hcode hmode hsave).2⟩

/-- The command `pair` and the wizard, from one config and one code, each with the ids it draws.
When both save they pair the agent alike if and only if the config had no ticket left from before,
and under the same condition no gateway admits the one and not the other. -/
theorem pair_command_iff (env : SetupEnv) (agentID tunnelID : Vector UInt8 16)
    (app : SetupApp) (path : String) (file : ConfigRead) (pairingCode localAddr localAddr' : String)
    (publicPort publicPort' : Int) (p s : Config)
    (hload : Config.load env.pf path file = .ok app.config)
    (hpair : pairCommand { env with agentID := agentID, tunnelID := tunnelID } path file pairingCode
      localAddr' publicPort' = .ok p)
    (hsetup : (app.setupAgent env pairingCode localAddr publicPort).1 = none)
    (hsaved : (app.setupAgent env pairingCode localAddr publicPort).2.saved = some s) :
    (p.agent.SamePairing s.agent ↔ app.config.agent.enrollTicket = "") ∧
    (p.agent.SameAdmission s.agent ↔ app.config.agent.enrollTicket = "") := by
  obtain ⟨code, hcode, hlegacy, hs⟩ := SetupApp.setupAgent_saved hsetup
  cases hsaved.symm.trans hs
  have hp : p.agent = app.config.agent.pairedByCommand
      { env with agentID := agentID, tunnelID := tunnelID } code localAddr' publicPort' :=
    pairCommand_ok hcode hload hpair
  have hsame : p.agent.SamePairing (app.config.paired env code localAddr publicPort).agent ↔
      app.config.agent.enrollTicket = "" := by
    rw [hp]
    exact AgentConfig.pairedByCommand_same_iff hlegacy
  refine ⟨hsame, ?_, ?_⟩
  · intro h
    have hticket := h.ticket
    rw [hp] at hticket
    exact hticket.trans (if_neg (ne_true_of_eq_false hlegacy))
  · intro h
    obtain ⟨hnamed, hderived⟩ := AgentConfig.pairedByCommand_agentID (c := app.config.agent)
    refine (hsame.2 h).admission ?_ ?_
    · rw [hp]
      exact hnamed
    · rw [hp]
      exact hderived

def samplePairing : PairingCode :=
  ⟨"gw.example", 8474, "c0ffee", "sha256:" ++ String.ofList (List.replicate 64 '0')⟩

/-- A config with a ticket, whose role the first pairing sets. -/
def configWith (ticket : String) : Config :=
  { defaultConfig with agent := { defaultConfig.agent with enrollTicket := ticket } }

def appWith (ticket : String) : SetupApp := ⟨App.new (fun _ => configWith ticket) 0, .wizard, none⟩

/-- What the command leaves of such a config. -/
def commandSaves (ticket : String) : Config :=
  { configWith ticket with
    role := roleAgent
    agent := (configWith ticket).agent.pairedByCommand plainSetup samplePairing defaultLocalAddr
      defaultPublicPort }

def wizardSaves (ticket : String) : Config :=
  (configWith ticket).paired plainSetup samplePairing "" 0

theorem parse_codeWith :
    parsePairingCode plainSetup.parse plainSetup.pf (codeWith "c0ffee") = .ok samplePairing := by
  decide +kernel

theorem pairCommand_codeWith
    (hload : Config.load plainSetup.pf path file = .ok (configWith ticket))
    (hsave : (commandSaves ticket).save plainSetup.pf none = none) :
    pairCommand plainSetup path file (codeWith "c0ffee") defaultLocalAddr defaultPublicPort =
      .ok (commandSaves ticket) := by
  have hrole : roleUnset ≠ roleGateway := by decide
  exact pairCommand_saves parse_codeWith hload hrole hsave

theorem setupAgent_codeWith (hsave : (wizardSaves ticket).save plainSetup.pf none = none) :
    ((appWith ticket).setupAgent plainSetup (codeWith "c0ffee") "" 0).1 = none ∧
      ((appWith ticket).setupAgent plainSetup (codeWith "c0ffee") "" 0).2.saved =
        some (wizardSaves ticket) := by
  have hmode : (appWith ticket).mode ≠ .attached := by
    intro h
    cases h
  exact SetupApp.setupAgent_saves parse_codeWith hmode hsave

theorem pair_command_iff_first_run :
    ((commandSaves "").agent.SamePairing (wizardSaves "").agent ↔
      (appWith "").config.agent.enrollTicket = "") ∧
    ((commandSaves "").agent.SameAdmission (wizardSaves "").agent ↔
      (appWith "").config.agent.enrollTicket = "") := by
  have hload : Config.load plainSetup.pf "config.toml" .missing = .ok (configWith "") := rfl
  have hcommand : (commandSaves "").save plainSetup.pf none = none := by decide +kernel
  have hwizard : (wizardSaves "").save plainSetup.pf none = none := by decide +kernel
  have hpair := pairCommand_codeWith hload hcommand
  obtain ⟨hsetup, hsaved⟩ := setupAgent_codeWith hwizard
  exact pair_command_iff plainSetup plainSetup.agentID plainSetup.tunnelID (appWith "")
    "config.toml" .missing (codeWith "c0ffee") "" defaultLocalAddr 0 defaultPublicPort
    (commandSaves "") (wizardSaves "") rfl hpair hsetup hsaved

/-- A ticket that was left from before stays with the command, and the wizard clears it. -/
theorem stale_ticket_kept :
    ¬∀ (env : SetupEnv) (app : SetupApp) (path : String) (file : ConfigRead)
      (pairingCode localAddr localAddr' : String) (publicPort publicPort' : Int) (p s : Config),
      Config.load env.pf path file = .ok app.config →
      pairCommand env path file pairingCode localAddr' publicPort' = .ok p →
      (app.setupAgent env pairingCode localAddr publicPort).1 = none →
      (app.setupAgent env pairingCode localAddr publicPort).2.saved = some s →
      p.agent.SamePairing s.agent ∧ p.agent.SameAdmission s.agent := by
  intro h
  have hload : Config.load plainSetup.pf "config.toml" (.parsed (.ok (configWith "tkt_stale"))) =
      .ok (configWith "tkt_stale") := by
    decide +kernel
  have hcommand : (commandSaves "tkt_stale").save plainSetup.pf none = none := by decide +kernel
  have hwizard : (wizardSaves "tkt_stale").save plainSetup.pf none = none := by decide +kernel
  have hpair := pairCommand_codeWith hload hcommand
  obtain ⟨hsetup, hsaved⟩ := setupAgent_codeWith hwizard
  obtain ⟨hsame, -⟩ := h plainSetup (appWith "tkt_stale") "config.toml"
    (.parsed (.ok (configWith "tkt_stale"))) (codeWith "c0ffee") "" defaultLocalAddr 0
    defaultPublicPort (commandSaves "tkt_stale") (wizardSaves "tkt_stale") hload hpair hsetup hsaved
  exact absurd hsame.ticket (by decide)

end ProxyForward

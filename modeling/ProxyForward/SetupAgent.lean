import ProxyForward.Pairing
import ProxyForward.SaveTunnels

namespace ProxyForward
set_option autoImplicit true

inductive AppMode where
  | wizard
  | engine
  | attached
  deriving DecidableEq, Repr

/-- The app with its mode and the file at its config path. -/
structure SetupApp extends App where
  mode : AppMode
  saved : Option Config

/-- What lies outside the app while it is set up: the URL parser, what the checks ask of the
platform, the random bytes of the two ids, and what the file system answers. -/
structure SetupEnv where
  parse : String → Except String Url
  pf : Platform
  agentID : Vector UInt8 16
  tunnelID : Vector UInt8 16
  ioError : Option String

def newID (bytes : Vector UInt8 16) : String :=
  String.ofList (bytes.toList.flatMap fun b => hexDigits 2 b.toNat)

def enrollTicketPrefix : List Char := "tkt_".toList

def isEnrollTicket (token : String) : Bool := enrollTicketPrefix.isPrefixOf token.toList

def defaultPublicPort : Int := 25565
def defaultLocalAddr : String := "127.0.0.1:25565"

/-- The tunnel that an agent without tunnels starts with. -/
def firstTunnel (env : SetupEnv) (localAddr : String) (publicPort : Int) : Tunnel where
  id := newID env.tunnelID
  name := "Minecraft"
  type := tunnelTCP
  localAddr := if localAddr = "" then defaultLocalAddr else localAddr
  publicPort := if publicPort = 0 then defaultPublicPort else publicPort
  enabled := true
  options := ⟨false, false, "", 0, ""⟩

namespace AgentConfig

/-- The fields that an accepted code sets. Its token goes to one of two of them. -/
def paired (env : SetupEnv) (c : AgentConfig) (code : PairingCode) (localAddr : String)
    (publicPort : Int) : AgentConfig where
  agentID := if c.agentID = "" then newID env.agentID else c.agentID
  gatewayHost := code.host
  gatewayPort := code.port
  token := if isEnrollTicket code.token then "" else code.token
  certFingerprint := code.fingerprint
  transport := c.transport
  tunnels := if c.tunnels = [] then [firstTunnel env localAddr publicPort] else c.tunnels
  enrollTicket := if isEnrollTicket code.token then code.token else ""

/-- The agent is paired with this code, and has an id and tunnels. -/
structure PairedWith (c : AgentConfig) (code : PairingCode) : Prop where
  agentID : c.agentID ≠ ""
  host : c.gatewayHost = code.host
  port : c.gatewayPort = code.port
  token : c.token = code.token
  fingerprint : c.certFingerprint = code.fingerprint
  ticket : c.enrollTicket = ""
  tunnels : c.tunnels ≠ []

end AgentConfig

def Config.paired (env : SetupEnv) (c : Config) (code : PairingCode) (localAddr : String)
    (publicPort : Int) : Config :=
  { c with role := roleAgent, agent := c.agent.paired env code localAddr publicPort }

namespace SetupApp

def startEngineLocked (app : SetupApp) : SetupApp :=
  match Engine.new app.heap app.cfg with
  | some eng => { app with eng := some eng, mode := .engine }
  | none => app

def stopEngineLocked (app : SetupApp) : SetupApp :=
  match app.eng with
  | none => app
  | some _ => { app with
      toApp := app.toApp.stopEngineLocked
      mode := if app.mode = .engine then .wizard else app.mode }

/-- Apply a pairing code and start the agent. The result is the error and the app afterwards. -/
def setupAgent (env : SetupEnv) (app : SetupApp) (pairingCode localAddr : String)
    (publicPort : Int) :
    Option String × SetupApp :=
  match parsePairingCode env.parse env.pf pairingCode with
  | .error err => (some err, app)
  | .ok code =>
    if app.mode = .attached then
      (some "a daemon is already running on this machine — configure it instead", app)
    else
      let app := app.stopEngineLocked
      let cfg := app.config.paired env code localAddr publicPort
      let app := { app with toApp := app.toApp.assign cfg }
      match cfg.save env.pf env.ioError with
      | some err => (some err, app)
      | none => (none, { app with saved := some cfg }.startEngineLocked)

end SetupApp

/-- A local address and a public port that validate; the empty ones stand for the defaults. -/
def ValidTarget (localAddr : String) (publicPort : Int) : Prop :=
  (localAddr = "" ∨ ∃ host port, splitHostPort localAddr = .ok (host, port) ∧
    (atoi port).any (fun p => (validPort p).isNone) = true) ∧
  (publicPort = 0 ∨ validPort publicPort = none)

/-- An accepted code with a valid target leaves a valid config, which is on disk unless a daemon
runs or the disk fails; and an error leaves the config, the disk and the engine as they were. -/
def SetupApp.SetsUp (env : SetupEnv) (app : SetupApp) (pairingCode localAddr : String)
    (publicPort : Int) : Prop :=
  let r := app.setupAgent env pairingCode localAddr publicPort
  ((∃ code, parsePairingCode env.parse env.pf pairingCode = .ok code) →
    ValidTarget localAddr publicPort →
      r.2.config.validate env.pf = [] ∧
      (app.mode ≠ .attached → env.ioError = none → r.1 = none ∧ r.2.saved = some r.2.config)) ∧
  (r.1 ≠ none → r.2 = app)

/-- The tunnels that the agent is left with pass their checks. -/
def TunnelsPass (pf : Platform) (tunnels : List Tunnel) (localAddr : String)
    (publicPort : Int) : Prop :=
  if tunnels = [] then ValidTarget localAddr publicPort else validateTunnels pf 0 [] [] tunnels = []

/-- The code carries a legacy token, what it leaves alone is valid, and nothing fails on the disk
except where the call changes nothing. -/
structure SetupApp.Accepts (env : SetupEnv) (app : SetupApp) (code : PairingCode)
    (localAddr : String) (publicPort : Int) : Prop where
  legacy : isEnrollTicket code.token = false
  transport : app.config.agent.transport ∈ [transportMux, transportPerConn, transportQUIC,
    transportAuto]
  tunnels : TunnelsPass env.pf app.config.agent.tunnels localAddr publicPort
  io : env.ioError = none ∨
    (app.eng = none ∧ app.config.role = roleAgent ∧ app.config.agent.PairedWith code)

theorem newID_ne (bytes : Vector UInt8 16) : newID bytes ≠ "" := by
  intro h
  have hnil := congrArg String.toList h
  rw [newID, String.toList_ofList] at hnil
  cases hb : bytes.toList with
  | nil =>
    have hlen := congrArg List.length hb
    rw [Vector.length_toList] at hlen
    cases hlen
  | cons b bs =>
    rw [hb, List.flatMap_cons] at hnil
    exact absurd hnil (List.append_ne_nil_of_left_ne_nil (List.cons_ne_nil _ _) _)

theorem wrap_eq_nil {err : Option String} : wrap label err = [] ↔ err = none := by
  cases err with
  | none => exact iff_of_true rfl rfl
  | some text => exact iff_of_false (List.cons_ne_nil _ _) nofun

theorem defaultLocalAddr_valid : ∃ host port, splitHostPort defaultLocalAddr = .ok (host, port) ∧
    (atoi port).any (fun p => (validPort p).isNone) = true :=
  ⟨"127.0.0.1", "25565", by decide, by decide⟩

theorem validateTunnel_first (env : SetupEnv) (pf : Platform) :
    validateTunnel pf 0 [] [] (firstTunnel env localAddr publicPort) = [] ↔
      ValidTarget localAddr publicPort := by
  have hport : (publicPort = 0 ∨ validPort publicPort = none) ↔
      validPort (firstTunnel env localAddr publicPort).publicPort = none := by
    simp only [firstTunnel]
    split
    · rename_i h
      exact iff_of_true (.inl h) (by decide)
    · rename_i h
      exact or_iff_right h
  have haddr : (localAddr = "" ∨ ∃ host port, splitHostPort localAddr = .ok (host, port) ∧
        (atoi port).any (fun p => (validPort p).isNone) = true) ↔
      ∃ host port,
        splitHostPort (firstTunnel env localAddr publicPort).localAddr = .ok (host, port) ∧
        (atoi port).any (fun p => (validPort p).isNone) = true := by
    simp only [firstTunnel]
    split
    · rename_i h
      exact iff_of_true (.inl h) defaultLocalAddr_valid
    · rename_i h
      exact or_iff_right h
  have hid : (firstTunnel env localAddr publicPort).id ≠ "" := newID_ne env.tunnelID
  have htcp : (firstTunnel env localAddr publicPort).type ≠ tunnelUDP := by
    change tunnelTCP ≠ tunnelUDP
    decide
  rw [ValidTarget, hport, haddr]
  simp only [validateTunnel, List.append_eq_nil_iff, if_neg hid, if_neg htcp]
  constructor
  · rintro ⟨⟨⟨⟨⟨-, -⟩, ha⟩, hp⟩, -⟩, -⟩
    constructor
    · split at ha
      · cases ha
      · rename_i host port h
        exact ⟨host, port, h, not_not.1 (check_eq_nil.1 ha)⟩
    · split at hp
      · cases hp
      · assumption
  · rintro ⟨⟨host, port, h, hany⟩, hp⟩
    refine ⟨⟨⟨⟨⟨check_eq_nil.2 List.not_mem_nil, check_eq_nil.2 fun h => h.1 rfl⟩, ?_⟩, ?_⟩,
      trivial⟩, rfl⟩
    · rw [h]
      exact check_eq_nil.2 (not_not.2 hany)
    · rw [hp]
      exact check_eq_nil.2 fun h => List.not_mem_nil h.2

namespace Config

variable {env : SetupEnv} {pf : Platform} {c : Config}

theorem validate_paired (hvalid : c.validate pf = []) :
    (c.paired env code localAddr publicPort).validate pf = [] ↔
      validateAgent pf (c.agent.paired env code localAddr publicPort) = [] := by
  simp only [validate, List.append_eq_nil_iff] at hvalid
  obtain ⟨⟨⟨⟨⟨⟨⟨-, -⟩, -⟩, hlevel⟩, htheme⟩, hmetrics⟩, hdays⟩, hgeo⟩ := hvalid
  have hgateway : (if roleAgent = roleGateway then validateGateway pf c.gateway else []) = [] :=
    if_neg (by decide)
  simp only [validate, paired, List.append_eq_nil_iff, if_true]
  constructor
  · intro h
    exact h.1.1.1.1.1.1.2
  · intro h
    exact ⟨⟨⟨⟨⟨⟨⟨check_eq_nil.2 (by decide), h⟩, hgateway⟩, hlevel⟩, htheme⟩, hmetrics⟩, hdays⟩,
      hgeo⟩

end Config

namespace AgentConfig

variable {env : SetupEnv} {pf : Platform} {c : AgentConfig} {code : PairingCode}

theorem validate_paired (hc : code.Complete) :
    validateAgent pf (c.paired env code localAddr publicPort) = [] ↔
      isEnrollTicket code.token = false ∧
      c.transport ∈ [transportMux, transportPerConn, transportQUIC, transportAuto] ∧
      TunnelsPass pf c.tunnels localAddr publicPort := by
  have htunnels : validateTunnels pf 0 [] [] (c.paired env code localAddr publicPort).tunnels = [] ↔
      TunnelsPass pf c.tunnels localAddr publicPort := by
    simp only [paired, TunnelsPass]
    split
    · rw [validateTunnels, validateTunnels, List.append_nil]
      exact validateTunnel_first env pf
    · exact Iff.rfl
  have htoken : (if isEnrollTicket code.token then "" else code.token) ≠ "" ↔
      isEnrollTicket code.token = false := by
    cases isEnrollTicket code.token with
    | true => exact iff_of_false (fun h => h rfl) nofun
    | false => exact iff_of_true hc.token rfl
  have hfingerprint : ¬(code.fingerprint ≠ "" ∧
    ¬"sha256:".toList.isPrefixOf code.fingerprint.toList = true) :=
    fun h => h.2 hc.fingerprint
  simp only [validateAgent, List.append_eq_nil_iff, check_eq_nil, wrap_eq_nil, htunnels]
  simp only [paired, not_not]
  constructor
  · rintro ⟨⟨⟨⟨⟨-, -⟩, ht⟩, -⟩, htransport⟩, hpass⟩
    exact ⟨htoken.1 ht, htransport, hpass⟩
  · rintro ⟨ht, htransport, hpass⟩
    exact ⟨⟨⟨⟨⟨hc.host, hc.port⟩, htoken.2 ht⟩, hfingerprint⟩, htransport⟩, hpass⟩

theorem paired_eq_iff (hlegacy : isEnrollTicket code.token = false) :
    c.paired env code localAddr publicPort = c ↔ c.PairedWith code := by
  constructor
  · intro h
    have hid : (if c.agentID = "" then newID env.agentID else c.agentID) = c.agentID :=
      congrArg AgentConfig.agentID h
    have htunnels : (if c.tunnels = [] then [firstTunnel env localAddr publicPort] else c.tunnels) =
        c.tunnels := congrArg AgentConfig.tunnels h
    have htoken : (if isEnrollTicket code.token then "" else code.token) = c.token :=
      congrArg AgentConfig.token h
    have hticket : (if isEnrollTicket code.token then code.token else "") = c.enrollTicket :=
      congrArg AgentConfig.enrollTicket h
    rw [if_neg (ne_true_of_eq_false hlegacy)] at htoken hticket
    exact {
      agentID := fun hempty => newID_ne env.agentID (by rwa [if_pos hempty, hempty] at hid)
      host := (congrArg AgentConfig.gatewayHost h).symm
      port := (congrArg AgentConfig.gatewayPort h).symm
      token := htoken.symm
      fingerprint := (congrArg AgentConfig.certFingerprint h).symm
      ticket := hticket.symm
      tunnels := fun hempty => List.cons_ne_nil _ _ (by rwa [if_pos hempty, hempty] at htunnels) }
  · intro h
    have hlegacy := ne_true_of_eq_false hlegacy
    rw [paired, if_neg h.agentID, if_neg h.tunnels, if_neg hlegacy, if_neg hlegacy, ← h.host,
      ← h.port, ← h.token, ← h.fingerprint, ← h.ticket]

end AgentConfig

namespace Config

theorem paired_valid_iff {pf : Platform} {c : Config} (hvalid : c.validate pf = [])
    (hc : code.Complete) :
    (c.paired env code localAddr publicPort).validate pf = [] ↔
      isEnrollTicket code.token = false ∧
      c.agent.transport ∈ [transportMux, transportPerConn, transportQUIC, transportAuto] ∧
      TunnelsPass pf c.agent.tunnels localAddr publicPort :=
  (validate_paired hvalid).trans (AgentConfig.validate_paired hc)

theorem paired_eq_iff {c : Config} (hlegacy : isEnrollTicket code.token = false) :
    c.paired env code localAddr publicPort = c ↔ c.role = roleAgent ∧ c.agent.PairedWith code := by
  have hagent : c.agent.paired env code localAddr publicPort = c.agent ↔ c.agent.PairedWith code :=
    AgentConfig.paired_eq_iff hlegacy
  rw [← hagent]
  constructor
  · intro h
    exact ⟨(congrArg Config.role h).symm, congrArg Config.agent h⟩
  · rintro ⟨hrole, hagent⟩
    rw [paired, hagent, ← hrole]

theorem save_valid {pf : Platform} {c : Config} (h : c.validate pf = []) (ioError : Option String) :
    c.save pf ioError = ioError := by
  rw [save, validationError, h]

theorem save_invalid {pf : Platform} {c : Config} (h : c.validate pf ≠ [])
    (ioError : Option String) :
    c.save pf ioError ≠ none := by
  rw [save, validationError]
  split
  · exact nofun
  · rename_i hnone
    split at hnone
    · contradiction
    · cases hnone

end Config

namespace SetupApp

variable {env : SetupEnv} {app : SetupApp}

theorem startEngineLocked_config (app : SetupApp) : app.startEngineLocked.config = app.config := by
  unfold startEngineLocked
  split <;> rfl

theorem startEngineLocked_saved (app : SetupApp) : app.startEngineLocked.saved = app.saved := by
  unfold startEngineLocked
  split <;> rfl

theorem stopEngineLocked_config (app : SetupApp) : app.stopEngineLocked.config = app.config := by
  unfold stopEngineLocked
  split <;> rfl

theorem stopEngineLocked_eng (app : SetupApp) : app.stopEngineLocked.eng = none := by
  unfold stopEngineLocked
  split
  · assumption
  · rfl

theorem stopEngineLocked_of_none (h : app.eng = none) : app.stopEngineLocked = app := by
  rw [stopEngineLocked, h]

/-- The call stops the engine and assigns the config before it saves. -/
def unsaved (app : SetupApp) (cfg : Config) : SetupApp :=
  { app.stopEngineLocked with toApp := app.stopEngineLocked.toApp.assign cfg }

theorem unsaved_config (app : SetupApp) (cfg : Config) : (app.unsaved cfg).config = cfg :=
  App.config_assign _ cfg

theorem unsaved_eq_iff (app : SetupApp) (cfg : Config) :
    app.unsaved cfg = app ↔ app.eng = none ∧ cfg = app.config := by
  constructor
  · intro h
    have heng : (app.unsaved cfg).eng = none := app.stopEngineLocked_eng
    have hconfig := app.unsaved_config cfg
    rw [h] at heng hconfig
    exact ⟨heng, hconfig.symm⟩
  · rintro ⟨heng, rfl⟩
    rw [unsaved, stopEngineLocked_of_none heng, App.assign]
    exact congrArg (fun heap => { app with heap := heap })
      (Function.update_eq_self app.cfg app.heap)

theorem setupAgent_accepted (hcode : parsePairingCode env.parse env.pf s = .ok code)
    (hmode : app.mode ≠ .attached) (localAddr : String) (publicPort : Int) :
    app.setupAgent env s localAddr publicPort =
      let cfg := app.config.paired env code localAddr publicPort
      match cfg.save env.pf env.ioError with
      | some err => (some err, app.unsaved cfg)
      | none => (none, { app.unsaved cfg with saved := some cfg }.startEngineLocked) := by
  rw [setupAgent, hcode]
  simp only [if_neg hmode, stopEngineLocked_config, unsaved]

theorem setsUp_accepted (hvalid : app.config.validate env.pf = [])
    (hcode : parsePairingCode env.parse env.pf s = .ok code) (hmode : app.mode ≠ .attached) :
    app.SetsUp env s localAddr publicPort ↔ app.Accepts env code localAddr publicPort := by
  have hpaired : (app.config.paired env code localAddr publicPort).validate env.pf = [] ↔ _ :=
    Config.paired_valid_iff hvalid (parsePairingCode_ok hcode)
  rw [SetsUp, setupAgent_accepted hcode hmode]
  generalize hcfg : app.config.paired env code localAddr publicPort = cfg at hpaired ⊢
  by_cases hpass : cfg.validate env.pf = []
  · obtain ⟨hlegacy, htransport, htunnels⟩ := hpaired.1 hpass
    have hsame : app.unsaved cfg = app ↔ app.eng = none ∧ app.config.role = roleAgent ∧
        app.config.agent.PairedWith code := by
      rw [unsaved_eq_iff, ← hcfg, Config.paired_eq_iff hlegacy]
    simp only [Config.save_valid hpass]
    cases hio : env.ioError with
    | none =>
      refine iff_of_true ⟨fun _ _ => ?_, fun h => absurd rfl h⟩ ⟨hlegacy, htransport, htunnels,
        .inl hio⟩
      have hconfig : ({ app.unsaved cfg with saved := some cfg }.startEngineLocked).config = cfg :=
        (startEngineLocked_config _).trans (app.unsaved_config cfg)
      simp only [hconfig]
      exact ⟨hpass, fun _ _ => ⟨trivial, startEngineLocked_saved _⟩⟩
    | some err =>
      constructor
      · intro h
        exact ⟨hlegacy, htransport, htunnels, .inr (hsame.1 (h.2 nofun))⟩
      · intro h
        refine ⟨fun _ _ => ⟨(congrArg (Config.validate env.pf) (app.unsaved_config cfg)).trans
          hpass, nofun⟩, fun _ => hsame.2 ?_⟩
        exact h.io.resolve_left (by rw [hio]; exact nofun)
  · refine iff_of_false ?_ fun h => hpass (hpaired.2 ⟨h.legacy, h.transport, h.tunnels⟩)
    rintro ⟨-, hunchanged⟩
    obtain ⟨err, herr⟩ := Option.ne_none_iff_exists'.1 (Config.save_invalid hpass env.ioError)
    simp only [herr] at hunchanged
    have heq := ((app.unsaved_eq_iff cfg).1 (hunchanged nofun)).2
    exact hpass (heq ▸ hvalid)

end SetupApp

/-- A call keeps its promise if and only if the code is refused, a daemon runs, or the code is a
legacy one and what it leaves alone is valid; a failing disk must find nothing to undo. -/
theorem setup_agent_iff (env : SetupEnv) (app : SetupApp) (hvalid : app.config.validate env.pf = [])
    (pairingCode localAddr : String) (publicPort : Int) :
    app.SetsUp env pairingCode localAddr publicPort ↔
      ∀ code, parsePairingCode env.parse env.pf pairingCode = .ok code →
        app.mode = .attached ∨ app.Accepts env code localAddr publicPort := by
  cases hcode : parsePairingCode env.parse env.pf pairingCode with
  | error err =>
    have hresult : app.setupAgent env pairingCode localAddr publicPort = (some err, app) := by
      rw [SetupApp.setupAgent, hcode]
    rw [SetupApp.SetsUp, hresult, hcode]
    exact iff_of_true ⟨fun h => absurd h.choose_spec nofun, fun _ => rfl⟩ nofun
  | ok code =>
    simp only [Except.ok.injEq, forall_eq']
    by_cases hmode : app.mode = .attached
    · have hresult : (app.setupAgent env pairingCode localAddr publicPort).2 = app := by
        rw [SetupApp.setupAgent, hcode]
        exact congrArg Prod.snd (if_pos hmode)
      rw [SetupApp.SetsUp]
      simp only [hresult]
      exact iff_of_true ⟨fun _ _ => ⟨hvalid, fun h => absurd hmode h⟩, fun _ => trivial⟩
        (.inl hmode)
    · rw [SetupApp.setsUp_accepted hvalid hcode hmode]
      exact (or_iff_right hmode).symm

/-- The parts of a URL that has no escapes, user or query. -/
def plainUrl (s : String) : Except String Url :=
  let scheme := s.toList.takeWhile (· ≠ ':')
  let rest := s.toList.drop (scheme.length + 3)
  let front := rest.takeWhile (· ≠ '#')
  let host := front.takeWhile (· ≠ '/')
  .ok ⟨String.ofList scheme, String.ofList host, String.ofList (front.drop host.length),
    String.ofList (rest.drop (front.length + 1))⟩

/-- A machine with plain URLs and a disk that works. -/
def plainSetup : SetupEnv where
  parse := plainUrl
  pf := plainPlatform
  agentID := Vector.replicate 16 1
  tunnelID := Vector.replicate 16 2
  ioError := none

/-- The config of a first run. -/
def defaultConfig : Config where
  role := roleUnset
  agent := ⟨"", "", 8474, "", "", transportAuto, [], ""⟩
  gateway := ⟨⟨"0.0.0.0", []⟩, 8474, "", 4096, 32, 10⟩
  metrics := ⟨false, "127.0.0.1:9464"⟩
  loggingLevel := "info"
  uiTheme := "dark"
  analytics := ⟨180, "", ""⟩

/-- The wizard of a first run. -/
def wizardApp : SetupApp := ⟨App.new (fun _ => defaultConfig) 0, .wizard, none⟩

def codeWith (token : String) : String :=
  "pxf://gw.example:8474/v1/pair/" ++ token ++ "#sha256:" ++ String.ofList (List.replicate 64 '0')

theorem setup_agent_iff_wizard :
    wizardApp.SetsUp plainSetup (codeWith "c0ffee") "" 0 ↔
      ∀ code, parsePairingCode plainSetup.parse plainSetup.pf (codeWith "c0ffee") = .ok code →
        wizardApp.mode = .attached ∨ wizardApp.Accepts plainSetup code "" 0 :=
  setup_agent_iff plainSetup wizardApp (by decide +kernel) (codeWith "c0ffee") "" 0

/-- A ticket is accepted, and leaves an agent without the token that every agent needs. -/
theorem ticket_refused_by_save :
    ¬∀ (env : SetupEnv) (app : SetupApp) (pairingCode localAddr : String) (publicPort : Int),
      app.config.validate env.pf = [] → app.SetsUp env pairingCode localAddr publicPort := by
  intro h
  have hsets := h plainSetup wizardApp (codeWith "tkt_c0ffee") "" 0 (by decide +kernel)
  have hcode : parsePairingCode plainSetup.parse plainSetup.pf (codeWith "tkt_c0ffee") =
      .ok ⟨"gw.example", 8474, "tkt_c0ffee",
        "sha256:" ++ String.ofList (List.replicate 64 '0')⟩ := by
    decide +kernel
  have hmode : wizardApp.mode ≠ .attached := by
    intro hattached
    cases hattached
  obtain ⟨hvalid, -⟩ := hsets.1 ⟨_, hcode⟩ ⟨.inl rfl, .inl rfl⟩
  rw [SetupApp.setupAgent_accepted hcode hmode] at hvalid
  revert hvalid
  decide +kernel

end ProxyForward

import ProxyForward.Config
import ProxyForward.HotApply
import ProxyForward.Bwcap

namespace ProxyForward
set_option autoImplicit true

/-- A reference to a config object. -/
abbrev ConfigRef := Nat

/-- The session that an agent has published, with the number of its last whole-set frame. -/
structure LiveSession where
  sess : AgentSession
  syncSeq : Nat
  deriving DecidableEq, Repr

/-- The agent object. Its tunnels are those of the config it refers to. -/
structure AgentObject where
  cfg : ConfigRef
  configGen : Nat
  publicPorts : GoMap Int
  localUp : GoMap Bool
  bwLimiters : GoMap LimiterSet
  curSession : Option LiveSession

/-- The engine object, with the agent it runs if its role is that of an agent. -/
structure Engine where
  cfg : ConfigRef
  agent : Option AgentObject

/-- The app, with the config objects of the process. -/
structure App where
  heap : ConfigRef → Config
  cfg : ConfigRef
  eng : Option Engine

def forgetAll (m : GoMap V) (ids : List String) : GoMap V := ids.foldl (fun m i => m.erase i) m

namespace AgentObject

def new (cfg : ConfigRef) : AgentObject := ⟨cfg, 0, ∅, ∅, ∅, none⟩

/-- The agent of the control session model, with the tunnels that the config object holds. -/
def view (a : AgentObject) (heap : ConfigRef → Config) : Agent :=
  ⟨(heap a.cfg).agent.tunnels, a.configGen, a.publicPorts⟩

/-- Forget the state of tunnels. -/
def forget (a : AgentObject) (ids : List String) : AgentObject :=
  { a with
    publicPorts := forgetAll a.publicPorts ids
    localUp := forgetAll a.localUp ids
    bwLimiters := forgetAll a.bwLimiters ids }

/-- A registered tunnel has no confirmed port until its answer. -/
def unconfirm (a : AgentObject) : AgentFrame → AgentObject
  | .register spec => { a with publicPorts := a.publicPorts.erase spec.id }
  | _ => a

/-- Replace the tunnel set: the old one is read from the config object, which gets the new one. The
frames are what the session is sent. -/
def applyTunnels (a : AgentObject) (heap : ConfigRef → Config) (tunnels : List Tunnel) :
    List AgentFrame × AgentObject × (ConfigRef → Config) :=
  let old := (heap a.cfg).agent.tunnels
  let heap := Function.update heap a.cfg ((heap a.cfg).withTunnels tunnels)
  let a := a.forget ((enabledByID old).keys.filter fun i => i ∉ (enabledByID tunnels).keys)
  match a.curSession with
  | none => ([], a, heap)
  | some s =>
    if s.sess.has capGatewayConfig then
      ([.proposeConfig (enabledSpecs tunnels) a.configGen], a, heap)
    else if s.sess.has capTunnelSync then
      ([.syncTunnels ⟨s.syncSeq + 1, enabledSpecs tunnels⟩],
        { a with curSession := some { s with syncSeq := s.syncSeq + 1 } }, heap)
    else
      let frames := hotApplyFrames old tunnels
      (frames, frames.foldl unconfirm a, heap)

/-- Apply the gateway's authoritative set to the config object. -/
def applyPushedConfig (a : AgentObject) (heap : ConfigRef → Config) (specs : List TunnelSpec)
    (generation : Nat) : AgentObject × (ConfigRef → Config) :=
  let old := (heap a.cfg).agent.tunnels
  let a : AgentObject := { a with
    configGen := generation
    publicPorts := Agent.publish a.publicPorts (specs.map fun spec => (spec.id, spec.publicPort)) }
  (a.forget (((old.filter (·.enabled)).map (·.id)).filter fun i => i ∉ specs.map (·.id)),
    Function.update heap a.cfg ((heap a.cfg).withTunnels (mergeTunnels old specs)))

end AgentObject

namespace Engine

/-- `none` where no role is configured. -/
def new (heap : ConfigRef → Config) (cfg : ConfigRef) : Option Engine :=
  if (heap cfg).role = roleAgent then some ⟨cfg, some (.new cfg)⟩
  else if (heap cfg).role = roleGateway then some ⟨cfg, none⟩
  else none

end Engine

namespace App

def new (heap : ConfigRef → Config) (cfg : ConfigRef) : App := ⟨heap, cfg, none⟩

def config (app : App) : Config := app.heap app.cfg

def agent? (app : App) : Option AgentObject := app.eng.bind (·.agent)

def withAgent (app : App) (a : AgentObject) : App :=
  { app with eng := app.eng.map fun e => { e with agent := some a } }

/-- Change the running agent. -/
def onAgent (app : App) (f : AgentObject → AgentObject) : App :=
  match app.agent? with
  | some a => app.withAgent (f a)
  | none => app

/-- The engine runs on the config object of the app. -/
def startEngineLocked (app : App) : App :=
  match Engine.new app.heap app.cfg with
  | some eng => { app with eng := some eng }
  | none => app

def stopEngineLocked (app : App) : App := { app with eng := none }

def assign (app : App) (c : Config) : App :=
  { app with heap := Function.update app.heap app.cfg c }

/-- Validate and persist a tunnel set, and apply it to a live agent. The result is the error, the
frames that the agent wrote, and the app afterwards. -/
def saveTunnels (pf : Platform) (app : App) (tunnels : List Tunnel) (ioError : Option String) :
    Option String × List AgentFrame × App :=
  let trial := app.config.withTunnels tunnels
  match trial.validationError pf with
  | some err => (some err, [], app)
  | none =>
    let app := app.assign (app.config.withTunnels tunnels)
    match app.config.save pf ioError with
    | some err => (some err, [], app)
    | none =>
      match app.agent? with
      | some a =>
        let (frames, a, heap) := a.applyTunnels app.heap tunnels
        (none, frames, { app with heap := heap }.withAgent a)
      | none => (none, [], app)

theorem saveTunnels_set {pf : Platform} {app : App} {tunnels : List Tunnel}
    {ioError : Option String} (hrole : app.config.role = roleAgent)
    (h : (app.saveTunnels pf tunnels ioError).1 = none) :
    ∃ set : TunnelSet, set.tunnels = tunnels := by
  have hvalid : (app.config.withTunnels tunnels).validate pf = [] := by
    cases herr : (app.config.withTunnels tunnels).validationError pf with
    | some err =>
      simp only [saveTunnels, herr] at h
      cases h
    | none =>
      unfold Config.validationError at herr
      split at herr
      · assumption
      · cases herr
  exact ⟨(app.config.withTunnels tunnels).tunnelSet pf hrole hvalid, rfl⟩

/-- Persist settings edits into the config object. -/
def saveSettings (pf : Platform) (app : App) (cfg : Config) (ioError : Option String) :
    Option String × App :=
  match cfg.validationError pf with
  | some err => (some err, app)
  | none => (cfg.save pf ioError, app.assign cfg)

end App

/-- What happens to the app and the agent it runs: its own calls, sessions that come and go, and
what the agent learns about a tunnel. -/
inductive AppStep where
  | startEngine
  | stopEngine
  | connect (sess : AgentSession)
  | disconnect
  | pushed (specs : List TunnelSpec) (generation : Nat)
  | registered (tunnelID : String) (publicPort : Int)
  | probed (tunnelID : String) (up : Bool)
  | proxied (tunnelID : String) (mbps : Int) (scope : String)
  | saveTunnels (tunnels : List Tunnel) (ioError : Option String)
  | saveSettings (cfg : Config) (ioError : Option String)
  deriving DecidableEq, Repr

namespace App

def step (pf : Platform) (app : App) : AppStep → Option App
  | .startEngine => if app.eng.isSome then none else some app.startEngineLocked
  | .stopEngine => some app.stopEngineLocked
  | .connect sess => some (app.onAgent fun a => { a with curSession := some ⟨sess, 0⟩ })
  | .disconnect => some (app.onAgent fun a => { a with curSession := none, publicPorts := ∅ })
  | .pushed specs generation =>
    match app.agent? with
    | some a =>
      let (a, heap) := a.applyPushedConfig app.heap specs generation
      some ({ app with heap := heap }.withAgent a)
    | none => none
  | .registered tunnelID publicPort => some
    (app.onAgent fun a => { a with publicPorts := a.publicPorts.insert tunnelID publicPort })
  | .probed tunnelID up =>
    some (app.onAgent fun a => { a with localUp := a.localUp.insert tunnelID up })
  | .proxied tunnelID mbps scope => some
    (app.onAgent fun a => { a with
      bwLimiters := a.bwLimiters.insert tunnelID
        (reconcileSet (a.bwLimiters.lookup tunnelID) mbps scope).1 })
  | .saveTunnels tunnels ioError => some (app.saveTunnels pf tunnels ioError).2.2
  | .saveSettings cfg ioError => some (app.saveSettings pf cfg ioError).2

/-- App, engine and agent refer to one config object. -/
structure Shares (app : App) : Prop where
  engine : ∀ e ∈ app.eng, e.cfg = app.cfg
  agent : ∀ a ∈ app.agent?, a.cfg = app.cfg

end App

namespace AgentObject

variable {id : String}

theorem lookup_forgetAll (m : GoMap V) {ids : List String} (h : id ∈ ids ∨ m.lookup id = none) :
    (forgetAll m ids).lookup id = none := by
  induction ids generalizing m with
  | nil => exact h.resolve_left List.not_mem_nil
  | cons i is ih =>
    refine ih (m.erase i) ?_
    by_cases hi : id = i
    · subst hi
      exact .inr (AList.lookup_erase _ _)
    · rw [AList.lookup_erase_ne hi]
      exact h.imp_left fun hmem => (List.mem_cons.1 hmem).resolve_left hi

/-- Nothing is left of a tunnel's state. -/
def Forgot (a : AgentObject) (id : String) : Prop :=
  a.publicPorts.lookup id = none ∧ a.localUp.lookup id = none ∧ a.bwLimiters.lookup id = none

theorem forget_forgot (a : AgentObject) {ids : List String} (h : id ∈ ids) :
    (a.forget ids).Forgot id :=
  ⟨lookup_forgetAll _ (.inl h), lookup_forgetAll _ (.inl h), lookup_forgetAll _ (.inl h)⟩

theorem foldl_unconfirm (a : AgentObject) (frames : List AgentFrame) :
    (frames.foldl unconfirm a).cfg = a.cfg ∧
      ∀ id, a.Forgot id → (frames.foldl unconfirm a).Forgot id := by
  induction frames generalizing a with
  | nil => exact ⟨rfl, fun _ h => h⟩
  | cons f fs ih =>
    obtain ⟨hcfg, hforgot⟩ := ih (unconfirm a f)
    cases f with
    | register spec =>
      refine ⟨hcfg, fun id h => hforgot id ⟨?_, h.2⟩⟩
      by_cases hi : id = spec.id
      · subst hi
        exact AList.lookup_erase _ _
      · exact (AList.lookup_erase_ne hi).trans h.1
    | proposeConfig | configAck | syncTunnels | unregister => exact ⟨hcfg, hforgot⟩

theorem applyTunnels_forgets (a : AgentObject) (heap : ConfigRef → Config)
    (tunnels : List Tunnel) :
    (a.applyTunnels heap tunnels).2.1.cfg = a.cfg ∧
      ∀ id, Gone (heap a.cfg).agent.tunnels tunnels id →
        (a.applyTunnels heap tunnels).2.1.Forgot id := by
  have hforgot : ∀ id, Gone (heap a.cfg).agent.tunnels tunnels id →
      (a.forget ((enabledByID (heap a.cfg).agent.tunnels).keys.filter
        fun i => i ∉ (enabledByID tunnels).keys)).Forgot id :=
    fun id hid => a.forget_forgot (List.mem_filter.2 ⟨hid.1, decide_eq_true hid.2⟩)
  simp only [applyTunnels]
  split
  · exact ⟨rfl, hforgot⟩
  · split
    · exact ⟨rfl, hforgot⟩
    · split
      · exact ⟨rfl, hforgot⟩
      · obtain ⟨hcfg, hkeeps⟩ := foldl_unconfirm (a.forget _) (hotApplyFrames _ tunnels)
        exact ⟨hcfg, fun id hid => hkeeps id (hforgot id hid)⟩

theorem applyTunnels_frames (a : AgentObject) (heap : ConfigRef → Config) (tunnels : List Tunnel)
    (hs : a.curSession = some s) (c : ControlSession) (hagent : c.agent = a.view heap)
    (hseq : c.syncSeq = s.syncSeq) :
    (a.applyTunnels heap tunnels).1 = (c.applyTunnels s.sess tunnels).editing := by
  have hs' : (a.forget ((enabledByID (heap a.cfg).agent.tunnels).keys.filter
      fun i => i ∉ (enabledByID tunnels).keys)).curSession = some s := hs
  simp only [applyTunnels, hs', ControlSession.applyTunnels, hagent, hseq]
  split
  · rfl
  · split <;> rfl

end AgentObject

/-- The frames transform the gateway's registrations from the one list to the other, and nothing is
left with the agent of what is gone. -/
structure Delivered (old new : List Tunnel) (frames : List AgentFrame) (a : AgentObject) : Prop
    extends Transforms old new frames where
  forgotten : ∀ id, Gone old new id → a.Forgot id

namespace AgentObject

/-- On a session without whole-set frames, `ApplyTunnels` delivers the change from the list that it
reads to the list that it is given. -/
theorem applyTunnels_delivered (a : AgentObject) (heap : ConfigRef → Config)
    (tunnels : List Tunnel) (hs : a.curSession = some s)
    (hlegacy : s.sess.has capGatewayConfig = false ∧ s.sess.has capTunnelSync = false) :
    Delivered (heap a.cfg).agent.tunnels tunnels (a.applyTunnels heap tunnels).1
      (a.applyTunnels heap tunnels).2.1 := by
  have hframes : (a.applyTunnels heap tunnels).1 =
      hotApplyFrames (heap a.cfg).agent.tunnels tunnels := by
    have hs' : (a.forget ((enabledByID (heap a.cfg).agent.tunnels).keys.filter
        fun i => i ∉ (enabledByID tunnels).keys)).curSession = some s := hs
    simp only [applyTunnels, hs', hlegacy.1, hlegacy.2, Bool.false_eq_true, if_false]
  exact ⟨hframes ▸ hotApplyFrames_transforms _ _, (a.applyTunnels_forgets heap tunnels).2⟩

theorem applyTunnels_silent (a : AgentObject) (heap : ConfigRef → Config)
    (hs : a.curSession = some s) (hcap : s.sess.has capTunnelSync = false) :
    (∀ id, .unregister id ∉ (a.applyTunnels heap (heap a.cfg).agent.tunnels).1) ∧
      ∀ spec, .register spec ∉ (a.applyTunnels heap (heap a.cfg).agent.tunnels).1 := by
  have hs' : (a.forget ((enabledByID (heap a.cfg).agent.tunnels).keys.filter
      fun i => i ∉ (enabledByID (heap a.cfg).agent.tunnels).keys)).curSession = some s := hs
  simp only [applyTunnels, hs', hcap, Bool.false_eq_true, if_false,
    hotApplyFrames_same (sameTunnels_self _)]
  split
  · exact ⟨fun _ h => AgentFrame.noConfusion (List.mem_singleton.1 h),
      fun _ h => AgentFrame.noConfusion (List.mem_singleton.1 h)⟩
  · exact ⟨fun _ => List.not_mem_nil, fun _ => List.not_mem_nil⟩

end AgentObject

namespace App

variable {pf : Platform} {app app' : App}

theorem agent?_withAgent (app : App) (h : app.agent? = some a) (a' : AgentObject) :
    (app.withAgent a').agent? = some a' := by
  obtain ⟨e, he, -⟩ := Option.bind_eq_some_iff.1 h
  rw [agent?, withAgent, he]
  rfl

theorem Shares.withAgent (h : app.Shares) {a : AgentObject} (ha : a.cfg = app.cfg) :
    (app.withAgent a).Shares := by
  constructor
  · intro e he
    obtain ⟨e₀, he₀, rfl⟩ := Option.map_eq_some_iff.1 he
    exact h.engine e₀ he₀
  · intro a' ha'
    obtain ⟨e, he, ha'⟩ := Option.bind_eq_some_iff.1 ha'
    obtain ⟨e₀, he₀, rfl⟩ := Option.map_eq_some_iff.1 he
    exact Option.some.inj ha' ▸ ha

theorem Shares.heap (h : app.Shares) (heap : ConfigRef → Config) :
    ({ app with heap := heap } : App).Shares := ⟨h.engine, h.agent⟩

theorem Shares.onAgent (h : app.Shares) {f : AgentObject → AgentObject}
    (hf : ∀ a, (f a).cfg = a.cfg) : (app.onAgent f).Shares := by
  rw [App.onAgent]
  split
  · rename_i a ha
    exact h.withAgent ((hf a).trans (h.agent a ha))
  · exact h

theorem Shares.startEngineLocked (h : app.Shares) : app.startEngineLocked.Shares := by
  rw [App.startEngineLocked]
  split
  · rename_i eng heng
    rw [Engine.new] at heng
    split at heng
    · cases heng
      exact ⟨fun e he => Option.some.inj he ▸ rfl, fun a ha => Option.some.inj ha ▸ rfl⟩
    · split at heng
      · cases heng
        exact ⟨fun e he => Option.some.inj he ▸ rfl, fun a ha => absurd ha (Option.not_mem_none _)⟩
      · cases heng
  · exact h

theorem Shares.assign (h : app.Shares) (c : Config) : (app.assign c).Shares :=
  h.heap (Function.update app.heap app.cfg c)

theorem config_assign (app : App) (c : Config) : (app.assign c).config = c :=
  Function.update_self _ _ _

theorem Shares.saveTunnels (h : app.Shares) (tunnels : List Tunnel) (ioError : Option String) :
    (app.saveTunnels pf tunnels ioError).2.2.Shares := by
  simp only [App.saveTunnels]
  split
  · exact h
  · split
    · exact h.assign _
    · split
      · rename_i a ha
        refine ((h.assign _).heap _).withAgent ?_
        exact (a.applyTunnels_forgets _ tunnels).1.trans (h.agent a ha)
      · exact h.assign _

theorem Shares.step (h : app.Shares) (hs : app.step pf l = some app') : app'.Shares := by
  cases l with
  | startEngine =>
    simp only [App.step] at hs
    split at hs
    · cases hs
    · cases hs
      exact h.startEngineLocked
  | stopEngine =>
    cases hs
    exact ⟨fun _ he => absurd he (Option.not_mem_none _),
      fun _ ha => absurd ha (Option.not_mem_none _)⟩
  | connect | disconnect | registered | probed | proxied =>
    cases hs
    exact h.onAgent fun _ => rfl
  | pushed specs generation =>
    simp only [App.step] at hs
    split at hs
    · rename_i a ha
      cases hs
      exact (h.heap _).withAgent (h.agent a ha)
    · cases hs
  | saveTunnels tunnels ioError =>
    cases hs
    exact h.saveTunnels tunnels ioError
  | saveSettings cfg ioError =>
    cases hs
    rw [App.saveSettings]
    split
    · exact h
    · exact h.assign cfg

theorem shares_new (heap : ConfigRef → Config) (cfg : ConfigRef) : (App.new heap cfg).Shares :=
  ⟨fun _ he => absurd he (Option.not_mem_none _), fun _ ha => absurd ha (Option.not_mem_none _)⟩

/-- Saving tunnels writes no register and no unregister: the agent reads the old list where the app
has just put the new one. -/
theorem Shares.saveTunnels_silent (h : app.Shares) (ha : app.agent? = some a)
    (hs : a.curSession = some s) (hcap : s.sess.has capTunnelSync = false)
    (tunnels : List Tunnel) (ioError : Option String) :
    let r := app.saveTunnels pf tunnels ioError
    (∃ a', r.2.2.agent? = some a') ∧ (∀ id, .unregister id ∉ r.2.1) ∧
      ∀ spec, .register spec ∉ r.2.1 := by
  simp only [App.saveTunnels]
  split
  · exact ⟨⟨a, ha⟩, fun _ => List.not_mem_nil, fun _ => List.not_mem_nil⟩
  · have ha' : (app.assign (app.config.withTunnels tunnels)).agent? = some a := ha
    split
    · exact ⟨⟨a, ha'⟩, fun _ => List.not_mem_nil, fun _ => List.not_mem_nil⟩
    · rw [ha']
      have hheld : ((app.assign (app.config.withTunnels tunnels)).heap a.cfg).agent.tunnels =
          tunnels := by
        rw [h.agent a ha]
        exact congrArg (·.agent.tunnels) (app.config_assign (app.config.withTunnels tunnels))
      have hsilent := a.applyTunnels_silent
        (app.assign (app.config.withTunnels tunnels)).heap hs hcap
      rw [hheld] at hsilent
      exact ⟨⟨_, agent?_withAgent { app with heap := _ } ha _⟩, hsilent⟩

end App

/-- A machine whose files and addresses are not looked at. -/
def plainPlatform : Platform := ⟨idleEnv.isPrint, fun _ => true, fun c => c = '/'⟩

/-- The config of a paired agent. -/
def pairedConfig (tunnels : List Tunnel) : Config where
  role := roleAgent
  agent := ⟨"a", "gw.example", 8474, "token", "", transportAuto, tunnels, ""⟩
  gateway := ⟨⟨"0.0.0.0", []⟩, 8474, "", 4096, 32, 10⟩
  metrics := ⟨false, "127.0.0.1:9464"⟩
  loggingLevel := "info"
  uiTheme := "dark"
  analytics := ⟨180, "", ""⟩

/-- A session of agent `a` with an old gateway. -/
def legacySession : AgentSession := { AgentSession.plain 1 "a" with caps := [] }

/-- The app of a paired agent with tunnel `t` on port 8080, running and connected. -/
def connectedApp : App where
  heap _ := pairedConfig (oneTunnel "t" 8080).tunnels
  cfg := 0
  eng := some ⟨0, some { AgentObject.new 0 with curSession := some ⟨legacySession, 0⟩ }⟩

theorem connectedApp_reached : Runs.Reaches (App.step plainPlatform)
    (App.new (fun _ => pairedConfig (oneTunnel "t" 8080).tunnels) 0)
    [.startEngine, .connect legacySession] connectedApp :=
  .cons rfl (.cons rfl (.nil _))

/-- Along every run of the app, whatever its agent holds: a save of tunnels on a live session
without whole-set frames reaches the gateway exactly when no enabled tunnel is gone, new or
changed. -/
theorem saved_tunnels_delivered_iff (pf : Platform) (heap : ConfigRef → Config) (cfg : ConfigRef)
    (app : App) (steps : List AppStep)
    (hr : Runs.Reaches (App.step pf) (App.new heap cfg) steps app)
    (ha : app.agent? = some a) (hs : a.curSession = some s)
    (hcap : s.sess.has capTunnelSync = false) (new : List Tunnel) (ioError : Option String) :
    ∃ a', (app.saveTunnels pf new ioError).2.2.agent? = some a' ∧
      (Delivered app.config.agent.tunnels new (app.saveTunnels pf new ioError).2.1 a' ↔
        SameTunnels app.config.agent.tunnels new) := by
  have hshares : app.Shares :=
    hr.invariant (fun _ _ _ h hstep => App.Shares.step h hstep) (App.shares_new heap cfg)
  obtain ⟨⟨a', ha'⟩, hun, hreg⟩ := hshares.saveTunnels_silent ha hs hcap new ioError
  refine ⟨a', ha', fun h => (transforms_iff_of_silent hun hreg).1 h.toTransforms, fun h => ?_⟩
  exact ⟨(transforms_iff_of_silent hun hreg).2 h, fun id hgone => absurd hgone (h.1 id)⟩

theorem saved_tunnels_delivered_connected :
    ∃ a', (connectedApp.saveTunnels plainPlatform [] none).2.2.agent? = some a' ∧
      (Delivered connectedApp.config.agent.tunnels []
          (connectedApp.saveTunnels plainPlatform [] none).2.1 a' ↔
        SameTunnels connectedApp.config.agent.tunnels []) :=
  saved_tunnels_delivered_iff plainPlatform _ 0 connectedApp _ connectedApp_reached rfl rfl
    (by decide) [] none

/-- A tunnel that is taken out stays registered: the save succeeds, and nothing is written. -/
theorem removed_tunnel_stays_registered :
    Runs.Reaches (App.step plainPlatform)
        (App.new (fun _ => pairedConfig (oneTunnel "t" 8080).tunnels) 0)
        [.startEngine, .connect legacySession] connectedApp ∧
      connectedApp.config.validate plainPlatform = [] ∧
      (connectedApp.config.withTunnels []).validate plainPlatform = [] ∧
      (connectedApp.saveTunnels plainPlatform [] none).1 = none ∧
      ∀ a, ¬Delivered connectedApp.config.agent.tunnels []
        (connectedApp.saveTunnels plainPlatform [] none).2.1 a := by
  refine ⟨connectedApp_reached, by decide, by decide, by decide, fun a h => ?_⟩
  have hone := h.unregisters "t" ⟨by decide, by decide⟩
  have hnone : (connectedApp.saveTunnels plainPlatform [] none).2.1 = [] := by decide
  rw [hnone] at hone
  exact absurd hone zero_ne_one

end ProxyForward

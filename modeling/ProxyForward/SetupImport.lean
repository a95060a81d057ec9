import ProxyForward.SetupAgent
import ProxyForward.SetupFile
import ProxyForward.Validation

namespace ProxyForward
set_option autoImplicit true

def agentStoreFile : String := "gateway_agents.json"
def identityFile : String := "agent_identity.key"

/-- The setup libraries with those that the loaders use: the certificate of a key pair, the digests
of a certificate and of a public key, the signature check, and the parsers of the agent store and of
an identity key. A key pair that parses is not empty. -/
structure LoaderLibs (Content Payload Cipher Document : Type) extends
    SetupLibs Content Payload Cipher Document where
  x509KeyPair : Content → Content → Except String Bytes
  certFingerprint : Bytes → String
  keyFingerprint : PubKey → String
  verify : PubKey → String → String → Bool
  parseStore : Content → Except String StoreFile
  parseIdentity : Content → Except String PubKey
  keyPair_nonempty : ∀ crt key der, x509KeyPair crt key = .ok der →
    isEmpty crt = false ∧ isEmpty key = false

def defaultSetupConfig : SetupConfig where
  toConfig := defaultConfig
  publicHost := ""
  acceptSharedToken := true

namespace LoaderLibs

variable {Content Payload Cipher Document : Type}
    (libs : LoaderLibs Content Payload Cipher Document)

def loadConfig (pf : Platform) (dir : Files Content) : Except String SetupConfig :=
  match dir.lookup fileConfig with
  | none => .ok defaultSetupConfig
  | some data =>
    match libs.unmarshalConfig data with
    | .error err => .error ("parse " ++ fileConfig ++ ": " ++ err)
    | .ok cfg =>
      match cfg.validationError pf with
      | some err => .error ("invalid config " ++ fileConfig ++ ": " ++ err)
      | none => .ok cfg

/-- The fingerprint of the gateway's certificate. `generated` is the pair that a first run makes. -/
def loadOrCreateCert (dir : Files Content) (generated : Content × Content) :
    Except String (String × Files Content) :=
  match dir.lookup fileCert, dir.lookup fileKey with
  | some crt, some key =>
    match libs.x509KeyPair crt key with
    | .ok der => .ok (libs.certFingerprint der, dir)
    | .error err => .error ("load gateway cert: " ++ err)
  | _, _ =>
    match libs.x509KeyPair generated.1 generated.2 with
    | .ok der => .ok (libs.certFingerprint der,
        (dir.insert fileKey generated.2).insert fileCert generated.1)
    | .error err => .error ("parse generated cert: " ++ err)

/-- The allowlist, which is empty where there is none yet. -/
def loadAgentStore (dir : Files Content) : Except String AgentStore :=
  match dir.lookup agentStoreFile with
  | none => .ok AgentStore.empty
  | some data =>
    match libs.parseStore data with
    | .error err => .error ("parse agent store " ++ agentStoreFile ++ ": " ++ err)
    | .ok f => .ok ⟨f.agents.foldl (fun m r => m.insert r.pubKey r) ∅, f.nonces, some f⟩

/-- The public half of the agent's identity. `generated` is the key that a first run makes. -/
def loadOrCreateIdentity (dir : Files Content) (generated : PubKey × Content) :
    Except String PubKey × Files Content :=
  match dir.lookup identityFile with
  | some pem =>
    match libs.parseIdentity pem with
    | .ok pub => (.ok pub, dir)
    | .error err => (.error err, dir)
  | none => (.ok generated.1, dir.insert identityFile generated.2)

/-- The credentials of a gateway with this config and certificate. -/
def authority (cfg : SetupConfig) (certFP : String) : Authority where
  sharedToken := if cfg.acceptSharedToken then some cfg.gateway.token else none
  certFP := certFP
  fingerprint := libs.keyFingerprint
  verify := libs.verify

/-- What a gateway validates hellos with after it started from a directory. -/
def startGateway (pf : Platform) (dir : Files Content) (generated : Content × Content) :
    Except String (Authority × AgentStore) :=
  match libs.loadConfig pf dir with
  | .error err => .error err
  | .ok cfg =>
    match libs.loadOrCreateCert dir generated with
    | .error err => .error err
    | .ok (certFP, dir) =>
      match libs.loadAgentStore dir with
      | .error err => .error err
      | .ok store => .ok (libs.authority cfg certFP, store)

end LoaderLibs

/-- Every enrolled key has signed this gateway's message. -/
def AgentStore.Signed (s : AgentStore) (auth : Authority) : Prop :=
  ∀ key r, s.lookup key = some r → ∃ sig, auth.verifyAgentAuth key sig = true

theorem AgentStore.Signed.mutate {s : AgentStore} (hs : s.Signed auth)
    (hfn : ∀ r, (fn r).agentID = r.agentID) : (s.mutate i fn w).2.Signed auth := by
  intro key r h
  obtain ⟨r', hr', -⟩ := lookup_mutate_agentID hfn h
  exact hs key r' hr'

namespace Authority

variable {auth : Authority} {store store' : AgentStore}

theorem signed_compositeValidate (hs : store.Signed auth) (hello : Hello) (now : Int)
    (written : Bool) :
    (auth.compositeValidate store hello now written).2.Signed auth := by
  unfold compositeValidate
  split
  · exact hs
  · rename_i hu
    obtain ⟨hsig, -⟩ := validate_unknown hu
    rw [enroll_store]
    obtain ⟨-, e, he⟩ | ⟨n, -, -, he⟩ := AgentStore.enroll_cases store hello.agentPubKey
      (auth.agentID hello.agentPubKey) hello.enrollTicket now written
    · rw [he]
      exact hs
    · rw [he]
      intro key r hr
      rw [AgentStore.lookup_enrolled] at hr
      split at hr
      · rename_i hkey
        exact ⟨_, hkey ▸ hsig⟩
      · exact hs key r hr

theorem signed_manage (hs : store.Signed auth) (hop : op.enrolls = false) (written : Bool) :
    (store.exec written op).2.Signed auth := by
  cases op with
  | enroll => cases hop
  | issueEnrollment ticket reusable exp scope =>
    simp only [AgentStore.exec, AgentStore.issueEnrollment]
    intro key r h
    rw [AgentStore.lookup_save] at h
    exact hs key r h
  | revoke | rename | setScope | adoptConfig =>
    rw [AgentStore.exec_edits rfl]
    exact hs.mutate fun _ => rfl

/-- A call of a gateway's life, with the shared token that it accepts then. -/
def lifeStep (auth : Authority) (store : AgentStore) (call : Option String × AuthCall) :
    Option AgentStore :=
  { auth with sharedToken := call.1 }.authStep store call.2

theorem life_invariant (hr : Runs.Reaches auth.lifeStep AgentStore.empty calls store) :
    store.Keyed auth ∧ store.Signed auth := by
  refine hr.invariant (I := fun s => s.Keyed auth ∧ s.Signed auth) ?_ ⟨empty_keyed auth, nofun⟩
  rintro s ⟨token, call⟩ t ⟨hk, hs⟩ hstep
  have hk' : s.Keyed { auth with sharedToken := token } := ⟨hk.derived, hk.unique⟩
  have hkeyed := keyed_authStep hk' hstep
  refine ⟨⟨hkeyed.derived, hkeyed.unique⟩, ?_⟩
  cases call with
  | validate hello now written =>
    obtain rfl := Option.some.inj hstep
    have hs' : s.Signed { auth with sharedToken := token } := hs
    exact signed_compositeValidate hs' hello now written
  | manage op written =>
    simp only [lifeStep, authStep] at hstep
    split at hstep
    · cases hstep
    · rename_i hop
      obtain rfl := Option.some.inj hstep
      exact signed_manage hs (Bool.not_eq_true _ ▸ hop) written

theorem validate_empty (hello : Hello) (hkey : hello.agentPubKey ≠ "") (auth : Authority)
    (now : Int) (written : Bool) :
    ∃ err, (auth.compositeValidate AgentStore.empty hello now written).1 = auth.fallback hello err ∧
      (hello.enrollTicket = "" → err = .badToken) := by
  have hnone : AgentStore.empty.lookup hello.agentPubKey = none := rfl
  by_cases hsig : auth.verifyAgentAuth hello.agentPubKey hello.agentSig = true
  · by_cases hticket : hello.enrollTicket = ""
    · have hvalidate :
          auth.validate AgentStore.empty hello = .decided (auth.fallback hello .badToken) := by
        rw [validate, if_neg hkey, if_neg (not_not.2 hsig), hnone]
        exact if_pos hticket
      exact ⟨.badToken, by rw [compositeValidate, hvalidate], fun _ => rfl⟩
    · have hvalidate : auth.validate AgentStore.empty hello = .unknown := by
        rw [validate, if_neg hkey, if_neg (not_not.2 hsig), hnone]
        exact if_neg hticket
      refine ⟨.enroll .ticketUnknown, ?_, fun h => absurd h hticket⟩
      rw [compositeValidate, hvalidate]
      rfl
  · have hvalidate :
        auth.validate AgentStore.empty hello = .decided (auth.fallback hello .badToken) := by
      rw [validate, if_neg hkey, if_pos hsig]
    exact ⟨.badToken, by rw [compositeValidate, hvalidate], fun _ => rfl⟩

theorem fallback_none (h : auth.sharedToken = none) (hello : Hello) (err : ValidateError) :
    ∃ e, auth.fallback hello err = .error e := by
  unfold fallback
  rw [h]
  split <;> exact ⟨_, rfl⟩

theorem fallback_token (hello : Hello) (h : auth.sharedToken = some token)
    (hgiven : hello.token = token)
    (hne : token ≠ "") (hid : hello.agentID = "a") :
    auth.fallback hello .badToken = .ok ⟨"a", none, ⟨[], []⟩⟩ := by
  have hfallback : auth.fallback hello .badToken = match auth.sharedToken with
      | some token => if hello.token ≠ "" then sharedTokenValidate token hello else .error .badToken
      | none => .error .badToken := rfl
  have hnamed : ¬("a" : String) = "" := by decide
  have hderived : ¬isDerivedAgentID "a" = true := by decide
  rw [hfallback, h]
  simp only [hgiven]
  rw [if_pos hne, sharedTokenValidate, hid, if_neg (not_not.2 hgiven), if_neg hnamed,
    if_neg hderived]

theorem validate_enrolled (hello : Hello) (hkey : hello.agentPubKey ≠ "")
    (hsig : auth.verifyAgentAuth hello.agentPubKey hello.agentSig = true)
    (hr : store.lookup hello.agentPubKey = some r) (now : Int) (written : Bool) :
    (auth.compositeValidate store hello now written).1 =
      if r.revoked then .error .revoked else .ok ⟨r.agentID, some hello.agentPubKey, r.scope⟩ := by
  have hvalidate : auth.validate store hello = .decided
      (if r.revoked then .error .revoked
        else .ok ⟨r.agentID, some hello.agentPubKey, r.scope⟩) := by
    rw [validate, if_neg hkey, if_neg (not_not.2 hsig), hr]
    exact (apply_ite Looked.decided ..).symm
  rw [compositeValidate, hvalidate]

theorem signing_key_ne (h : auth.verifyAgentAuth key sig = true) : key ≠ "" := by
  rintro rfl
  have hlen : ("" : String).length ≠ ed25519PublicKeySize := by decide
  rw [verifyAgentAuth, if_pos hlen] at h
  cases h

theorem validate_unsigned (hkey : hello.agentPubKey ≠ "")
    (hsig : ¬auth.verifyAgentAuth hello.agentPubKey hello.agentSig = true) (store : AgentStore)
    (now : Int) (written : Bool) :
    (auth.compositeValidate store hello now written).1 = auth.fallback hello .badToken := by
  have hvalidate : auth.validate store hello = .decided (auth.fallback hello .badToken) := by
    rw [validate, if_neg hkey, if_pos hsig]
  rw [compositeValidate, hvalidate]

end Authority

/-- Whatever hello of a key that the first gateway has enrolled: what it accepts, the second accepts
under the same id and scope, and what it refuses as revoked, the second refuses. -/
def SameAgents (auth : Authority) (store : AgentStore) (auth' : Authority)
    (store' : AgentStore) : Prop :=
  ∀ hello r, store.lookup hello.agentPubKey = some r → ∀ now written now' written',
    (∀ i, (auth.compositeValidate store hello now written).1 = .ok i →
      ∃ i', (auth'.compositeValidate store' hello now' written').1 = .ok i' ∧
        i'.agentID = i.agentID ∧ i'.scope = i.scope) ∧
    ((auth.compositeValidate store hello now written).1 = .error .revoked →
      ∃ err, (auth'.compositeValidate store' hello now' written').1 = .error err)

/-- Nothing of an allowlist is missed where it is gone, if and only if it has revoked agents only
and no shared token lets those in. -/
theorem sameAgents_empty_iff {auth : Authority} {store : AgentStore} (hk : store.Keyed auth)
    (hs : store.Signed auth) (htoken : ∀ token, auth.sharedToken = some token → token ≠ "") :
    SameAgents auth store auth AgentStore.empty ↔
      ∀ key r, store.lookup key = some r → r.revoked = true ∧ auth.sharedToken = none := by
  constructor
  · intro h key r hr
    obtain ⟨sig, hsig⟩ := hs key r hr
    have hkey := Authority.signing_key_ne hsig
    let hello : Hello := ⟨auth.sharedToken.getD "", "a", key, sig, "", [], "", 0⟩
    have hold := Authority.validate_enrolled hello hkey hsig hr 0 true
    obtain ⟨haccepts, hrefuses⟩ := h hello r hr 0 true 0 true
    obtain ⟨err, hnew, herr⟩ := Authority.validate_empty hello hkey auth 0 true
    rw [herr rfl] at hnew
    cases hrevoked : r.revoked with
    | false =>
      rw [hrevoked] at hold
      obtain ⟨i', hi', hid, -⟩ := haccepts _ hold
      have hnames := (fallback_names (hnew.symm.trans hi')).2
      rw [hid, hk.derived key r hr, derived_agentID] at hnames
      cases hnames
    | true =>
      rw [hrevoked] at hold
      obtain ⟨e, he⟩ := hrefuses hold
      cases htok : auth.sharedToken with
      | none => exact ⟨rfl, rfl⟩
      | some token =>
        have hgiven : hello.token = token := congrArg (fun t => Option.getD t "") htok
        have haccepted := Authority.fallback_token hello htok hgiven (htoken token htok) rfl
        cases haccepted.symm.trans (hnew.symm.trans he)
  · intro h hello r hr now written now' written'
    obtain ⟨hrevoked, htok⟩ := h _ r hr
    obtain ⟨sig, hsig'⟩ := hs _ r hr
    have hkey := Authority.signing_key_ne hsig'
    constructor
    · intro i hi
      by_cases hsig : auth.verifyAgentAuth hello.agentPubKey hello.agentSig = true
      · rw [Authority.validate_enrolled hello hkey hsig hr, if_pos hrevoked] at hi
        cases hi
      · obtain ⟨e, he⟩ := Authority.fallback_none htok hello .badToken
        rw [Authority.validate_unsigned hkey hsig, he] at hi
        cases hi
    · intro _
      obtain ⟨err, hnew, -⟩ := Authority.validate_empty hello hkey auth now' written'
      obtain ⟨e, he⟩ := Authority.fallback_none htok hello err
      exact ⟨e, hnew.trans he⟩

/-- A gateway that can be exported: a valid config, a certificate that loads, and an allowlist as a
gateway's life leaves it. -/
structure GatewayMachine {Content Payload Cipher Document : Type}
    (libs : LoaderLibs Content Payload Cipher Document) (pf : Platform) where
  cfg : SetupConfig
  dir : Files Content
  crt : Content
  key : Content
  der : Bytes
  store : AgentStore
  role : cfg.role = roleGateway
  valid : cfg.validate pf = []
  hasCert : dir.lookup fileCert = some crt
  hasKey : dir.lookup fileKey = some key
  keyPair : libs.x509KeyPair crt key = .ok der
  keyed : store.Keyed (libs.authority cfg (libs.certFingerprint der))
  signed : store.Signed (libs.authority cfg (libs.certFingerprint der))

/-- An agent that can be exported. -/
structure AgentMachine {Content Payload Cipher Document : Type}
    (libs : LoaderLibs Content Payload Cipher Document) (pf : Platform) where
  cfg : SetupConfig
  dir : Files Content
  role : cfg.role = roleAgent
  valid : cfg.validate pf = []

section

variable {Content Payload Cipher Document : Type}
  {libs : LoaderLibs Content Payload Cipher Document} {pf : Platform}

namespace GatewayMachine

def authority (m : GatewayMachine libs pf) : Authority :=
  libs.authority m.cfg (libs.certFingerprint m.der)

/-- Whatever an export draws: it succeeds, its import into an empty directory succeeds, and the
gateway that starts there takes the same agents. -/
def Reproduced (m : GatewayMachine libs pf) : Prop :=
  ∀ (args : ExportArgs libs.nonceSize) (generated : Content × Content),
    ∃ data dir auth store, libs.exportSetup pf m.cfg m.dir args = .ok data ∧
      libs.importSetup pf workingDisk data args.passphrase = .ok dir ∧
      libs.startGateway pf dir generated = .ok (auth, store) ∧
      SameAgents m.authority m.store auth store

theorem hasIdentity (m : GatewayMachine libs pf) : libs.HasIdentity m.cfg m.dir := by
  obtain ⟨hcrt, hkey⟩ := libs.keyPair_nonempty _ _ _ m.keyPair
  intro name hname
  rcases SetupOps.identityFiles_sub hname with rfl | rfl
  · exact ⟨m.crt, m.hasCert, hcrt⟩
  · exact ⟨m.key, m.hasKey, hkey⟩

theorem startGateway_imported (m : GatewayMachine libs pf) (generated : Content × Content)
    {dir' : Files Content} (hdir : ∀ name, dir'.lookup name = libs.carried m.cfg m.dir name) :
    libs.startGateway pf dir' generated = .ok (m.authority, AgentStore.empty) := by
  have hmem : fileCert ∈ SetupOps.identityFiles m.cfg.role ∧
    fileKey ∈ SetupOps.identityFiles m.cfg.role := by
    rw [m.role]
    decide
  have hconfig : dir'.lookup fileConfig = some (libs.marshalConfig m.cfg) := by
    rw [hdir, SetupOps.carried, if_pos rfl]
  have hcrt : dir'.lookup fileCert = some m.crt := by
    rw [hdir, SetupOps.carried_identity hmem.1, m.hasCert]
  have hkey : dir'.lookup fileKey = some m.key := by
    rw [hdir, SetupOps.carried_identity hmem.2, m.hasKey]
  have hstore : dir'.lookup agentStoreFile = none := by
    rw [hdir, SetupOps.carried, m.role, if_neg (by decide), if_neg (by decide)]
  have hcheck : m.cfg.validationError pf = none := by
    rw [Config.validationError, m.valid]
  simp only [LoaderLibs.startGateway, LoaderLibs.loadConfig, hconfig, libs.config_round, hcheck,
    LoaderLibs.loadOrCreateCert, hcrt, hkey, m.keyPair, LoaderLibs.loadAgentStore, hstore,
      authority]

theorem reproduced_iff_same (m : GatewayMachine libs pf) :
    m.Reproduced ↔ SameAgents m.authority m.store m.authority AgentStore.empty := by
  constructor
  · intro h
    obtain ⟨data, dir, auth, store, hexport, himport, hstart, hsame⟩ :=
      h ⟨"", 0, "", Vector.replicate 16 0, Vector.replicate _ 0⟩ (m.crt, m.key)
    obtain ⟨data', dir', hexport', himport', hdir⟩ := libs.import_export (.inr m.role) m.valid
      m.hasIdentity
      ⟨"", 0, "", Vector.replicate 16 0, Vector.replicate _ 0⟩
    obtain rfl := Except.ok.inj (hexport'.symm.trans hexport)
    obtain rfl := Except.ok.inj (himport'.symm.trans himport)
    obtain ⟨rfl, rfl⟩ := Prod.mk.inj
      (Except.ok.inj ((m.startGateway_imported _ hdir).symm.trans hstart))
    exact hsame
  · intro h args generated
    obtain ⟨data, dir, hexport, himport, hdir⟩ := libs.import_export (.inr m.role) m.valid
      m.hasIdentity args
    exact ⟨data, dir, m.authority, AgentStore.empty, hexport, himport,
      m.startGateway_imported _ hdir, h⟩

theorem token_ne (m : GatewayMachine libs pf) :
    ∀ token, m.authority.sharedToken = some token → token ≠ "" := by
  intro token htoken
  obtain ⟨-, htoken⟩ := Option.ite_none_right_eq_some.1 htoken
  obtain rfl := Option.some.inj htoken
  have hvalid := m.valid
  simp only [Config.validate, List.append_eq_nil_iff] at hvalid
  have hgateway := hvalid.1.1.1.1.1.2
  rw [if_pos m.role] at hgateway
  simp only [validateGateway, List.append_eq_nil_iff, check_eq_nil] at hgateway
  exact hgateway.1.1.1.1.2

theorem reproduced_iff (m : GatewayMachine libs pf) : m.Reproduced ↔
    ∀ key r, m.store.lookup key = some r → r.revoked = true ∧ m.cfg.acceptSharedToken = false := by
  have hshared : m.authority.sharedToken = none ↔ m.cfg.acceptSharedToken = false := by
    change (if m.cfg.acceptSharedToken then some m.cfg.gateway.token else none) = none ↔ _
    cases m.cfg.acceptSharedToken with
    | true => exact iff_of_false nofun nofun
    | false => exact iff_of_true rfl rfl
  have hsame : SameAgents m.authority m.store m.authority AgentStore.empty ↔ _ :=
    sameAgents_empty_iff m.keyed m.signed m.token_ne
  rw [reproduced_iff_same, hsame, hshared]

end GatewayMachine

namespace AgentMachine

/-- The identity key that the agent has. -/
def identity (m : AgentMachine libs pf) : Option PubKey :=
  (m.dir.lookup identityFile).bind fun pem => (libs.parseIdentity pem).toOption

/-- Whatever an export draws and a first run would generate: the export succeeds, its import into an
empty directory succeeds, and the agent that starts there has the identity key of the old one. -/
def Reproduced (m : AgentMachine libs pf) : Prop :=
  ∀ (args : ExportArgs libs.nonceSize) (generated : PubKey × Content),
    ∃ data dir, libs.exportSetup pf m.cfg m.dir args = .ok data ∧
      libs.importSetup pf workingDisk data args.passphrase = .ok dir ∧
      ∀ pub ∈ m.identity, (libs.loadOrCreateIdentity dir generated).1 = .ok pub

theorem hasIdentity (m : AgentMachine libs pf) : libs.HasIdentity m.cfg m.dir := by
  intro name hname
  rw [SetupOps.identityFiles, m.role, if_neg (by decide)] at hname
  cases hname

theorem loadIdentity_imported (m : AgentMachine libs pf) (generated : PubKey × Content)
    {dir' : Files Content} (hdir : ∀ name, dir'.lookup name = libs.carried m.cfg m.dir name) :
    (libs.loadOrCreateIdentity dir' generated).1 = .ok generated.1 := by
  have hnone : dir'.lookup identityFile = none := by
    rw [hdir, SetupOps.carried, m.role, if_neg (by decide), if_neg (by decide)]
  simp only [LoaderLibs.loadOrCreateIdentity, hnone]

theorem reproduced_iff (m : AgentMachine libs pf) : m.Reproduced ↔ m.identity = none := by
  constructor
  · intro h
    by_contra hsome
    obtain ⟨pub, hpub⟩ := Option.ne_none_iff_exists'.1 hsome
    -- The import may generate any key, the old one with a letter more among them.
    let args : ExportArgs libs.nonceSize := ⟨"", 0, "", Vector.replicate 16 0, Vector.replicate _ 0⟩
    let generated : PubKey × Content := (pub ++ "a", libs.marshalConfig m.cfg)
    obtain ⟨data, dir, hexport, himport, hsame⟩ := h args generated
    obtain ⟨data', dir', hexport', himport', hdir⟩ :=
      libs.import_export (.inl m.role) m.valid m.hasIdentity args
    obtain rfl := Except.ok.inj (hexport'.symm.trans hexport)
    obtain rfl := Except.ok.inj (himport'.symm.trans himport)
    have heq : pub ++ "a" = pub :=
      Except.ok.inj ((m.loadIdentity_imported generated hdir).symm.trans (hsame pub hpub))
    have hlen := congrArg String.length heq
    rw [String.length_append] at hlen
    exact absurd hlen (Nat.succ_ne_self _)
  · intro hnone args generated
    obtain ⟨data, dir, hexport, himport, -⟩ := libs.import_export (.inl m.role) m.valid
      m.hasIdentity args
    exact ⟨data, dir, hexport, himport, fun pub hpub => absurd (hnone.symm.trans hpub) nofun⟩

end AgentMachine

end

/-- A setup file reproduces a gateway if and only if all agents that it ever enrolled are revoked
and shared tokens are off, or it has enrolled none; and an agent if and only if that has no identity
key yet. -/
theorem setup_reproduces_iff {Content Payload Cipher Document : Type}
    (libs : LoaderLibs Content Payload Cipher Document) (pf : Platform) :
    (∀ m : GatewayMachine libs pf, m.Reproduced ↔
      ∀ key r, m.store.lookup key = some r → r.revoked = true ∧ m.cfg.acceptSharedToken = false) ∧
    ∀ m : AgentMachine libs pf, m.Reproduced ↔ m.identity = none :=
  ⟨GatewayMachine.reproduced_iff, AgentMachine.reproduced_iff⟩

/-- A file that is a config or a text. -/
inductive PlainContent where
  | config (c : SetupConfig)
  | text (s : String)

/-- Libraries whose encodings are the values themselves, and whose signatures name their key. -/
def plainLibs : LoaderLibs PlainContent (Files PlainContent)
    (Bytes × Bytes × Files PlainContent × SetupHeader)
    (Manifest PlainContent (Bytes × Bytes × Files PlainContent × SetupHeader)) where
  marshalConfig := .config
  unmarshalConfig
    | .config c => .ok c
    | .text s => .error ("toml: " ++ s)
  marshalFiles files := files
  unmarshalFiles files := .ok files
  marshalManifest m := m
  unmarshalManifest m := some m
  idKey passphrase kdf := utf8 passphrase ++ kdf.salt
  nonceSize := 12
  aeadSeal k n p h := (k, n, p, h)
  aeadOpen k n c h := if c.1 = k ∧ c.2.1 = n ∧ c.2.2.2 = h then some c.2.2.1 else none
  isEmpty
    | .config _ => false
    | .text s => s = ""
  readError name := "open " ++ name ++ ": no such file"
  config_round _ := rfl
  files_round files := ⟨files, rfl, fun _ => rfl⟩
  manifest_round m := ⟨m.files, rfl, fun _ => rfl⟩
  aead_round _ _ _ _ := if_pos ⟨rfl, rfl, rfl⟩
  nonceSize_pos := by decide
  x509KeyPair
    | .text crt, .text key => if crt = "" ∨ key = "" then .error "no PEM data" else .ok (utf8 crt)
    | _, _ => .error "no PEM data"
  certFingerprint der := "sha256:" ++ toString der.length
  keyFingerprint := id
  verify pub _ sig := pub = sig
  parseStore _ := .error "not a store"
  parseIdentity
    | .text s => .ok s
    | .config _ => .error "not valid PEM"
  keyPair_nonempty := by
    rintro (_ | crt) (_ | key) der h
    · cases h
    · cases h
    · cases h
    · simp only at h
      split at h
      · cases h
      · rename_i hne
        obtain ⟨hcrt, hkey⟩ := not_or.1 hne
        exact ⟨decide_eq_false hcrt, decide_eq_false hkey⟩

/-- The config of a gateway. -/
def gatewayConfig : SetupConfig :=
  { defaultSetupConfig with
    role := roleGateway
    gateway := { defaultSetupConfig.gateway with token := "token" } }

def gatewayAuthority : Authority :=
  plainLibs.authority gatewayConfig (plainLibs.certFingerprint (utf8 "crt"))

/-- A ticket is issued, and the agent enrolls with it. -/
def joined : List (Option String × AuthCall) :=
  [(none, .manage (.issueEnrollment "ticket" false none ⟨[], []⟩) true),
    (none, .validate joinHello 0 true)]

theorem joined_reaches : ∃ store, Runs.Reaches gatewayAuthority.lifeStep AgentStore.empty
    joined store ∧
    (store.lookup sampleKey).any (fun r => !r.revoked) = true :=
  ⟨_, .cons rfl (.cons rfl (.nil _)), by decide +kernel⟩

/-- The agent that has enrolled is unknown to the imported gateway. -/
theorem enrolled_agent_forgotten :
    ¬∀ (Content Payload Cipher Document : Type) (libs : LoaderLibs Content Payload Cipher Document)
      (pf : Platform), (∀ m : GatewayMachine libs pf, m.Reproduced) ∧
        ∀ m : AgentMachine libs pf, m.Reproduced := by
  intro h
  obtain ⟨store, hreach, hany⟩ := joined_reaches
  obtain ⟨hkeyed, hsigned⟩ := Authority.life_invariant hreach
  let m : GatewayMachine plainLibs plainPlatform := {
    cfg := gatewayConfig
    dir := ((∅ : Files PlainContent).insert fileCert (.text "crt")).insert fileKey (.text "key")
    crt := .text "crt"
    key := .text "key"
    der := utf8 "crt"
    store := store
    role := rfl
    valid := by decide +kernel
    hasCert := rfl
    hasKey := rfl
    keyPair := rfl
    keyed := hkeyed
    signed := hsigned }
  obtain ⟨r, hr, hlive⟩ := (Option.any_eq_true ..).1 hany
  have hreproduced := (h _ _ _ _ plainLibs plainPlatform).1 m
  have hrevoked := (m.reproduced_iff.1 hreproduced sampleKey r hr).1
  rw [hrevoked] at hlive
  cases hlive

end ProxyForward

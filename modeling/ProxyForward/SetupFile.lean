import ProxyForward.Scrub

namespace ProxyForward
set_option autoImplicit true

/-- A config with the switch that only the gateway's validator reads. -/
structure SetupConfig extends AppConfig where
  acceptSharedToken : Bool
  deriving DecidableEq, Repr

/-- The files of a directory, or of a container, by name. -/
abbrev Files (Content : Type) := GoMap Content

def fileConfig : String := "config.toml"
def fileCert : String := "gateway.crt"
def fileKey : String := "gateway.key"
def fileStats : String := "stats.json"

def magicApp : String := "proxyforward-setup"
def formatVersion : Int := 1

/-- A time as RFC 3339 writes it: the second on its zone's clock, in the years 0 to 9999, its
nanoseconds, and the zone's minutes east of UTC. -/
structure Stamp where
  second : Fin 315569520000
  nanos : Fin 1000000000
  offset : { m : Int // -1440 < m ∧ m < 1440 }
  deriving DecidableEq, Repr

/-- The first second in UTC. -/
instance : OfNat Stamp 0 := ⟨⟨0, 0, ⟨0, by decide⟩⟩⟩

structure KDFParams where
  salt : Bytes
  time : Nat
  memoryKiB : Nat
  threads : Nat
  deriving DecidableEq, Repr

def kdfTime : Nat := 1
def kdfMemoryKiB : Nat := 64 * 1024
def kdfThreads : Nat := 4
def kdfMaxTime : Nat := 16
def kdfMaxMemoryKiB : Nat := 512 * 1024
def kdfMaxThreads : Nat := 32

/-- The plaintext header, which an encrypted container authenticates. -/
structure SetupHeader where
  app : String
  formatVersion : Int
  role : String
  appVersion : String
  exportedAt : Stamp
  deriving DecidableEq, Repr

/-- The container. It has files, or the parameters, nonce and ciphertext of sealed ones. -/
structure Manifest (Content Cipher : Type) extends SetupHeader where
  encrypted : Bool
  files : Files Content
  kdf : Option KDFParams
  nonce : Bytes
  ciphertext : Option Cipher

/-- The functions the container code calls, of TOML, JSON, argon2id and AES-GCM, without laws. The
additional data is the header's encoding. -/
structure SetupOps (Content Payload Cipher Document AD : Type) where
  marshalConfig : SetupConfig → Content
  unmarshalConfig : Content → Except String SetupConfig
  marshalFiles : Files Content → Payload
  unmarshalFiles : Payload → Except String (Files Content)
  marshalManifest : Manifest Content Cipher → Document
  unmarshalManifest : Document → Option (Manifest Content Cipher)
  aad : SetupHeader → AD
  idKey : String → KDFParams → Bytes
  nonceSize : Nat
  aeadSeal : Bytes → Bytes → Payload → AD → Cipher
  aeadOpen : Bytes → Bytes → Cipher → AD → Option Payload
  isEmpty : Content → Bool
  readError : String → String

/-- What an export draws and is told: the app's version, the clock, the passphrase, and the random
salt and nonce. -/
structure ExportArgs (nonceSize : Nat) where
  appVersion : String
  now : Stamp
  passphrase : String
  salt : Vector UInt8 16
  nonce : Vector UInt8 nonceSize

/-- What the file system answers to an import. -/
structure DiskWrites where
  mkdir : Option String
  write : String → Option String

namespace SetupOps

variable {Content Payload Cipher Document AD : Type}
    (ops : SetupOps Content Payload Cipher Document AD)

/-- The gateway's certificate and key, which must be readable. -/
def addFiles (dir : Files Content) : List String → Files Content → Except String (Files Content)
  | [], files => .ok files
  | name :: names, files =>
    match dir.lookup name with
    | none => .error ("gateway identity file " ++ name ++ ": " ++ ops.readError name ++
        " (agents pin this certificate — a gateway export without it would break every pairing)")
    | some data => addFiles dir names (files.insert name data)

/-- The files that a container carries. -/
def exportFiles (cfg : SetupConfig) (dir : Files Content) : Except String (Files Content) :=
  let files : Files Content := AList.insert fileConfig (ops.marshalConfig cfg) ∅
  match ops.addFiles dir (if cfg.role = roleGateway then [fileCert, fileKey] else []) files with
  | .error err => .error err
  | .ok files =>
    match dir.lookup fileStats with
    | some data => .ok (files.insert fileStats data)
    | none => .ok files

/-- The header of an export. -/
def exportHeader (cfg : SetupConfig) (args : ExportArgs n) : SetupHeader :=
  ⟨magicApp, formatVersion, cfg.role, args.appVersion, args.now⟩

/-- The parameters of a new key, with a random salt. -/
def exportKDF (args : ExportArgs n) : KDFParams :=
  ⟨args.salt.toList, kdfTime, kdfMemoryKiB, kdfThreads⟩

def sealManifest (header : SetupHeader) (files : Files Content) (args : ExportArgs ops.nonceSize) :
    Manifest Content Cipher :=
  { header with
    encrypted := true
    files := ∅
    kdf := some (exportKDF args)
    nonce := args.nonce.toList
    ciphertext := some
      (ops.aeadSeal (ops.idKey args.passphrase (exportKDF args)) args.nonce.toList
        (ops.marshalFiles files) (ops.aad header)) }

/-- Build a container for the role of the config. -/
def exportSetup (pf : Platform) (cfg : SetupConfig) (dir : Files Content)
    (args : ExportArgs ops.nonceSize) : Except String Document :=
  if cfg.role ≠ roleAgent ∧ cfg.role ≠ roleGateway then
    .error "no role configured — nothing to export"
  else match cfg.validationError pf with
  | some err => .error ("refusing to export invalid config: " ++ err)
  | none =>
    match ops.exportFiles cfg dir with
    | .error err => .error err
    | .ok files =>
      if args.passphrase = "" then
        .ok (ops.marshalManifest
          { exportHeader cfg args with
            encrypted := false
            files := files
            kdf := none
            nonce := []
            ciphertext := none })
      else .ok (ops.marshalManifest (ops.sealManifest (exportHeader cfg args) files args))

def errBadPassphrase : String := "wrong passphrase or corrupted file"
def errPassphraseRequired : String := "this setup file is encrypted — a passphrase is required"
def errNotSetupFile : String := "not a proxyforward setup file"

/-- Decrypt the files of an encrypted container. -/
def openManifest (m : Manifest Content Cipher) (passphrase : String) :
    Except String (Files Content) :=
  match m.kdf, m.ciphertext with
  | some k, some ciphertext =>
    if k.salt = [] ∨ m.nonce = [] then .error errBadPassphrase
    else if k.time < 1 ∨ kdfMaxTime < k.time ∨ k.memoryKiB < 8 ∨ kdfMaxMemoryKiB < k.memoryKiB ∨
        k.threads < 1 ∨ kdfMaxThreads < k.threads then
      .error "setup file has out-of-range key-derivation parameters"
    else if m.nonce.length ≠ ops.nonceSize then .error errBadPassphrase
    else match ops.aeadOpen (ops.idKey passphrase k) m.nonce ciphertext
        (ops.aad m.toSetupHeader) with
    | none => .error errBadPassphrase
    | some payload =>
      match ops.unmarshalFiles payload with
      | .error err => .error ("setup file payload: " ++ err)
      | .ok files => .ok files
  | _, _ => .error errBadPassphrase

def parseManifest (pf : Platform) (data : Document) : Except String (Manifest Content Cipher) :=
  match ops.unmarshalManifest data with
  | none => .error errNotSetupFile
  | some m =>
    if m.app ≠ magicApp then .error errNotSetupFile
    else if m.formatVersion < 1 ∨ formatVersion < m.formatVersion then
      .error ("setup file format v" ++ toString m.formatVersion ++
        " was created by a newer version of proxyforward — update this install first")
    else if m.role ≠ roleAgent ∧ m.role ≠ roleGateway then
      .error ("setup file has unknown role " ++ quote pf.isPrint m.role)
    else .ok m

def allowedFile (name : String) : Bool := name ∈ [fileConfig, fileCert, fileKey, fileStats]

/-- A required file that is not there, or has nothing in it. -/
def missing (files : Files Content) (name : String) : Bool := (files.lookup name).all ops.isEmpty

/-- The files of a container, in the clear or decrypted. -/
def filesOf (m : Manifest Content Cipher) (passphrase : String) : Except String (Files Content) :=
  if ¬m.encrypted then .ok m.files
  else if passphrase = "" then .error errPassphraseRequired
  else ops.openManifest m passphrase

/-- Check the files of a container with a role. -/
def checkFiles (pf : Platform) (role : String) (files : Files Content) :
    Except String (String × Files Content) :=
  match files.lookup fileConfig with
  | none => .error ("setup file is missing " ++ fileConfig)
  | some cfgData =>
    match ops.unmarshalConfig cfgData with
    | .error err => .error ("setup file config: " ++ err)
    | .ok cfg =>
      match cfg.validationError pf with
      | some err => .error ("setup file config: " ++ err)
      | none =>
        if cfg.role ≠ role then
          .error ("setup file role " ++ quote pf.isPrint role ++
            " does not match its config role " ++ quote pf.isPrint cfg.role)
        else match (if cfg.role = roleGateway then
          [fileCert, fileKey].find? (ops.missing files)
            else none) with
        | some name => .error ("gateway setup file is missing " ++ name)
        | none =>
          match files.keys.find? fun name => !allowedFile name with
          | some name =>
            .error ("setup file contains unexpected entry " ++ quote pf.isPrint name)
          | none => .ok (role, files)

/-- Check a container and return its role and files. -/
def decode (pf : Platform) (data : Document) (passphrase : String) :
    Except String (String × Files Content) :=
  match ops.parseManifest pf data with
  | .error err => .error err
  | .ok m =>
    match ops.filesOf m passphrase with
    | .error err => .error err
    | .ok files => ops.checkFiles pf m.role files

end SetupOps

/-- The functions with what is promised of them: TOML and JSON are inverse on their data, and the
cipher opens what it has sealed. -/
structure SetupLibs (Content Payload Cipher Document : Type)
    extends SetupOps Content Payload Cipher Document SetupHeader where
  aad := id
  config_round : ∀ c, unmarshalConfig (marshalConfig c) = .ok c
  files_round : ∀ fs, ∃ fs', unmarshalFiles (marshalFiles fs) = .ok fs' ∧
    ∀ name, fs'.lookup name = fs.lookup name
  manifest_round : ∀ m, ∃ fs, unmarshalManifest (marshalManifest m) = some { m with files := fs } ∧
    ∀ name, fs.lookup name = m.files.lookup name
  aead_round : ∀ k n p h, aeadOpen k n (aeadSeal k n p h) h = some p
  nonceSize_pos : 0 < nonceSize

/-- Land those of the files that are named, in this order, until a write fails. -/
def landFiles (disk : DiskWrites) (files : Files Content) :
    List String → Files Content → Option String × Files Content
  | [], dir => (none, dir)
  | name :: names, dir =>
    match files.lookup name with
    | none => landFiles disk files names dir
    | some data =>
      match disk.write name with
      | some err => (some ("write " ++ name ++ ": " ++ err), dir)
      | none => landFiles disk files names (dir.insert name data)

/-- Land the decoded files, the config last. -/
def writeFiles (disk : DiskWrites) (files dir : Files Content) : Option String × Files Content :=
  match disk.mkdir with
  | some err => (some ("create config dir: " ++ err), dir)
  | none => landFiles disk files [fileCert, fileKey, fileStats, fileConfig] dir

def workingDisk : DiskWrites := ⟨none, fun _ => none⟩

theorem landFiles_lookup (files : Files Content) (names : List String) (dir : Files Content) :
    ∃ dir', landFiles workingDisk files names dir = (none, dir') ∧
      ∀ name, dir'.lookup name =
        if name ∈ names then (files.lookup name).or (dir.lookup name) else dir.lookup name := by
  induction names generalizing dir with
  | nil => exact ⟨dir, rfl, fun _ => rfl⟩
  | cons n names ih =>
    cases hn : files.lookup n with
    | none =>
      obtain ⟨dir', hland, hlookup⟩ := ih dir
      refine ⟨dir', by rw [landFiles, hn]; exact hland, fun name => ?_⟩
      rw [hlookup]
      by_cases hname : name = n
      · subst hname
        rw [if_pos List.mem_cons_self, hn, Option.none_or]
        exact ite_self _
      · simp only [List.mem_cons, or_iff_right hname]
    | some data =>
      obtain ⟨dir', hland, hlookup⟩ := ih (dir.insert n data)
      refine ⟨dir', by rw [landFiles, hn]; exact hland, fun name => ?_⟩
      rw [hlookup]
      by_cases hname : name = n
      · subst hname
        rw [if_pos List.mem_cons_self, AList.lookup_insert, hn]
        exact ite_self _
      · simp only [AList.lookup_insert_ne hname, List.mem_cons, or_iff_right hname]

namespace SetupOps

variable {Content Payload Cipher Document AD : Type}
    {ops : SetupOps Content Payload Cipher Document AD}

theorem addFiles_lookup (h : ops.addFiles dir names files = .ok files') (name : String) :
    files'.lookup name = if name ∈ names then dir.lookup name else files.lookup name := by
  induction names generalizing files with
  | nil =>
    cases h
    rfl
  | cons n names ih =>
    cases hn : dir.lookup n with
    | none =>
      rw [addFiles, hn] at h
      cases h
    | some data =>
      rw [addFiles, hn] at h
      rw [ih h]
      by_cases hname : name = n
      · subst hname
        rw [if_pos List.mem_cons_self, AList.lookup_insert, hn]
        exact ite_self _
      · simp only [AList.lookup_insert_ne hname, List.mem_cons, or_iff_right hname]

theorem addFiles_ok (ops : SetupOps Content Payload Cipher Document AD)
    (h : ∀ name ∈ names, dir.lookup name ≠ none) (files : Files Content) :
    ∃ files', ops.addFiles dir names files = .ok files' := by
  induction names generalizing files with
  | nil => exact ⟨files, rfl⟩
  | cons n names ih =>
    obtain ⟨hn, hnames⟩ := List.forall_mem_cons.1 h
    obtain ⟨data, hdata⟩ := Option.ne_none_iff_exists'.1 hn
    rw [addFiles, hdata]
    exact ih hnames _

/-- The identity files of a role. -/
def identityFiles (role : String) : List String :=
  if role = roleGateway then [fileCert, fileKey] else []

/-- What a container carries under a name. -/
def carried (ops : SetupOps Content Payload Cipher Document AD) (cfg : SetupConfig)
    (dir : Files Content) (name : String) : Option Content :=
  if name = fileConfig then some (ops.marshalConfig cfg)
  else if name ∈ fileStats :: identityFiles cfg.role then dir.lookup name
  else none

theorem identityFiles_sub (h : name ∈ identityFiles role) : name = fileCert ∨ name = fileKey := by
  unfold identityFiles at h
  split at h
  · exact (List.mem_cons.1 h).imp_right List.mem_singleton.1
  · cases h

theorem config_not_identity (role : String) : fileConfig ∉ identityFiles role := by
  intro h
  rcases identityFiles_sub h with h | h <;> revert h <;> decide

theorem stats_not_identity (role : String) : fileStats ∉ identityFiles role := by
  intro h
  rcases identityFiles_sub h with h | h <;> revert h <;> decide

theorem exportFiles_lookup (h : ops.exportFiles cfg dir = .ok files) (name : String) :
    files.lookup name = ops.carried cfg dir name := by
  unfold exportFiles at h
  simp only at h
  split at h
  · cases h
  rename_i files' hadd
  have hbase : files'.lookup name = if name ∈ identityFiles cfg.role then dir.lookup name
      else if name = fileConfig then some (ops.marshalConfig cfg) else none := by
    rw [addFiles_lookup hadd]
    congr 1
    split
    · rename_i hname
      rw [hname]
      exact AList.lookup_insert _
    · rename_i hname
      rw [AList.lookup_insert_ne hname]
      exact AList.lookup_empty _
  have hcarried : (if name = fileStats then dir.lookup name else files'.lookup name) =
      ops.carried cfg dir name := by
    rw [hbase, carried]
    by_cases hconfig : name = fileConfig
    · have hstats : fileConfig ≠ fileStats := by decide
      rw [hconfig, if_neg hstats, if_neg (config_not_identity _), if_pos rfl, if_pos rfl]
    · rw [if_neg hconfig, if_neg hconfig]
      by_cases hstats : name = fileStats
      · rw [if_pos hstats, if_pos (List.mem_cons.2 (.inl hstats))]
      · simp only [if_neg hstats, List.mem_cons, or_iff_right hstats]
  rw [← hcarried]
  split at h
  · rename_i data hdata
    cases h
    by_cases hstats : name = fileStats
    · rw [if_pos hstats, hstats, hdata]
      exact AList.lookup_insert _
    · rw [if_neg hstats, AList.lookup_insert_ne hstats]
  · rename_i hnone
    cases h
    by_cases hstats : name = fileStats
    · have hconfig : fileStats ≠ fileConfig := by decide
      rw [if_pos hstats, hbase, hstats, if_neg (stats_not_identity _), if_neg hconfig, hnone]
    · rw [if_neg hstats]

theorem exportFiles_ok (ops : SetupOps Content Payload Cipher Document AD) (cfg : SetupConfig)
    (h : ∀ name ∈ identityFiles cfg.role, dir.lookup name ≠ none) :
    ∃ files, ops.exportFiles cfg dir = .ok files := by
  obtain ⟨files, hfiles⟩ := ops.addFiles_ok h (AList.insert fileConfig (ops.marshalConfig cfg) ∅)
  have hadd : ops.addFiles dir (if cfg.role = roleGateway then [fileCert, fileKey] else [])
      (AList.insert fileConfig (ops.marshalConfig cfg) ∅) = .ok files := hfiles
  simp only [exportFiles, hadd]
  split
  · exact ⟨_, rfl⟩
  · exact ⟨_, rfl⟩

theorem carried_allowed (h : ops.carried cfg dir name ≠ none) : allowedFile name = true := by
  unfold carried at h
  split at h
  · rename_i hname
    rw [hname]
    decide
  · split at h
    · rename_i hname
      rcases List.mem_cons.1 hname with hname | hname
      · rw [hname]
        decide
      · rcases identityFiles_sub hname with hname | hname <;> rw [hname] <;> decide
    · exact absurd rfl h

/-- The identity files are in the directory, and are not empty. -/
def HasIdentity (ops : SetupOps Content Payload Cipher Document AD) (cfg : SetupConfig)
    (dir : Files Content) : Prop :=
  ∀ name ∈ identityFiles cfg.role, ∃ data, dir.lookup name = some data ∧ ops.isEmpty data = false

theorem carried_identity (h : name ∈ identityFiles cfg.role) :
    ops.carried cfg dir name = dir.lookup name := by
  have hne : name ≠ fileConfig := fun heq => config_not_identity cfg.role (heq ▸ h)
  rw [carried, if_neg hne, if_pos (List.mem_cons_of_mem _ h)]

theorem identity_read (hout : ops.exportFiles cfg dir = .ok out)
    (hname : name ∈ identityFiles cfg.role) : dir.lookup name ≠ none := by
  have hadd : ∀ names files out, ops.addFiles dir names files = .ok out →
      ∀ name ∈ names, dir.lookup name ≠ none := by
    intro names
    induction names with
    | nil => exact fun _ _ _ name hname => absurd hname List.not_mem_nil
    | cons n names ih =>
      intro files out hout
      rw [addFiles] at hout
      cases hn : dir.lookup n with
      | none =>
        rw [hn] at hout
        cases hout
      | some data =>
        rw [hn] at hout
        intro name hname
        rcases List.mem_cons.1 hname with rfl | hname
        · rw [hn]
          exact nofun
        · exact ih _ _ hout name hname
  unfold exportFiles at hout
  simp only at hout
  split at hout
  · cases hout
  · rename_i files hfiles
    exact hadd _ _ _ hfiles name hname

theorem parseManifest_ok (h : ops.parseManifest pf data = .ok m) :
    ops.unmarshalManifest data = some m ∧ m.app = magicApp ∧ m.formatVersion = formatVersion := by
  unfold parseManifest at h
  split at h
  · cases h
  · rename_i m' hm'
    split at h
    · cases h
    · rename_i happ
      split at h
      · cases h
      · rename_i hversion
        split at h
        · cases h
        · cases h
          refine ⟨hm', not_not.1 happ, ?_⟩
          unfold formatVersion at hversion ⊢
          omega

theorem parseManifest_export (hm : ops.unmarshalManifest data = some m)
    (happ : m.app = magicApp) (hversion : m.formatVersion = formatVersion)
    (hrole : m.role = roleAgent ∨ m.role = roleGateway) :
    ops.parseManifest pf data = .ok m := by
  have hnot : ¬(m.role ≠ roleAgent ∧ m.role ≠ roleGateway) := fun h => hrole.elim h.1 h.2
  have hrange : ¬(m.formatVersion < 1 ∨ formatVersion < m.formatVersion) := by
    rw [hversion]
    decide
  simp only [parseManifest, hm]
  rw [if_neg (not_not.2 happ), if_neg hrange, if_neg hnot]

theorem checkFiles_carried (hround : ops.unmarshalConfig (ops.marshalConfig cfg) = .ok cfg)
    (hvalid : cfg.validate pf = [])
    (hfiles : ∀ name, files.lookup name = ops.carried cfg dir name) :
    ops.checkFiles pf cfg.role files =
      match (if cfg.role = roleGateway then [fileCert, fileKey].find? (ops.missing files)
        else none) with
      | some name => .error ("gateway setup file is missing " ++ name)
      | none => .ok (cfg.role, files) := by
  have hconfig : files.lookup fileConfig = some (ops.marshalConfig cfg) := by
    rw [hfiles, carried, if_pos rfl]
  have hcheck : cfg.validationError pf = none := by
    rw [Config.validationError, hvalid]
  have hallowed : (files.keys.find? fun name => !allowedFile name) = none := by
    apply List.find?_eq_none.2
    intro name hname
    have hne : files.lookup name ≠ none := by
      intro hnone
      exact AList.lookup_eq_none.1 hnone (AList.mem_keys.2 hname)
    rw [hfiles] at hne
    rw [carried_allowed hne]
    exact Bool.false_ne_true
  simp only [checkFiles, hconfig, hround, hcheck, hallowed]
  rw [if_neg (not_not.2 rfl)]

theorem decode_carried {m : Manifest Content Cipher}
    (hround : ops.unmarshalConfig (ops.marshalConfig cfg) = .ok cfg)
    (hm : ops.unmarshalManifest data = some m) (happ : m.app = magicApp)
    (hversion : m.formatVersion = formatVersion) (hmrole : m.role = cfg.role)
    (hopen : ops.filesOf m passphrase = .ok files)
    (hfiles : ∀ name, files.lookup name = ops.carried cfg dir name)
    (hrole : cfg.role = roleAgent ∨ cfg.role = roleGateway) (hvalid : cfg.validate pf = [])
    (hid : ops.HasIdentity cfg dir) : ops.decode pf data passphrase = .ok (cfg.role, files) := by
  have hparse : ops.parseManifest pf data = .ok m :=
    parseManifest_export hm happ hversion (hmrole ▸ hrole)
  have hfound : (if cfg.role = roleGateway then [fileCert, fileKey].find? (ops.missing files)
      else none) = none := by
    split
    · rename_i hgateway
      apply List.find?_eq_none.2
      intro name hname
      have hmem : name ∈ identityFiles cfg.role := by
        rwa [identityFiles, if_pos hgateway]
      obtain ⟨content, hlookup, hne⟩ := hid name hmem
      rw [missing, hfiles, carried_identity hmem, hlookup, Option.all_some, hne]
      exact Bool.false_ne_true
    · rfl
  simp only [decode, hparse, hopen, hmrole, checkFiles_carried hround hvalid hfiles, hfound]

theorem openManifest_sealed {files files' : Files Content} (args : ExportArgs ops.nonceSize)
    (hsize : 0 < ops.nonceSize) (hround : ops.unmarshalFiles (ops.marshalFiles files) = .ok files')
    (header : SetupHeader) (fs : Files Content)
    (hopens : ops.aeadOpen (ops.idKey args.passphrase (exportKDF args)) args.nonce.toList
      (ops.aeadSeal (ops.idKey args.passphrase (exportKDF args)) args.nonce.toList
        (ops.marshalFiles files) (ops.aad header)) (ops.aad header) =
          some (ops.marshalFiles files)) :
    ops.openManifest { ops.sealManifest header files args with files := fs } args.passphrase =
      .ok files' := by
  have hsalt : ¬((exportKDF args).salt = [] ∨ args.nonce.toList = []) := by
    rintro (hnil | hnil)
    · have hlen := congrArg List.length hnil
      rw [exportKDF, Vector.length_toList] at hlen
      cases hlen
    · have hlen := congrArg List.length hnil
      rw [Vector.length_toList] at hlen
      exact hsize.ne' hlen
  have hparams : ¬(kdfTime < 1 ∨ kdfMaxTime < kdfTime ∨ kdfMemoryKiB < 8 ∨
      kdfMaxMemoryKiB < kdfMemoryKiB ∨ kdfThreads < 1 ∨ kdfMaxThreads < kdfThreads) := by decide
  have hlen : ¬args.nonce.toList.length ≠ ops.nonceSize := not_not.2 Vector.length_toList
  refine (if_neg hsalt).trans ((if_neg hparams).trans ((if_neg hlen).trans ?_))
  simp only [sealManifest, hopens, hround]

theorem filesOf_encrypted {m : Manifest Content Cipher} (hencrypted : m.encrypted = true)
    (hpass : passphrase ≠ "") : ops.filesOf m passphrase = ops.openManifest m passphrase := by
  rw [filesOf, if_neg (not_not.2 hencrypted), if_neg hpass]

end SetupOps

namespace SetupLibs
open SetupOps

variable {Content Payload Cipher Document : Type}

theorem decode_export (libs : SetupLibs Content Payload Cipher Document) {cfg : SetupConfig}
    (hrole : cfg.role = roleAgent ∨ cfg.role = roleGateway) (hvalid : cfg.validate pf = [])
    (hid : libs.HasIdentity cfg dir) (args : ExportArgs libs.nonceSize) :
    ∃ data files, libs.exportSetup pf cfg dir args = .ok data ∧
      libs.decode pf data args.passphrase = .ok (cfg.role, files) ∧
      ∀ name, files.lookup name = libs.carried cfg dir name := by
  have hpresent : ∀ name ∈ identityFiles cfg.role, dir.lookup name ≠ none := by
    intro name hname
    obtain ⟨data, hdata, -⟩ := hid name hname
    rw [hdata]
    exact nofun
  obtain ⟨files, hfiles⟩ := libs.exportFiles_ok cfg hpresent
  have hcheck : cfg.validationError pf = none := by
    rw [Config.validationError, hvalid]
  have hnot : ¬(cfg.role ≠ roleAgent ∧ cfg.role ≠ roleGateway) := fun h => hrole.elim h.1 h.2
  simp only [exportSetup, if_neg hnot, hcheck, hfiles]
  split
  · obtain ⟨fs, hm, hlookup⟩ := libs.manifest_round
      { exportHeader cfg args with
        encrypted := false
        files := files
        kdf := none
        nonce := []
        ciphertext := none }
    have hcarried : ∀ name, fs.lookup name = libs.carried cfg dir name :=
      fun name => (hlookup name).trans (exportFiles_lookup hfiles name)
    refine ⟨_, fs, rfl, ?_, hcarried⟩
    exact decode_carried (libs.config_round cfg) hm rfl rfl rfl rfl hcarried hrole hvalid hid
  · rename_i hpass
    obtain ⟨fs, hm, -⟩ := libs.manifest_round (libs.sealManifest (exportHeader cfg args) files args)
    obtain ⟨files', hround, hlookup⟩ := libs.files_round files
    have hcarried : ∀ name, files'.lookup name = libs.carried cfg dir name :=
      fun name => (hlookup name).trans (exportFiles_lookup hfiles name)
    have hopen := openManifest_sealed args libs.nonceSize_pos hround (exportHeader cfg args) fs
      (libs.aead_round _ _ _ _)
    refine ⟨_, files', rfl, ?_, hcarried⟩
    exact decode_carried (libs.config_round cfg) hm rfl rfl rfl
      ((filesOf_encrypted rfl hpass).trans hopen) hcarried hrole hvalid hid

/-- Decode a container and land its files in an empty directory. -/
def importSetup (libs : SetupLibs Content Payload Cipher Document) (pf : Platform)
    (disk : DiskWrites)
    (data : Document) (passphrase : String) : Except String (Files Content) :=
  match libs.decode pf data passphrase with
  | .error err => .error err
  | .ok (_, files) =>
    match writeFiles disk files ∅ with
    | (some err, _) => .error err
    | (none, dir) => .ok dir

theorem import_export (libs : SetupLibs Content Payload Cipher Document) {cfg : SetupConfig}
    (hrole : cfg.role = roleAgent ∨ cfg.role = roleGateway) (hvalid : cfg.validate pf = [])
    (hid : libs.HasIdentity cfg dir) (args : ExportArgs libs.nonceSize) :
    ∃ data dir', libs.exportSetup pf cfg dir args = .ok data ∧
      libs.importSetup pf workingDisk data args.passphrase = .ok dir' ∧
      ∀ name, dir'.lookup name = libs.carried cfg dir name := by
  obtain ⟨data, files, hexport, hdecode, hfiles⟩ := libs.decode_export hrole hvalid hid args
  obtain ⟨dir', hland, hlookup⟩ := landFiles_lookup files [fileCert, fileKey, fileStats,
    fileConfig] ∅
  have hwrite : writeFiles workingDisk files ∅ = (none, dir') := hland
  refine ⟨data, dir', hexport, by simp only [importSetup, hdecode, hwrite], fun name => ?_⟩
  rw [hlookup, AList.lookup_empty, Option.or_none, hfiles]
  split
  · rfl
  · rename_i hname
    by_contra hne
    have hallowed := carried_allowed (Ne.symm hne)
    rw [allowedFile, decide_eq_true_eq] at hallowed
    simp only [List.mem_cons, List.not_mem_nil, or_false] at hname hallowed
    tauto

end SetupLibs

end ProxyForward

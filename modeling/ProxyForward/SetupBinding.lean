import ProxyForward.SetupImport

namespace ProxyForward
set_option autoImplicit true

namespace SetupOps

variable {Content Payload Cipher Document AD : Type}
    {ops : SetupOps Content Payload Cipher Document AD}

/-- TOML and JSON are inverse on their data; absent and empty file maps are the same. -/
structure Laws (ops : SetupOps Content Payload Cipher Document AD) : Prop where
  config_round : ∀ c, ops.unmarshalConfig (ops.marshalConfig c) = .ok c
  files_round : ∀ fs, ∃ fs', ops.unmarshalFiles (ops.marshalFiles fs) = .ok fs' ∧
    ∀ name, fs'.lookup name = fs.lookup name
  manifest_round : ∀ m, ∃ fs,
    ops.unmarshalManifest (ops.marshalManifest m) = some { m with files := fs } ∧
      ∀ name, fs.lookup name = m.files.lookup name
  header_round : ∃ parse : AD → Option SetupHeader, ∀ h, parse (ops.aad h) = some h
  nonceSize_pos : 0 < ops.nonceSize

/-- The ideal cipher after one sealing under a fresh key and nonce: it opens, nothing else opens
under that key and nonce, and its ciphertext opens nowhere else. -/
structure SealedIdeal (ops : SetupOps Content Payload Cipher Document AD) (k n : Bytes)
    (p : Payload) (ad : AD) : Prop where
  opens : ops.aeadOpen k n (ops.aeadSeal k n p ad) ad = some p
  one_use : ∀ c ad', ops.aeadOpen k n c ad' ≠ none → c = ops.aeadSeal k n p ad
  one_place : ∀ k' n' ad', ops.aeadOpen k' n' (ops.aeadSeal k n p ad) ad' ≠ none →
    k' = k ∧ n' = n ∧ ad' = ad

/-- The cipher is ideal for what the export seals. -/
def ExportIdeal (ops : SetupOps Content Payload Cipher Document AD) (cfg : SetupConfig)
    (dir : Files Content) (args : ExportArgs ops.nonceSize) : Prop :=
  ∀ files, ops.exportFiles cfg dir = .ok files →
    ops.SealedIdeal (ops.idKey args.passphrase (exportKDF args)) args.nonce.toList
      (ops.marshalFiles files) (ops.aad (exportHeader cfg args))

/-- A manifest with one field changed to another value; a salt to one with another key. -/
inductive Altered (key : KDFParams → Bytes) (m : Manifest Content Cipher) :
    Manifest Content Cipher → Prop
  | role (h : r ≠ m.role) : Altered key m { m with role := r }
  | version (h : v ≠ m.appVersion) : Altered key m { m with appVersion := v }
  | date (h : t ≠ m.exportedAt) : Altered key m { m with exportedAt := t }
  | app (h : a ≠ m.app) : Altered key m { m with app := a }
  | format (h : f ≠ m.formatVersion) : Altered key m { m with formatVersion := f }
  | encrypted (h : e ≠ m.encrypted) : Altered key m { m with encrypted := e }
  | nonce (h : n ≠ m.nonce) : Altered key m { m with nonce := n }
  | salt (hk : m.kdf = some k) (h : key { k with salt := s } ≠ key k) :
    Altered key m { m with kdf := some { k with salt := s } }
  | ciphertext (h : c ≠ m.ciphertext) : Altered key m { m with ciphertext := c }

/-- What an export promises: the same passphrase gives the role and the files exported; an encrypted
one is refused with another passphrase, unless that has the same key, and with a field altered while
its file map is absent; and no file map is accepted with another name. -/
structure Sound (ops : SetupOps Content Payload Cipher Document AD) (pf : Platform)
    (cfg : SetupConfig) (dir : Files Content) (args : ExportArgs ops.nonceSize)
    (data : Document) : Prop where
  round : ∃ out files, ops.exportFiles cfg dir = .ok out ∧
    ops.decode pf data args.passphrase = .ok (cfg.role, files) ∧
      ∀ name, files.lookup name = out.lookup name
  otherPassphrase : args.passphrase ≠ "" → ∀ p, p ≠ args.passphrase →
    ops.idKey p (exportKDF args) ≠ ops.idKey args.passphrase (exportKDF args) →
      ∃ err, ops.decode pf data p = .error err
  altered : args.passphrase ≠ "" → ∀ m m' data', ops.unmarshalManifest data = some m →
    Altered (ops.idKey args.passphrase) m m' → ops.unmarshalManifest data' = some m' →
      (∀ name, m'.files.lookup name = none) →
        ∃ err, ops.decode pf data' args.passphrase = .error err
  allowed : ∀ data p role files, ops.decode pf data p = .ok (role, files) →
    ∀ name ∈ files.keys, allowedFile name = true

/-- No identity file of the role that is there is empty. -/
def IdentityFilled (ops : SetupOps Content Payload Cipher Document AD) (cfg : SetupConfig)
    (dir : Files Content) : Prop :=
  ∀ name ∈ identityFiles cfg.role, ∀ data, dir.lookup name = some data →
    ops.isEmpty data = false

theorem missing_iff_empty (hout : ops.exportFiles cfg dir = .ok out)
    (hsame : ∀ name, files.lookup name = out.lookup name) :
    (if cfg.role = roleGateway then [fileCert, fileKey].find? (ops.missing files) else none) =
        none ↔ ops.IdentityFilled cfg dir := by
  have hread : ∀ name ∈ identityFiles cfg.role, files.lookup name = dir.lookup name := by
    intro name hname
    rw [hsame, exportFiles_lookup hout]
    exact carried_identity hname
  have hmissing : ∀ name ∈ identityFiles cfg.role,
      (ops.missing files name = false ↔
        ∀ data, dir.lookup name = some data → ops.isEmpty data = false) := by
    intro name hname
    obtain ⟨data, hdata⟩ := Option.ne_none_iff_exists'.1 (identity_read hout hname)
    rw [missing, hread name hname, hdata, Option.all_some]
    constructor
    · intro hfilled data' hdata'
      rw [← Option.some.inj hdata']
      exact hfilled
    · intro hfilled
      exact hfilled data rfl
  unfold IdentityFilled
  unfold identityFiles at hmissing ⊢
  by_cases hgateway : cfg.role = roleGateway
  · simp only [if_pos hgateway] at hmissing ⊢
    rw [List.find?_eq_none]
    constructor
    · intro hnone name hname
      exact (hmissing name hname).1 (Bool.eq_false_iff.2 (hnone name hname))
    · intro hfilled name hname
      rw [(hmissing name hname).2 (hfilled name hname)]
      exact Bool.false_ne_true
  · simp only [if_neg hgateway]
    exact ⟨fun _ name hname => absurd hname List.not_mem_nil, fun _ => trivial⟩

theorem checkFiles_exported (h : ops.Laws) (hvalid : cfg.validate pf = [])
    (hout : ops.exportFiles cfg dir = .ok out)
    (hsame : ∀ name, files.lookup name = out.lookup name) :
    ops.checkFiles pf cfg.role files =
      match (if cfg.role = roleGateway then [fileCert, fileKey].find? (ops.missing files)
        else none) with
      | some name => .error ("gateway setup file is missing " ++ name)
      | none => .ok (cfg.role, files) :=
  checkFiles_carried (h.config_round cfg) hvalid fun name =>
    (hsame name).trans (exportFiles_lookup hout name)

theorem checkFiles_filled (h : ops.Laws) (hvalid : cfg.validate pf = [])
    (hout : ops.exportFiles cfg dir = .ok out)
    (hsame : ∀ name, files.lookup name = out.lookup name) (hid : ops.IdentityFilled cfg dir) :
    ops.checkFiles pf cfg.role files = .ok (cfg.role, files) := by
  rw [checkFiles_exported h hvalid hout hsame, (missing_iff_empty hout hsame).2 hid]

theorem identity_filled (h : ops.Laws) (hvalid : cfg.validate pf = [])
    (hout : ops.exportFiles cfg dir = .ok out)
    (hsame : ∀ name, files.lookup name = out.lookup name)
    (hok : ops.checkFiles pf cfg.role files = .ok accepted) : ops.IdentityFilled cfg dir := by
  rw [checkFiles_exported h hvalid hout hsame] at hok
  split at hok
  · cases hok
  · rename_i hnone
    exact (missing_iff_empty hout hsame).1 hnone

theorem openManifest_refused (passphrase : String)
    (hclosed : ∀ k c, m.kdf = some k → m.ciphertext = some c →
      ops.aeadOpen (ops.idKey passphrase k) m.nonce c (ops.aad m.toSetupHeader) = none) :
    ∃ err, ops.openManifest m passphrase = .error err := by
  unfold openManifest
  split
  · rename_i k c hk hc
    split
    · exact ⟨_, rfl⟩
    · split
      · exact ⟨_, rfl⟩
      · split
        · exact ⟨_, rfl⟩
        · rw [hclosed k c hk hc]
          exact ⟨_, rfl⟩
  · exact ⟨_, rfl⟩

theorem decode_refused (hm : ops.unmarshalManifest data = some m) (hencrypted : m.encrypted = true)
    (hclosed : ∀ k c, m.kdf = some k → m.ciphertext = some c →
      ops.aeadOpen (ops.idKey passphrase k) m.nonce c (ops.aad m.toSetupHeader) = none) :
    ∃ err, ops.decode pf data passphrase = .error err := by
  unfold decode
  cases hparse : ops.parseManifest pf data with
  | error err => exact ⟨err, rfl⟩
  | ok m' =>
    obtain ⟨hm', -, -⟩ := parseManifest_ok hparse
    obtain rfl := Option.some.inj (hm.symm.trans hm')
    obtain ⟨err, hopen⟩ := openManifest_refused passphrase hclosed
    have hfiles : ∃ err, ops.filesOf m passphrase = .error err := by
      unfold filesOf
      rw [if_neg (not_not.2 hencrypted)]
      split
      · exact ⟨_, rfl⟩
      · exact ⟨err, hopen⟩
    obtain ⟨err, hfiles⟩ := hfiles
    exact ⟨err, by simp only [hfiles]⟩

theorem decode_absent (hm : ops.unmarshalManifest data = some m) (hplain : m.encrypted = false)
    (habsent : ∀ name, m.files.lookup name = none) :
    ∃ err, ops.decode pf data passphrase = .error err := by
  unfold decode
  cases hparse : ops.parseManifest pf data with
  | error err => exact ⟨err, rfl⟩
  | ok m' =>
    obtain ⟨hm', -, -⟩ := parseManifest_ok hparse
    obtain rfl := Option.some.inj (hm.symm.trans hm')
    have hfiles : ops.filesOf m passphrase = .ok m.files :=
      if_pos (by rw [hplain]; exact Bool.false_ne_true)
    refine ⟨"setup file is missing " ++ fileConfig, ?_⟩
    simp only [hfiles, checkFiles, habsent]

theorem checkFiles_allowed (h : ops.checkFiles pf role files = .ok (role', files')) :
    ∀ name ∈ files'.keys, allowedFile name = true := by
  unfold checkFiles at h
  split at h
  · cases h
  · split at h
    · cases h
    · split at h
      · cases h
      · split at h
        · cases h
        · split at h
          · cases h
          · split at h
            · cases h
            · rename_i hnone
              cases h
              intro name hname
              simpa using List.find?_eq_none.1 hnone name hname

theorem decode_allowed (h : ops.decode pf data p = .ok (role, files)) :
    ∀ name ∈ files.keys, allowedFile name = true := by
  unfold decode at h
  split at h
  · cases h
  · split at h
    · cases h
    · exact checkFiles_allowed h

section

variable {pf : Platform} {cfg : SetupConfig} {dir : Files Content}
  {args : ExportArgs ops.nonceSize} {data : Document}

theorem exportSetup_ok (hexport : ops.exportSetup pf cfg dir args = .ok data) :
    ∃ out, ops.exportFiles cfg dir = .ok out ∧ data = ops.marshalManifest
      (if args.passphrase = "" then
        { exportHeader cfg args with
          encrypted := false
          files := out
          kdf := none
          nonce := []
          ciphertext := none }
      else ops.sealManifest (exportHeader cfg args) out args) := by
  unfold exportSetup at hexport
  split at hexport
  · cases hexport
  · split at hexport
    · cases hexport
    · split at hexport
      · cases hexport
      · rename_i out hout
        refine ⟨out, hout, ?_⟩
        split at hexport
        · rename_i hplain
          cases hexport
          rw [if_pos hplain]
        · rename_i hpass
          cases hexport
          rw [if_neg hpass]

theorem exported_sealed (h : ops.Laws) (hexport : ops.exportSetup pf cfg dir args = .ok data)
    (hpass : args.passphrase ≠ "") :
    ∃ out fs, ops.exportFiles cfg dir = .ok out ∧ (∀ name, fs.lookup name = none) ∧
      ops.unmarshalManifest data = some
        { ops.sealManifest (exportHeader cfg args) out args with files := fs } := by
  obtain ⟨out, hout, hdata⟩ := exportSetup_ok hexport
  rw [if_neg hpass] at hdata
  obtain ⟨fs, hm, hsame⟩ := h.manifest_round (ops.sealManifest (exportHeader cfg args) out args)
  refine ⟨out, fs, hout, ?_, by rw [hdata]; exact hm⟩
  intro name
  rw [hsame]
  exact AList.lookup_empty _

theorem openManifest_exported (h : ops.Laws) (hideal : ops.ExportIdeal cfg dir args)
    (hout : ops.exportFiles cfg dir = .ok out) (fs : Files Content) :
    ∃ files, ops.openManifest { ops.sealManifest (exportHeader cfg args) out args with files := fs }
        args.passphrase = .ok files ∧ ∀ name, files.lookup name = out.lookup name := by
  obtain ⟨files, hround, hsame⟩ := h.files_round out
  exact ⟨files, openManifest_sealed args h.nonceSize_pos hround _ fs (hideal out hout).opens, hsame⟩

theorem decode_exported (h : ops.Laws) (hrole : cfg.role = roleAgent ∨ cfg.role = roleGateway)
    (hexport : ops.exportSetup pf cfg dir args = .ok data)
    (hideal : args.passphrase ≠ "" → ops.ExportIdeal cfg dir args) :
    ∃ out files, ops.exportFiles cfg dir = .ok out ∧
      (∀ name, files.lookup name = out.lookup name) ∧
        ops.decode pf data args.passphrase = ops.checkFiles pf cfg.role files := by
  by_cases hplain : args.passphrase = ""
  · obtain ⟨out, hout, hdata⟩ := exportSetup_ok hexport
    rw [if_pos hplain] at hdata
    obtain ⟨fs, hm, hsame⟩ := h.manifest_round
      { exportHeader cfg args with
        encrypted := false
        files := out
        kdf := none
        nonce := []
        ciphertext := none }
    rw [← hdata] at hm
    refine ⟨out, fs, hout, hsame, ?_⟩
    simp only [decode, parseManifest_export hm rfl rfl hrole]
    rfl
  · obtain ⟨out, fs, hout, -, hm⟩ := exported_sealed h hexport hplain
    obtain ⟨files, hopen, hsame⟩ := openManifest_exported h (hideal hplain) hout fs
    have hfiles := (filesOf_encrypted rfl hplain).trans hopen
    refine ⟨out, files, hout, hsame, ?_⟩
    simp only [decode, parseManifest_export hm rfl rfl hrole, hfiles]
    rfl

theorem other_passphrase_refused (h : ops.Laws)
    (hexport : ops.exportSetup pf cfg dir args = .ok data)
    (hideal : args.passphrase ≠ "" → ops.ExportIdeal cfg dir args) (hpass : args.passphrase ≠ "")
    (hkey : ops.idKey p (exportKDF args) ≠ ops.idKey args.passphrase (exportKDF args)) :
    ∃ err, ops.decode pf data p = .error err := by
  obtain ⟨out, fs, hout, -, hm⟩ := exported_sealed h hexport hpass
  refine decode_refused hm rfl ?_
  intro k c hk hc
  obtain rfl := Option.some.inj hk
  obtain rfl := Option.some.inj hc
  by_contra hopen
  exact hkey ((hideal hpass out hout).one_place _ _ _ hopen).1

theorem aad_inj (h : ops.Laws) (heq : ops.aad header = ops.aad header') : header = header' := by
  obtain ⟨parse, hparse⟩ := h.header_round
  exact Option.some.inj ((hparse header).symm.trans ((congrArg parse heq).trans (hparse header')))

theorem altered_refused (h : ops.Laws)
    (hexport : ops.exportSetup pf cfg dir args = .ok data)
    (hideal : args.passphrase ≠ "" → ops.ExportIdeal cfg dir args) (hpass : args.passphrase ≠ "")
    (hm : ops.unmarshalManifest data = some m) (hm' : ops.unmarshalManifest data' = some m')
    (haltered : Altered (ops.idKey args.passphrase) m m')
    (habsent : ∀ name, m'.files.lookup name = none) :
    ∃ err, ops.decode pf data' args.passphrase = .error err := by
  obtain ⟨out, fs, hout, -, hm₀⟩ := exported_sealed h hexport hpass
  obtain rfl := Option.some.inj (hm₀.symm.trans hm)
  have hsealed := hideal hpass out hout
  -- A changed header has another encoding, which is not the additional data sealed.
  have hheader : ∀ header : SetupHeader, header ≠ exportHeader cfg args →
      ops.unmarshalManifest data' = some
        { ops.sealManifest header out args with
          files := fs
          ciphertext := (ops.sealManifest (exportHeader cfg args) out args).ciphertext } →
        ∃ err, ops.decode pf data' args.passphrase = .error err := by
    intro header hne hm'
    refine decode_refused hm' rfl ?_
    intro k c hk hc
    obtain rfl := Option.some.inj hk
    obtain rfl := Option.some.inj hc
    by_contra hopen
    exact hne (aad_inj h (hsealed.one_place _ _ _ hopen).2.2)
  cases haltered with
  | role hr => exact hheader _ (fun heq => hr (congrArg SetupHeader.role heq)) hm'
  | version hv => exact hheader _ (fun heq => hv (congrArg SetupHeader.appVersion heq)) hm'
  | date ht => exact hheader _ (fun heq => ht (congrArg SetupHeader.exportedAt heq)) hm'
  | app ha => exact hheader _ (fun heq => ha (congrArg SetupHeader.app heq)) hm'
  | format hf => exact hheader _ (fun heq => hf (congrArg SetupHeader.formatVersion heq)) hm'
  | encrypted he => exact decode_absent hm' (Bool.eq_false_iff.2 he) habsent
  | nonce hn =>
    refine decode_refused hm' rfl ?_
    intro k c hk hc
    obtain rfl := Option.some.inj hk
    obtain rfl := Option.some.inj hc
    by_contra hopen
    exact hn (hsealed.one_place _ _ _ hopen).2.1
  | salt hk₀ hkey =>
    obtain rfl := Option.some.inj hk₀
    refine decode_refused hm' rfl ?_
    intro k c hk hc
    obtain rfl := Option.some.inj hk
    obtain rfl := Option.some.inj hc
    by_contra hopen
    exact hkey (hsealed.one_place _ _ _ hopen).1
  | ciphertext hc₀ =>
    refine decode_refused hm' rfl ?_
    intro k c hk hc
    obtain rfl := Option.some.inj hk
    by_contra hopen
    exact hc₀ (hc.trans (congrArg some (hsealed.one_use _ _ hopen)))

/-- An export is sound exactly when no identity file in it is empty. -/
theorem export_sound_iff (h : ops.Laws) (hrole : cfg.role = roleAgent ∨ cfg.role = roleGateway)
    (hvalid : cfg.validate pf = []) (hexport : ops.exportSetup pf cfg dir args = .ok data)
    (hideal : args.passphrase ≠ "" → ops.ExportIdeal cfg dir args) :
    ops.Sound pf cfg dir args data ↔ ops.IdentityFilled cfg dir := by
  obtain ⟨out, files, hout, hsame, hdecode⟩ := decode_exported h hrole hexport hideal
  constructor
  · intro hsound
    obtain ⟨-, files', -, hok, -⟩ := hsound.round
    exact identity_filled h hvalid hout hsame (hdecode.symm.trans hok)
  · intro hid
    have hok := checkFiles_filled h hvalid hout hsame hid
    exact {
      round := ⟨out, files, hout, hdecode.trans hok, hsame⟩
      otherPassphrase := fun hpass p _ hkey => other_passphrase_refused h hexport hideal hpass hkey
      altered := fun hpass m m' data' hm haltered hm' habsent =>
        altered_refused h hexport hideal hpass hm hm' haltered habsent
      allowed := fun _ _ _ _ hok => decode_allowed hok }

end

end SetupOps

def sampleArgs (passphrase : String) : ExportArgs 12 :=
  ⟨"1.2.3", 0, passphrase, Vector.replicate 16 7, Vector.replicate 12 9⟩

/-- A gateway's directory. -/
def gatewayDir (crt : String) : Files PlainContent :=
  ((∅ : Files PlainContent).insert fileCert (.text crt)).insert fileKey (.text "key")

def gatewayFiles : Files PlainContent :=
  ((AList.insert fileConfig (.config gatewayConfig) ∅).insert fileCert (.text "crt")).insert
    fileKey (.text "key")

/-- Libraries whose encodings are the values themselves, and a cipher that has sealed one export of
the gateway. -/
def sealedOps : SetupOps PlainContent (Files PlainContent) Bytes (Manifest PlainContent Bytes)
    SetupHeader where
  marshalConfig := plainLibs.marshalConfig
  unmarshalConfig := plainLibs.unmarshalConfig
  marshalFiles files := files
  unmarshalFiles files := .ok files
  marshalManifest m := m
  unmarshalManifest m := some m
  aad := id
  idKey := plainLibs.idKey
  nonceSize := 12
  aeadSeal _ _ _ _ := [1, 2, 3]
  aeadOpen k n c ad :=
    if k = plainLibs.idKey "hunter2" (SetupOps.exportKDF (sampleArgs "hunter2")) ∧
        n = (sampleArgs "hunter2").nonce.toList ∧ c = [1, 2, 3] ∧
        ad = SetupOps.exportHeader gatewayConfig (sampleArgs "hunter2")
    then some gatewayFiles else none
  isEmpty := plainLibs.isEmpty
  readError := plainLibs.readError

namespace SetupOps

theorem gateway_valid : gatewayConfig.validate plainPlatform = [] := by decide +kernel

theorem gateway_sound : ∃ data,
    sealedOps.exportSetup plainPlatform gatewayConfig (gatewayDir "crt") (sampleArgs "hunter2") =
      .ok data ∧
    sealedOps.Sound plainPlatform gatewayConfig (gatewayDir "crt") (sampleArgs "hunter2") data := by
  have hlaws : sealedOps.Laws := {
    config_round := plainLibs.config_round
    files_round := plainLibs.files_round
    manifest_round := fun m => ⟨m.files, rfl, fun _ => rfl⟩
    header_round := ⟨some, fun _ => rfl⟩
    nonceSize_pos := by decide }
  have hfiles : sealedOps.exportFiles gatewayConfig (gatewayDir "crt") = .ok gatewayFiles := rfl
  have hexport : sealedOps.exportSetup plainPlatform gatewayConfig (gatewayDir "crt")
      (sampleArgs "hunter2") = .ok (sealedOps.sealManifest
        (exportHeader gatewayConfig (sampleArgs "hunter2")) gatewayFiles
        (sampleArgs "hunter2")) := by
    have hcheck : gatewayConfig.validationError plainPlatform = none := by
      rw [Config.validationError, gateway_valid]
    simp only [exportSetup, hcheck, hfiles]
    rfl
  have hideal : sealedOps.ExportIdeal gatewayConfig (gatewayDir "crt") (sampleArgs "hunter2") := by
    intro files hout
    obtain rfl := Except.ok.inj (hfiles.symm.trans hout)
    constructor
    · exact if_pos ⟨rfl, rfl, rfl, rfl⟩
    · intro c ad' hopen
      by_contra hne
      exact hopen (if_neg fun heq => hne heq.2.2.1)
    · intro k' n' ad' hopen
      by_contra hne
      exact hopen (if_neg fun heq => hne ⟨heq.1, heq.2.1, heq.2.2.2⟩)
  have hfilled : sealedOps.IdentityFilled gatewayConfig (gatewayDir "crt") := by
    intro name hname content hcontent
    rcases identityFiles_sub hname with rfl | rfl
    · obtain rfl := Option.some.inj hcontent
      decide
    · obtain rfl := Option.some.inj hcontent
      decide
  exact ⟨_, hexport, (export_sound_iff hlaws (Or.inr rfl) gateway_valid hexport fun _ =>
    hideal).2 hfilled⟩

/-- With an empty certificate, the export is made and then refused. -/
theorem empty_identity_refused : ∃ data,
    plainLibs.toSetupOps.exportSetup plainPlatform gatewayConfig (gatewayDir "") (sampleArgs "") =
      .ok data ∧
    plainLibs.toSetupOps.decode plainPlatform data "" =
      .error "gateway setup file is missing gateway.crt" ∧
    ¬ plainLibs.toSetupOps.Sound plainPlatform gatewayConfig (gatewayDir "") (sampleArgs "")
        data := by
  have hlaws : plainLibs.toSetupOps.Laws := {
    config_round := plainLibs.config_round
    files_round := plainLibs.files_round
    manifest_round := plainLibs.manifest_round
    header_round := ⟨some, fun _ => rfl⟩
    nonceSize_pos := plainLibs.nonceSize_pos }
  obtain ⟨exported, hfiles, hcert⟩ : ∃ out,
      plainLibs.toSetupOps.exportFiles gatewayConfig (gatewayDir "") = .ok out ∧
        out.lookup fileCert = some (.text "") := ⟨_, rfl, rfl⟩
  obtain ⟨data, hexport⟩ : ∃ data, plainLibs.toSetupOps.exportSetup plainPlatform gatewayConfig
      (gatewayDir "") (sampleArgs "") = .ok data := by
    have hcheck : gatewayConfig.validationError plainPlatform = none := by
      rw [Config.validationError, gateway_valid]
    simp only [exportSetup, hcheck, hfiles]
    exact ⟨_, rfl⟩
  obtain ⟨out, files, hout, hsame, hdecode⟩ :=
    decode_exported hlaws (Or.inr rfl) hexport fun hpass => absurd rfl hpass
  have hrefused : plainLibs.toSetupOps.decode plainPlatform data "" =
      .error "gateway setup file is missing gateway.crt" := by
    have hempty : plainLibs.toSetupOps.missing files fileCert = true := by
      obtain rfl := Except.ok.inj (hfiles.symm.trans hout)
      rw [missing, hsame, hcert]
      rfl
    have hchecked := checkFiles_exported hlaws gateway_valid hout hsame
    simp only [List.find?, hempty] at hchecked
    exact hdecode.trans hchecked
  refine ⟨data, hexport, hrefused, ?_⟩
  intro hsound
  obtain ⟨_, _, -, hok, -⟩ := hsound.round
  cases hrefused.symm.trans hok

end SetupOps

end ProxyForward

import ProxyForward.Ownership

namespace ProxyForward
set_option autoImplicit true

/-- The opening message of a control connection, as far as it decides who is admitted. -/
structure Hello where
  token : String
  agentID : String
  agentPubKey : PubKey
  agentSig : String
  enrollTicket : String
  capabilities : List String
  configHash : String
  configGeneration : Nat
  deriving DecidableEq, Repr

/-- What a validator resolves a hello to; `pubKey` is set only for a verified key. -/
structure Identity where
  agentID : String
  pubKey : Option PubKey
  scope : Scope
  deriving DecidableEq, Repr

inductive ValidateError where
  | badToken
  | missingAgentID
  | revoked
  | reservedAgentID
  | enroll (e : EnrollError)
  deriving DecidableEq, Repr

/-- The credentials of a gateway. `sharedToken` is `none` once such tokens are turned off;
`fingerprint` renders the digest of a key and `verify` is the signature check. -/
structure Authority where
  sharedToken : Option String
  certFP : String
  fingerprint : PubKey → String
  verify : PubKey → String → String → Bool

def agentIDPrefix : String := "agt_"

def Authority.agentID (auth : Authority) (pub : PubKey) : String :=
  agentIDPrefix ++ auth.fingerprint pub

def isDerivedAgentID (s : String) : Bool := agentIDPrefix.toList.isPrefixOf s.toList

def agentAuthMessage (certFP : String) : String := "proxyforward-agent-auth-v1\x00" ++ certFP

def ed25519PublicKeySize : Nat := 32

def Authority.verifyAgentAuth (auth : Authority) (pub : PubKey) (sig : String) : Bool :=
  if pub.length ≠ ed25519PublicKeySize then false
  else auth.verify pub (agentAuthMessage auth.certFP) sig

namespace Authority

/-- The legacy authenticator: a token admits every agent under the id it asserts, but for the ids
that derive from keys. -/
def sharedTokenValidate (token : String) (hello : Hello) : Except ValidateError Identity :=
  if hello.token ≠ token then .error .badToken
  else if hello.agentID = "" then .error .missingAgentID
  else if isDerivedAgentID hello.agentID then .error .reservedAgentID
  else .ok ⟨hello.agentID, none, ⟨[], []⟩⟩

/-- A hello whose key gave `err`: revocations and ticket errors are final, anything else falls back
to a token that is offered and still accepted. -/
def fallback (auth : Authority) (hello : Hello) (err : ValidateError) :
    Except ValidateError Identity :=
  match err with
  | .revoked | .enroll .ticketUnknown | .enroll .ticketConsumed | .enroll .ticketExpired =>
    .error err
  | _ =>
    match auth.sharedToken with
    | some token => if hello.token ≠ "" then sharedTokenValidate token hello else .error err
    | none => .error err

/-- Where a set-up stands after the lookup of its key. -/
inductive Looked where
  | decided (r : Except ValidateError Identity)
  | unknown

/-- Validation up to and with the lookup; an unknown key with a ticket has yet to enroll. -/
def validate (auth : Authority) (store : AgentStore) (hello : Hello) : Looked :=
  if hello.agentPubKey = "" then
    match auth.sharedToken with
    | some token => .decided (sharedTokenValidate token hello)
    | none => .decided (.error .badToken)
  else if ¬auth.verifyAgentAuth hello.agentPubKey hello.agentSig then
    .decided (auth.fallback hello .badToken)
  else match store.lookup hello.agentPubKey with
    | some r =>
      if r.revoked then .decided (.error .revoked)
      else .decided (.ok ⟨r.agentID, some hello.agentPubKey, r.scope⟩)
    | none =>
      if hello.enrollTicket = "" then .decided (auth.fallback hello .badToken)
      else .unknown

/-- The enrollment of a key that the lookup did not find. -/
def enroll (auth : Authority) (store : AgentStore) (hello : Hello) (now : Int) (written : Bool) :
    Except ValidateError Identity × AgentStore :=
  match store.enroll hello.agentPubKey (auth.agentID hello.agentPubKey) hello.enrollTicket now
      written with
  | (.ok r, store) => (.ok ⟨r.agentID, some hello.agentPubKey, r.scope⟩, store)
  | (.error e, store) => (auth.fallback hello (.enroll e), store)

end Authority

/-- The session that a validated hello is admitted as; gateway-authoritative config is negotiated
only for enrolled agents. -/
def buildSession (ptr : Nat) (hello : Hello) (remoteIP : String) (i : Identity) : AgentSession :=
  let negotiated := intersectCaps hello.capabilities supportedCapabilities
  { ptr := ptr, agentID := i.agentID, remoteIP := remoteIP, scope := i.scope
    enrolled := i.pubKey.isSome, identityKey := i.pubKey
    reportedConfigHash := hello.configHash, configGeneration := hello.configGeneration
    caps := if i.pubKey.isSome then negotiated else withoutCap negotiated capGatewayConfig }

/-- A gateway that takes keys only, with a signature that names its key. -/
def keyAuthority : Authority := ⟨none, "fp", id, fun pub _ sig => pub = sig⟩

def sampleKey : PubKey := "0123456789abcdefghjkmnpqrstvwxyz"

/-- The first hello of a machine, with a pairing ticket. -/
def joinHello : Hello :=
  ⟨"", "", sampleKey, sampleKey, "ticket", supportedCapabilities, "", 0⟩

/-- The identity speaks for a key under the id derived from it, or for no key and no derived id. -/
def Authority.Names (auth : Authority) (pubKey : Option PubKey) (agentID : String) : Prop :=
  match pubKey with
  | some key => agentID = auth.agentID key
  | none => isDerivedAgentID agentID = false

/-- Every record is filed under the key its agent id derives from, and no two share an id. -/
structure AgentStore.Keyed (s : AgentStore) (auth : Authority) : Prop where
  derived : ∀ key r, s.lookup key = some r → r.agentID = auth.agentID key
  unique : ∀ key r key' r', s.lookup key = some r → s.lookup key' = some r' →
    r.agentID = r'.agentID → key = key'

theorem empty_keyed (auth : Authority) : AgentStore.empty.Keyed auth := ⟨nofun, nofun⟩

theorem derived_agentID (auth : Authority) (key : PubKey) :
    isDerivedAgentID (auth.agentID key) = true := by
  simp only [isDerivedAgentID, Authority.agentID, String.toList_append, List.isPrefixOf_iff_prefix]
  exact List.prefix_append _ _

theorem sharedTokenValidate_names (h : Authority.sharedTokenValidate token hello = .ok i) :
    i.pubKey = none ∧ isDerivedAgentID i.agentID = false := by
  unfold Authority.sharedTokenValidate at h
  split at h
  · cases h
  · split at h
    · cases h
    · split at h
      · cases h
      · rename_i hd
        cases h
        exact ⟨rfl, Bool.eq_false_iff.2 hd⟩

theorem fallback_names {auth : Authority} (h : auth.fallback hello err = .ok i) :
    i.pubKey = none ∧ isDerivedAgentID i.agentID = false := by
  unfold Authority.fallback at h
  split at h
  case h_5 =>
    split at h
    · split at h
      · exact sharedTokenValidate_names h
      · cases h
    · cases h
  all_goals cases h

theorem validate_ok {auth : Authority} {store : AgentStore} (hk : store.Keyed auth)
    (h : auth.validate store hello = .decided (.ok i)) :
    auth.Names i.pubKey i.agentID ∧ ∀ key ∈ i.pubKey, (store.lookup key).isSome := by
  have hnone : i.pubKey = none ∧ isDerivedAgentID i.agentID = false →
      auth.Names i.pubKey i.agentID ∧ ∀ key ∈ i.pubKey, (store.lookup key).isSome := by
    rintro ⟨hp, hd⟩
    rw [hp]
    exact ⟨hd, nofun⟩
  unfold Authority.validate at h
  split at h
  · split at h
    · exact hnone (sharedTokenValidate_names (Authority.Looked.decided.inj h))
    · cases h
  · split at h
    · exact hnone (fallback_names (Authority.Looked.decided.inj h))
    · split at h
      · rename_i r hr
        split at h
        · cases h
        · cases h
          refine ⟨hk.derived _ r hr, ?_⟩
          rintro key ⟨⟩
          rw [hr]
          rfl
      · split at h
        · exact hnone (fallback_names (Authority.Looked.decided.inj h))
        · cases h

namespace AgentStore

/-- No two keys answer to one agent id. -/
def Distinct (s : AgentStore) : Prop :=
  ∀ key r key' r', s.lookup key = some r → s.lookup key' = some r' →
    r.agentID = r'.agentID → key = key'

theorem Distinct.find?_of_lookup {s : AgentStore} (hs : s.Distinct)
    (h : s.lookup key = some r) : s.find? r.agentID = some (key, r) := by
  have hm : Sigma.mk key r ∈ s.agents.entries := AList.mem_lookup_iff.1 h
  cases hf : s.find? r.agentID with
  | none =>
    simp only [find?, Option.map_eq_none_iff, List.find?_eq_none] at hf
    exact absurd (decide_eq_true rfl) (hf _ hm)
  | some e =>
    obtain ⟨key', r'⟩ := e
    have hl := find?_lookup hf
    have he := hs _ _ _ _ hl h (find?_agentID hf)
    subst he
    rw [lookup, hl] at h
    cases h
    rfl

theorem lookup_of_find? {s : AgentStore} (h : s.find? i = some (key, r)) :
    s.lookup key = some r := find?_lookup h

theorem lookup_mutate {s : AgentStore} (hf : s.find? i = some (k, r)) :
    (s.mutate i fn w).2.lookup key = if key = k then some (fn r) else s.lookup key := by
  rw [mutate_some hf, lookup, save_agents]
  exact lookup_insert_eq _ _ _ _

theorem lookup_mutate_agentID {s : AgentStore} (hfn : ∀ r, (fn r).agentID = r.agentID)
    (h : (s.mutate i fn w).2.lookup key = some r') :
    ∃ r, s.lookup key = some r ∧ r.agentID = r'.agentID := by
  cases hf : s.find? i with
  | none =>
    rw [mutate_none hf] at h
    exact ⟨r', h, rfl⟩
  | some e =>
    obtain ⟨k, r⟩ := e
    rw [lookup_mutate hf] at h
    split at h
    · subst key
      cases h
      exact ⟨r, find?_lookup hf, (hfn r).symm⟩
    · exact ⟨r', h, rfl⟩

theorem Distinct.mutate {s : AgentStore} (hs : s.Distinct)
    (hfn : ∀ r, (fn r).agentID = r.agentID) : (s.mutate i fn w).2.Distinct := by
  intro key r₁ key' r₂ h₁ h₂ he
  obtain ⟨r₁', h₁', e₁⟩ := lookup_mutate_agentID hfn h₁
  obtain ⟨r₂', h₂', e₂⟩ := lookup_mutate_agentID hfn h₂
  exact hs _ _ _ _ h₁' h₂' (e₁.trans (he.trans e₂.symm))

theorem Keyed.mutate {s : AgentStore} {auth : Authority} (hk : s.Keyed auth)
    (hfn : ∀ r, (fn r).agentID = r.agentID) : (s.mutate i fn w).2.Keyed auth := by
  refine ⟨fun key r' h => ?_, Distinct.mutate hk.unique hfn⟩
  obtain ⟨r, hr, he⟩ := lookup_mutate_agentID hfn h
  exact he.symm.trans (hk.derived key r hr)

/-- A ticket that would enroll a key under an agent id. -/
def accepts (s : AgentStore) (pubKey : PubKey) (agentID ticket : String) (now : Int) : Prop :=
  ∃ n ∈ s.nonces.lookup ticket, n.consumed = false ∧ expired n now = false ∧
    s.collides pubKey agentID = false

instance (s : AgentStore) (pubKey : PubKey) (agentID ticket : String) (now : Int) :
    Decidable (s.accepts pubKey agentID ticket now) := by
  unfold accepts
  infer_instance

theorem accepts_iff {s : AgentStore} (hn : s.nonces.lookup ticket = some n) :
    s.accepts pubKey agentID ticket now ↔ n.consumed = false ∧ expired n now = false ∧
      s.collides pubKey agentID = false := by
  simp only [accepts, hn, Option.mem_def, Option.some.injEq, exists_eq_left']

/-- Everything an enrollment can do: refuse and leave the store alone, or file a fresh record under
the key, with the ticket's scope. -/
theorem enroll_cases (s : AgentStore) (pubKey : PubKey) (agentID ticket : String) (now : Int)
    (written : Bool) :
    (¬s.accepts pubKey agentID ticket now ∧
      ∃ e, s.enroll pubKey agentID ticket now written = (.error e, s)) ∨
    ∃ n, s.nonces.lookup ticket = some n ∧ s.accepts pubKey agentID ticket now ∧
      s.enroll pubKey agentID ticket now written =
        (if written then .ok (s.newRecord pubKey agentID n now) else .error .save,
          (consume { s with agents := s.agents.insert pubKey (s.newRecord pubKey agentID n now) }
            ticket n).save written) := by
  cases hn : s.nonces.lookup ticket with
  | none =>
    refine .inl ⟨?_, .ticketUnknown, by simp only [enroll, hn]⟩
    rintro ⟨m, hm, -⟩
    cases hn.symm.trans hm
  | some n =>
    rw [accepts_iff hn]
    by_cases hc : n.consumed = true
    · refine .inl ⟨fun h => ?_, .ticketConsumed, ?_⟩
      · cases hc.symm.trans h.1
      · simp only [enroll, hn, hc, if_true]
    by_cases hx : expired n now = true
    · refine .inl ⟨fun h => ?_, .ticketExpired, ?_⟩
      · cases hx.symm.trans h.2.1
      · simp only [enroll, hn, if_neg hc, hx, if_true]
    by_cases hl : s.collides pubKey agentID = true
    · refine .inl ⟨fun h => ?_, .agentIDCollision, ?_⟩
      · cases hl.symm.trans h.2.2
      · simp only [enroll, hn, if_neg hc, if_neg hx, hl, if_true]
    refine .inr ⟨n, rfl, ?_, by simp only [enroll, hn, if_neg hc, if_neg hx, if_neg hl]⟩
    rw [Bool.not_eq_true] at hc hx hl
    exact ⟨hc, hx, hl⟩

theorem lookup_enrolled (s : AgentStore) (pubKey key : PubKey) (r : AgentRecord)
    (ticket : String) (n : EnrollNonce) (written : Bool) :
    ((consume { s with agents := s.agents.insert pubKey r } ticket n).save written).lookup key =
      if key = pubKey then some r else s.lookup key := by
  rw [lookup, save_agents, consume_agents]
  exact lookup_insert_eq _ _ _ _

theorem Distinct.enroll {s : AgentStore} (hs : s.Distinct) (pubKey : PubKey)
    (agentID ticket : String) (now : Int) (written : Bool) :
    (s.enroll pubKey agentID ticket now written).2.Distinct := by
  rcases enroll_cases s pubKey agentID ticket now written with ⟨-, e, he⟩ | ⟨n, -, hacc, he⟩
  · rw [he]
    exact hs
  · obtain ⟨-, -, -, -, hcol⟩ := hacc
    have hno : ∀ key r', s.lookup key = some r' → key ≠ pubKey → r'.agentID ≠ agentID := by
      intro key r' hl hne hsame
      have hm : Sigma.mk key r' ∈ s.agents.entries := AList.mem_lookup_iff.1 hl
      simp only [collides, List.any_eq_false] at hcol
      have hc := hcol _ hm
      simp only [hsame, hne, ne_eq, not_false_eq_true, decide_true, Bool.and_self,
        not_true_eq_false] at hc
    rw [he]
    intro key r₁ key' r₂ h₁ h₂ hsame
    rw [lookup_enrolled] at h₁ h₂
    split at h₁ <;> split at h₂
    · rename_i e₁ e₂
      exact e₁.trans e₂.symm
    · cases h₁
      exact absurd hsame.symm (hno key' r₂ h₂ ‹_›)
    · cases h₂
      exact absurd hsame (hno key r₁ h₁ ‹_›)
    · exact hs _ _ _ _ h₁ h₂ hsame

theorem Keyed.enroll {s : AgentStore} {auth : Authority} (hk : s.Keyed auth) (pubKey : PubKey)
    (ticket : String) (now : Int) (written : Bool) :
    (s.enroll pubKey (auth.agentID pubKey) ticket now written).2.Keyed auth := by
  refine ⟨fun key r' h => ?_, Distinct.enroll hk.unique pubKey _ ticket now written⟩
  rcases enroll_cases s pubKey (auth.agentID pubKey) ticket now written with
    ⟨-, e, he⟩ | ⟨n, -, -, he⟩
  · rw [he] at h
    exact hk.derived key r' h
  · rw [he, lookup_enrolled] at h
    split at h
    · subst key
      cases h
      rfl
    · exact hk.derived key r' h

end AgentStore

end ProxyForward

import ProxyForward.StoreOps

namespace ProxyForward
set_option autoImplicit true

namespace Authority

variable {auth : Authority} {store : AgentStore} {hello : Hello} {i : Identity}

/-- The whole of a validation: the lookup of the hello's key, and the enrollment of a key that was
not found. -/
def compositeValidate (auth : Authority) (store : AgentStore) (hello : Hello) (now : Int)
    (written : Bool) : Except ValidateError Identity × AgentStore :=
  match auth.validate store hello with
  | .decided r => (r, store)
  | .unknown => auth.enroll store hello now written

/-- The identity is that of an unrevoked record of the hello's key. -/
def Backed (store : AgentStore) (hello : Hello) (i : Identity) : Prop :=
  ∃ r, store.lookup hello.agentPubKey = some r ∧ r.revoked = false ∧
    r.agentID = i.agentID ∧ r.scope = i.scope

theorem not_derived (h : i.pubKey = none ∧ isDerivedAgentID i.agentID = false) :
    ¬isDerivedAgentID i.agentID = true := by
  rw [h.2]
  exact Bool.false_ne_true

theorem validate_derived (h : auth.validate store hello = .decided (.ok i))
    (hd : isDerivedAgentID i.agentID = true) :
    auth.verifyAgentAuth hello.agentPubKey hello.agentSig = true ∧ Backed store hello i := by
  unfold validate at h
  split at h
  · split at h
    · exact absurd hd (not_derived (sharedTokenValidate_names (Looked.decided.inj h)))
    · cases h
  · split at h
    · exact absurd hd (not_derived (fallback_names (Looked.decided.inj h)))
    · rename_i hsig
      split at h
      · rename_i r hr
        split at h
        · cases h
        · rename_i hrev
          cases h
          exact ⟨not_not.1 hsig, r, hr, Bool.not_eq_true _ ▸ hrev, rfl, rfl⟩
      · split at h
        · exact absurd hd (not_derived (fallback_names (Looked.decided.inj h)))
        · cases h

theorem validate_unknown (h : auth.validate store hello = .unknown) :
    auth.verifyAgentAuth hello.agentPubKey hello.agentSig = true ∧
      store.lookup hello.agentPubKey = none := by
  unfold validate at h
  split at h
  · split at h <;> cases h
  · split at h
    · cases h
    · rename_i hsig
      split at h
      · split at h <;> cases h
      · exact ⟨not_not.1 hsig, ‹_›⟩

theorem enroll_derived (h : auth.enroll store hello now written = (.ok i, store'))
    (hd : isDerivedAgentID i.agentID = true) :
    store.accepts hello.agentPubKey (auth.agentID hello.agentPubKey) hello.enrollTicket now ∧
      Backed store' hello i := by
  obtain ⟨-, e, he⟩ | ⟨n, hn, hacc, he⟩ := AgentStore.enroll_cases store hello.agentPubKey
    (auth.agentID hello.agentPubKey) hello.enrollTicket now written
  · simp only [enroll, he, Prod.mk.injEq] at h
    exact absurd hd (not_derived (fallback_names h.1))
  · cases written with
    | false =>
      simp only [enroll, he, Bool.false_eq_true, if_false, Prod.mk.injEq] at h
      exact absurd hd (not_derived (fallback_names h.1))
    | true =>
      simp only [enroll, he, if_true, Prod.mk.injEq, Except.ok.injEq] at h
      obtain ⟨rfl, rfl⟩ := h
      refine ⟨hacc, _, AgentStore.lookup_enrolled _ _ _ _ _ _ _ |>.trans (if_pos rfl), rfl,
        rfl, rfl⟩

end Authority

/-- A hello is authenticated under a derived id only by a signature of its key over this gateway's
message, and an unrevoked record of that key with the very id and scope: one that was there, or one
that this call enrolled with a ticket the store accepts. -/
def Authority.Proved (auth : Authority) (store : AgentStore) (hello : Hello) (now : Int)
    (i : Identity) (store' : AgentStore) : Prop :=
  auth.verify hello.agentPubKey (agentAuthMessage auth.certFP) hello.agentSig = true ∧
  Authority.Backed store' hello i ∧
  (store' = store ∨ store.lookup hello.agentPubKey = none ∧
    store.accepts hello.agentPubKey (auth.agentID hello.agentPubKey) hello.enrollTicket now)

theorem Authority.verify_of_auth {auth : Authority} (h : auth.verifyAgentAuth pub sig = true) :
    auth.verify pub (agentAuthMessage auth.certFP) sig = true := by
  unfold Authority.verifyAgentAuth at h
  split at h
  · cases h
  · exact h

theorem Authority.proved_of_derived {auth : Authority} {i : Identity}
    (h : auth.compositeValidate store hello now written = (.ok i, store'))
    (hd : isDerivedAgentID i.agentID = true) : auth.Proved store hello now i store' := by
  unfold Authority.compositeValidate at h
  split at h
  · rename_i r hr
    obtain ⟨rfl, rfl⟩ := Prod.mk.inj h
    obtain ⟨hsig, hback⟩ := Authority.validate_derived hr hd
    exact ⟨Authority.verify_of_auth hsig, hback, .inl rfl⟩
  · rename_i hu
    obtain ⟨hsig, hnone⟩ := Authority.validate_unknown hu
    obtain ⟨hacc, hback⟩ := Authority.enroll_derived h hd
    exact ⟨Authority.verify_of_auth hsig, hback, .inr ⟨hnone, hacc⟩⟩

/-- One call of a gateway's life: a hello to validate, or an operator's call on the store. -/
inductive AuthCall where
  | validate (hello : Hello) (now : Int) (written : Bool)
  | manage (op : StoreOp) (written : Bool)

/-- Keys enroll only by hellos. -/
def StoreOp.enrolls : StoreOp → Bool
  | .enroll .. => true
  | _ => false

namespace Authority

def authStep (auth : Authority) (store : AgentStore) : AuthCall → Option AgentStore
  | .validate hello now written => some (auth.compositeValidate store hello now written).2
  | .manage op written => if op.enrolls then none else some (store.exec written op).2

/-- No hello is authenticated under the id of a key whose record is revoked. -/
def KeepsRevokedOut (auth : Authority) (store : AgentStore) : AuthCall → Prop
  | .validate hello now written =>
    ∀ i store', auth.compositeValidate store hello now written = (.ok i, store') →
      ∀ key r, store.lookup key = some r ∨ store'.lookup key = some r →
        r.revoked = true → r.agentID ≠ i.agentID
  | .manage .. => True

variable {auth : Authority} {store store' : AgentStore} {hello : Hello}

theorem enroll_store (auth : Authority) (store : AgentStore) (hello : Hello) (now : Int)
    (written : Bool) : (auth.enroll store hello now written).2 =
      (store.enroll hello.agentPubKey (auth.agentID hello.agentPubKey) hello.enrollTicket now
        written).2 := by
  unfold enroll
  split <;> rename_i he <;> rw [he]

theorem keyed_compositeValidate (hk : store.Keyed auth) (hello : Hello) (now : Int)
    (written : Bool) : (auth.compositeValidate store hello now written).2.Keyed auth := by
  unfold compositeValidate
  split
  · exact hk
  · rw [enroll_store]
    exact hk.enroll _ _ now written

theorem compositeValidate_kept (auth : Authority) (hl : store.lookup key = some r) (hello : Hello)
    (now : Int)
    (written : Bool) : (auth.compositeValidate store hello now written).2.lookup key = some r := by
  unfold compositeValidate
  split
  · exact hl
  · rename_i hu
    obtain ⟨-, hnone⟩ := validate_unknown hu
    have hne : key ≠ hello.agentPubKey := by
      rintro rfl
      cases hnone.symm.trans hl
    rw [enroll_store]
    obtain ⟨-, e, he⟩ | ⟨n, -, -, he⟩ := AgentStore.enroll_cases store hello.agentPubKey
      (auth.agentID hello.agentPubKey) hello.enrollTicket now written
    · rw [he]
      exact hl
    · rw [he, AgentStore.lookup_enrolled, if_neg hne]
      exact hl

theorem keeps_revoked_out (hk : store.Keyed auth) (call : AuthCall) :
    auth.KeepsRevokedOut store call := by
  cases call with
  | manage => trivial
  | validate hello now written =>
    intro i store' h key r hl hrev hsame
    have hkeyed := keyed_compositeValidate hk hello now written
    rw [h] at hkeyed
    have hl : store'.lookup key = some r := by
      obtain hl | hl := hl
      · have hkept := compositeValidate_kept auth hl hello now written
        rwa [h] at hkept
      · exact hl
    by_cases hd : isDerivedAgentID i.agentID = true
    · obtain ⟨-, ⟨r', hr', hlive, hid, -⟩, -⟩ := proved_of_derived h hd
      have hkey := hkeyed.unique _ _ _ _ hl hr' (hsame.trans hid.symm)
      subst hkey
      rw [hl] at hr'
      cases hr'
      exact absurd (hlive.symm.trans hrev) Bool.false_ne_true
    · rw [← hsame, hkeyed.derived key r hl] at hd
      exact hd (derived_agentID auth key)

theorem keyed_manage (hk : store.Keyed auth) (hop : op.enrolls = false) (written : Bool) :
    (store.exec written op).2.Keyed auth := by
  cases op with
  | enroll => cases hop
  | issueEnrollment ticket reusable exp scope =>
    simp only [AgentStore.exec, AgentStore.issueEnrollment]
    constructor
    · intro key r h
      rw [AgentStore.lookup_save] at h
      exact hk.derived key r h
    · intro key r key' r' h h'
      rw [AgentStore.lookup_save] at h h'
      exact hk.unique key r key' r' h h'
  | revoke | rename | setScope | adoptConfig =>
    rw [AgentStore.exec_edits rfl]
    exact hk.mutate fun _ => rfl

theorem keyed_authStep (hk : store.Keyed auth) (hs : auth.authStep store call = some store') :
    store'.Keyed auth := by
  cases call with
  | validate hello now written =>
    obtain rfl := Option.some.inj hs
    exact keyed_compositeValidate hk hello now written
  | manage op written =>
    simp only [authStep] at hs
    split at hs
    · cases hs
    · rename_i hop
      obtain rfl := Option.some.inj hs
      exact keyed_manage hk (Bool.not_eq_true _ ▸ hop) written

/-- For every store: a hello gets a derived id only by a verified signature of its key and an
unrevoked record of that key with this id and scope. And from the empty store on, no sequence of
hellos and operator calls has a hello authenticated under the id of a revoked key. -/
theorem authentication_sound (auth : Authority) :
    (∀ store hello now written i store',
      auth.compositeValidate store hello now written = (.ok i, store') →
        isDerivedAgentID i.agentID = true → auth.Proved store hello now i store') ∧
    ∀ calls, Runs.Along auth.authStep auth.KeepsRevokedOut AgentStore.empty calls := by
  constructor
  · intro store hello now written i store' h hd
    exact proved_of_derived h hd
  · intro calls
    exact Runs.along_of_invariant (C := fun _ _ => True)
      (fun s call t hk _ hs => ⟨keyed_authStep hk hs, keeps_revoked_out hk call⟩) (empty_keyed auth)
      (Runs.along_of_forall (fun _ _ => trivial) _)

end Authority

end ProxyForward

import ProxyForward.Auth
import ProxyForward.Runs

namespace ProxyForward
set_option autoImplicit true

/-- One call on the store. A ticket is minted by the call that issues it. -/
inductive StoreOp where
  | issueEnrollment (ticket : String) (reusable : Bool) (exp : Option Int) (scope : Scope)
  | enroll (pubKey : PubKey) (agentID ticket : String) (now : Int)
  | revoke (agentID : String)
  | rename (agentID nickname : String)
  | setScope (agentID : String) (scope : Scope)
  | adoptConfig (agentID : String) (specs : List TunnelSpec)
  deriving DecidableEq, Repr

inductive StoreReply where
  | issued (r : Except EnrollError String)
  | enrolled (r : Except EnrollError AgentRecord)
  | found (ok : Bool)
  | adopted (gen : Option Nat)

namespace AgentStore

def exec (s : AgentStore) (written : Bool) : StoreOp → StoreReply × AgentStore
  | .issueEnrollment ticket reusable exp scope =>
    let r := s.issueEnrollment ticket reusable exp scope written
    (.issued r.1, r.2)
  | .enroll pubKey agentID ticket now =>
    let r := s.enroll pubKey agentID ticket now written
    (.enrolled r.1, r.2)
  | .revoke agentID =>
    let r := s.revoke agentID written
    (.found r.1, r.2)
  | .rename agentID nickname =>
    let r := s.rename agentID nickname written
    (.found r.1, r.2)
  | .setScope agentID scope =>
    let r := s.setScope agentID scope written
    (.found r.1, r.2)
  | .adoptConfig agentID specs =>
    let r := s.adoptConfig agentID specs written
    (.adopted r.1, r.2)

/-- One call whose write succeeds. -/
def step (s : AgentStore) (op : StoreOp) : Option AgentStore := some (s.exec true op).2

end AgentStore

/-- What a mutating call does to the record it resolves to. -/
def StoreOp.edits : StoreOp → Option (String × (AgentRecord → AgentRecord))
  | .revoke agentID => some (agentID, fun r => { r with revoked := true })
  | .rename agentID nickname => some (agentID, fun r => { r with nickname := nickname })
  | .setScope agentID scope => some (agentID, fun r => { r with scope := scope })
  | .adoptConfig agentID specs => some (agentID, AgentStore.adopt specs)
  | _ => none

namespace AgentStore

variable {s : AgentStore} {op : StoreOp} {fn : AgentRecord → AgentRecord}

theorem exec_edits (h : op.edits = some (i, fn)) (written : Bool) :
    (s.exec written op).2 = (s.mutate i fn written).2 := by
  cases op with
  | issueEnrollment | enroll => cases h
  | revoke | rename | setScope | adoptConfig =>
    cases h
    rfl

theorem edits_id (h : op.edits = some (i, fn)) (r : AgentRecord) :
    (fn r).agentID = r.agentID ∧ (fn r).pubKey = r.pubKey := by
  cases op with
  | issueEnrollment | enroll => cases h
  | revoke | rename | setScope | adoptConfig =>
    cases h
    exact ⟨rfl, rfl⟩

theorem lookup_mutate_of (s : AgentStore) (i : String) (fn : AgentRecord → AgentRecord)
    (written : Bool) (h : s.lookup key = some r) :
    (s.mutate i fn written).2.lookup key = some r ∨
      r.agentID = i ∧ (s.mutate i fn written).2.lookup key = some (fn r) := by
  cases hf : s.find? i with
  | none =>
    rw [mutate_none hf]
    exact .inl h
  | some e =>
    obtain ⟨k, r'⟩ := e
    rw [lookup_mutate hf]
    by_cases hk : key = k
    · subst hk
      obtain rfl : r' = r := Option.some.inj ((lookup_of_find? hf).symm.trans h)
      exact .inr ⟨find?_agentID hf, if_pos rfl⟩
    · rw [if_neg hk]
      exact .inl h

end AgentStore

/-- A record that went forward under a call, or stayed. -/
structure AgentRecord.Onward (op : StoreOp) (r r' : AgentRecord) : Prop where
  configGen : r.configGen ≤ r'.configGen
  desired : (∀ specs, op ≠ .adoptConfig r.agentID specs) → r'.desiredTunnels = r.desiredTunnels
  revoked : r.revoked = true → r'.revoked = true

namespace AgentStore

variable {s : AgentStore} {op : StoreOp} {fn : AgentRecord → AgentRecord} {r : AgentRecord}

/-- Every record is kept and goes forward. -/
def StepsOnward (s : AgentStore) (op : StoreOp) : Prop :=
  ∀ key r, s.lookup key = some r →
    ∃ r', (s.exec true op).2.lookup key = some r' ∧ r.Onward op r'

/-- A ticket is accepted only for a key without a record, or with one that has nothing to lose: it
is not revoked and never had a config. -/
def EnrollsBlank (s : AgentStore) : StoreOp → Prop
  | .enroll pubKey agentID ticket now => s.accepts pubKey agentID ticket now →
      ∀ r ∈ s.lookup pubKey, r.revoked = false ∧ r.desiredTunnels = [] ∧ r.configGen = 0
  | _ => True

theorem Onward.refl (op : StoreOp) (r : AgentRecord) : r.Onward op r :=
  ⟨Nat.le_refl _, fun _ => rfl, id⟩

theorem onward_edits (h : op.edits = some (i, fn)) (hr : r.agentID = i) : r.Onward op (fn r) := by
  cases op with
  | issueEnrollment | enroll => cases h
  | revoke agentID =>
    cases h
    exact ⟨Nat.le_refl _, fun _ => rfl, fun _ => rfl⟩
  | rename | setScope =>
    cases h
    exact ⟨Nat.le_refl _, fun _ => rfl, id⟩
  | adoptConfig agentID specs =>
    cases h
    exact ⟨Nat.le_succ _, fun hno => absurd (hr ▸ rfl) (hno specs), id⟩

theorem stepsOnward_edits (h : op.edits = some (i, fn)) : s.StepsOnward op := by
  intro key r hl
  rw [exec_edits h]
  obtain hsame | ⟨hr, hedited⟩ := lookup_mutate_of s i fn true hl
  · exact ⟨r, hsame, Onward.refl op r⟩
  · exact ⟨fn r, hedited, onward_edits h hr⟩

theorem stepsOnward_enroll (s : AgentStore) (pubKey : PubKey) (agentID ticket : String)
    (now : Int) : s.StepsOnward (.enroll pubKey agentID ticket now) ↔
      s.EnrollsBlank (.enroll pubKey agentID ticket now) := by
  obtain ⟨hrefused, e, he⟩ | ⟨n, hn, hacc, he⟩ := enroll_cases s pubKey agentID ticket now true
  · refine iff_of_true (fun key r hl => ⟨r, ?_, Onward.refl _ r⟩) fun hacc => absurd hacc hrefused
    simp only [exec, he]
    exact hl
  · have hlookup (key : PubKey) :
        (s.exec true (.enroll pubKey agentID ticket now)).2.lookup key =
          if key = pubKey then some (s.newRecord pubKey agentID n now) else s.lookup key := by
      simp only [exec, he]
      exact lookup_enrolled s pubKey key _ ticket n true
    constructor
    · intro h _ r hr
      obtain ⟨r', hr', hon⟩ := h pubKey r hr
      rw [hlookup, if_pos rfl] at hr'
      cases hr'
      refine ⟨?_, (hon.desired nofun).symm, Nat.le_zero.1 hon.configGen⟩
      by_contra hrev
      exact absurd (hon.revoked (Bool.not_eq_false _ ▸ hrev)) Bool.false_ne_true
    · intro h key r hl
      by_cases hk : key = pubKey
      · subst hk
        obtain ⟨hrev, hdes, hgen⟩ := h hacc r hl
        refine ⟨_, (hlookup key).trans (if_pos rfl), hgen ▸ Nat.le_refl _, fun _ => hdes.symm, ?_⟩
        intro hc
        rw [hrev] at hc
        cases hc
      · exact ⟨r, (hlookup key).trans ((if_neg hk).trans hl), Onward.refl _ r⟩

theorem stepsOnward_iff (s : AgentStore) (op : StoreOp) : s.StepsOnward op ↔ s.EnrollsBlank op := by
  cases op with
  | enroll pubKey agentID ticket now => exact stepsOnward_enroll s pubKey agentID ticket now
  | issueEnrollment ticket reusable exp scope =>
    refine iff_of_true (fun key r hl => ⟨r, ?_, Onward.refl _ r⟩) trivial
    simp only [exec, issueEnrollment, lookup, save_agents]
    exact hl
  | revoke | rename | setScope | adoptConfig => exact iff_of_true (stepsOnward_edits rfl) trivial

end AgentStore

/-- Along every run of calls whose writes succeed, records never go back exactly when no ticket is
accepted for a key whose record is revoked or ever had a config. -/
theorem records_onward_iff (s : AgentStore) (ops : List StoreOp) :
    Runs.Along AgentStore.step AgentStore.StepsOnward s ops ↔
      Runs.Along AgentStore.step AgentStore.EnrollsBlank s ops :=
  Runs.along_congr (I := fun _ => True)
    (fun s op _ _ _ => ⟨trivial, AgentStore.stepsOnward_iff s op⟩)
    trivial

/-- An agent with a config is revoked, and its key is enrolled again with a reusable ticket. -/
theorem revoked_record_reset :
    ¬Runs.Along AgentStore.step AgentStore.StepsOnward AgentStore.empty
      [.issueEnrollment "code" true none ⟨[], []⟩, .enroll "k" "agt_k" "code" 0,
        .adoptConfig "agt_k" [TunnelSpec.plain "t" 8080], .revoke "agt_k",
        .enroll "k" "agt_k" "code" 1] := by
  intro h
  obtain ⟨-, h⟩ := h.cons rfl
  obtain ⟨-, h⟩ := h.cons rfl
  obtain ⟨-, h⟩ := h.cons rfl
  obtain ⟨-, h⟩ := h.cons rfl
  obtain ⟨hlast, -⟩ := h.cons rfl
  let before : AgentRecord := ⟨"agt_k", "k", "", ⟨[], []⟩, 0, true, [TunnelSpec.plain "t" 8080], 1⟩
  let after : AgentRecord := ⟨"agt_k", "k", "", ⟨[], []⟩, 1, false, [], 0⟩
  obtain ⟨r', hr', hon⟩ := hlast "k" before (by decide)
  have hafter : some after = some r' := Eq.trans (by decide) hr'
  obtain rfl : after = r' := Option.some.inj hafter
  exact absurd (hon.revoked rfl) Bool.false_ne_true

end ProxyForward

import ProxyForward.Control

namespace ProxyForward
set_option autoImplicit true

/-- Which public ports and tunnel ids an agent may bind; an empty list means any. -/
structure Scope where
  ports : List Int
  tunnelIDs : List String
  deriving DecidableEq, Repr

def Scope.allowsPort (s : Scope) (p : Int) : Bool :=
  s.ports.isEmpty || s.ports.contains p

def Scope.allowsTunnel (s : Scope) (id : String) : Bool :=
  s.tunnelIDs.isEmpty || s.tunnelIDs.contains id

/-- An Ed25519 public key; its hex form is the key of the allowlist. -/
abbrev PubKey := String

/-- One enrolled agent and the authoritative tunnel set the gateway holds for it. -/
structure AgentRecord where
  agentID : String
  pubKey : PubKey
  nickname : String
  scope : Scope
  issuedAt : Int
  revoked : Bool
  desiredTunnels : List TunnelSpec
  configGen : Nat
  deriving DecidableEq, Repr

/-- One outstanding pairing ticket; without an expiry it never expires. -/
structure EnrollNonce where
  exp : Option Int
  reusable : Bool
  scope : Scope
  consumed : Bool
  deriving DecidableEq, Repr

structure StoreFile where
  agents : List AgentRecord
  nonces : GoMap EnrollNonce

/-- The allowlist in memory, and the file its last successful write left. -/
structure AgentStore where
  agents : AList fun _ : PubKey => AgentRecord
  nonces : GoMap EnrollNonce
  file : Option StoreFile

inductive EnrollError where
  | ticketUnknown
  | ticketConsumed
  | ticketExpired
  | agentIDCollision
  | save
  deriving DecidableEq, Repr

namespace AgentStore

def empty : AgentStore := ⟨∅, ∅, none⟩

/-- `written` is the outcome of the atomic file write. -/
def save (s : AgentStore) (written : Bool) : AgentStore :=
  if written then { s with file := some ⟨s.agents.entries.map (·.2), s.nonces⟩ } else s

def issueEnrollment (s : AgentStore) (ticket : String) (reusable : Bool) (exp : Option Int)
    (scope : Scope) (written : Bool) : Except EnrollError String × AgentStore :=
  let s := { s with nonces := s.nonces.insert ticket ⟨exp, reusable, scope, false⟩ }
  (if written then .ok ticket else .error .save, s.save written)

/-- The entry an agent id resolves to. -/
def find? (s : AgentStore) (agentID : String) : Option (PubKey × AgentRecord) :=
  (s.agents.entries.find? fun e => e.2.agentID = agentID).map fun e => (e.1, e.2)

def expired (n : EnrollNonce) (now : Int) : Bool :=
  match n.exp with
  | none => false
  | some exp => exp < now

/-- Another key already answers to the agent id. -/
def collides (s : AgentStore) (pubKey : PubKey) (agentID : String) : Bool :=
  s.agents.entries.any fun e => e.2.agentID = agentID && e.1 ≠ pubKey

/-- The record of a joining key; a rename survives re-enrollment. -/
def newRecord (s : AgentStore) (pubKey : PubKey) (agentID : String) (n : EnrollNonce)
    (now : Int) : AgentRecord :=
  ⟨agentID, pubKey, ((s.agents.lookup pubKey).map (·.nickname)).getD "", n.scope, now, false, [], 0⟩

def consume (s : AgentStore) (ticket : String) (n : EnrollNonce) : AgentStore :=
  if n.reusable then s
  else { s with nonces := s.nonces.insert ticket { n with consumed := true } }

def enroll (s : AgentStore) (pubKey : PubKey) (agentID ticket : String) (now : Int)
    (written : Bool) : Except EnrollError AgentRecord × AgentStore :=
  match s.nonces.lookup ticket with
  | none => (.error .ticketUnknown, s)
  | some n =>
    if n.consumed then (.error .ticketConsumed, s)
    else if expired n now then (.error .ticketExpired, s)
    else if s.collides pubKey agentID then (.error .agentIDCollision, s)
    else
      let r := s.newRecord pubKey agentID n now
      let s := { s with agents := s.agents.insert pubKey r }.consume ticket n
      (if written then .ok r else .error .save, s.save written)

def lookup (s : AgentStore) (pubKey : PubKey) : Option AgentRecord := s.agents.lookup pubKey

/-- Apply `fn` to the record an agent id resolves to; a failed write is not reported. -/
def mutate (s : AgentStore) (agentID : String) (fn : AgentRecord → AgentRecord)
    (written : Bool) : Bool × AgentStore :=
  match s.find? agentID with
  | none => (false, s)
  | some (key, r) => (true, { s with agents := s.agents.insert key (fn r) }.save written)

def revoke (s : AgentStore) (agentID : String) (written : Bool) : Bool × AgentStore :=
  s.mutate agentID (fun r => { r with revoked := true }) written

def rename (s : AgentStore) (agentID nickname : String) (written : Bool) : Bool × AgentStore :=
  s.mutate agentID (fun r => { r with nickname := nickname }) written

def setScope (s : AgentStore) (agentID : String) (scope : Scope) (written : Bool) :
    Bool × AgentStore :=
  s.mutate agentID (fun r => { r with scope := scope }) written

/-- The authoritative set of an agent and its generation; `none` for an unknown agent. -/
def desiredConfig (s : AgentStore) (agentID : String) : Option (List TunnelSpec × Nat) :=
  (s.find? agentID).map fun e => (e.2.desiredTunnels, e.2.configGen)

def adopt (specs : List TunnelSpec) (r : AgentRecord) : AgentRecord :=
  { r with configGen := r.configGen + 1, desiredTunnels := specs }

/-- The generation the adoption made, `none` for an unknown agent. -/
def adoptConfig (s : AgentStore) (agentID : String) (specs : List TunnelSpec) (written : Bool) :
    Option Nat × AgentStore :=
  ((s.find? agentID).map fun e => (adopt specs e.2).configGen,
    (s.mutate agentID (adopt specs) written).2)

@[simp] theorem save_agents (s : AgentStore) (w : Bool) : (s.save w).agents = s.agents := by
  cases w <;> rfl

@[simp] theorem save_nonces (s : AgentStore) (w : Bool) : (s.save w).nonces = s.nonces := by
  cases w <;> rfl

@[simp] theorem consume_agents (s : AgentStore) (ticket : String) (n : EnrollNonce) :
    (s.consume ticket n).agents = s.agents := by
  unfold consume
  split <;> rfl

theorem lookup_save (s : AgentStore) (w : Bool) : (s.save w).lookup = s.lookup :=
  funext fun key => congrArg (AList.lookup key) (save_agents s w)

theorem consume_nonces (s : AgentStore) (agents : AList fun _ : PubKey => AgentRecord)
    (ticket : String) (n : EnrollNonce) :
    (consume { s with agents := agents } ticket n).nonces = (s.consume ticket n).nonces := by
  unfold consume
  split <;> rfl

@[simp] theorem save_find? (s : AgentStore) (w : Bool) (i : String) :
    (s.save w).find? i = s.find? i := by
  simp only [find?, save_agents]

theorem find?_agentID {s : AgentStore} (h : s.find? i = some (k, r)) : r.agentID = i := by
  simp only [find?, Option.map_eq_some_iff] at h
  obtain ⟨e, he, hk⟩ := h
  cases hk
  simpa only [decide_eq_true_eq] using List.find?_some he

theorem find?_lookup {s : AgentStore} (h : s.find? i = some (k, r)) :
    s.agents.lookup k = some r := by
  simp only [find?, Option.map_eq_some_iff] at h
  obtain ⟨e, he, hk⟩ := h
  cases hk
  exact AList.mem_lookup_iff.2 (List.mem_of_find?_eq_some he)

theorem find?_insert_self {s : AgentStore} (h : r.agentID = i) :
    find? { s with agents := s.agents.insert k r } i = some (k, r) := by
  simp only [find?, AList.entries_insert, List.find?_cons, h, decide_true, Option.map_some]

theorem find?_kerase {l : List (Sigma fun _ : PubKey => AgentRecord)}
    (h : ∀ r, Sigma.mk k r ∈ l → p ⟨k, r⟩ = false) : (l.kerase k).find? p = l.find? p := by
  induction l with
  | nil => rfl
  | cons e l ih =>
    by_cases hk : k = e.1
    · subst hk
      have he : p e = false := h e.2 List.mem_cons_self
      rw [List.kerase_cons_eq rfl, List.find?_cons, he]
    · rw [List.kerase_cons_ne hk, List.find?_cons, List.find?_cons,
        ih fun r hr => h r (List.mem_cons_of_mem _ hr)]

theorem find?_insert_ne {s : AgentStore} (h : r.agentID ≠ i)
    (hk : ∀ r', s.agents.lookup k = some r' → r'.agentID ≠ i) :
    find? { s with agents := s.agents.insert k r } i = s.find? i := by
  simp only [find?, AList.entries_insert, List.find?_cons, h, decide_false]
  rw [find?_kerase]
  intro r' hr'
  exact decide_eq_false (hk r' (AList.mem_lookup_iff.2 hr'))

theorem mutate_none {s : AgentStore} (h : s.find? i = none) : s.mutate i fn w = (false, s) := by
  simp only [mutate, h]

theorem mutate_some {s : AgentStore} (h : s.find? i = some (k, r)) :
    s.mutate i fn w = (true, { s with agents := s.agents.insert k (fn r) }.save w) := by
  simp only [mutate, h]

@[simp] theorem mutate_nonces (s : AgentStore) (i : String) (fn : AgentRecord → AgentRecord)
    (w : Bool) : (s.mutate i fn w).2.nonces = s.nonces := by
  cases hf : s.find? i with
  | none => rw [mutate_none hf]
  | some e => rw [mutate_some hf, save_nonces]

theorem find?_mutate {s : AgentStore} (hfn : ∀ r, (fn r).agentID = r.agentID) :
    (s.mutate i fn w).2.find? j =
      if j = i then (s.find? i).map fun e => (e.1, fn e.2) else s.find? j := by
  cases he : s.find? i with
  | none =>
    rw [mutate_none he]
    split
    · subst j
      exact he
    · rfl
  | some e =>
    obtain ⟨k, r⟩ := e
    have hr := find?_agentID he
    rw [mutate_some he, save_find?]
    split
    · subst j
      exact find?_insert_self ((hfn r).trans hr)
    · rename_i hne
      refine find?_insert_ne (fun h => hne ?_) fun r' hr' h => hne ?_
      · rw [← h, hfn, hr]
      · rw [find?_lookup he] at hr'
        cases hr'
        exact h.symm.trans hr

theorem desiredConfig_mutate {s : AgentStore} (hfn : ∀ r, (fn r).agentID = r.agentID)
    (hd : ∀ r, (fn r).desiredTunnels = r.desiredTunnels ∧ (fn r).configGen = r.configGen) :
    (s.mutate i fn w).2.desiredConfig j = s.desiredConfig j := by
  simp only [desiredConfig, find?_mutate hfn]
  split
  · subst j
    simp only [Option.map_map, Function.comp_def, hd]
  · rfl

@[simp] theorem desiredConfig_revoke (s : AgentStore) (i j : String) (w : Bool) :
    (s.revoke i w).2.desiredConfig j = s.desiredConfig j :=
  desiredConfig_mutate (fun _ => rfl) fun _ => ⟨rfl, rfl⟩

@[simp] theorem desiredConfig_setScope (s : AgentStore) (i j : String) (sc : Scope) (w : Bool) :
    (s.setScope i sc w).2.desiredConfig j = s.desiredConfig j :=
  desiredConfig_mutate (fun _ => rfl) fun _ => ⟨rfl, rfl⟩

theorem desiredConfig_adoptConfig (s : AgentStore) (i j : String) (specs : List TunnelSpec)
    (w : Bool) : (s.adoptConfig i specs w).2.desiredConfig j =
      if j = i then (s.desiredConfig i).map fun c => (specs, c.2 + 1)
      else s.desiredConfig j := by
  have hfn : ∀ r, (adopt specs r).agentID = r.agentID := fun _ => rfl
  simp only [adoptConfig, desiredConfig, find?_mutate hfn]
  split
  · simp only [Option.map_map, Function.comp_def, adopt]
  · rfl

theorem adoptConfig_gen (s : AgentStore) (i : String) (specs : List TunnelSpec) (w : Bool) :
    (s.adoptConfig i specs w).1 = (s.desiredConfig i).map fun c => c.2 + 1 := by
  simp only [adoptConfig, desiredConfig, Option.map_map, Function.comp_def, adopt]

end AgentStore

end ProxyForward

import ProxyForward.Auth
import ProxyForward.Runs

namespace ProxyForward
set_option autoImplicit true

/-- Where one set-up of a control connection stands: before its hello, between a failed lookup and
the enrollment, between validation and admission, or decided. -/
inductive SetUp where
  | fresh
  | unknown (hello : Hello)
  | validated (hello : Hello) (i : Identity)
  | over

def SetUp.unknown? : SetUp → Option Hello
  | .unknown h => some h
  | _ => none

def SetUp.validated? : SetUp → Option Identity
  | .validated _ i => some i
  | _ => none

/-- A gateway with its pending set-ups, and with the `RevokeAgent` and `SetAgentScope` calls that
have written the store and not evicted yet. The last two fields log the calls that returned. -/
structure SetUps where
  gateway : GatewayState
  setUps : Nat → SetUp
  revoking : List (String × Option PubKey)
  rescoping : List String
  revoked : List (String × PubKey)
  rescoped : List String

def SetUps.start (store : AgentStore) : SetUps :=
  ⟨GatewayState.start store, fun _ => .fresh, [], [], [], []⟩

inductive AccessStep where
  | hello (n : Nat) (h : Hello)
  | enroll (n : Nat) (now : Int) (written : Bool)
  | admitSession (n : Nat) (remoteIP : String)
  | revokeStore (agentID : String) (written : Bool)
  | revokeEvict (agentID : String) (key : Option PubKey)
  | scopeStore (agentID : String) (scope : Scope) (written : Bool)
  | scopeEvict (agentID : String)
  | issueEnrollment (ticket : String) (reusable : Bool) (exp : Option Int) (scope : Scope)
      (written : Bool)
  | rename (agentID nickname : String) (written : Bool)
  | adoptConfig (agentID : String) (specs : List TunnelSpec) (written : Bool)
  | command (c : Command)
  deriving DecidableEq, Repr

/-- The commands that admitted sessions issue. -/
def Command.serves : Command → Bool
  | .disconnected _ | .bindTunnel _ _ | .unbindTunnel _ _ | .reconcile _ _ => true
  | .admitSession _ | .revokeAgent _ _ | .setAgentScope _ _ _ => false

namespace SetUps

def turn (s : SetUps) (n : Nat) (p : SetUp) : SetUps :=
  { s with setUps := Function.update s.setUps n p }

def withStore (s : SetUps) (store : AgentStore) : SetUps :=
  { s with gateway := { s.gateway with agents := store } }

def withActor (s : SetUps) (a : Actor) : SetUps :=
  { s with gateway := { s.gateway with actor := a } }

end SetUps

def SetUp.ofResult (h : Hello) : Except ValidateError Identity → SetUp
  | .ok i => .validated h i
  | .error _ => .over

def SetUp.ofLooked (h : Hello) : Authority.Looked → SetUp
  | .decided r => .ofResult h r
  | .unknown => .unknown h

def Gateway.accessStep (g : Gateway) (auth : Authority) (s : SetUps) : AccessStep → Option SetUps
  | .hello n h =>
    match s.setUps n with
    | .fresh => some (s.turn n (.ofLooked h (auth.validate s.gateway.agents h)))
    | _ => none
  | .enroll n now written =>
    match s.setUps n with
    | .unknown h =>
      let r := auth.enroll s.gateway.agents h now written
      some ((s.withStore r.2).turn n (.ofResult h r.1))
    | _ => none
  | .admitSession n remoteIP =>
    match s.setUps n with
    | .validated h i =>
      let sess := buildSession n h remoteIP i
      some ((s.withActor (s.gateway.actor.admitSession g.env sess).2).turn n .over)
    | _ => none
  | .revokeStore agentID written =>
    some { s.withStore (s.gateway.agents.revoke agentID written).2 with
      revoking := (agentID, (s.gateway.agents.find? agentID).map (·.1)) :: s.revoking }
  | .revokeEvict agentID key =>
    if (agentID, key) ∈ s.revoking then
      some { s.withActor (s.gateway.actor.evictAgent agentID) with
        revoking := s.revoking.erase (agentID, key)
        revoked := key.toList.map (fun k => (agentID, k)) ++ s.revoked }
    else none
  | .scopeStore agentID scope written =>
    let r := s.gateway.agents.setScope agentID scope written
    if r.1 then some { s.withStore r.2 with rescoping := agentID :: s.rescoping }
    else some { s.withStore r.2 with rescoped := agentID :: s.rescoped }
  | .scopeEvict agentID =>
    if agentID ∈ s.rescoping then
      some { s.withActor (s.gateway.actor.evictAgent agentID) with
        rescoping := s.rescoping.erase agentID
        rescoped := agentID :: s.rescoped }
    else none
  | .issueEnrollment ticket reusable exp scope written =>
    some (s.withStore (s.gateway.agents.issueEnrollment ticket reusable exp scope written).2)
  | .rename agentID nickname written =>
    some (s.withStore (s.gateway.agents.rename agentID nickname written).2)
  | .adoptConfig agentID specs written =>
    some (s.withStore (s.gateway.agents.adoptConfig agentID specs written).2)
  | .command c => if c.serves then some { s with gateway := g.exec s.gateway c } else none

/-- The live session of an agent id. -/
def Actor.liveSession? (a : Actor) (agentID : String) : Option AgentSession :=
  (a.agents.lookup agentID).filter fun sess => sess ∉ a.evicted

namespace SetUps

/-- No live session answers by a key whose `RevokeAgent` has returned, and after a returned
`SetAgentScope` the live session of the agent carries the scope that is stored for it. -/
def TakesHold (s : SetUps) : Prop :=
  (∀ p ∈ s.revoked, ∀ sess ∈ s.gateway.actor.liveSession? p.1, sess.identityKey ≠ some p.2) ∧
  ∀ i ∈ s.rescoped, ∀ sess ∈ s.gateway.actor.liveSession? i,
    ∀ e ∈ s.gateway.agents.find? i, sess.scope = e.2.scope

instance (s : SetUps) : Decidable s.TakesHold := inferInstanceAs (Decidable (_ ∧ _))

/-- A set-up goes on only over a record that is still what its lookup found: an admission needs the
record unrevoked and of the validated scope, unless the call that changed it has not returned; an
enrollment overwrites no revoked record and no scope that a live session carries; and a later scope
change finds no live session of another scope. -/
def Current (auth : Authority) (s : SetUps) : AccessStep → Prop
  | .admitSession n _ =>
    ∀ i ∈ (s.setUps n).validated?, ∀ key ∈ i.pubKey, ∀ r ∈ s.gateway.agents.lookup key,
      (r.revoked = true → (i.agentID, key) ∉ s.revoked) ∧
      (i.agentID ∈ s.rescoped → r.scope = i.scope)
  | .enroll n now _ =>
    ∀ h ∈ (s.setUps n).unknown?,
      s.gateway.agents.accepts h.agentPubKey (auth.agentID h.agentPubKey) h.enrollTicket now →
      ∀ r ∈ s.gateway.agents.lookup h.agentPubKey, r.revoked = false ∧
        (auth.agentID h.agentPubKey ∈ s.rescoped →
          ∀ sess ∈ s.gateway.actor.liveSession? (auth.agentID h.agentPubKey),
            ∀ n ∈ s.gateway.agents.nonces.lookup h.enrollTicket, sess.scope = n.scope)
  | .scopeStore agentID scope _ =>
    agentID ∈ s.rescoped → ∀ _e ∈ s.gateway.agents.find? agentID,
      ∀ sess ∈ s.gateway.actor.liveSession? agentID, sess.scope = scope
  | _ => True

instance (auth : Authority) (s : SetUps) (l : AccessStep) : Decidable (s.Current auth l) := by
  cases l <;> unfold Current <;> infer_instance

/-- An identity that the store knows: its key has a record, and its id is the key's. -/
def Known (auth : Authority) (store : AgentStore) (pubKey : Option PubKey) (agentID : String) :
    Prop :=
  auth.Names pubKey agentID ∧ ∀ key ∈ pubKey, (store.lookup key).isSome

structure Inv (auth : Authority) (s : SetUps) : Prop where
  actor : s.gateway.actor.Inv
  keyed : s.gateway.agents.Keyed auth
  waiting : ∀ n h i, s.setUps n = .validated h i → Known auth s.gateway.agents i.pubKey i.agentID
  serving : ∀ i, ∀ sess ∈ s.gateway.actor.liveSession? i,
    Known auth s.gateway.agents sess.identityKey sess.agentID
  revoking : ∀ i key, (i, some key) ∈ s.revoking ∨ (i, key) ∈ s.revoked →
    ∃ r, s.gateway.agents.lookup key = some r ∧ r.revoked = true
  holds : s.TakesHold

theorem mem_liveSession? {a : Actor} {sess : AgentSession} :
    sess ∈ a.liveSession? i ↔ a.agents.lookup i = some sess ∧ sess ∉ a.evicted := by
  simp only [Actor.liveSession?, Option.mem_def, Option.filter_eq_some_iff, decide_eq_true_eq]

theorem liveSession?_of_rebinds (h : Rebinds k a b) (i : String) :
    b.liveSession? i = a.liveSession? i := by
  simp only [Actor.liveSession?, h.agents, h.evicted]

theorem liveSession?_evict {a : Actor} {sess x : AgentSession}
    (h : x ∈ (a.evict sess).liveSession? i) : x ∈ a.liveSession? i ∧ i ≠ sess.agentID := by
  obtain ⟨hm, hev⟩ := mem_liveSession?.1 h
  simp only [Actor.evict, lookup_erase_eq] at hm
  split at hm
  · cases hm
  · exact ⟨mem_liveSession?.2 ⟨hm, fun he => hev (List.mem_cons_of_mem _ he)⟩, ‹_›⟩

theorem liveSession?_evictAgent {a : Actor} (ha : a.Inv) {x : AgentSession}
    (h : x ∈ (a.evictAgent k).liveSession? i) : x ∈ a.liveSession? i ∧ i ≠ k := by
  unfold Actor.evictAgent at h
  split at h
  · rename_i hn
    refine ⟨h, fun he => ?_⟩
    rw [he, mem_liveSession?, hn] at h
    cases h.1
  · rename_i s hs
    rw [← ha.keyed _ _ hs]
    exact liveSession?_evict h

theorem liveSession?_admitSession {a : Actor} (env : Env) {sess x : AgentSession}
    (h : x ∈ (a.admitSession env sess).2.liveSession? i) :
    x ∈ a.liveSession? i ∨ x = sess ∧ i = sess.agentID := by
  have hinst {b : Actor} (hb : x ∈ (b.install sess).2.liveSession? i) :
      x ∈ b.liveSession? i ∨ x = sess ∧ i = sess.agentID := by
    obtain ⟨hm, hev⟩ := mem_liveSession?.1 hb
    simp only [Actor.install, lookup_insert_eq] at hm
    split at hm
    · exact .inr ⟨(Option.some.inj hm).symm, ‹_›⟩
    · exact .inl (mem_liveSession?.2 ⟨hm, hev⟩)
  rcases Actor.admit_cases env a sess with ⟨b, hb, he⟩ | ⟨hi, he⟩ | ⟨inc, b, hi, hb, he⟩
  · rw [he, liveSession?_of_rebinds (hb.rebinds "")] at h
    exact .inl h
  · rw [he] at h
    exact hinst h
  · rw [he] at h
    rcases hinst h with h | h
    · rw [liveSession?_of_rebinds (hb.rebinds "")] at h
      exact .inl (liveSession?_evict h).1
    · exact .inr h

theorem Known.mono {auth : Authority} {store store' : AgentStore}
    (hs : ∀ key, (store.lookup key).isSome → (store'.lookup key).isSome)
    (h : Known auth store pubKey agentID) : Known auth store' pubKey agentID :=
  ⟨h.1, fun key hkey => hs key (h.2 key hkey)⟩

theorem Known.find? {auth : Authority} {store : AgentStore} (hk : store.Keyed auth)
    (h : Known auth store pubKey agentID) (he : store.find? agentID = some (key, r)) :
    pubKey = some key := by
  have hl := AgentStore.find?_lookup he
  have hd : agentID = auth.agentID key :=
    (AgentStore.find?_agentID he).symm.trans (hk.derived _ _ hl)
  obtain ⟨hn, hrec⟩ := h
  cases pubKey with
  | none =>
    simp only [Authority.Names, hd, derived_agentID] at hn
    cases hn
  | some key' =>
    obtain ⟨r', hr'⟩ := Option.isSome_iff_exists.1 (hrec key' rfl)
    have hsame : r'.agentID = r.agentID :=
      (hk.derived _ _ hr').trans (hn.symm.trans (AgentStore.find?_agentID he).symm)
    rw [hk.unique _ _ _ _ hr' hl hsame]

theorem start_inv {auth : Authority} {store : AgentStore} (hk : store.Keyed auth) :
    (SetUps.start store).Inv auth :=
  ⟨Actor.newActor_inv, hk, nofun, nofun, fun _ _ h => (h.elim nofun nofun), nofun, nofun⟩

theorem Inv.withActor {auth : Authority} {s : SetUps} (h : s.Inv auth) {a : Actor} (ha : a.Inv)
    (hsub : ∀ i x, x ∈ a.liveSession? i → x ∈ s.gateway.actor.liveSession? i) :
    (s.withActor a).Inv auth :=
  ⟨ha, h.keyed, h.waiting, fun i x hx => h.serving i x (hsub i x hx), h.revoking,
    fun p hp x hx => h.holds.1 p hp x (hsub _ x hx),
    fun i hi x hx => h.holds.2 i hi x (hsub i x hx)⟩

/-- A store step keeps the invariant when it keeps records and revocations, and gives no live
session's agent another scope. -/
theorem Inv.withStore {auth : Authority} {s : SetUps} (h : s.Inv auth) {store : AgentStore}
    (hk : store.Keyed auth)
    (hrec : ∀ key r, s.gateway.agents.lookup key = some r →
      ∃ r', store.lookup key = some r' ∧ (r.revoked = true → r'.revoked = true))
    (hscope : ∀ i ∈ s.rescoped, ∀ sess ∈ s.gateway.actor.liveSession? i,
      ∀ e ∈ store.find? i, sess.scope = e.2.scope) : (s.withStore store).Inv auth := by
  have hmono : ∀ key, (s.gateway.agents.lookup key).isSome → (store.lookup key).isSome := by
    intro key hkey
    obtain ⟨r, hr⟩ := Option.isSome_iff_exists.1 hkey
    obtain ⟨r', hr', -⟩ := hrec key r hr
    rw [hr']
    rfl
  refine ⟨h.actor, hk, fun n x i hw => (h.waiting n x i hw).mono hmono,
    fun i sess hs => (h.serving i sess hs).mono hmono, ?_, h.holds.1, hscope⟩
  intro i key hlog
  obtain ⟨r, hr, hrev⟩ := h.revoking i key hlog
  obtain ⟨r', hr', himp⟩ := hrec key r hr
  exact ⟨r', hr', himp hrev⟩

theorem Inv.mutate {auth : Authority} {s : SetUps} (h : s.Inv auth)
    (hid : ∀ r, (fn r).agentID = r.agentID) (hrev : ∀ r, r.revoked = true → (fn r).revoked = true)
    (hscope : ∀ e ∈ s.gateway.agents.find? k, k ∈ s.rescoped →
      ∀ sess ∈ s.gateway.actor.liveSession? k, sess.scope = (fn e.2).scope) :
    (s.withStore (s.gateway.agents.mutate k fn w).2).Inv auth := by
  refine h.withStore (h.keyed.mutate hid) ?_ ?_
  · intro key r hr
    cases hf : s.gateway.agents.find? k with
    | none =>
      rw [AgentStore.mutate_none hf]
      exact ⟨r, hr, fun hr => hr⟩
    | some e =>
      obtain ⟨k', r'⟩ := e
      rw [AgentStore.lookup_mutate hf]
      split
      · subst key
        have he : r' = r := Option.some.inj ((AgentStore.find?_lookup hf).symm.trans hr)
        subst he
        exact ⟨fn r', rfl, hrev r'⟩
      · exact ⟨r, hr, fun hr => hr⟩
  · intro i hi sess hs e he
    rw [AgentStore.find?_mutate hid] at he
    split at he
    · subst i
      obtain ⟨e', he', rfl⟩ := Option.map_eq_some_iff.1 he
      exact hscope e' he' hi sess hs
    · exact h.holds.2 i hi sess hs e he

theorem Inv.mutate_scope {auth : Authority} {s : SetUps} (h : s.Inv auth)
    (hid : ∀ r, (fn r).agentID = r.agentID) (hrev : ∀ r, r.revoked = true → (fn r).revoked = true)
    (hsc : ∀ r, (fn r).scope = r.scope) :
    (s.withStore (s.gateway.agents.mutate k fn w).2).Inv auth :=
  h.mutate hid hrev fun e he hi sess hs => (h.holds.2 k hi sess hs e he).trans (hsc e.2).symm

theorem Inv.turn {auth : Authority} {s : SetUps} (h : s.Inv auth) (n : Nat) (p : SetUp)
    (hp : ∀ x i, p = .validated x i → Known auth s.gateway.agents i.pubKey i.agentID) :
    (s.turn n p).Inv auth := by
  refine ⟨h.actor, h.keyed, ?_, h.serving, h.revoking, h.holds⟩
  intro m x i hm
  simp only [SetUps.turn, Function.update_apply] at hm
  split at hm
  · exact hp x i hm
  · exact h.waiting m x i hm

theorem Inv.enrolled_of_serving {auth : Authority} {s : SetUps} (h : s.Inv auth)
    (hcol : s.gateway.agents.collides pubKey (auth.agentID pubKey) = false)
    (hs : sess ∈ s.gateway.actor.liveSession? (auth.agentID pubKey)) :
    ∃ r, s.gateway.agents.lookup pubKey = some r := by
  obtain ⟨hnames, hrec⟩ := h.serving _ sess hs
  have hid : sess.agentID = auth.agentID pubKey := h.actor.keyed _ _ (mem_liveSession?.1 hs).1
  cases hkey : sess.identityKey with
  | none =>
    rw [hkey, Authority.Names, hid, derived_agentID] at hnames
    cases hnames
  | some key =>
    obtain ⟨r, hr⟩ := Option.isSome_iff_exists.1 (hrec key hkey)
    rw [hkey, Authority.Names, hid] at hnames
    have hsame : key = pubKey := by
      by_contra hne
      simp only [AgentStore.collides, List.any_eq_false] at hcol
      have hc := hcol ⟨key, r⟩ (AList.mem_lookup_iff.1 hr)
      have hid' : r.agentID = auth.agentID pubKey := (h.keyed.derived _ _ hr).trans hnames.symm
      simp only [hid', decide_true, hne, ne_eq, not_false_eq_true, Bool.and_self,
        not_true_eq_false] at hc
    exact ⟨r, hsame ▸ hr⟩

theorem Inv.enroll {auth : Authority} {s : SetUps} (h : s.Inv auth) (hello : Hello) (now : Int)
    (written : Bool)
    (hC : s.gateway.agents.accepts hello.agentPubKey (auth.agentID hello.agentPubKey)
        hello.enrollTicket now →
      ∀ r ∈ s.gateway.agents.lookup hello.agentPubKey, r.revoked = false ∧
        (auth.agentID hello.agentPubKey ∈ s.rescoped →
          ∀ sess ∈ s.gateway.actor.liveSession? (auth.agentID hello.agentPubKey),
            ∀ n ∈ s.gateway.agents.nonces.lookup hello.enrollTicket, sess.scope = n.scope)) :
    (s.withStore (auth.enroll s.gateway.agents hello now written).2).Inv auth ∧
    ∀ i, (auth.enroll s.gateway.agents hello now written).1 = .ok i →
      Known auth (auth.enroll s.gateway.agents hello now written).2 i.pubKey i.agentID := by
  have hkeyed := h.keyed.enroll hello.agentPubKey hello.enrollTicket now written
  have hfall {store : AgentStore} {err : EnrollError} {i : Identity}
      (hi : auth.fallback hello (.enroll err) = .ok i) : Known auth store i.pubKey i.agentID := by
    obtain ⟨hp, hd⟩ := fallback_names hi
    rw [hp]
    exact ⟨hd, nofun⟩
  rcases AgentStore.enroll_cases s.gateway.agents hello.agentPubKey
    (auth.agentID hello.agentPubKey) hello.enrollTicket now written with
    ⟨-, err, he⟩ | ⟨n, hn, hacc, he⟩
  · simp only [Authority.enroll, he]
    exact ⟨h, fun i hi => hfall hi⟩
  · have hC := hC hacc
    obtain ⟨-, -, -, -, hcol⟩ := hacc
    have hstore : (auth.enroll s.gateway.agents hello now written).2 =
        (s.gateway.agents.enroll hello.agentPubKey (auth.agentID hello.agentPubKey)
          hello.enrollTicket now written).2 := by
      simp only [Authority.enroll, he]
      split <;> rename_i heq <;> exact (congrArg Prod.snd heq).symm
    have hlook (key : PubKey) : (auth.enroll s.gateway.agents hello now written).2.lookup key =
        if key = hello.agentPubKey then
          some (s.gateway.agents.newRecord hello.agentPubKey (auth.agentID hello.agentPubKey) n now)
        else s.gateway.agents.lookup key := by
      rw [hstore, he]
      exact AgentStore.lookup_enrolled _ _ _ _ _ _ _
    constructor
    · refine h.withStore (hstore ▸ hkeyed) ?_ ?_
      · intro key r hr
        rw [hlook]
        split
        · subst key
          refine ⟨_, rfl, fun hrev => ?_⟩
          rw [(hC r hr).1] at hrev
          cases hrev
        · exact ⟨r, hr, id⟩
      · rintro i hi sess hs ⟨key, r⟩ hfind
        have hnew := AgentStore.find?_lookup hfind
        have hri := AgentStore.find?_agentID hfind
        change AgentStore.lookup _ key = some r at hnew
        rw [hlook] at hnew
        split at hnew
        · subst key
          cases hnew
          obtain rfl : auth.agentID hello.agentPubKey = i := hri
          obtain ⟨r', hr'⟩ := h.enrolled_of_serving hcol hs
          exact (hC r' hr').2 hi sess hs n hn
        · have hold := AgentStore.Distinct.find?_of_lookup h.keyed.unique hnew
          rw [hri] at hold
          exact h.holds.2 i hi sess hs _ hold
    · intro i hi
      have hres : written = true ∧ i = ⟨auth.agentID hello.agentPubKey, some hello.agentPubKey,
          n.scope⟩ ∨ auth.fallback hello (.enroll .save) = .ok i := by
        simp only [Authority.enroll, he] at hi
        cases written with
        | true => exact .inl ⟨rfl, (Except.ok.inj hi).symm⟩
        | false => exact .inr hi
      rcases hres with ⟨-, rfl⟩ | hi
      · refine ⟨rfl, ?_⟩
        rintro key ⟨⟩
        rw [hlook, if_pos rfl]
        rfl
      · exact hfall hi

theorem Inv.admitSession {auth : Authority} {g : Gateway} {s : SetUps} (h : s.Inv auth)
    (hw : s.setUps n = .validated hello i) (remoteIP : String)
    (hC : ∀ key ∈ i.pubKey, ∀ r ∈ s.gateway.agents.lookup key,
      (r.revoked = true → (i.agentID, key) ∉ s.revoked) ∧
      (i.agentID ∈ s.rescoped → r.scope = i.scope)) :
    (s.withActor (s.gateway.actor.admitSession g.env (buildSession n hello remoteIP i)).2).Inv
      auth := by
  have hknown := h.waiting n hello i hw
  have hnew {k x} (hx : x ∈ (s.gateway.actor.admitSession g.env
      (buildSession n hello remoteIP i)).2.liveSession? k) := liveSession?_admitSession g.env hx
  refine ⟨h.actor.admitSession g.env _, h.keyed, h.waiting, ?_, h.revoking, ?_, ?_⟩
  · intro k x hx
    rcases hnew hx with hx | ⟨rfl, -⟩
    · exact h.serving k x hx
    · exact hknown
  · rintro ⟨k, key⟩ hp x hx hkey
    rcases hnew hx with hx | ⟨rfl, hk⟩
    · exact h.holds.1 _ hp x hx hkey
    · obtain ⟨r, hr, hrev⟩ := h.revoking k key (.inr hp)
      have hk : k = i.agentID := hk
      subst hk
      exact (hC key hkey r hr).1 hrev hp
  · rintro k hk x hx ⟨key, r⟩ he
    rcases hnew hx with hx | ⟨rfl, hid⟩
    · exact h.holds.2 k hk x hx _ he
    · have hid : k = i.agentID := hid
      subst hid
      have hkey := hknown.find? h.keyed he
      exact ((hC key hkey r (AgentStore.find?_lookup he)).2 hk).symm

theorem Inv.evictAgent {auth : Authority} {s : SetUps} (h : s.Inv auth) (k : String) :
    (s.withActor (s.gateway.actor.evictAgent k)).Inv auth :=
  h.withActor (h.actor.evictAgent k) fun _ _ hx => (liveSession?_evictAgent h.actor hx).1

theorem Inv.revokeStore {auth : Authority} {s : SetUps} (h : s.Inv auth) (agentID : String)
    (written : Bool) :
    ({ s.withStore (s.gateway.agents.revoke agentID written).2 with
      revoking := (agentID, (s.gateway.agents.find? agentID).map (·.1)) :: s.revoking } :
        SetUps).Inv auth := by
  have hm : (s.withStore (s.gateway.agents.revoke agentID written).2).Inv auth :=
    h.mutate_scope (fun _ => rfl) (fun _ _ => rfl) fun _ => rfl
  refine ⟨hm.actor, hm.keyed, hm.waiting, hm.serving, ?_, hm.holds⟩
  rintro i key (hlog | hlog)
  · rcases List.mem_cons.1 hlog with hlog | hlog
    · obtain ⟨⟨k, r⟩, hf, hk⟩ := Option.map_eq_some_iff.1 (Prod.mk.inj hlog).2.symm
      cases hk
      refine ⟨{ r with revoked := true }, ?_, rfl⟩
      change (s.gateway.agents.revoke agentID written).2.lookup _ = _
      rw [AgentStore.revoke, AgentStore.lookup_mutate hf, if_pos rfl]
    · exact hm.revoking i key (.inl hlog)
  · exact hm.revoking i key (.inr hlog)

theorem Inv.revokeEvict {auth : Authority} {s : SetUps} (h : s.Inv auth)
    (hpending : (agentID, key) ∈ s.revoking) :
    ({ s.withActor (s.gateway.actor.evictAgent agentID) with
      revoking := s.revoking.erase (agentID, key)
      revoked := key.toList.map (fun k => (agentID, k)) ++ s.revoked } : SetUps).Inv auth := by
  have he := h.evictAgent agentID
  refine ⟨he.actor, he.keyed, he.waiting, he.serving, ?_, ?_, he.holds.2⟩
  · rintro i k (hlog | hlog)
    · exact he.revoking i k (.inl (List.mem_of_mem_erase hlog))
    · rcases List.mem_append.1 hlog with hlog | hlog
      · obtain ⟨k', hk', heq⟩ := List.mem_map.1 hlog
        cases heq
        rw [Option.mem_toList] at hk'
        cases hk'
        exact he.revoking agentID k (.inl hpending)
      · exact he.revoking i k (.inr hlog)
  · rintro ⟨i, k⟩ hp x hx
    rcases List.mem_append.1 hp with hp | hp
    · obtain ⟨k', -, heq⟩ := List.mem_map.1 hp
      cases heq
      exact absurd rfl (liveSession?_evictAgent h.actor hx).2
    · exact he.holds.1 _ hp x hx

theorem Inv.scopeStore {auth : Authority} {g : Gateway} {s t : SetUps} (h : s.Inv auth)
    (hC : s.Current auth (.scopeStore agentID scope written))
    (ht : g.accessStep auth s (.scopeStore agentID scope written) = some t) : t.Inv auth := by
  have hm : (s.withStore (s.gateway.agents.setScope agentID scope written).2).Inv auth :=
    h.mutate (fun _ => rfl) (fun _ hr => hr) fun e he hi sess hs => hC hi e he sess hs
  simp only [Gateway.accessStep] at ht
  split at ht
  · cases ht
    exact ⟨hm.actor, hm.keyed, hm.waiting, hm.serving, hm.revoking, hm.holds⟩
  · rename_i hfound
    cases ht
    refine ⟨hm.actor, hm.keyed, hm.waiting, hm.serving, hm.revoking, hm.holds.1, ?_⟩
    intro i hi sess hs e he
    rcases List.mem_cons.1 hi with rfl | hi
    · cases hf : s.gateway.agents.find? i with
      | none =>
        change e ∈ (s.gateway.agents.setScope i scope written).2.find? i at he
        rw [AgentStore.setScope, AgentStore.mutate_none hf, hf] at he
        cases he
      | some e' => exact absurd (by rw [AgentStore.setScope, AgentStore.mutate_some hf]) hfound
    · exact hm.holds.2 i hi sess hs e he

theorem Inv.scopeEvict {auth : Authority} {s : SetUps} (h : s.Inv auth) (agentID : String) :
    ({ s.withActor (s.gateway.actor.evictAgent agentID) with
      rescoping := s.rescoping.erase agentID
      rescoped := agentID :: s.rescoped } : SetUps).Inv auth := by
  have he := h.evictAgent agentID
  refine ⟨he.actor, he.keyed, he.waiting, he.serving, he.revoking, he.holds.1, ?_⟩
  intro i hi x hx
  rcases List.mem_cons.1 hi with rfl | hi
  · exact absurd rfl (liveSession?_evictAgent h.actor hx).2
  · exact he.holds.2 i hi x hx

theorem Inv.issueEnrollment {auth : Authority} {s : SetUps} (h : s.Inv auth) (ticket : String)
    (reusable : Bool) (exp : Option Int) (scope : Scope) (written : Bool) :
    (s.withStore
      (s.gateway.agents.issueEnrollment ticket reusable exp scope written).2).Inv auth := by
  have ha : (s.gateway.agents.issueEnrollment ticket reusable exp scope written).2.agents =
      s.gateway.agents.agents := AgentStore.save_agents _ _
  have hl (key : PubKey) : (s.gateway.agents.issueEnrollment ticket reusable exp scope
      written).2.lookup key = s.gateway.agents.lookup key := by
    rw [AgentStore.lookup, ha]
    rfl
  have hf (k : String) : (s.gateway.agents.issueEnrollment ticket reusable exp scope
      written).2.find? k = s.gateway.agents.find? k := by
    rw [AgentStore.find?, ha]
    rfl
  refine h.withStore ⟨fun key r hr => h.keyed.derived key r ((hl key).symm.trans hr), ?_⟩ ?_ ?_
  · intro key r key' r' hr hr'
    exact h.keyed.unique key r key' r' ((hl key).symm.trans hr) ((hl key').symm.trans hr')
  · intro key r hr
    exact ⟨r, (hl key).trans hr, fun hrev => hrev⟩
  · intro i hi sess hs e he
    exact h.holds.2 i hi sess hs e ((hf i).symm.trans he)

theorem Inv.command {auth : Authority} {s : SetUps} (h : s.Inv auth) (g : Gateway)
    (hserves : c.serves = true) :
    ({ s with gateway := g.exec s.gateway c } : SetUps).Inv auth := by
  have hstore : (g.exec s.gateway c).agents = s.gateway.agents := by
    cases c <;> first | rfl | cases hserves
  have hsub : ∀ i x, x ∈ (g.exec s.gateway c).actor.liveSession? i →
      x ∈ s.gateway.actor.liveSession? i := by
    intro i x hx
    obtain ⟨hm, hev⟩ := mem_liveSession?.1 hx
    rcases Gateway.exec_agents hm with hm | ha
    · exact mem_liveSession?.2 ⟨hm, fun he => hev (Gateway.exec_evicted he)⟩
    · cases c <;> first | cases ha | cases hserves
  have ha := h.withActor (Gateway.exec_inv g h.actor c) hsub
  refine ⟨ha.actor, ?_, ?_, ?_, ?_, ha.holds.1, ?_⟩
  · exact hstore ▸ h.keyed
  · rw [hstore]
    exact h.waiting
  · rw [hstore]
    exact ha.serving
  · rw [hstore]
    exact h.revoking
  · rw [hstore]
    exact ha.holds.2

theorem Inv.step {auth : Authority} {g : Gateway} {s t : SetUps} {l : AccessStep} (h : s.Inv auth)
    (hC : s.Current auth l) (ht : g.accessStep auth s l = some t) : t.Inv auth := by
  cases l with
  | hello n hello =>
    simp only [Gateway.accessStep] at ht
    split at ht
    · cases ht
      refine h.turn n _ fun x i hi => ?_
      cases hv : auth.validate s.gateway.agents hello with
      | unknown =>
        rw [hv] at hi
        cases hi
      | decided r =>
        rw [hv] at hi
        cases r with
        | error e => cases hi
        | ok i' =>
          cases hi
          exact validate_ok h.keyed hv
    · cases ht
  | enroll n now written =>
    simp only [Gateway.accessStep] at ht
    split at ht
    · rename_i hello hu
      cases ht
      obtain ⟨hstore, hok⟩ := h.enroll hello now written (hC hello (by rw [hu]; rfl))
      refine hstore.turn n _ fun x i hi => ?_
      cases hr : (auth.enroll s.gateway.agents hello now written).1 with
      | error e =>
        rw [hr] at hi
        cases hi
      | ok i' =>
        rw [hr] at hi
        cases hi
        exact hok _ hr
    · cases ht
  | admitSession n remoteIP =>
    simp only [Gateway.accessStep] at ht
    split at ht
    · rename_i hello i hw
      cases ht
      exact (h.admitSession hw remoteIP (hC i (by rw [hw]; rfl))).turn n _ nofun
    · cases ht
  | revokeStore agentID written =>
    cases ht
    exact h.revokeStore agentID written
  | revokeEvict agentID key =>
    simp only [Gateway.accessStep] at ht
    split at ht
    · rename_i hpending
      cases ht
      exact h.revokeEvict hpending
    · cases ht
  | scopeStore agentID scope written => exact h.scopeStore hC ht
  | scopeEvict agentID =>
    simp only [Gateway.accessStep] at ht
    split at ht
    · cases ht
      exact h.scopeEvict agentID
    · cases ht
  | issueEnrollment ticket reusable exp scope written =>
    cases ht
    exact h.issueEnrollment ticket reusable exp scope written
  | rename agentID nickname written =>
    cases ht
    exact h.mutate_scope (fun _ => rfl) (fun _ hr => hr) fun _ => rfl
  | adoptConfig agentID specs written =>
    cases ht
    exact h.mutate_scope (fun _ => rfl) (fun _ hr => hr) fun _ => rfl
  | command c =>
    simp only [Gateway.accessStep] at ht
    split at ht
    · rename_i hserves
      cases ht
      exact h.command g hserves
    · cases ht

end SetUps

/-- Revocations and scope changes take hold in every state of a run whose set-ups go on only over
current records. -/
theorem access_takes_hold (g : Gateway) (auth : Authority) (store : AgentStore)
    (steps : List AccessStep) (hk : store.Keyed auth)
    (h : Runs.Along (g.accessStep auth) (SetUps.Current auth) (SetUps.start store) steps) :
    Runs.Always (g.accessStep auth) SetUps.TakesHold (SetUps.start store) steps :=
  Runs.always_of_invariant (fun _ _ _ hi hC ht => hi.step hC ht) (fun _ hi => hi.holds)
    (SetUps.start_inv hk) h

theorem revokeAgent_steps (g : Gateway) (auth : Authority) (s : SetUps) (agentID : String)
    (written : Bool) :
    ∃ ls t, Runs.Reaches (g.accessStep auth) s ls t ∧
      t.gateway = (Gateway.revokeAgent s.gateway agentID written).2 := by
  let key := (s.gateway.agents.find? agentID).map (·.1)
  let s₁ : SetUps := { s.withStore (s.gateway.agents.revoke agentID written).2 with
    revoking := (agentID, key) :: s.revoking }
  have h₁ : g.accessStep auth s (.revokeStore agentID written) = some s₁ := rfl
  have h₂ : g.accessStep auth s₁ (.revokeEvict agentID key) =
      some { s₁.withActor (s₁.gateway.actor.evictAgent agentID) with
        revoking := s₁.revoking.erase (agentID, key)
        revoked := key.toList.map (fun k => (agentID, k)) ++ s₁.revoked } :=
    if_pos List.mem_cons_self
  exact ⟨[.revokeStore agentID written, .revokeEvict agentID key], _,
    .cons h₁ (.cons h₂ (.nil _)), rfl⟩

theorem setAgentScope_steps (g : Gateway) (auth : Authority) (s : SetUps) (agentID : String)
    (scope : Scope) (written : Bool) :
    ∃ ls t, Runs.Reaches (g.accessStep auth) s ls t ∧
      t.gateway = (Gateway.setAgentScope s.gateway agentID scope written).2 := by
  let store := (s.gateway.agents.setScope agentID scope written).2
  by_cases hf : (s.gateway.agents.setScope agentID scope written).1 = true
  · let s₁ : SetUps := { s.withStore store with rescoping := agentID :: s.rescoping }
    have h₁ : g.accessStep auth s (.scopeStore agentID scope written) = some s₁ := by
      simp only [Gateway.accessStep, hf, if_true]
      rfl
    have h₂ : g.accessStep auth s₁ (.scopeEvict agentID) =
        some { s₁.withActor (s₁.gateway.actor.evictAgent agentID) with
          rescoping := s₁.rescoping.erase agentID
          rescoped := agentID :: s₁.rescoped } :=
      if_pos List.mem_cons_self
    refine ⟨[.scopeStore agentID scope written, .scopeEvict agentID], _,
      .cons h₁ (.cons h₂ (.nil _)), ?_⟩
    simp only [Gateway.setAgentScope, hf, if_true]
    rfl
  · refine ⟨[.scopeStore agentID scope written], _, .cons (if_neg hf) (.nil _), ?_⟩
    simp only [Gateway.setAgentScope, hf, Bool.false_eq_true, if_false]
    rfl

/-- An agent that joins, is admitted and is then revoked stays out. -/
theorem access_takes_hold_join :
    Runs.Always (idleGateway.accessStep keyAuthority) SetUps.TakesHold
      (SetUps.start AgentStore.empty)
      [.issueEnrollment "ticket" false none ⟨[], []⟩ true, .hello 1 joinHello, .enroll 1 0 true,
        .admitSession 1 "", .revokeStore (keyAuthority.agentID sampleKey) true,
        .revokeEvict (keyAuthority.agentID sampleKey) (some sampleKey), .hello 2 joinHello] := by
  exact access_takes_hold _ _ _ _ (empty_keyed _) (by decide)

/-- A set-up that validated before a revocation is admitted after it returned. -/
theorem revoked_key_admitted :
    ¬Runs.Always (idleGateway.accessStep keyAuthority) SetUps.TakesHold
      (SetUps.start AgentStore.empty)
      [.issueEnrollment "ticket" false none ⟨[], []⟩ true, .hello 1 joinHello, .enroll 1 0 true,
        .revokeStore (keyAuthority.agentID sampleKey) true,
        .revokeEvict (keyAuthority.agentID sampleKey) (some sampleKey), .admitSession 1 ""] := by
  decide

end ProxyForward

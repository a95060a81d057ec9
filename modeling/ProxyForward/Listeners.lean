import ProxyForward.Actor

namespace ProxyForward
set_option autoImplicit true

section Maps

variable {κ V : Type} [DecidableEq κ] (m : AList fun _ : κ => V)

theorem lookup_insert_eq (k i : κ) (v : V) :
    (m.insert k v).lookup i = if i = k then some v else m.lookup i := by
  split
  · subst i
    exact AList.lookup_insert m
  · rename_i h
    exact AList.lookup_insert_ne h

theorem lookup_erase_eq (k i : κ) :
    (m.erase k).lookup i = if i = k then none else m.lookup i := by
  split
  · subst i
    exact AList.lookup_erase k m
  · rename_i h
    exact AList.lookup_erase_ne h

theorem lookup_eq_none_of_entries {m : AList fun _ : κ => V} (h : m.entries = []) (i : κ) :
    m.lookup i = none := by
  simp only [AList.lookup, h, List.dlookup_nil]

end Maps

theorem netListen_ok {env : Env} (h : env.netListen addr held n port = .ok ln) :
    ln.port ∉ held ∧ (port ≠ 0 → ln.port = port) ∧ 1 ≤ ln.port ∧ ln.port ≤ 65535 := by
  unfold Env.netListen at h
  cases hl : env.listen n addr held port with
  | error e => rw [hl] at h; cases h
  | ok p =>
    rw [hl] at h
    cases h
    exact ⟨env.listen_free hl, env.listen_port hl, env.listen_range hl⟩

theorem listenFirstFree_some {env : Env}
    (h : env.listenFirstFree addr held n ps = (some ln, m)) :
    ∃ k, ∃ p ∈ ps, env.netListen addr held k p = .ok ln := by
  induction ps generalizing n with
  | nil => cases h
  | cons p ps ih =>
    unfold Env.listenFirstFree at h
    cases hl : env.netListen addr held n p with
    | ok ln' =>
      rw [hl] at h
      cases h
      exact ⟨n, p, List.mem_cons_self, hl⟩
    | error e =>
      rw [hl] at h
      obtain ⟨k, q, hq, hk⟩ := ih h
      exact ⟨k, q, List.mem_cons_of_mem _ hq, hk⟩

theorem openPort_granted {g : Gateway}
    (h : (g.openPort held n scope port).1 = .granted ln) :
    ln.port ∉ held ∧ (port ≠ 0 → ln.port = port) ∧ 1 ≤ ln.port ∧ ln.port ≤ 65535 := by
  unfold Gateway.openPort at h
  split at h
  · rename_i hl
    cases h
    exact netListen_ok hl
  · split at h
    · cases h
    · split at h <;> cases h

theorem openPort_reassigned {g : Gateway}
    (h : (g.openPort held n scope port).1 = .reassigned ln) :
    ln.port ∉ held ∧ portPermitted scope g.cfg.portAllowlist ln.port = true ∧
      1 ≤ ln.port ∧ ln.port ≤ 65535 := by
  unfold Gateway.openPort at h
  split at h
  · cases h
  · split at h
    · cases h
    · split at h
      · rename_i hl
        cases h
        obtain ⟨k, p, hp, hk⟩ := listenFirstFree_some hl
        obtain ⟨hfree, heq, hrange⟩ := netListen_ok hk
        refine ⟨hfree, ?_, hrange⟩
        rcases reassignCandidates_permitted hp with ⟨-, hs, ha⟩ | ⟨h0, hperm⟩
        · rw [ha]
          exact portPermitted_unconstrained hs
        · rw [heq h0]
          exact hperm
      · cases h

/-- Two states that differ at most in the event log, the anti-flap records and the number of answers
taken from the environment. -/
structure Same (a b : Actor) : Prop where
  agents : b.agents = a.agents
  generation : b.generation = a.generation
  listeners : b.listeners = a.listeners
  evicted : b.evicted = a.evicted

theorem Same.refl (a : Actor) : Same a a := ⟨rfl, rfl, rfl, rfl⟩

theorem Same.trans (h : Same a b) (h' : Same b c) : Same a c :=
  ⟨h'.agents.trans h.agents, h'.generation.trans h.generation, h'.listeners.trans h.listeners,
    h'.evicted.trans h.evicted⟩

/-- A step that leaves the sessions alone and touches at most one agent's listeners. -/
structure Rebinds (i : String) (a b : Actor) : Prop where
  agents : b.agents = a.agents
  generation : b.generation = a.generation
  evicted : b.evicted = a.evicted
  others : ∀ j, j ≠ i → b.listeners.lookup j = a.listeners.lookup j

theorem Same.rebinds (h : Same a b) (i : String) : Rebinds i a b :=
  ⟨h.agents, h.generation, h.evicted, fun _ _ => by rw [h.listeners]⟩

theorem Rebinds.refl (i : String) (a : Actor) : Rebinds i a a := (Same.refl a).rebinds i

theorem Rebinds.trans (h : Rebinds i a b) (h' : Rebinds i b c) : Rebinds i a c :=
  ⟨h'.agents.trans h.agents, h'.generation.trans h.generation, h'.evicted.trans h.evicted,
    fun j hj => (h'.others j hj).trans (h.others j hj)⟩

theorem Rebinds.live {a b : Actor} {sess : AgentSession} (h : Rebinds i a b) (hs : a.live sess) :
    b.live sess := by
  rw [Actor.live, h.agents, h.evicted]
  exact hs

theorem Rebinds.listener? (h : Rebinds i a b) (hj : j ≠ i) (t : String) :
    b.listener? j t = a.listener? j t := by
  simp only [Actor.listener?, h.others j hj]

theorem insert_rebinds (a : Actor) (i : String) (subtree : GoMap PublicListener) :
    Rebinds i a { a with listeners := a.listeners.insert i subtree } :=
  ⟨rfl, rfl, rfl, fun _ hj => AList.lookup_insert_ne hj⟩

theorem erase_rebinds (a : Actor) (i : String) :
    Rebinds i a { a with listeners := a.listeners.erase i } :=
  ⟨rfl, rfl, rfl, fun _ hj => AList.lookup_erase_ne hj⟩

namespace Actor

theorem recordEvent_same (env : Env) (a : Actor) (ev : GatewayEvent) :
    Same a (a.recordEvent env ev) := ⟨rfl, rfl, rfl, rfl⟩

theorem within_same (env : Env) (a : Actor) (last : Option Int) (bound : Int) :
    Same a (a.within env last bound).2 := by
  cases last <;> exact ⟨rfl, rfl, rfl, rfl⟩

theorem noteSupersede_same (env : Env) (a : Actor) (agentID : String) :
    Same a (a.noteSupersede env agentID) := by
  obtain ⟨hg, hn, hl, he⟩ := within_same env a (a.damp agentID).lastSupersedeAt supersedeFlapWindow
  exact ⟨hg, hn, hl, he⟩

theorem contested_same (env : Env) (a : Actor) (incumbent sess : AgentSession) :
    Same a (a.contested env incumbent sess).2 := by
  unfold contested
  split
  · exact within_same _ _ _ _
  · exact .refl a

theorem noteContest_same (env : Env) (a : Actor) (incumbent sess : AgentSession) :
    Same a (a.noteContest env incumbent sess) := by
  refine (contested_same env a incumbent sess).trans ?_
  unfold noteContest
  simp only
  split
  · exact recordEvent_same _ _ _
  · exact .refl _

theorem dampened_same (env : Env) (a : Actor) (agentID : String) :
    Same a (a.dampened env agentID).2 := by
  unfold dampened
  simp only
  split
  · exact within_same _ _ _ _
  · exact .refl a

theorem evict_same (h : Same a b) (sess : AgentSession) : Same (a.evict sess) (b.evict sess) := by
  obtain ⟨hg, hn, hl, he⟩ := h
  constructor <;> simp only [evict, hg, hn, hl, he]

theorem supersede_same (env : Env) (a : Actor) (incumbent sess : AgentSession) :
    Same (a.evict incumbent) (a.supersede env incumbent sess) :=
  (evict_same (noteContest_same env a incumbent sess) incumbent).trans (noteSupersede_same env _ _)

@[simp] theorem listener?_newActor (i t : String) : newActor.listener? i t = none := rfl

theorem listener?_congr {a b : Actor} (h : b.listeners = a.listeners) (i t : String) :
    b.listener? i t = a.listener? i t := by
  rw [listener?, h]
  rfl

theorem listener?_insert (a : Actor) (i k t : String) (subtree : GoMap PublicListener) :
    ({ a with listeners := a.listeners.insert k subtree }).listener? i t =
      if i = k then subtree.lookup t else a.listener? i t := by
  simp only [listener?, lookup_insert_eq]
  split <;> rfl

theorem listener?_erase (a : Actor) (i k t : String) :
    ({ a with listeners := a.listeners.erase k }).listener? i t =
      if i = k then none else a.listener? i t := by
  simp only [listener?, lookup_erase_eq]
  split <;> rfl

theorem listener?_getD (a : Actor) (i t : String) :
    ((a.listeners.lookup i).getD ∅).lookup t = a.listener? i t := by
  unfold listener?
  cases a.listeners.lookup i <;> rfl

theorem listener?_evict (a : Actor) (sess : AgentSession) (i t : String) :
    (a.evict sess).listener? i t = if i = sess.agentID then none else a.listener? i t := by
  exact listener?_erase a i sess.agentID t

theorem listener?_closeTunnel (a : Actor) (k u i t : String) :
    (a.closeTunnel k u).listener? i t = if i = k ∧ t = u then none else a.listener? i t := by
  cases h : a.listeners.lookup k with
  | none =>
    simp only [closeTunnel, h]
    split
    · rename_i he
      obtain ⟨rfl, rfl⟩ := he
      simp only [listener?, h, Option.bind_none]
    · rfl
  | some subtree =>
    simp only [closeTunnel, h, listener?_insert, lookup_erase_eq]
    by_cases hi : i = k
    · subst i
      simp only [if_true, true_and, listener?, h, Option.bind_some]
    · simp only [hi, if_false, false_and]

theorem closeTunnel_rebinds (a : Actor) (i u : String) : Rebinds i a (a.closeTunnel i u) := by
  unfold closeTunnel
  split
  · exact .refl i a
  · exact insert_rebinds a i _

theorem putListener_rebinds (a : Actor) (sess : AgentSession) (spec : TunnelSpec)
    (ln : Listener) : Rebinds sess.agentID a (a.putListener sess spec ln) :=
  insert_rebinds a sess.agentID _

theorem storeLimiters_rebinds (a : Actor) (i u : String) (pl : PublicListener)
    (set : LimiterSet) : Rebinds i a (a.storeLimiters i u pl set) :=
  insert_rebinds a i _

theorem unbindLocked_rebinds (a : Actor) (sess : AgentSession) (u : String) :
    Rebinds sess.agentID a (a.unbindLocked sess u) := by
  unfold unbindLocked
  split
  · exact .refl _ a
  · split
    · exact .refl _ a
    · simp only [dropTunnel]
      split
      · exact erase_rebinds a _
      · exact insert_rebinds a _ _

theorem listener?_putListener (a : Actor) (sess : AgentSession) (spec : TunnelSpec)
    (ln : Listener) (i t : String) :
    (a.putListener sess spec ln).listener? i t =
      if i = sess.agentID ∧ t = spec.id then
        some ⟨spec, sess, ln, buildSet spec.bandwidthLimitMbps spec.bandwidthLimitScope⟩
      else a.listener? i t := by
  simp only [putListener, listener?_insert, lookup_insert_eq, listener?_getD]
  by_cases hi : i = sess.agentID
  · subst i
    simp only [if_true, true_and]
  · simp only [hi, if_false, false_and]

theorem listener?_storeLimiters (a : Actor) (k u : String) (pl : PublicListener)
    (set : LimiterSet) (i t : String) :
    (a.storeLimiters k u pl set).listener? i t =
      if i = k ∧ t = u then some { pl with limiters := set } else a.listener? i t := by
  simp only [storeLimiters, listener?_insert, lookup_insert_eq, listener?_getD]
  by_cases hi : i = k
  · subst i
    simp only [if_true, true_and]
  · simp only [hi, if_false, false_and]

theorem listener?_dropTunnel (a : Actor) (k u i t : String) :
    (a.dropTunnel k u).listener? i t = if i = k ∧ t = u then none else a.listener? i t := by
  have he (t : String) : (((a.listeners.lookup k).getD ∅).erase u).lookup t =
      if t = u then none else a.listener? k t := by
    rw [lookup_erase_eq, listener?_getD]
  unfold dropTunnel
  simp only
  by_cases hi : i = k
  · subst i
    simp only [true_and]
    rw [← he]
    split
    · rename_i hn
      rw [listener?_erase, if_pos rfl, lookup_eq_none_of_entries hn]
    · rw [listener?_insert, if_pos rfl]
  · simp only [hi, false_and, if_false]
    split
    · rw [listener?_erase, if_neg hi]
    · rw [listener?_insert, if_neg hi]

theorem listener?_unbindLocked (a : Actor) (sess : AgentSession) (u i t : String) :
    (a.unbindLocked sess u).listener? i t =
      if i = sess.agentID ∧ t = u ∧ (a.listener? i t).any (fun pl => pl.owner = sess) then none
      else a.listener? i t := by
  cases hp : a.listener? sess.agentID u with
  | none =>
    simp only [unbindLocked, hp]
    split
    · rename_i h
      rw [h.1, h.2.1, hp]
    · rfl
  | some pl =>
    simp only [unbindLocked, hp]
    by_cases ho : pl.owner = sess
    · simp only [ho, ne_eq, not_true_eq_false, if_false, listener?_dropTunnel]
      by_cases hk : i = sess.agentID ∧ t = u
      · obtain ⟨rfl, rfl⟩ := hk
        simp only [hp, Option.any_some, ho, decide_true, and_self, if_true]
      · rw [if_neg hk, if_neg fun h => hk ⟨h.1, h.2.1⟩]
    · simp only [ho, ne_eq, not_false_eq_true, if_true]
      split
      · rename_i h
        obtain ⟨hi, ht, ha⟩ := h
        rw [hi, ht, hp, Option.any_some] at ha
        exact absurd (of_decide_eq_true ha) ho
      · rfl

theorem mem_heldPorts {a : Actor} :
    p ∈ a.heldPorts ↔ ∃ i t pl, a.listener? i t = some pl ∧ pl.ln.port = p := by
  simp only [heldPorts, List.mem_flatMap, List.mem_map]
  constructor
  · rintro ⟨⟨i, subtree⟩, hi, ⟨t, pl⟩, ht, hp⟩
    refine ⟨i, t, pl, ?_, hp⟩
    have hs : a.listeners.lookup i = some subtree := AList.mem_lookup_iff.2 hi
    simp only [listener?, hs, Option.bind_some]
    exact AList.mem_lookup_iff.2 ht
  · rintro ⟨i, t, pl, hpl, hp⟩
    obtain ⟨subtree, hs, ht⟩ := Option.bind_eq_some_iff.1 hpl
    exact ⟨⟨i, subtree⟩, AList.mem_lookup_iff.1 hs, ⟨t, pl⟩, AList.mem_lookup_iff.1 ht, hp⟩

/-- Everything `bindLocked` can do: the tunnel's old listener is closed first, and then either
nothing takes its place or a listener on a port that no stored listener holds. -/
theorem bindLocked_cases (g : Gateway) (a : Actor) (sess : AgentSession) (spec : TunnelSpec) :
    (∃ text b, Same (a.closeTunnel sess.agentID spec.id) b ∧
      a.bindLocked g sess spec = (.error text, b)) ∨
    ∃ ln b, Same (a.closeTunnel sess.agentID spec.id) b ∧
      ln.port ∉ (a.closeTunnel sess.agentID spec.id).heldPorts ∧ 1 ≤ ln.port ∧ ln.port ≤ 65535 ∧
      a.bindLocked g sess spec = (.ok ln.port, b.putListener sess spec ln) := by
  unfold bindLocked
  simp only
  split
  · rename_i ln n h
    obtain ⟨hfree, -, hlo, hhi⟩ := openPort_granted (congrArg Prod.fst h)
    exact .inr ⟨ln, { a.closeTunnel sess.agentID spec.id with calls := n }, ⟨rfl, rfl, rfl, rfl⟩,
      hfree, hlo, hhi, rfl⟩
  · rename_i ln n h
    obtain ⟨hfree, -, hlo, hhi⟩ := openPort_reassigned (congrArg Prod.fst h)
    exact .inr ⟨ln, ({ a.closeTunnel sess.agentID spec.id with calls := n }).noteReassigned
      g.env sess spec ln, ⟨rfl, rfl, rfl, rfl⟩, hfree, hlo, hhi, rfl⟩
  · rename_i text n h
    exact .inl ⟨text, { a.closeTunnel sess.agentID spec.id with calls := n },
      ⟨rfl, rfl, rfl, rfl⟩, rfl⟩

theorem bindLocked_rebinds (g : Gateway) (a : Actor) (sess : AgentSession) (spec : TunnelSpec) :
    Rebinds sess.agentID a (a.bindLocked g sess spec).2 := by
  have hc := closeTunnel_rebinds a sess.agentID spec.id
  rcases bindLocked_cases g a sess spec with ⟨text, b, hb, hr⟩ | ⟨ln, b, hb, -, -, -, hr⟩
  · rw [hr]
    exact hc.trans (hb.rebinds _)
  · rw [hr]
    exact (hc.trans (hb.rebinds _)).trans (putListener_rebinds _ _ _ _)

theorem bindTunnel_rebinds (g : Gateway) (a : Actor) (sess : AgentSession) (spec : TunnelSpec) :
    Rebinds sess.agentID a (a.bindTunnel g sess spec).2 := by
  unfold bindTunnel
  split
  · exact bindLocked_rebinds g a sess spec
  · exact .refl _ a

theorem kept?_some {a : Actor} {sess : AgentSession} (h : a.kept? sess spec = some pl) :
    a.listener? sess.agentID spec.id = some pl ∧ sameListener pl.spec spec = true := by
  obtain ⟨hl, hs⟩ := Option.filter_eq_some_iff.1 h
  exact ⟨hl, hs⟩

theorem reconcileSpec_kept {a : Actor} {sess : AgentSession} (g : Gateway)
    (h : a.kept? sess spec = some pl) :
    a.reconcileSpec g sess spec = (⟨spec.id, pl.ln.port, none⟩,
      if pl.spec ≠ spec then a.storeLimiters sess.agentID spec.id pl
        (reconcileSet (some pl.limiters) spec.bandwidthLimitMbps spec.bandwidthLimitScope).1
      else a) := by
  simp only [reconcileSpec, h]

theorem reconcileSpec_bound {a : Actor} {sess : AgentSession} (g : Gateway)
    (h : a.kept? sess spec = none) :
    (∃ text b, Same (a.closeTunnel sess.agentID spec.id) b ∧
      a.reconcileSpec g sess spec = (⟨spec.id, 0, some text⟩, b)) ∨
    ∃ ln b, Same (a.closeTunnel sess.agentID spec.id) b ∧
      ln.port ∉ (a.closeTunnel sess.agentID spec.id).heldPorts ∧ 1 ≤ ln.port ∧ ln.port ≤ 65535 ∧
      a.reconcileSpec g sess spec = (⟨spec.id, ln.port, none⟩, b.putListener sess spec ln) := by
  rcases bindLocked_cases g a sess spec with ⟨text, b, hb, hr⟩ | ⟨ln, b, hb, hp, hlo, hhi, hr⟩
  · exact .inl ⟨text, b, hb, by simp only [reconcileSpec, h, hr]⟩
  · exact .inr ⟨ln, b, hb, hp, hlo, hhi, by simp only [reconcileSpec, h, hr]⟩

theorem reconcileSpec_rebinds (g : Gateway) (a : Actor) (sess : AgentSession)
    (spec : TunnelSpec) : Rebinds sess.agentID a (a.reconcileSpec g sess spec).2 := by
  cases h : a.kept? sess spec with
  | some pl =>
    rw [reconcileSpec_kept g h]
    simp only
    split
    · exact storeLimiters_rebinds _ _ _ _ _
    · exact .refl _ a
  | none =>
    have hb := bindLocked_rebinds g a sess spec
    simp only [reconcileSpec, h]
    split <;> simpa only [*] using hb

theorem reconcileSpecs_rebinds (g : Gateway) (a : Actor) (sess : AgentSession)
    (specs : List TunnelSpec) : Rebinds sess.agentID a (a.reconcileSpecs g sess specs).2 := by
  induction specs generalizing a with
  | nil => exact .refl _ a
  | cons spec rest ih => exact (reconcileSpec_rebinds g a sess spec).trans (ih _)

theorem unbindAll_rebinds (a : Actor) (sess : AgentSession) (ids : List String) :
    Rebinds sess.agentID a (a.unbindAll sess ids) := by
  induction ids generalizing a with
  | nil => exact .refl _ a
  | cons i ids ih => exact (unbindLocked_rebinds a sess i).trans (ih _)

theorem reconcile_live {a : Actor} {sess : AgentSession} (g : Gateway) (hs : a.live sess)
    (desired : List TunnelSpec) : a.reconcile g sess desired =
      (a.unbindAll sess (a.unwanted sess desired)).reconcileSpecs g sess desired :=
  if_pos hs

theorem reconcile_rebinds (g : Gateway) (a : Actor) (sess : AgentSession)
    (desired : List TunnelSpec) : Rebinds sess.agentID a (a.reconcile g sess desired).2 := by
  unfold reconcile
  split
  · exact (unbindAll_rebinds a sess _).trans (reconcileSpecs_rebinds g _ sess desired)
  · exact .refl _ a

end Actor

end ProxyForward

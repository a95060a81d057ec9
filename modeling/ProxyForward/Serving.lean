import ProxyForward.Reconcile

namespace ProxyForward
set_option autoImplicit true

/-- No two of the specs share an id. -/
def KeyedSpecs (specs : List TunnelSpec) : Prop :=
  ∀ x ∈ specs, ∀ y ∈ specs, x.id = y.id → x = y

namespace Actor

/-- The session's listeners were opened for the specs. -/
def ServesOnly (a : Actor) (sess : AgentSession) (specs : List TunnelSpec) : Prop :=
  ∀ t pl, a.listener? sess.agentID t = some pl → pl.spec ∈ specs

/-- The session has its listener for a spec, or an attempt to bind it failed. -/
def Attempted (a : Actor) (sess : AgentSession) (log : List ReconcileOutcome)
    (spec : TunnelSpec) : Prop :=
  (∃ pl, a.listener? sess.agentID spec.id = some pl ∧ pl.spec = spec) ∨
    ∃ o ∈ log, o.id = spec.id ∧ o.err ≠ none

theorem Attempted.grow {a b : Actor} {sess : AgentSession} (h : a.Attempted sess log spec)
    (hl : b.listener? sess.agentID spec.id = a.listener? sess.agentID spec.id)
    (hlog : ∀ o ∈ log, o ∈ log') : b.Attempted sess log' spec := by
  obtain hpl | ⟨o, ho, hid, herr⟩ := h
  · exact .inl (hl ▸ hpl)
  · exact .inr ⟨o, hlog o ho, hid, herr⟩

variable {a : Actor} {sess : AgentSession} {specs desired : List TunnelSpec}

theorem reconcileSpec_spec (g : Gateway)
    (h : (a.reconcileSpec g sess spec).2.listener? sess.agentID spec.id = some pl) :
    pl.spec = spec ∨ ∃ pl', a.listener? sess.agentID spec.id = some pl' ∧ pl.spec = pl'.spec := by
  cases hk : a.kept? sess spec with
  | some pl' =>
    obtain ⟨hl, -⟩ := kept?_some hk
    obtain ⟨_, hafter, hspec, -, -⟩ := reconcileSpec_keeps g hk
    rw [hafter] at h
    cases h
    exact .inr ⟨pl', hl, hspec⟩
  | none =>
    obtain ⟨text, b, hb, he⟩ | ⟨ln, b, hb, -, -, -, he⟩ := reconcileSpec_bound g hk
    · rw [he] at h
      simp only [listener?_congr hb.listeners, listener?_closeTunnel, and_self, if_true] at h
      cases h
    · rw [he] at h
      simp only [listener?_putListener, and_self, if_true] at h
      cases h
      exact .inl rfl

theorem ServesOnly.reconcileSpec (h : a.ServesOnly sess specs) (g : Gateway)
    (hspec : spec ∈ specs) : (a.reconcileSpec g sess spec).2.ServesOnly sess specs := by
  intro t pl hpl
  by_cases ht : t = spec.id
  · subst ht
    obtain he | ⟨pl', hl, he⟩ := reconcileSpec_spec g hpl
    · exact he ▸ hspec
    · exact he ▸ h _ _ hl
  · rw [reconcileSpec_others g a sess spec fun hc => ht hc.2] at hpl
    exact h t pl hpl

theorem ServesOnly.reconcileSpecs (h : a.ServesOnly sess specs) (g : Gateway)
    (hd : ∀ spec ∈ desired, spec ∈ specs) :
    (a.reconcileSpecs g sess desired).2.ServesOnly sess specs := by
  induction desired generalizing a with
  | nil => exact h
  | cons spec rest ih =>
    rw [List.forall_mem_cons] at hd
    exact ih (h.reconcileSpec g hd.1) hd.2

theorem Inv.reconcile_servesOnly (hi : a.Inv) (g : Gateway) (hs : a.live sess)
    (h : a.ServesOnly sess specs) (hd : ∀ spec ∈ desired, spec ∈ specs) :
    (a.reconcile g sess desired).2.ServesOnly sess specs := by
  rw [reconcile_live g hs]
  refine ServesOnly.reconcileSpecs (fun t pl hpl => ?_) g hd
  rw [listener?_unwanted hi hs] at hpl
  split at hpl
  · exact h t pl hpl
  · cases hpl

theorem Inv.reconcileSpec_attempted (hi : a.Inv) (g : Gateway) (hs : a.live sess)
    (h : a.ServesOnly sess specs) (hkeyed : KeyedSpecs specs) (hspec : spec ∈ specs) :
    (a.reconcileSpec g sess spec).2.Attempted sess [(a.reconcileSpec g sess spec).1] spec := by
  have hid := reconcileSpec_id g a sess spec
  have htells := (reconcileSpec_self g a sess spec).1
  cases hpl : (a.reconcileSpec g sess spec).2.listener? sess.agentID spec.id with
  | none => exact .inr ⟨_, List.mem_singleton_self _, hid, (tells_none (hid.symm ▸ hpl)).1 htells⟩
  | some pl =>
    refine .inl ⟨pl, hpl, hkeyed _ (h.reconcileSpec g hspec _ _ hpl) _ hspec ?_⟩
    exact (hi.reconcileSpec g hs spec).named _ _ _ hpl

theorem Inv.reconcileSpecs_attempted (hi : a.Inv) (g : Gateway) (hs : a.live sess)
    (h : a.ServesOnly sess specs) (hkeyed : KeyedSpecs specs)
    (hd : ∀ spec ∈ desired, spec ∈ specs) :
    ∀ spec ∈ desired, (a.reconcileSpecs g sess desired).2.Attempted sess
      (a.reconcileSpecs g sess desired).1 spec := by
  induction desired generalizing a with
  | nil => exact nofun
  | cons spec rest ih =>
    rw [List.forall_mem_cons] at hd
    have hlater := ih (hi.reconcileSpec g hs spec) ((reconcileSpec_rebinds g a sess spec).live hs)
      (h.reconcileSpec g hd.1) hd.2
    rw [List.forall_mem_cons]
    constructor
    · by_cases hagain : spec.id ∈ rest.map (·.id)
      · obtain ⟨s, hmem, hid⟩ := List.mem_map.1 hagain
        obtain rfl := hkeyed s (hd.2 s hmem) spec hd.1 hid
        exact (hlater s hmem).grow rfl fun o ho => List.mem_cons_of_mem _ ho
      · refine (hi.reconcileSpec_attempted g hs h hkeyed hd.1).grow ?_ ?_
        · exact reconcileSpecs_others g _ sess rest fun hc => hagain hc.2
        · intro o ho
          rw [List.mem_singleton.1 ho]
          exact List.mem_cons_self
    · exact fun s hmem => (hlater s hmem).grow rfl fun o ho => List.mem_cons_of_mem _ ho

theorem Inv.reconcile_attempted (hi : a.Inv) (g : Gateway) (hs : a.live sess)
    (h : a.ServesOnly sess specs) (hkeyed : KeyedSpecs specs)
    (hd : ∀ spec ∈ desired, spec ∈ specs) :
    ∀ spec ∈ desired, (a.reconcile g sess desired).2.Attempted sess
      (a.reconcile g sess desired).1 spec := by
  rw [reconcile_live g hs]
  refine (hi.unbindAll sess _).reconcileSpecs_attempted g
    ((unbindAll_rebinds a sess _).live hs) (fun t pl hpl => ?_) hkeyed hd
  rw [listener?_unwanted hi hs] at hpl
  split at hpl
  · exact h t pl hpl
  · cases hpl

end Actor

/-- The listeners of a session, while it is live: they serve only those specs, and each of these was
attempted or is still waited for. -/
structure Actor.Provides (a : Actor) (sess : AgentSession) (specs : List TunnelSpec)
    (waiting : TunnelSpec → Prop) (log : List ReconcileOutcome) : Prop where
  inv : a.Inv
  only : a.live sess → a.ServesOnly sess specs
  attempted : a.live sess → KeyedSpecs specs →
    ∀ spec ∈ specs, a.Attempted sess log spec ∨ waiting spec

/-- The outcome of a single registration. -/
def Gateway.registration (g : Gateway) (a : Actor) (sess : AgentSession) (spec : TunnelSpec) :
    ReconcileOutcome :=
  match (g.bindTunnel a sess spec).1 with
  | .ok port => ⟨spec.id, port, none⟩
  | .error berr => ⟨spec.id, 0, some berr.msg⟩

namespace Gateway

variable {a : Actor} {sess : AgentSession} {specs : List TunnelSpec} {spec : TunnelSpec}

theorem registration_id (g : Gateway) (a : Actor) (sess : AgentSession) (spec : TunnelSpec) :
    (g.registration a sess spec).id = spec.id := by
  unfold registration
  split <;> rfl

theorem bindTunnel_actor (g : Gateway) (a : Actor) (sess : AgentSession) (spec : TunnelSpec) :
    (g.bindTunnel a sess spec).2 = a ∨
      (g.bindTunnel a sess spec).2 = (a.bindTunnel g sess spec).2 := by
  unfold bindTunnel
  split
  · exact .inl rfl
  · split <;> exact .inr (by simp only [*])

theorem bindTunnel_rebinds (g : Gateway) (a : Actor) (sess : AgentSession) (spec : TunnelSpec) :
    Rebinds sess.agentID a (g.bindTunnel a sess spec).2 := by
  obtain h | h := bindTunnel_actor g a sess spec <;> rw [h]
  · exact .refl _ a
  · exact Actor.bindTunnel_rebinds g a sess spec

/-- Everything a registration can do: nothing for a refused spec, else a failed bind or a listener
of the spec. -/
theorem bindTunnel_cases (g : Gateway) (hs : a.live sess) (spec : TunnelSpec) :
    (g.validateSpec spec sess.scope ≠ none ∧ (g.bindTunnel a sess spec).2 = a) ∨
    (g.registration a sess spec).err ≠ none ∧
      (∀ t, (g.bindTunnel a sess spec).2.listener? sess.agentID t =
        if t = spec.id then none else a.listener? sess.agentID t) ∨
    g.validateSpec spec sess.scope = none ∧ ∃ pl : PublicListener, pl.spec = spec ∧
      ∀ t, (g.bindTunnel a sess spec).2.listener? sess.agentID t =
        if t = spec.id then some pl else a.listener? sess.agentID t := by
  unfold registration bindTunnel
  cases hv : g.validateSpec spec sess.scope with
  | some berr => exact .inl ⟨Option.some_ne_none _, rfl⟩
  | none =>
    have hclosed (b : Actor) (hb : Same (a.closeTunnel sess.agentID spec.id) b) (t : String) :
        b.listener? sess.agentID t = if t = spec.id then none else a.listener? sess.agentID t := by
      rw [Actor.listener?_congr hb.listeners, Actor.listener?_closeTunnel]
      simp only [true_and]
    simp only [Actor.bindTunnel, if_pos hs]
    obtain ⟨text, b, hb, he⟩ | ⟨ln, b, hb, -, -, -, he⟩ := Actor.bindLocked_cases g a sess spec
    · rw [he]
      exact .inr (.inl ⟨Option.some_ne_none _, hclosed b hb⟩)
    · rw [he]
      refine .inr (.inr ⟨trivial, ⟨spec, sess, ln,
        buildSet spec.bandwidthLimitMbps spec.bandwidthLimitScope⟩, rfl, fun t => ?_⟩)
      have hput := Actor.listener?_putListener b sess spec ln sess.agentID t
      simp only [true_and] at hput
      rw [hput, hclosed b hb]
      split <;> rfl

end Gateway

namespace Actor.Provides

variable {a b : Actor} {sess : AgentSession} {specs desired : List TunnelSpec}
  {waiting waiting' : TunnelSpec → Prop} {log log' : List ReconcileOutcome}

theorem mono (h : a.Provides sess specs waiting log)
    (hw : ∀ spec ∈ specs, waiting spec → waiting' spec) : a.Provides sess specs waiting' log :=
  ⟨h.inv, h.only, fun hs hkeyed spec hspec =>
    (h.attempted hs hkeyed spec hspec).imp_right (hw spec hspec)⟩

theorem of_none (hi : a.Inv) (hnone : a.live sess → ∀ t, a.listener? sess.agentID t = none)
    (hw : ∀ spec ∈ specs, waiting spec) : a.Provides sess specs waiting log := by
  refine ⟨hi, fun hs t pl hpl => ?_, fun _ _ spec hspec => .inr (hw spec hspec)⟩
  rw [hnone hs t] at hpl
  cases hpl

theorem exec {st : GatewayState} (h : st.actor.Provides sess specs waiting log) (g : Gateway)
    {c : Command} (hby : c.by? ≠ some sess) :
    (g.exec st c).actor.Provides sess specs waiting log := by
  have hsame (hs : (g.exec st c).actor.live sess) (t : String) :
      (g.exec st c).actor.listener? sess.agentID t = st.actor.listener? sess.agentID t := by
    rw [Actor.listener?, (Gateway.exec_others h.inv hby hs).2, Actor.listener?]
  refine ⟨Gateway.exec_inv g h.inv c, fun hs t pl hpl => ?_, fun hs hkeyed spec hspec => ?_⟩
  · exact h.only (Gateway.exec_others h.inv hby hs).1 t pl (hsame hs t ▸ hpl)
  · exact (h.attempted (Gateway.exec_others h.inv hby hs).1 hkeyed spec hspec).imp_left
      fun ha => ha.grow (hsame hs spec.id) fun _ ho => ho

theorem reconcile (h : a.Provides sess specs waiting log) (g : Gateway)
    (hd : ∀ spec, spec ∈ desired ↔ spec ∈ specs) :
    (a.reconcile g sess desired).2.Provides sess specs (fun _ => False)
      (log ++ (a.reconcile g sess desired).1) := by
  have hback := Actor.live_rebinds (x := sess) (Actor.reconcile_rebinds g a sess desired)
  refine ⟨h.inv.reconcile g sess desired, fun hs => ?_, fun hs hkeyed spec hspec => .inl ?_⟩
  · exact h.inv.reconcile_servesOnly g (hback.1 hs) (h.only (hback.1 hs)) fun spec => (hd spec).1
  · refine (h.inv.reconcile_attempted g (hback.1 hs) (h.only (hback.1 hs)) hkeyed
      (fun spec => (hd spec).1) spec ((hd spec).2 hspec)).grow rfl fun o ho => ?_
    exact List.mem_append_right _ ho

theorem bindTunnel (h : a.Provides sess specs waiting log) (g : Gateway)
    (hspec : spec ∈ specs ↔ g.validateSpec spec sess.scope = none) :
    (g.bindTunnel a sess spec).2.Provides sess specs (fun s => waiting s ∧ s ≠ spec)
      (log ++ [g.registration a sess spec]) := by
  have hback := Actor.live_rebinds (x := sess) (Gateway.bindTunnel_rebinds g a sess spec)
  have hother {s : TunnelSpec} (hs : a.live sess) (hkeyed : KeyedSpecs specs) (hmem : s ∈ specs)
      (hne : s.id ≠ spec.id) (hl : (g.bindTunnel a sess spec).2.listener? sess.agentID s.id =
        a.listener? sess.agentID s.id) :
      (g.bindTunnel a sess spec).2.Attempted sess (log ++ [g.registration a sess spec]) s ∨
        waiting s ∧ s ≠ spec := by
    obtain ha | hw := h.attempted hs hkeyed s hmem
    · exact .inl (ha.grow hl fun _ ho => List.mem_append_left _ ho)
    · exact .inr ⟨hw, fun he => hne (congrArg TunnelSpec.id he)⟩
  have hinv : (g.bindTunnel a sess spec).2.Inv := by
    obtain he | he := Gateway.bindTunnel_actor g a sess spec <;> rw [he]
    · exact h.inv
    · exact h.inv.bindTunnel g sess spec
  refine ⟨hinv, fun hs => ?_, fun hs hkeyed s hmem => ?_⟩
  · have hs := hback.1 hs
    obtain ⟨-, he⟩ | ⟨-, hafter⟩ | ⟨hv, pl', hpl', hafter⟩ := Gateway.bindTunnel_cases g hs spec
    · rw [he]
      exact h.only hs
    · intro t pl hpl
      rw [hafter] at hpl
      split at hpl
      · cases hpl
      · exact h.only hs t pl hpl
    · intro t pl hpl
      rw [hafter] at hpl
      split at hpl
      · cases hpl
        exact hpl' ▸ hspec.2 hv
      · exact h.only hs t pl hpl
  · have hs := hback.1 hs
    obtain ⟨hv, he⟩ | ⟨herr, hafter⟩ | ⟨hv, pl', hpl', hafter⟩ :=
      Gateway.bindTunnel_cases g hs spec
    · have hne : s ≠ spec := fun hc => hv (hspec.1 (hc ▸ hmem))
      rw [he]
      exact (h.attempted hs hkeyed s hmem).imp
        (fun ha => ha.grow rfl fun _ ho => List.mem_append_left _ ho) fun hw => ⟨hw, hne⟩
    · by_cases hid : s.id = spec.id
      · refine .inl (.inr ⟨_, List.mem_append_right _ (List.mem_singleton_self _), ?_, herr⟩)
        exact (Gateway.registration_id g a sess spec).trans hid.symm
      · exact hother hs hkeyed hmem hid ((hafter s.id).trans (if_neg hid))
    · by_cases hid : s.id = spec.id
      · obtain rfl := hkeyed s hmem spec (hspec.2 hv) hid
        exact .inl (.inl ⟨pl', (hafter s.id).trans (if_pos rfl), hpl'⟩)
      · exact hother hs hkeyed hmem hid ((hafter s.id).trans (if_neg hid))

end Actor.Provides

end ProxyForward

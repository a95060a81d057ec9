import ProxyForward.Reconcile
import ProxyForward.Runs

namespace ProxyForward
set_option autoImplicit true

/-- A desired list as callers pass it: one spec an id. -/
abbrev DesiredSet := { desired : List TunnelSpec // (desired.map (·.id)).Nodup }

/-- One reconcile call of a session. -/
def Gateway.pass (g : Gateway) (sess : AgentSession) (a : Actor) (desired : DesiredSet) :
    Option Actor :=
  some (a.reconcile g sess desired.1).2

/-- After the call, every tunnel without an error is limited by the cap that the call asks for. -/
def CapsInForce (g : Gateway) (sess : AgentSession) (a : Actor) (desired : DesiredSet) : Prop :=
  ∀ o ∈ (a.reconcile g sess desired.1).1, o.err = none → ∀ spec ∈ desired.1, spec.id = o.id →
    ∃ pl ∈ (a.reconcile g sess desired.1).2.listener? sess.agentID o.id,
      pl.limiters.Enforces spec.bandwidthLimitMbps spec.bandwidthLimitScope

/-- No listener is asked for the very spec it was bound with while other caps are in force on it. -/
def NoCapHidden (sess : AgentSession) (a : Actor) (desired : DesiredSet) : Prop :=
  ∀ spec ∈ desired.1, ∀ pl ∈ a.listener? sess.agentID spec.id, pl.spec = spec →
    pl.limiters.Enforces spec.bandwidthLimitMbps spec.bandwidthLimitScope

instance (g : Gateway) (sess : AgentSession) (a : Actor) (desired : DesiredSet) :
    Decidable (CapsInForce g sess a desired) := by
  unfold CapsInForce
  infer_instance

namespace Actor

/-- What one spec of a pass leaves enforces the spec's cap, except that limiters are not looked at
when the spec is the one its listener was bound with. -/
theorem Inv.reconcileSpec_cap {a : Actor} {sess : AgentSession} (h : a.Inv) (g : Gateway)
    (spec : TunnelSpec) :
    (∀ pl ∈ (a.reconcileSpec g sess spec).2.listener? sess.agentID spec.id,
      pl.limiters.Enforces spec.bandwidthLimitMbps spec.bandwidthLimitScope) ↔
    ∀ pl ∈ a.listener? sess.agentID spec.id, pl.spec = spec →
      pl.limiters.Enforces spec.bandwidthLimitMbps spec.bandwidthLimitScope := by
  cases hk : a.kept? sess spec with
  | some pl =>
    obtain ⟨hl, -⟩ := kept?_some hk
    rw [reconcileSpec_kept g hk, hl]
    by_cases he : pl.spec = spec
    · simp only [he, ne_eq, not_true_eq_false, if_false, hl, Option.mem_some_iff, forall_eq',
        true_imp_iff]
    · have hb : ∀ set, some pl.limiters = some set → set.Built := by
        rintro set ⟨⟩
        exact h.built _ _ _ hl
      simp only [ne_eq, he, not_false_eq_true, if_true, listener?_storeLimiters, and_self,
        Option.mem_some_iff, forall_eq', false_imp_iff, iff_true]
      exact (reconcileSet_enforces hb).2
  | none =>
    have hne : ∀ pl ∈ a.listener? sess.agentID spec.id, pl.spec ≠ spec := by
      intro pl hpl he
      rw [kept?_of_sameListener hpl (he ▸ sameListener_refl _)] at hk
      cases hk
    refine iff_of_true ?_ fun pl hpl he => absurd he (hne pl hpl)
    rcases reconcileSpec_bound g hk with ⟨_, b, hb, he⟩ | ⟨ln, b, hb, -, -, -, he⟩
    · have hn : b.listener? sess.agentID spec.id = none := by
        rw [listener?_congr hb.listeners, listener?_closeTunnel, if_pos ⟨rfl, rfl⟩]
      rw [he]
      simp only [hn, Option.not_mem_none, false_imp_iff, implies_true]
    · rw [he]
      simp only [listener?_putListener, and_self, if_true, Option.mem_some_iff, forall_eq']
      exact buildSet_enforces _ _

/-- One call leaves every cap it asks for in force exactly when it hides none. -/
theorem Inv.capsInForce_iff {a : Actor} {sess : AgentSession} (h : a.Inv) (g : Gateway)
    (hs : a.live sess) (desired : DesiredSet) :
    CapsInForce g sess a desired ↔ NoCapHidden sess a desired := by
  obtain ⟨desired, hd⟩ := desired
  have hspec {spec : TunnelSpec} (hspec : spec ∈ desired) :
      (∀ pl ∈ (a.reconcile g sess desired).2.listener? sess.agentID spec.id,
        pl.limiters.Enforces spec.bandwidthLimitMbps spec.bandwidthLimitScope) ↔
      ∀ pl ∈ a.listener? sess.agentID spec.id, pl.spec = spec →
        pl.limiters.Enforces spec.bandwidthLimitMbps spec.bandwidthLimitScope := by
    obtain ⟨a', hi, -, hbefore, -, hafter⟩ := h.reconcile_focus g hs hd hspec
    rw [hafter, ← hbefore]
    exact hi.reconcileSpec_cap g spec
  constructor
  · intro hc spec hmem
    refine (hspec hmem).1 fun pl hpl => ?_
    have hid : spec.id ∈ (a.reconcile g sess desired).1.map (·.id) := by
      rw [reconcile_ids]
      exact List.mem_map_of_mem hmem
    obtain ⟨o, ho, hoid⟩ := List.mem_map.1 hid
    have ht := (tells_some (hoid ▸ hpl)).1 (h.reconcile_tells g hs hd ho)
    obtain ⟨pl', hpl', he⟩ := hc o ho ht.1 spec hmem hoid.symm
    rw [hoid, hpl] at hpl'
    cases hpl'
    exact he
  · intro hc o ho he spec hmem hid
    cases hpl : (a.reconcile g sess desired).2.listener? sess.agentID o.id with
    | none => exact absurd he ((tells_none hpl).1 (h.reconcile_tells g hs hd ho))
    | some pl => exact ⟨pl, rfl, (hspec hmem).2 (hc spec hmem) pl (hid ▸ hpl)⟩

end Actor

/-- Along every run of reconcile calls of a live session, from any reachable state, the caps last
asked for are in force after each call if and only if no call hides one. -/
theorem caps_in_force_iff (g : Gateway) (store : AgentStore) (cmds : List Command)
    (sess : AgentSession) (calls : List DesiredSet)
    (hs : (g.run (GatewayState.start store) cmds).actor.live sess) :
    Runs.Along (g.pass sess) (CapsInForce g sess)
      (g.run (GatewayState.start store) cmds).actor calls ↔
    Runs.Along (g.pass sess) (NoCapHidden sess)
      (g.run (GatewayState.start store) cmds).actor calls := by
  have hinv : (g.run (GatewayState.start store) cmds).actor.Inv :=
    Gateway.run_inv g Actor.newActor_inv cmds
  refine Runs.along_congr (I := fun a => a.Inv ∧ a.live sess) ?_ ⟨hinv, hs⟩
  rintro a desired _ ⟨hi, hl⟩ ⟨⟩
  exact ⟨⟨hi.reconcile g sess desired.1, (Actor.reconcile_rebinds g a sess desired.1).live hl⟩,
    hi.capsInForce_iff g hl desired⟩

def cappedSpec (mbps : Int) : TunnelSpec :=
  { TunnelSpec.plain "t" 8080 with bandwidthLimitMbps := mbps }

/-- A cap raised from 10 to 20 and lowered to 10 again. -/
theorem caps_in_force_iff_raised :
    let sess := AgentSession.plain 1 "a"
    let a := (idleGateway.run (GatewayState.start .empty) [.admitSession sess]).actor
    let calls : List DesiredSet := [⟨[cappedSpec 10], by decide⟩, ⟨[cappedSpec 20], by decide⟩,
      ⟨[cappedSpec 10], by decide⟩]
    Runs.Along (idleGateway.pass sess) (CapsInForce idleGateway sess) a calls ↔
      Runs.Along (idleGateway.pass sess) (NoCapHidden sess) a calls :=
  caps_in_force_iff idleGateway .empty [.admitSession (AgentSession.plain 1 "a")] _ _ (by decide)

/-- The cap lowered again is not in force: the listener goes on with 20. -/
theorem caps_not_in_force_after_raise :
    let sess := AgentSession.plain 1 "a"
    let a := (idleGateway.run (GatewayState.start .empty) [.admitSession sess]).actor
    ¬Runs.Along (idleGateway.pass sess) (CapsInForce idleGateway sess) a
      [⟨[cappedSpec 10], by decide⟩, ⟨[cappedSpec 20], by decide⟩,
        ⟨[cappedSpec 10], by decide⟩] := by
  decide

end ProxyForward

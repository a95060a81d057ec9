import ProxyForward.PushedConfig
import ProxyForward.Serving

namespace ProxyForward
set_option autoImplicit true

namespace Actor

variable {g : Gateway} {sess : AgentSession} {a : Actor} {spec : TunnelSpec}
  {specs : List TunnelSpec} {i : String}

theorem reconcileSpec_port (g : Gateway) (a : Actor) (sess : AgentSession) (spec : TunnelSpec) :
    (a.reconcileSpec g sess spec).2.portOf sess spec.id =
      if (a.reconcileSpec g sess spec).1.err = none then some (a.reconcileSpec g sess spec).1.port
      else none := by
  have htells := (reconcileSpec_self g a sess spec).1
  have hid := reconcileSpec_id g a sess spec
  rw [portOf]
  cases hl : (a.reconcileSpec g sess spec).2.listener? sess.agentID spec.id with
  | none => rw [if_neg ((tells_none (hid.symm ▸ hl)).1 htells), Option.map_none]
  | some pl =>
    obtain ⟨herr, hport⟩ := (tells_some (hid.symm ▸ hl)).1 htells
    rw [if_pos herr, Option.map_some, hport]

theorem opened_error (h : (a.bindLocked g sess spec).1 = .error text) :
    (a.opened g sess spec).port? = none := by
  simp only [bindLocked] at h
  simp only [opened]
  split at h
  · cases h
  · cases h
  · rename_i ho
    rw [ho]
    rfl

theorem portOf_unbindLocked (h : a.Inv) (hs : a.live sess) (u : String) :
    (a.unbindLocked sess u).portOf sess i = if i = u then none else a.portOf sess i := by
  have hl := listener?_unbindAll (t := i) h hs [u]
  simp only [unbindAll, List.foldl_cons, List.foldl_nil, List.mem_singleton] at hl
  rw [portOf, hl]
  split <;> rfl

end Actor

/-- Put a result of a sync into the agent's map of ports. -/
def putResult (m : GoMap Int) (r : SyncTunnelResult) : GoMap Int :=
  if r.ok then m.insert r.tunnelID r.publicPort else m.erase r.tunnelID

theorem lookup_result (m : GoMap Int) (o : ReconcileOutcome) (i : String) :
    (putResult m (Gateway.ReconcileOutcome.result o)).lookup i =
      if i = o.id then (if o.err = none then some o.port else none) else m.lookup i := by
  unfold putResult Gateway.ReconcileOutcome.result
  cases o.err with
  | none => simp only [if_true, lookup_insert_eq]
  | some text =>
    simp only [Bool.false_eq_true, if_false, lookup_erase_eq, Option.some_ne_none]

namespace Gateway

variable {g : Gateway} {st : GatewayState} {sess : AgentSession} {a : Actor}
  {spec : TunnelSpec} {specs : List TunnelSpec} {i : String}

theorem boundPort_failed (g : Gateway) (a : Actor) (sess : AgentSession)
    (hkept : ∀ spec ∈ specs, spec.id = i → a.kept? sess spec = none)
    (h : ∀ b ∈ a.binds g sess specs, b.1.id = i → b.2.port? = none) :
    boundPort (a.reconcileSpecs g sess specs).1 i = none := by
  induction specs generalizing a with
  | nil => rfl
  | cons spec rest ih =>
    have hlater : ∀ b ∈ (a.reconcileSpec g sess spec).2.binds g sess rest,
        b.1.id = i → b.2.port? = none :=
      fun b hb => h b (List.mem_append_right _ hb)
    simp only [Actor.reconcileSpecs]
    by_cases hid : spec.id = i
    · -- the failed bind leaves no listener, so that later specs of the id are not kept either
      have hk : a.kept? sess spec = none := hkept spec List.mem_cons_self hid
      have hfail : (a.opened g sess spec).port? = none := by
        refine h (spec, a.opened g sess spec) (List.mem_append_left _ ?_) hid
        rw [hk]
        exact List.mem_singleton_self _
      have hport : (a.reconcileSpec g sess spec).2.portOf sess spec.id = none := by
        rw [Actor.portOf_reconcileSpec, hk]
        exact hfail
      have herr := Actor.reconcileSpec_port g a sess spec
      rw [hport] at herr
      have hrest := ih _ (fun spec' _ hid' => ?_) hlater
      · rw [boundPort_cons, hrest, Option.none_or]
        refine if_neg fun hc => ?_
        rw [if_pos hc.2.1] at herr
        cases herr
      · have hgone := Option.map_eq_none_iff.1 hport
        rw [Actor.kept?, hid', ← hid, hgone]
        rfl
    · have hrest := ih _ (fun spec' hspec' hid' => ?_) hlater
      · rw [boundPort_cons, hrest, Option.none_or]
        exact if_neg fun hc => hid ((Actor.reconcileSpec_id g a sess spec).symm.trans hc.1)
      · rw [← hkept spec' (List.mem_cons_of_mem _ hspec') hid', Actor.kept?, Actor.kept?,
          Actor.reconcileSpec_others g a sess spec fun hc => hid (hc.2.symm.trans hid')]

/-- What a registration does to the ports of the session: nothing if the spec is refused, else it
closes the old listener, and opens one in its place if it can. -/
theorem bindTunnel_ports (g : Gateway) (hs : a.live sess) (spec : TunnelSpec) :
    (∃ berr, g.validateSpec spec sess.scope = some berr ∧
      g.bindTunnel a sess spec = (.error berr, a)) ∨
    (g.validateSpec spec sess.scope = none ∧ (a.opened g sess spec).port? = none ∧
      ∃ berr b, g.bindTunnel a sess spec = (.error berr, b) ∧
        ∀ i, b.portOf sess i = if i = spec.id then none else a.portOf sess i) ∨
    ∃ port b, g.bindTunnel a sess spec = (.ok port, b) ∧
      ∀ i, b.portOf sess i = if i = spec.id then some port else a.portOf sess i := by
  unfold bindTunnel
  cases hv : g.validateSpec spec sess.scope with
  | some berr => exact .inl ⟨berr, rfl, rfl⟩
  | none =>
    have hclosed (b : Actor) (hb : Same (a.closeTunnel sess.agentID spec.id) b) (i : String) :
        b.portOf sess i = if i = spec.id then none else a.portOf sess i := by
      rw [Actor.portOf, Actor.listener?_congr hb.listeners, Actor.listener?_closeTunnel]
      simp only [true_and]
      split <;> rfl
    simp only [Actor.bindTunnel, if_pos hs]
    obtain ⟨text, b, hb, he⟩ | ⟨ln, b, hb, -, -, -, he⟩ := Actor.bindLocked_cases g a sess spec
    · have hport := Actor.opened_error (congrArg Prod.fst he)
      rw [he]
      exact .inr (.inl ⟨trivial, hport, _, b, rfl, hclosed b hb⟩)
    · rw [he]
      refine .inr (.inr ⟨_, _, rfl, fun i => ?_⟩)
      have hput := Actor.listener?_putListener b sess spec ln sess.agentID i
      simp only [true_and] at hput
      rw [Actor.portOf, hput]
      split
      · rfl
      · rename_i hne
        exact (hclosed b hb i).trans (if_neg hne)

theorem lookup_outcomes (g : Gateway) (a : Actor) (sess : AgentSession) (specs : List TunnelSpec)
    (m : GoMap Int) (i : String) :
    (((a.reconcileSpecs g sess specs).1.map ReconcileOutcome.result).foldl putResult m).lookup i =
      if i ∈ specs.map (·.id) then (a.reconcileSpecs g sess specs).2.portOf sess i
      else m.lookup i := by
  induction specs generalizing a m with
  | nil => rfl
  | cons spec rest ih =>
    simp only [Actor.reconcileSpecs, List.map_cons, List.foldl_cons]
    rw [ih]
    by_cases hrest : i ∈ rest.map (·.id)
    · rw [if_pos hrest, if_pos (List.mem_cons_of_mem _ hrest)]
    · rw [if_neg hrest, Actor.portOf_others g _ sess hrest, lookup_result]
      have hid := Actor.reconcileSpec_id g a sess spec
      by_cases hi : i = spec.id
      · rw [if_pos (hi.trans hid.symm), if_pos (List.mem_cons.2 (.inl hi)), hi]
        exact (Actor.reconcileSpec_port g a sess spec).symm
      · rw [if_neg fun hc => hi (hc.trans hid), if_neg]
        exact fun hc => (List.mem_cons.1 hc).elim hi hrest

theorem lookup_refusals (g : Gateway) (scope : Scope) (specs : List TunnelSpec) (m : GoMap Int)
    (i : String) :
    ((specs.filterMap (g.refusal scope)).foldl putResult m).lookup i =
      if i ∈ (specs.filterMap (g.refusal scope)).map (·.tunnelID) then none else m.lookup i := by
  induction specs generalizing m with
  | nil => rfl
  | cons spec rest ih =>
    cases hr : g.refusal scope spec with
    | none => rw [List.filterMap_cons_none hr, ih]
    | some r =>
      obtain ⟨berr, -, rfl⟩ := Option.map_eq_some_iff.1 hr
      rw [List.filterMap_cons_some hr, List.foldl_cons, ih]
      simp only [putResult, Bool.false_eq_true, if_false, lookup_erase_eq, List.map_cons,
        List.mem_cons]
      by_cases hrest : i ∈ (rest.filterMap (g.refusal scope)).map (·.tunnelID)
      · rw [if_pos hrest, if_pos (.inr hrest)]
      · rw [if_neg hrest]
        by_cases hi : i = spec.id
        · rw [if_pos hi, if_pos (.inl hi)]
        · rw [if_neg hi, if_neg (not_or.2 ⟨hi, hrest⟩)]

/-- The answer to a sync gives each tunnel of the set the port that the gateway has bound, or takes
it away, and leaves the others alone. -/
theorem lookup_syncTunnels (g : Gateway) (h : a.Inv) (hs : a.live sess) (sync : SyncTunnels)
    (m : GoMap Int) (i : String) :
    ((g.syncTunnels a sess sync).1.results.foldl putResult m).lookup i =
      if i ∈ sync.tunnels.map (·.id) then (g.syncTunnels a sess sync).2.portOf sess i
      else m.lookup i := by
  have hperm := (results_perm g sess.scope sync.tunnels).mem_iff (a := i)
  have hgone : i ∉ (g.validSpecs sess.scope sync.tunnels).map (·.id) →
      (a.reconcile g sess (g.validSpecs sess.scope sync.tunnels)).2.listener?
        sess.agentID i = none :=
    h.reconcile_gone g hs
  simp only [syncTunnels, Actor.portOf]
  rw [Actor.reconcile_live g hs] at hgone ⊢
  rw [List.foldl_append, lookup_outcomes, lookup_refusals, Actor.portOf]
  by_cases hv : i ∈ (g.validSpecs sess.scope sync.tunnels).map (·.id)
  · rw [if_pos hv, if_pos (hperm.1 (List.mem_append_right _ hv))]
  · rw [if_neg hv, hgone hv]
    by_cases hr : i ∈ (sync.tunnels.filterMap (g.refusal sess.scope)).map (·.tunnelID)
    · rw [if_pos hr, if_pos (hperm.1 (List.mem_append_left _ hr))]
      rfl
    · rw [if_neg hr, if_neg]
      exact fun hc => (List.mem_append.1 (hperm.2 hc)).elim hr hv

theorem portOf_syncTunnels_gone (g : Gateway) (h : a.Inv) (hs : a.live sess) {sync : SyncTunnels}
    (hi : i ∉ sync.tunnels.map (·.id)) : (g.syncTunnels a sess sync).2.portOf sess i = none := by
  have hvalid : i ∉ (g.validSpecs sess.scope sync.tunnels).map (·.id) := by
    intro hc
    obtain ⟨spec, hspec, rfl⟩ := List.mem_map.1 hc
    exact hi (List.mem_map_of_mem (List.mem_of_mem_filter hspec))
  rw [Actor.portOf, syncTunnels, h.reconcile_gone g hs hvalid]
  rfl

end Gateway

end ProxyForward

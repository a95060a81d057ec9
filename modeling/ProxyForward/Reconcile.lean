import ProxyForward.Ownership

namespace ProxyForward
set_option autoImplicit true

/-- The same listener, up to the limiters a cap change may have replaced. -/
def PublicListener.SameAs (pl pl' : PublicListener) : Prop :=
  pl'.spec = pl.spec ∧ pl'.owner = pl.owner ∧ pl'.ln = pl.ln

/-- An outcome tells what its tunnel has: no listener, or one on the reported port. -/
def ReconcileOutcome.Tells (o : ReconcileOutcome) (a : Actor) (sess : AgentSession) : Prop :=
  match a.listener? sess.agentID o.id with
  | none => o.err ≠ none
  | some pl => o.err = none ∧ pl.ln.port = o.port

theorem sameListener_refl (spec : TunnelSpec) : sameListener spec spec = true := by
  simp only [sameListener, decide_true, Bool.and_self]

namespace Actor

theorem tells_none {a : Actor} {sess : AgentSession} {o : ReconcileOutcome}
    (h : a.listener? sess.agentID o.id = none) : o.Tells a sess ↔ o.err ≠ none := by
  simp only [ReconcileOutcome.Tells, h]

theorem tells_some {a : Actor} {sess : AgentSession} {o : ReconcileOutcome}
    (h : a.listener? sess.agentID o.id = some pl) :
    o.Tells a sess ↔ o.err = none ∧ pl.ln.port = o.port := by
  simp only [ReconcileOutcome.Tells, h]

theorem tells_congr {a b : Actor} {sess : AgentSession} {o : ReconcileOutcome}
    (h : b.listener? sess.agentID o.id = a.listener? sess.agentID o.id) :
    o.Tells b sess ↔ o.Tells a sess := by
  simp only [ReconcileOutcome.Tells, h]

theorem kept?_of_sameListener {a : Actor} {sess : AgentSession}
    (h : a.listener? sess.agentID spec.id = some pl) (hs : sameListener pl.spec spec = true) :
    a.kept? sess spec = some pl := by
  simp only [kept?, h, Option.filter_some, hs, if_true]

theorem reconcileSpec_id (g : Gateway) (a : Actor) (sess : AgentSession) (spec : TunnelSpec) :
    (a.reconcileSpec g sess spec).1.id = spec.id := by
  cases h : a.kept? sess spec with
  | some pl => rw [reconcileSpec_kept g h]
  | none => rcases reconcileSpec_bound g h with ⟨_, _, -, he⟩ | ⟨_, _, -, -, -, -, he⟩ <;> rw [he]

theorem reconcileSpec_others (g : Gateway) (a : Actor) (sess : AgentSession) (spec : TunnelSpec)
    (h : ¬(i = sess.agentID ∧ t = spec.id)) :
    (a.reconcileSpec g sess spec).2.listener? i t = a.listener? i t := by
  cases hk : a.kept? sess spec with
  | some pl =>
    rw [reconcileSpec_kept g hk]
    simp only
    split
    · rw [listener?_storeLimiters, if_neg h]
    · rfl
  | none =>
    rcases reconcileSpec_bound g hk with ⟨_, b, hb, he⟩ | ⟨ln, b, hb, -, -, -, he⟩
    · rw [he]
      simp only
      rw [listener?_congr hb.listeners, listener?_closeTunnel, if_neg h]
    · rw [he]
      simp only
      rw [listener?_putListener, if_neg h, listener?_congr hb.listeners, listener?_closeTunnel,
        if_neg h]

theorem reconcileSpec_keeps {a : Actor} {sess : AgentSession} (g : Gateway)
    (h : a.kept? sess spec = some pl) :
    ∃ pl', (a.reconcileSpec g sess spec).2.listener? sess.agentID spec.id = some pl' ∧
      pl.SameAs pl' := by
  obtain ⟨hl, -⟩ := kept?_some h
  rw [reconcileSpec_kept g h]
  simp only
  split
  · have hnew := listener?_storeLimiters a sess.agentID spec.id pl
      (reconcileSet (some pl.limiters) spec.bandwidthLimitMbps spec.bandwidthLimitScope).1
      sess.agentID spec.id
    rw [if_pos ⟨rfl, rfl⟩] at hnew
    exact ⟨_, hnew, rfl, rfl, rfl⟩
  · exact ⟨pl, hl, rfl, rfl, rfl⟩

theorem reconcileSpec_self (g : Gateway) (a : Actor) (sess : AgentSession) (spec : TunnelSpec) :
    (a.reconcileSpec g sess spec).1.Tells (a.reconcileSpec g sess spec).2 sess ∧
    ∀ pl, (a.reconcileSpec g sess spec).2.listener? sess.agentID spec.id = some pl →
      sameListener pl.spec spec = true := by
  have hid := reconcileSpec_id g a sess spec
  cases hk : a.kept? sess spec with
  | some pl =>
    obtain ⟨-, hsame⟩ := kept?_some hk
    obtain ⟨pl', hl', hspec, -, hln⟩ := reconcileSpec_keeps g hk
    refine ⟨(tells_some (hid ▸ hl')).2 ?_, ?_⟩
    · rw [hln, reconcileSpec_kept g hk]
      exact ⟨rfl, rfl⟩
    · rw [hl']
      rintro _ ⟨⟩
      rw [hspec]
      exact hsame
  | none =>
    rcases reconcileSpec_bound g hk with ⟨text, b, hb, he⟩ | ⟨ln, b, hb, -, -, -, he⟩
    · have hn : b.listener? sess.agentID spec.id = none := by
        rw [listener?_congr hb.listeners, listener?_closeTunnel, if_pos ⟨rfl, rfl⟩]
      rw [he]
      refine ⟨(tells_none hn).2 (Option.some_ne_none _), fun pl hpl => ?_⟩
      rw [hn] at hpl
      cases hpl
    · have hp : (b.putListener sess spec ln).listener? sess.agentID spec.id =
          some ⟨spec, sess, ln, buildSet spec.bandwidthLimitMbps spec.bandwidthLimitScope⟩ := by
        rw [listener?_putListener, if_pos ⟨rfl, rfl⟩]
      rw [he]
      refine ⟨(tells_some hp).2 ⟨rfl, rfl⟩, fun pl hpl => ?_⟩
      rw [hp] at hpl
      cases hpl
      exact sameListener_refl spec

theorem reconcileSpecs_ids (g : Gateway) (a : Actor) (sess : AgentSession)
    (specs : List TunnelSpec) :
    (a.reconcileSpecs g sess specs).1.map (·.id) = specs.map (·.id) := by
  induction specs generalizing a with
  | nil => rfl
  | cons spec rest ih =>
    simp only [reconcileSpecs, List.map_cons, reconcileSpec_id, ih]

theorem reconcileSpecs_others (g : Gateway) (a : Actor) (sess : AgentSession)
    (specs : List TunnelSpec) (h : ¬(i = sess.agentID ∧ t ∈ specs.map (·.id))) :
    (a.reconcileSpecs g sess specs).2.listener? i t = a.listener? i t := by
  induction specs generalizing a with
  | nil => rfl
  | cons spec rest ih =>
    rw [List.map_cons, List.mem_cons, and_or_left, not_or] at h
    exact (ih _ h.2).trans (reconcileSpec_others g a sess spec h.1)

/-- Each spec of a pass over distinct ids is handled in a state where its tunnel has the listener it
had before, and what that leaves stays to the end of the pass. -/
theorem Inv.reconcileSpecs_focus {a : Actor} {sess : AgentSession} {specs : List TunnelSpec}
    (h : a.Inv) (g : Gateway) (hs : a.live sess) (hd : (specs.map (·.id)).Nodup)
    (hspec : spec ∈ specs) :
    ∃ a' : Actor, a'.Inv ∧ a'.live sess ∧
      a'.listener? sess.agentID spec.id = a.listener? sess.agentID spec.id ∧
      (a'.reconcileSpec g sess spec).1 ∈ (a.reconcileSpecs g sess specs).1 ∧
      (a.reconcileSpecs g sess specs).2.listener? sess.agentID spec.id =
        (a'.reconcileSpec g sess spec).2.listener? sess.agentID spec.id := by
  induction specs generalizing a with
  | nil => cases hspec
  | cons s rest ih =>
    rw [List.map_cons, List.nodup_cons] at hd
    obtain ⟨hnot, hd⟩ := hd
    have hh := h.reconcileSpec g hs s
    have hl := (reconcileSpec_rebinds g a sess s).live hs
    rcases List.mem_cons.1 hspec with rfl | hspec
    · exact ⟨a, h, hs, rfl, List.mem_cons_self,
        reconcileSpecs_others g _ sess rest fun hc => hnot hc.2⟩
    · obtain ⟨a', hi, hl', hbefore, hout, hafter⟩ := ih hh hl hd hspec
      refine ⟨a', hi, hl', hbefore.trans ?_, List.mem_cons_of_mem _ hout, hafter⟩
      refine reconcileSpec_others g a sess s fun hc => hnot ?_
      rw [← hc.2]
      exact List.mem_map_of_mem hspec

theorem Inv.owner {a : Actor} {sess : AgentSession} (h : a.Inv) (hs : a.live sess)
    (hpl : a.listener? sess.agentID t = some pl) : pl.owner = sess := by
  obtain ⟨ho, -⟩ := h.owned _ _ _ hpl
  rw [hs.1] at ho
  exact (Option.some.inj ho).symm

theorem listener?_unbindAll {a : Actor} {sess : AgentSession} (h : a.Inv) (hs : a.live sess)
    (ids : List String) : (a.unbindAll sess ids).listener? sess.agentID t =
      if t ∈ ids then none else a.listener? sess.agentID t := by
  induction ids generalizing a with
  | nil => rfl
  | cons u ids ih =>
    have hr := unbindLocked_rebinds a sess u
    have hu : (a.unbindLocked sess u).listener? sess.agentID t =
        if t = u then none else a.listener? sess.agentID t := by
      rw [listener?_unbindLocked]
      by_cases ht : t = u
      · rw [if_pos ht]
        cases hpl : a.listener? sess.agentID t with
        | none => exact ite_self _
        | some pl =>
          rw [if_pos ⟨rfl, ht, by simp only [Option.any_some, h.owner hs hpl, decide_true]⟩]
      · rw [if_neg ht, if_neg fun hc => ht hc.2.1]
    refine (ih (h.unbindLocked sess u) (hr.live hs)).trans ?_
    rw [hu]
    by_cases ht : t = u
    · simp only [ht, if_true, List.mem_cons, true_or, ite_self]
    · simp only [ht, if_false, List.mem_cons, false_or]

theorem listener?_unwanted {a : Actor} {sess : AgentSession} (h : a.Inv) (hs : a.live sess)
    (desired : List TunnelSpec) :
    (a.unbindAll sess (a.unwanted sess desired)).listener? sess.agentID t =
      if t ∈ desired.map (·.id) then a.listener? sess.agentID t else none := by
  rw [listener?_unbindAll h hs]
  have hmem : t ∈ a.unwanted sess desired ↔
      (a.listener? sess.agentID t).isSome ∧ t ∉ desired.map (·.id) := by
    simp only [unwanted, List.mem_filter, decide_eq_true_eq, AList.mem_keys, ← listener?_getD,
      AList.lookup_isSome]
  by_cases ht : t ∈ desired.map (·.id)
  · rw [if_pos ht, if_neg fun hc => (hmem.1 hc).2 ht]
  · rw [if_neg ht]
    cases hpl : a.listener? sess.agentID t with
    | none => exact ite_self _
    | some pl => rw [if_pos (hmem.2 ⟨by rw [hpl]; rfl, ht⟩)]

theorem Inv.reconcile_focus {a : Actor} {sess : AgentSession} {desired : List TunnelSpec}
    (h : a.Inv) (g : Gateway) (hs : a.live sess) (hd : (desired.map (·.id)).Nodup)
    (hspec : spec ∈ desired) :
    ∃ a' : Actor, a'.Inv ∧ a'.live sess ∧
      a'.listener? sess.agentID spec.id = a.listener? sess.agentID spec.id ∧
      (a'.reconcileSpec g sess spec).1 ∈ (a.reconcile g sess desired).1 ∧
      (a.reconcile g sess desired).2.listener? sess.agentID spec.id =
        (a'.reconcileSpec g sess spec).2.listener? sess.agentID spec.id := by
  rw [reconcile_live g hs]
  obtain ⟨a', hi, hl, hbefore, hafter⟩ := (h.unbindAll sess _).reconcileSpecs_focus g
    ((unbindAll_rebinds a sess (a.unwanted sess desired)).live hs) hd hspec
  refine ⟨a', hi, hl, hbefore.trans ?_, hafter⟩
  rw [listener?_unwanted h hs, if_pos (List.mem_map_of_mem hspec)]

theorem reconcile_ids (g : Gateway) (a : Actor) (sess : AgentSession) (desired : List TunnelSpec) :
    (a.reconcile g sess desired).1.map (·.id) = desired.map (·.id) := by
  unfold reconcile
  split
  · exact reconcileSpecs_ids g _ sess desired
  · simp only [List.map_map, Function.comp_def]

theorem Inv.reconcile_gone {a : Actor} {sess : AgentSession} {desired : List TunnelSpec}
    (h : a.Inv) (g : Gateway) (hs : a.live sess) (ht : t ∉ desired.map (·.id)) :
    (a.reconcile g sess desired).2.listener? sess.agentID t = none := by
  rw [reconcile_live g hs, reconcileSpecs_others g _ sess desired fun hc => ht hc.2,
    listener?_unwanted h hs, if_neg ht]

theorem Inv.reconcile_tells {a : Actor} {sess : AgentSession} {desired : List TunnelSpec}
    (h : a.Inv) (g : Gateway) (hs : a.live sess) (hd : (desired.map (·.id)).Nodup)
    (ho : o ∈ (a.reconcile g sess desired).1) :
    o.Tells (a.reconcile g sess desired).2 sess := by
  have hids := reconcile_ids g a sess desired
  have hmem : o.id ∈ desired.map (·.id) := hids ▸ List.mem_map_of_mem ho
  obtain ⟨spec, hspec, hid⟩ := List.mem_map.1 hmem
  obtain ⟨a', -, -, -, hout, hafter⟩ := h.reconcile_focus g hs hd hspec
  have hid' := reconcileSpec_id g a' sess spec
  have heq : (a'.reconcileSpec g sess spec).1 = o :=
    List.inj_on_of_nodup_map (hids ▸ hd) hout ho (hid'.trans hid)
  rw [← heq]
  exact (tells_congr (hid'.symm ▸ hafter)).2 (reconcileSpec_self g a' sess spec).1

theorem Inv.reconcile_same {a : Actor} {sess : AgentSession} {desired : List TunnelSpec}
    (h : a.Inv) (g : Gateway) (hs : a.live sess) (hd : (desired.map (·.id)).Nodup)
    (hspec : spec ∈ desired)
    (hpl : (a.reconcile g sess desired).2.listener? sess.agentID spec.id = some pl) :
    sameListener pl.spec spec = true := by
  obtain ⟨a', -, -, -, -, hafter⟩ := h.reconcile_focus g hs hd hspec
  exact (reconcileSpec_self g a' sess spec).2 pl (hafter.symm.trans hpl)

theorem Inv.reconcile_keeps {a : Actor} {sess : AgentSession} {desired : List TunnelSpec}
    (h : a.Inv) (g : Gateway) (hs : a.live sess) (hd : (desired.map (·.id)).Nodup)
    (hspec : spec ∈ desired) (hpl : a.listener? sess.agentID spec.id = some pl)
    (hsame : sameListener pl.spec spec = true) :
    ∃ pl', (a.reconcile g sess desired).2.listener? sess.agentID spec.id = some pl' ∧
      pl.SameAs pl' := by
  obtain ⟨a', -, -, hbefore, -, hafter⟩ := h.reconcile_focus g hs hd hspec
  rw [hafter]
  exact reconcileSpec_keeps g (kept?_of_sameListener (hbefore.trans hpl) hsame)

end Actor

namespace Gateway

theorem results_perm (g : Gateway) (scope : Scope) (specs : List TunnelSpec) :
    ((specs.filterMap (g.refusal scope)).map (·.tunnelID) ++
      (g.validSpecs scope specs).map (·.id)).Perm (specs.map (·.id)) := by
  induction specs with
  | nil => exact .nil
  | cons spec rest ih =>
    cases hv : g.validateSpec spec scope with
    | none =>
      have hr : g.refusal scope spec = none := by rw [refusal, hv]; rfl
      have hk : g.validSpecs scope (spec :: rest) = spec :: g.validSpecs scope rest := by
        simp only [validSpecs, List.filter_cons, hv, Option.isNone_none, if_true]
      rw [List.filterMap_cons_none hr, hk, List.map_cons, List.map_cons]
      exact List.perm_middle.trans (ih.cons _)
    | some berr =>
      have hr : g.refusal scope spec = some ⟨spec.id, false, 0, berr.code, berr.msg⟩ := by
        rw [refusal, hv]; rfl
      have hk : g.validSpecs scope (spec :: rest) = g.validSpecs scope rest := by
        simp only [validSpecs, List.filter_cons, hv, Option.isNone_some, Bool.false_eq_true,
          if_false]
      rw [List.filterMap_cons_some hr, hk, List.map_cons, List.map_cons]
      exact ih.cons _

theorem syncTunnels_results (g : Gateway) (a : Actor) (sess : AgentSession) (sync : SyncTunnels) :
    ((g.syncTunnels a sess sync).1.results.map (·.tunnelID)).Perm (sync.tunnels.map (·.id)) := by
  have hid (o : ReconcileOutcome) : (ReconcileOutcome.result o).tunnelID = o.id := by
    unfold ReconcileOutcome.result
    split <;> rfl
  have ho : ((a.reconcile g sess (g.validSpecs sess.scope sync.tunnels)).1.map
      ReconcileOutcome.result).map (·.tunnelID) = (g.validSpecs sess.scope sync.tunnels).map
        (·.id) := by
    rw [← Actor.reconcile_ids g a sess, List.map_map]
    exact List.map_congr_left fun o _ => hid o
  simp only [syncTunnels, List.map_append, ho]
  exact results_perm g sess.scope sync.tunnels

/-- From any reachable state, a pass of a live session over distinct ids is exact, keeps what it
can, leaves other agents alone, and closes nothing when it is repeated; and a sync answers each
requested spec once. -/
theorem reconcile_exact_idempotent (g : Gateway) (store : AgentStore) (cmds : List Command)
    (sess : AgentSession) (desired : List TunnelSpec)
    (hs : (g.run (GatewayState.start store) cmds).actor.live sess)
    (hd : (desired.map (·.id)).Nodup) :
    let a := (g.run (GatewayState.start store) cmds).actor
    let outcomes := (a.reconcile g sess desired).1
    let b := (a.reconcile g sess desired).2
    let c := (b.reconcile g sess desired).2
    outcomes.map (·.id) = desired.map (·.id) ∧
    (∀ t, (b.listener? sess.agentID t).isSome ↔ ∃ o ∈ outcomes, o.id = t ∧ o.err = none) ∧
    (∀ o ∈ outcomes, o.err = none →
      ∃ pl, b.listener? sess.agentID o.id = some pl ∧ pl.ln.port = o.port) ∧
    (∀ spec ∈ desired, ∀ pl, a.listener? sess.agentID spec.id = some pl →
      sameListener pl.spec spec = true →
      ∃ pl', b.listener? sess.agentID spec.id = some pl' ∧ pl.SameAs pl') ∧
    (∀ i, i ≠ sess.agentID → b.listeners.lookup i = a.listeners.lookup i) ∧
    (∀ i t pl, b.listener? i t = some pl → ∃ pl', c.listener? i t = some pl' ∧ pl.SameAs pl') ∧
    ∀ sync, ((g.syncTunnels a sess sync).1.results.map (·.tunnelID)).Perm
      (sync.tunnels.map (·.id)) := by
  intro a outcomes b c
  have hinv : a.Inv := run_inv g Actor.newActor_inv cmds
  have hids := Actor.reconcile_ids g a sess desired
  have hinv' : b.Inv := hinv.reconcile g sess desired
  have hr := Actor.reconcile_rebinds g a sess desired
  have hr' := Actor.reconcile_rebinds g b sess desired
  have htells {o} (ho : o ∈ outcomes) := hinv.reconcile_tells g hs hd ho
  have hmem {t pl} (hpl : b.listener? sess.agentID t = some pl) : t ∈ desired.map (·.id) := by
    by_contra hc
    rw [hinv.reconcile_gone g hs hc] at hpl
    cases hpl
  refine ⟨hids, ?_, ?_, fun spec hspec pl => hinv.reconcile_keeps g hs hd hspec, hr.others, ?_,
    syncTunnels_results g a sess⟩
  · intro t
    constructor
    · intro ht
      obtain ⟨pl, hpl⟩ := Option.isSome_iff_exists.1 ht
      obtain ⟨o, ho, rfl⟩ := List.mem_map.1 (hids.symm ▸ hmem hpl)
      exact ⟨o, ho, rfl, ((Actor.tells_some hpl).1 (htells ho)).1⟩
    · rintro ⟨o, ho, rfl, he⟩
      cases hpl : b.listener? sess.agentID o.id with
      | none => exact absurd he ((Actor.tells_none hpl).1 (htells ho))
      | some pl => rfl
  · intro o ho he
    cases hpl : b.listener? sess.agentID o.id with
    | none => exact absurd he ((Actor.tells_none hpl).1 (htells ho))
    | some pl => exact ⟨pl, rfl, ((Actor.tells_some hpl).1 (htells ho)).2⟩
  · intro i t pl hpl
    by_cases hi : i = sess.agentID
    · subst hi
      obtain ⟨spec, hspec, rfl⟩ := List.mem_map.1 (hmem hpl)
      exact hinv'.reconcile_keeps g (hr.live hs) hd hspec hpl
        (hinv.reconcile_same g hs hd hspec hpl)
    · exact ⟨pl, (hr'.listener? hi t).trans hpl, rfl, rfl, rfl⟩

/-- A repeated pass over two tunnels, one of them bound before, keeps both. -/
theorem reconcile_exact_idempotent_two :
    let sess := AgentSession.plain 1 "a"
    let desired := [TunnelSpec.plain "t" 8080, TunnelSpec.plain "u" 0]
    let a := (idleGateway.run (GatewayState.start .empty)
      [.admitSession sess, .bindTunnel sess (TunnelSpec.plain "t" 8080)]).actor
    let b := (a.reconcile idleGateway sess desired).2
    let c := (b.reconcile idleGateway sess desired).2
    ∀ i t pl, b.listener? i t = some pl → ∃ pl', c.listener? i t = some pl' ∧ pl.SameAs pl' :=
  (reconcile_exact_idempotent idleGateway .empty
    [.admitSession (AgentSession.plain 1 "a"),
      .bindTunnel (AgentSession.plain 1 "a") (TunnelSpec.plain "t" 8080)]
    (AgentSession.plain 1 "a") [TunnelSpec.plain "t" 8080, TunnelSpec.plain "u" 0]
    (by decide) (by decide)).2.2.2.2.2.1

end Gateway

end ProxyForward

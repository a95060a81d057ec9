import ProxyForward.Reconcile

namespace ProxyForward
set_option autoImplicit true

/-- The port that an attempt to open one ends with. -/
def Opened.port? : Opened → Option Int
  | .granted ln | .reassigned ln => some ln.port
  | .failed _ => none

/-- The last bind of an id. -/
def lastBind (bs : List (TunnelSpec × Opened)) (i : String) : Option (TunnelSpec × Opened) :=
  (bs.filter (·.1.id = i)).getLast?

theorem lastBind_append (xs ys : List (TunnelSpec × Opened)) (i : String) :
    lastBind (xs ++ ys) i = (lastBind ys i).or (lastBind xs i) := by
  rw [lastBind, List.filter_append, List.getLast?_append]
  rfl

theorem lastBind_singleton (b : TunnelSpec × Opened) (i : String) :
    lastBind [b] i = if b.1.id = i then some b else none := by
  rw [lastBind, List.filter_singleton]
  by_cases h : b.1.id = i
  · rw [if_pos h, decide_eq_true h]
    rfl
  · rw [if_neg h, decide_eq_false h]
    rfl

theorem lastBind_some {bs : List (TunnelSpec × Opened)} (h : lastBind bs i = some b) :
    b ∈ bs ∧ b.1.id = i := by
  obtain ⟨hb, hid⟩ := List.mem_filter.1 (List.mem_of_getLast? h)
  exact ⟨hb, of_decide_eq_true hid⟩

namespace Actor

/-- The port that the session's listener of a tunnel is bound to. -/
def portOf (a : Actor) (sess : AgentSession) (i : String) : Option Int :=
  (a.listener? sess.agentID i).map (·.ln.port)

/-- What comes of a bind of a spec, which closes the tunnel's old listener first. -/
def opened (g : Gateway) (a : Actor) (sess : AgentSession) (spec : TunnelSpec) : Opened :=
  let a := a.closeTunnel sess.agentID spec.id
  (g.openPort a.heldPorts a.calls sess.scope spec.publicPort).1

/-- The binds that a pass asks for, and what comes of each. A kept listener asks for none. -/
def binds (g : Gateway) (sess : AgentSession) (a : Actor) :
    List TunnelSpec → List (TunnelSpec × Opened)
  | [] => []
  | spec :: rest =>
    (if (a.kept? sess spec).isSome then [] else [(spec, a.opened g sess spec)]) ++
      binds g sess (a.reconcileSpec g sess spec).2 rest

variable {g : Gateway} {sess : AgentSession} {a : Actor} {spec : TunnelSpec}
  {specs : List TunnelSpec} {i : String}

theorem opened_granted (h : a.opened g sess spec = .granted ln) :
    (spec.publicPort ≠ 0 → ln.port = spec.publicPort) ∧ 1 ≤ ln.port := by
  obtain ⟨-, hport, hlo, -⟩ := openPort_granted h
  exact ⟨hport, hlo⟩

theorem opened_reassigned (h : a.opened g sess spec = .reassigned ln) :
    portPermitted sess.scope g.cfg.portAllowlist ln.port = true := by
  obtain ⟨-, hport, -⟩ := openPort_reassigned h
  exact hport

theorem mem_binds (h : b ∈ a.binds g sess specs) :
    b.1 ∈ specs ∧ ∃ a' : Actor, b.2 = a'.opened g sess b.1 := by
  induction specs generalizing a with
  | nil => cases h
  | cons spec rest ih =>
    obtain hb | hb := List.mem_append.1 h
    · split at hb
      · cases hb
      · obtain rfl := List.mem_singleton.1 hb
        exact ⟨List.mem_cons_self, a, rfl⟩
    · obtain ⟨hspec, ho⟩ := ih hb
      exact ⟨List.mem_cons_of_mem _ hspec, ho⟩

theorem portOf_reconcileSpec (g : Gateway) (a : Actor) (sess : AgentSession) (spec : TunnelSpec) :
    (a.reconcileSpec g sess spec).2.portOf sess spec.id =
      if (a.kept? sess spec).isSome then a.portOf sess spec.id
      else (a.opened g sess spec).port? := by
  cases hk : a.kept? sess spec with
  | some pl =>
    obtain ⟨hbefore, -⟩ := kept?_some hk
    obtain ⟨pl', hafter, -, -, hln⟩ := reconcileSpec_keeps g hk
    rw [portOf, portOf, hafter, hbefore, Option.isSome_some, if_pos rfl, Option.map_some, hln]
    rfl
  | none =>
    rw [Option.isSome_none, if_neg Bool.false_ne_true]
    cases ho : g.openPort (a.closeTunnel sess.agentID spec.id).heldPorts
        (a.closeTunnel sess.agentID spec.id).calls sess.scope spec.publicPort with
    | mk o n =>
      have hn : ({ a.closeTunnel sess.agentID spec.id with calls := n } : Actor).listener?
          sess.agentID spec.id = none := by
        have hc := listener?_closeTunnel a sess.agentID spec.id sess.agentID spec.id
        rw [if_pos ⟨rfl, rfl⟩] at hc
        exact hc
      simp only [portOf, opened, reconcileSpec, hk, bindLocked, ho]
      cases o with
      | granted ln => simp only [listener?_putListener, and_self, if_true, Option.map_some,
          Opened.port?]
      | reassigned ln => simp only [listener?_putListener, and_self, if_true, Option.map_some,
          Opened.port?]
      | failed text => simp only [hn, Option.map_none, Opened.port?]

theorem portOf_others (g : Gateway) (a : Actor) (sess : AgentSession)
    (h : i ∉ specs.map (·.id)) :
    (a.reconcileSpecs g sess specs).2.portOf sess i = a.portOf sess i := by
  rw [portOf, reconcileSpecs_others g a sess specs fun hc => h hc.2]
  rfl

theorem portOf_other (g : Gateway) (a : Actor) (sess : AgentSession) (h : i ≠ spec.id) :
    (a.reconcileSpec g sess spec).2.portOf sess i = a.portOf sess i := by
  rw [portOf, reconcileSpec_others g a sess spec fun hc => h hc.2]
  rfl

theorem portOf_binds (g : Gateway) (a : Actor) (sess : AgentSession) (specs : List TunnelSpec)
    (i : String) : (a.reconcileSpecs g sess specs).2.portOf sess i =
      (lastBind (a.binds g sess specs) i).elim (a.portOf sess i) (·.2.port?) := by
  induction specs generalizing a with
  | nil => rfl
  | cons spec rest ih =>
    rw [reconcileSpecs, binds, lastBind_append]
    refine (ih _).trans ?_
    cases lastBind (binds g sess (a.reconcileSpec g sess spec).2 rest) i with
    | some b => rfl
    | none =>
      rw [Option.elim_none, Option.none_or]
      by_cases hi : i = spec.id
      · subst hi
        rw [portOf_reconcileSpec]
        split
        · rfl
        · rw [lastBind_singleton, if_pos rfl, Option.elim_some]
      · rw [portOf_other g a sess hi]
        split
        · rfl
        · rw [lastBind_singleton, if_neg (Ne.symm hi), Option.elim_none]

theorem portOf_of_no_bind (h : lastBind (a.binds g sess specs) i = none)
    (hi : i ∈ specs.map (·.id)) : (a.portOf sess i).isSome := by
  induction specs generalizing a with
  | nil => cases hi
  | cons spec rest ih =>
    rw [binds, lastBind_append] at h
    obtain ⟨hrest, hself⟩ := Option.or_eq_none_iff.1 h
    by_cases hid : i = spec.id
    · cases hk : a.kept? sess spec with
      | none =>
        rw [hk, Option.isSome_none, if_neg Bool.false_ne_true, lastBind_singleton,
          if_pos hid.symm] at hself
        cases hself
      | some pl => rw [portOf, hid, (kept?_some hk).1, Option.map_some, Option.isSome_some]
    · rw [← portOf_other g a sess hid]
      exact ih hrest ((List.mem_cons.1 hi).resolve_left hid)

end Actor

/-- The binds of a reconcile. -/
def Gateway.passBinds (g : Gateway) (st : GatewayState) (sess : AgentSession)
    (specs : List TunnelSpec) : List (TunnelSpec × Opened) :=
  (st.actor.unbindAll sess (st.actor.unwanted sess specs)).binds g sess specs

namespace Gateway

variable {g : Gateway} {st : GatewayState} {sess : AgentSession} {specs : List TunnelSpec}
  {i : String}

theorem portOf_unwanted (h : st.actor.Inv) (hs : st.actor.live sess) (hi : i ∈ specs.map (·.id)) :
    (st.actor.unbindAll sess (st.actor.unwanted sess specs)).portOf sess i =
      st.actor.portOf sess i := by
  rw [Actor.portOf, Actor.listener?_unwanted h hs, if_pos hi]
  rfl

theorem portOf_reconcile (g : Gateway) (h : st.actor.Inv) (hs : st.actor.live sess)
    (hi : i ∈ specs.map (·.id)) : (st.actor.reconcile g sess specs).2.portOf sess i =
      (lastBind (g.passBinds st sess specs) i).elim (st.actor.portOf sess i) (·.2.port?) := by
  rw [Actor.reconcile_live g hs, Actor.portOf_binds, portOf_unwanted h hs hi]
  rfl

theorem portOf_reconcile_gone (g : Gateway) (h : st.actor.Inv) (hs : st.actor.live sess)
    (hi : i ∉ specs.map (·.id)) : (st.actor.reconcile g sess specs).2.portOf sess i = none := by
  rw [Actor.portOf, h.reconcile_gone g hs hi]
  rfl

theorem mem_passBinds (h : lastBind (g.passBinds st sess specs) i = some (asked, o)) :
    asked ∈ specs ∧ asked.id = i ∧ ∃ a : Actor, a.opened g sess asked = o := by
  obtain ⟨hb, hid⟩ := lastBind_some h
  obtain ⟨hmem, a, ho⟩ := Actor.mem_binds hb
  exact ⟨hmem, hid, a, ho.symm⟩

end Gateway

end ProxyForward

import ProxyForward.Gateway

namespace ProxyForward
set_option autoImplicit true

/-- What callers ask of the actor, in whatever order: sessions that are live, superseded, dampened
or evicted may issue any of these. -/
inductive Command where
  | admitSession (sess : AgentSession)
  | disconnected (sess : AgentSession)
  | bindTunnel (sess : AgentSession) (spec : TunnelSpec)
  | unbindTunnel (sess : AgentSession) (tunnelID : String)
  | reconcile (sess : AgentSession) (desired : List TunnelSpec)
  | revokeAgent (agentID : String) (written : Bool)
  | setAgentScope (agentID : String) (scope : Scope) (written : Bool)
  deriving DecidableEq, Repr

/-- The agent id a command is issued for. -/
def Command.agentID : Command → String
  | .admitSession sess | .disconnected sess | .bindTunnel sess _ | .unbindTunnel sess _
  | .reconcile sess _ => sess.agentID
  | .revokeAgent agentID _ | .setAgentScope agentID _ _ => agentID

/-- The session that issues a command. -/
def Command.by? : Command → Option AgentSession
  | .admitSession sess | .bindTunnel sess _ | .unbindTunnel sess _ | .reconcile sess _ => some sess
  | .disconnected _ | .revokeAgent _ _ | .setAgentScope _ _ _ => none

def Gateway.exec (g : Gateway) (st : GatewayState) : Command → GatewayState
  | .admitSession sess => { st with actor := (st.actor.admitSession g.env sess).2 }
  | .disconnected sess => { st with actor := st.actor.disconnected sess }
  | .bindTunnel sess spec => { st with actor := (st.actor.bindTunnel g sess spec).2 }
  | .unbindTunnel sess tunnelID => { st with actor := st.actor.unbindLocked sess tunnelID }
  | .reconcile sess desired => { st with actor := (st.actor.reconcile g sess desired).2 }
  | .revokeAgent agentID written => (Gateway.revokeAgent st agentID written).2
  | .setAgentScope agentID scope written => (Gateway.setAgentScope st agentID scope written).2

def Gateway.run (g : Gateway) (st : GatewayState) (cmds : List Command) : GatewayState :=
  cmds.foldl g.exec st

/-- The sessions admitted by a command, with their generations. -/
def Gateway.admission (g : Gateway) (st : GatewayState) : Command → List (AgentSession × Nat)
  | .admitSession sess =>
    match (st.actor.admitSession g.env sess).1 with
    | .ok gen => [(sess, gen)]
    | .error _ => []
  | _ => []

/-- The successful admissions of a run, in order. -/
def Gateway.admissions (g : Gateway) (st : GatewayState) : List Command → List (AgentSession × Nat)
  | [] => []
  | c :: cs => g.admission st c ++ g.admissions (g.exec st c) cs

/-- The ownership and isolation invariant of the actor. -/
structure Actor.Inv (a : Actor) : Prop where
  keyed : ∀ i s, a.agents.lookup i = some s → s.agentID = i
  owned : ∀ i t pl, a.listener? i t = some pl →
    a.agents.lookup i = some pl.owner ∧ pl.owner ∉ a.evicted
  distinct : ∀ i t pl i' t' pl', a.listener? i t = some pl → a.listener? i' t' = some pl' →
    pl.ln.port = pl'.ln.port → i = i' ∧ t = t'
  named : ∀ i t pl, a.listener? i t = some pl → pl.spec.id = t
  built : ∀ i t pl, a.listener? i t = some pl → pl.limiters.Built
  ranged : ∀ i t pl, a.listener? i t = some pl → 1 ≤ pl.ln.port ∧ pl.ln.port ≤ 65535

namespace Actor

theorem newActor_inv : newActor.Inv := by
  constructor <;> intros <;> contradiction

theorem Inv.same (h : Inv a) (hs : Same a b) : Inv b := by
  have hl := listener?_congr hs.listeners
  constructor
  · rw [hs.agents]
    exact h.keyed
  · simp only [hl, hs.agents, hs.evicted]
    exact h.owned
  · simp only [hl]
    exact h.distinct
  · simp only [hl]
    exact h.named
  · simp only [hl]
    exact h.built
  · simp only [hl]
    exact h.ranged

theorem Inv.shrink (h : Inv a) (hg : b.agents = a.agents) (he : b.evicted = a.evicted)
    (hl : ∀ i t pl, b.listener? i t = some pl → a.listener? i t = some pl) : Inv b := by
  constructor
  · rw [hg]
    exact h.keyed
  · intro i t pl hpl
    rw [hg, he]
    exact h.owned i t pl (hl i t pl hpl)
  · intro i t pl i' t' pl' hpl hpl'
    exact h.distinct i t pl i' t' pl' (hl i t pl hpl) (hl i' t' pl' hpl')
  · intro i t pl hpl
    exact h.named i t pl (hl i t pl hpl)
  · intro i t pl hpl
    exact h.built i t pl (hl i t pl hpl)
  · intro i t pl hpl
    exact h.ranged i t pl (hl i t pl hpl)

theorem Inv.evict (h : Inv a) (sess : AgentSession) : Inv (a.evict sess) := by
  have hl : ∀ i t pl, (a.evict sess).listener? i t = some pl →
      i ≠ sess.agentID ∧ a.listener? i t = some pl := by
    intro i t pl hpl
    rw [listener?_evict] at hpl
    split at hpl
    · cases hpl
    · exact ⟨‹_›, hpl⟩
  constructor
  · intro i s hi
    simp only [Actor.evict, lookup_erase_eq] at hi
    split at hi
    · cases hi
    · exact h.keyed i s hi
  · intro i t pl hpl
    obtain ⟨hne, hpl⟩ := hl i t pl hpl
    obtain ⟨ho, hev⟩ := h.owned i t pl hpl
    refine ⟨?_, ?_⟩
    · simp only [Actor.evict, lookup_erase_eq, if_neg hne]
      exact ho
    · simp only [Actor.evict, List.mem_cons, not_or]
      refine ⟨fun he => hne ?_, hev⟩
      rw [← h.keyed i _ ho, he]
  · intro i t pl i' t' pl' hpl hpl'
    exact h.distinct i t pl i' t' pl' (hl i t pl hpl).2 (hl i' t' pl' hpl').2
  · intro i t pl hpl
    exact h.named i t pl (hl i t pl hpl).2
  · intro i t pl hpl
    exact h.built i t pl (hl i t pl hpl).2
  · intro i t pl hpl
    exact h.ranged i t pl (hl i t pl hpl).2

theorem Inv.no_listener (h : Inv a) (hs : a.agents.lookup i = none) (t : String) :
    a.listener? i t = none := by
  cases hpl : a.listener? i t with
  | none => rfl
  | some pl =>
    have ho := (h.owned i t pl hpl).1
    rw [hs] at ho
    cases ho

theorem Inv.install (h : Inv a) (hs : a.agents.lookup sess.agentID = none) :
    Inv (a.install sess).2 := by
  have hl (i t : String) : (a.install sess).2.listener? i t = a.listener? i t := rfl
  constructor
  · intro i s hi
    simp only [Actor.install, lookup_insert_eq] at hi
    split at hi
    · cases hi
      exact Eq.symm ‹_›
    · exact h.keyed i s hi
  · intro i t pl hpl
    rw [hl] at hpl
    obtain ⟨ho, hev⟩ := h.owned i t pl hpl
    refine ⟨?_, hev⟩
    simp only [Actor.install, lookup_insert_eq]
    split
    · subst i
      rw [h.no_listener hs] at hpl
      cases hpl
    · exact ho
  · exact h.distinct
  · exact h.named
  · exact h.built
  · exact h.ranged

theorem evict_lookup_self (a : Actor) (sess : AgentSession) :
    (a.evict sess).agents.lookup sess.agentID = none := by
  simp only [evict, lookup_erase_eq, if_true]

theorem install_lookup_self (a : Actor) (sess : AgentSession) :
    (a.install sess).2.agents.lookup sess.agentID = some sess := by
  simp only [install, lookup_insert_eq, if_true]

/-- Everything an admission can do: refuse the newcomer, or install it after evicting the incumbent,
if there is one. -/
theorem admit_cases (env : Env) (a : Actor) (sess : AgentSession) :
    (∃ b, Same a b ∧ a.admitSession env sess = (.error .dampened, b)) ∨
    (a.agents.lookup sess.agentID = none ∧ a.admitSession env sess = a.install sess) ∨
    ∃ incumbent b, a.agents.lookup sess.agentID = some incumbent ∧ Same (a.evict incumbent) b ∧
      a.admitSession env sess = b.install sess := by
  cases hi : a.agents.lookup sess.agentID with
  | none => exact .inr (.inl ⟨rfl, by simp only [admitSession, hi]⟩)
  | some incumbent =>
    have hd := dampened_same env a sess.agentID
    by_cases hr : (a.dampened env sess.agentID).1
    · exact .inl ⟨_, hd, by simp only [admitSession, hi, hr, if_true]⟩
    · refine .inr (.inr ⟨incumbent, _, rfl, (evict_same hd incumbent).trans
        (supersede_same env _ incumbent sess), ?_⟩)
      simp only [admitSession, hi, if_neg hr]

theorem Inv.admitSession (h : Inv a) (env : Env) (sess : AgentSession) :
    Inv (a.admitSession env sess).2 := by
  rcases admit_cases env a sess with ⟨b, hb, he⟩ | ⟨hi, he⟩ | ⟨incumbent, b, hi, hb, he⟩
  · rw [he]
    exact h.same hb
  · rw [he]
    exact h.install hi
  · rw [he]
    refine ((h.evict incumbent).same hb).install ?_
    rw [hb.agents, ← h.keyed _ _ hi]
    exact evict_lookup_self a incumbent

theorem Inv.disconnected (h : Inv a) (sess : AgentSession) : Inv (a.disconnected sess) := by
  unfold Actor.disconnected
  split
  · exact h.evict sess
  · exact h

theorem Inv.evictAgent (h : Inv a) (agentID : String) : Inv (a.evictAgent agentID) := by
  unfold Actor.evictAgent
  split
  · exact h
  · exact h.evict _

theorem Inv.closeTunnel (h : Inv a) (k u : String) : Inv (a.closeTunnel k u) := by
  have hr := closeTunnel_rebinds a k u
  refine h.shrink hr.agents hr.evicted fun i t pl hpl => ?_
  rw [listener?_closeTunnel] at hpl
  split at hpl
  · cases hpl
  · exact hpl

theorem Inv.unbindLocked (h : Inv a) (sess : AgentSession) (u : String) :
    Inv (a.unbindLocked sess u) := by
  have hr := unbindLocked_rebinds a sess u
  refine h.shrink hr.agents hr.evicted fun i t pl hpl => ?_
  rw [listener?_unbindLocked] at hpl
  split at hpl
  · cases hpl
  · exact hpl

theorem Inv.putListener (h : Inv a) (hs : a.live sess) (hp : ln.port ∉ a.heldPorts)
    (hr : 1 ≤ ln.port ∧ ln.port ≤ 65535) : Inv (a.putListener sess spec ln) := by
  have hnew : ∀ {i t pl}, (a.putListener sess spec ln).listener? i t = some pl →
      (i = sess.agentID ∧ t = spec.id ∧ pl = ⟨spec, sess, ln,
        buildSet spec.bandwidthLimitMbps spec.bandwidthLimitScope⟩) ∨
      a.listener? i t = some pl := by
    intro i t pl hpl
    rw [listener?_putListener] at hpl
    split at hpl
    · rename_i hk
      cases hpl
      exact .inl ⟨hk.1, hk.2, rfl⟩
    · exact .inr hpl
  constructor
  · exact h.keyed
  · intro i t pl hpl
    rcases hnew hpl with ⟨rfl, rfl, rfl⟩ | hpl
    · exact hs
    · exact h.owned i t pl hpl
  · intro i t pl i' t' pl' hpl hpl' hport
    rcases hnew hpl with ⟨rfl, rfl, rfl⟩ | hpl <;> rcases hnew hpl' with ⟨rfl, rfl, rfl⟩ | hpl'
    · exact ⟨rfl, rfl⟩
    · exact absurd (mem_heldPorts.2 ⟨_, _, _, hpl', hport.symm⟩) hp
    · exact absurd (mem_heldPorts.2 ⟨_, _, _, hpl, hport⟩) hp
    · exact h.distinct i t pl i' t' pl' hpl hpl' hport
  · intro i t pl hpl
    rcases hnew hpl with ⟨rfl, rfl, rfl⟩ | hpl
    · rfl
    · exact h.named i t pl hpl
  · intro i t pl hpl
    rcases hnew hpl with ⟨rfl, rfl, rfl⟩ | hpl
    · exact buildSet_built _ _
    · exact h.built i t pl hpl
  · intro i t pl hpl
    rcases hnew hpl with ⟨rfl, rfl, rfl⟩ | hpl
    · exact hr
    · exact h.ranged i t pl hpl

theorem Inv.storeLimiters {set : LimiterSet} (h : Inv a) (hpl : a.listener? k u = some pl)
    (hb : set.Built) : Inv (a.storeLimiters k u pl set) := by
  have hnew : ∀ {i t pl'}, (a.storeLimiters k u pl set).listener? i t = some pl' →
      ∃ pl₀, a.listener? i t = some pl₀ ∧ pl'.spec = pl₀.spec ∧ pl'.owner = pl₀.owner ∧
        pl'.ln = pl₀.ln ∧ (pl'.limiters.Built) := by
    intro i t pl' hpl'
    rw [listener?_storeLimiters] at hpl'
    split at hpl'
    · rename_i hk
      obtain ⟨rfl, rfl⟩ := hk
      cases hpl'
      exact ⟨pl, hpl, rfl, rfl, rfl, hb⟩
    · exact ⟨pl', hpl', rfl, rfl, rfl, h.built i t pl' hpl'⟩
  constructor
  · exact h.keyed
  · intro i t pl' hpl'
    obtain ⟨pl₀, h₀, -, ho, -, -⟩ := hnew hpl'
    rw [ho]
    exact h.owned i t pl₀ h₀
  · intro i t pl₁ i' t' pl₂ h₁ h₂ hport
    obtain ⟨pl₁', h₁', -, -, hl₁, -⟩ := hnew h₁
    obtain ⟨pl₂', h₂', -, -, hl₂, -⟩ := hnew h₂
    rw [hl₁, hl₂] at hport
    exact h.distinct i t pl₁' i' t' pl₂' h₁' h₂' hport
  · intro i t pl' hpl'
    obtain ⟨pl₀, h₀, hsp, -⟩ := hnew hpl'
    rw [hsp]
    exact h.named i t pl₀ h₀
  · intro i t pl' hpl'
    obtain ⟨pl₀, -, -, -, -, hb⟩ := hnew hpl'
    exact hb
  · intro i t pl' hpl'
    obtain ⟨pl₀, h₀, -, -, hln, -⟩ := hnew hpl'
    rw [hln]
    exact h.ranged i t pl₀ h₀

theorem Inv.bindLocked (h : Inv a) (g : Gateway) (hs : a.live sess) (spec : TunnelSpec) :
    Inv (a.bindLocked g sess spec).2 := by
  have hc := h.closeTunnel sess.agentID spec.id
  have hlive := (closeTunnel_rebinds a sess.agentID spec.id).live hs
  rcases bindLocked_cases g a sess spec with
    ⟨text, b, hb, hr⟩ | ⟨ln, b, hb, hp, hlo, hhi, hr⟩
  · rw [hr]
    exact hc.same hb
  · rw [hr]
    have hheld : b.heldPorts = (a.closeTunnel sess.agentID spec.id).heldPorts := by
      simp only [heldPorts, hb.listeners]
    exact (hc.same hb).putListener ((hb.rebinds "").live hlive) (hheld ▸ hp) ⟨hlo, hhi⟩

theorem Inv.unbindAll (h : Inv a) (sess : AgentSession) (ids : List String) :
    Inv (a.unbindAll sess ids) := by
  induction ids generalizing a with
  | nil => exact h
  | cons i ids ih => exact ih (h.unbindLocked sess i)

theorem Inv.reconcileSpec (h : Inv a) (g : Gateway) (hs : a.live sess) (spec : TunnelSpec) :
    Inv (a.reconcileSpec g sess spec).2 := by
  cases hk : a.kept? sess spec with
  | some pl =>
    obtain ⟨hpl, -⟩ := kept?_some hk
    rw [reconcileSpec_kept g hk]
    simp only
    split
    · have hb : ∀ set, some pl.limiters = some set → set.Built := by
        rintro set ⟨⟩
        exact h.built _ _ _ hpl
      exact h.storeLimiters hpl (reconcileSet_enforces hb).1
    · exact h
  | none =>
    have hb := h.bindLocked g hs spec
    simp only [Actor.reconcileSpec, hk]
    split <;> simpa only [*] using hb

theorem Inv.reconcileSpecs (h : Inv a) (g : Gateway) (hs : a.live sess)
    (specs : List TunnelSpec) : Inv (a.reconcileSpecs g sess specs).2 := by
  induction specs generalizing a with
  | nil => exact h
  | cons spec rest ih =>
    exact ih (h.reconcileSpec g hs spec) ((reconcileSpec_rebinds g a sess spec).live hs)

theorem Inv.reconcile (h : Inv a) (g : Gateway) (sess : AgentSession)
    (desired : List TunnelSpec) : Inv (a.reconcile g sess desired).2 := by
  unfold Actor.reconcile
  split
  · rename_i hs
    exact (h.unbindAll sess _).reconcileSpecs g ((unbindAll_rebinds a sess _).live hs) desired
  · exact h

theorem Inv.bindTunnel (h : Inv a) (g : Gateway) (sess : AgentSession) (spec : TunnelSpec) :
    Inv (a.bindTunnel g sess spec).2 := by
  unfold Actor.bindTunnel
  split
  · exact h.bindLocked g ‹_› spec
  · exact h

theorem live_unique {a : Actor} {x y : AgentSession} (hx : a.live x) (hy : a.live y)
    (h : x.agentID = y.agentID) : x = y := by
  have hm := hx.1
  rw [h, hy.1] at hm
  exact (Option.some.inj hm).symm

theorem live_rebinds {a b : Actor} {x : AgentSession} (h : Rebinds i a b) :
    b.live x ↔ a.live x := by
  rw [Actor.live, Actor.live, h.agents, h.evicted]

/-- At most one agent's session and listeners differ. -/
def Frame (i : String) (a b : Actor) : Prop :=
  ∀ j, j ≠ i → b.agents.lookup j = a.agents.lookup j ∧ b.listeners.lookup j = a.listeners.lookup j

theorem Frame.trans (h : Frame i a b) (h' : Frame i b c) : Frame i a c := fun j hj =>
  ⟨(h' j hj).1.trans (h j hj).1, (h' j hj).2.trans (h j hj).2⟩

theorem frame_of_rebinds (h : Rebinds i a b) : Frame i a b := fun j hj =>
  ⟨by rw [h.agents], h.others j hj⟩

theorem evict_frame (a : Actor) (sess : AgentSession) : Frame sess.agentID a (a.evict sess) :=
  fun _ hj => ⟨AList.lookup_erase_ne hj, AList.lookup_erase_ne hj⟩

theorem install_frame (a : Actor) (sess : AgentSession) :
    Frame sess.agentID a (a.install sess).2 :=
  fun _ hj => ⟨AList.lookup_insert_ne hj, rfl⟩

theorem Inv.admit_frame (h : Inv a) (env : Env) (sess : AgentSession) :
    Frame sess.agentID a (a.admitSession env sess).2 := by
  rcases admit_cases env a sess with ⟨b, hb, he⟩ | ⟨hi, he⟩ | ⟨incumbent, b, hi, hb, he⟩
  · rw [he]
    exact frame_of_rebinds (hb.rebinds _)
  · rw [he]
    exact install_frame a sess
  · rw [he]
    have hev := h.keyed _ _ hi ▸ evict_frame a incumbent
    exact (hev.trans (frame_of_rebinds (hb.rebinds _))).trans (install_frame b sess)

theorem disconnected_frame (a : Actor) (sess : AgentSession) :
    Frame sess.agentID a (a.disconnected sess) := by
  unfold disconnected
  split
  · exact evict_frame a sess
  · exact fun _ _ => ⟨rfl, rfl⟩

theorem Inv.evictAgent_frame (h : Inv a) (agentID : String) :
    Frame agentID a (a.evictAgent agentID) := by
  unfold Actor.evictAgent
  split
  · exact fun _ _ => ⟨rfl, rfl⟩
  · rename_i s hs
    exact h.keyed _ _ hs ▸ evict_frame a s

end Actor

namespace Gateway

theorem exec_inv (g : Gateway) (h : st.actor.Inv) (c : Command) : (g.exec st c).actor.Inv := by
  cases c with
  | admitSession sess => exact h.admitSession g.env sess
  | disconnected sess => exact h.disconnected sess
  | bindTunnel sess spec => exact h.bindTunnel g sess spec
  | unbindTunnel sess tunnelID => exact h.unbindLocked sess tunnelID
  | reconcile sess desired => exact h.reconcile g sess desired
  | revokeAgent agentID written => exact h.evictAgent agentID
  | setAgentScope agentID scope written =>
    simp only [exec, setAgentScope]
    split
    · exact h.evictAgent agentID
    · exact h

theorem run_inv (g : Gateway) (h : st.actor.Inv) (cmds : List Command) :
    (g.run st cmds).actor.Inv := by
  induction cmds generalizing st with
  | nil => exact h
  | cons c cs ih => exact ih (exec_inv g h c)

theorem exec_frame (g : Gateway) (h : st.actor.Inv) (c : Command) :
    Actor.Frame c.agentID st.actor (g.exec st c).actor := by
  cases c with
  | admitSession sess => exact h.admit_frame g.env sess
  | disconnected sess => exact Actor.disconnected_frame _ sess
  | bindTunnel sess spec => exact Actor.frame_of_rebinds (Actor.bindTunnel_rebinds g _ sess spec)
  | unbindTunnel sess tunnelID =>
    exact Actor.frame_of_rebinds (Actor.unbindLocked_rebinds _ sess tunnelID)
  | reconcile sess desired =>
    exact Actor.frame_of_rebinds (Actor.reconcile_rebinds g _ sess desired)
  | revokeAgent agentID written => exact h.evictAgent_frame agentID
  | setAgentScope agentID scope written =>
    simp only [exec, setAgentScope]
    split
    · exact h.evictAgent_frame agentID
    · exact fun _ _ => ⟨rfl, rfl⟩

theorem exec_generation_le (g : Gateway) (st : GatewayState) (c : Command) :
    st.actor.generation ≤ (g.exec st c).actor.generation := by
  cases c with
  | admitSession sess =>
    simp only [exec]
    rcases Actor.admit_cases g.env st.actor sess with ⟨b, hb, he⟩ | ⟨hi, he⟩ | ⟨_, b, hi, hb, he⟩
    · rw [he, hb.generation]
    · rw [he]
      exact Nat.le_succ _
    · rw [he]
      simp only [Actor.install, hb.generation, Actor.evict]
      exact Nat.le_succ _
  | disconnected sess =>
    simp only [exec, Actor.disconnected]
    split <;> exact Nat.le_refl _
  | bindTunnel sess spec => exact (Actor.bindTunnel_rebinds g _ sess spec).generation.ge
  | unbindTunnel sess tunnelID => exact (Actor.unbindLocked_rebinds _ sess tunnelID).generation.ge
  | reconcile sess desired => exact (Actor.reconcile_rebinds g _ sess desired).generation.ge
  | revokeAgent agentID written =>
    simp only [exec, revokeAgent, Actor.evictAgent]
    split <;> exact Nat.le_refl _
  | setAgentScope agentID scope written =>
    simp only [exec, setAgentScope, Actor.evictAgent]
    split
    · split <;> exact Nat.le_refl _
    · exact Nat.le_refl _

theorem admission_generation {g : Gateway} {st : GatewayState} {c : Command}
    (h : (sess, gen) ∈ g.admission st c) :
    gen = st.actor.generation + 1 ∧ gen = (g.exec st c).actor.generation := by
  cases c with
  | admitSession s =>
    simp only [admission] at h
    split at h
    · rename_i n hn
      cases List.mem_singleton.1 h
      rcases Actor.admit_cases g.env st.actor sess with ⟨b, hb, he⟩ | ⟨hi, he⟩ | ⟨_, b, hi, hb, he⟩
      · rw [he] at hn
        cases hn
      · rw [he] at hn
        cases hn
        exact ⟨rfl, by simp only [exec, he, Actor.install]⟩
      · rw [he] at hn
        cases hn
        exact ⟨by rw [hb.generation]; rfl, by simp only [exec, he, Actor.install]⟩
    · cases h
  | _ => cases h

theorem admissions_generation_lt {g : Gateway} (h : (sess, gen) ∈ g.admissions st cmds) :
    st.actor.generation < gen := by
  induction cmds generalizing st with
  | nil => cases h
  | cons c cs ih =>
    rcases List.mem_append.1 h with h | h
    · obtain ⟨hg, -⟩ := admission_generation h
      omega
    · have hle := exec_generation_le g st c
      have hlt := ih h
      omega

theorem admissions_increasing (g : Gateway) (st : GatewayState) (cmds : List Command) :
    ((g.admissions st cmds).map (·.2)).Pairwise (· < ·) := by
  induction cmds generalizing st with
  | nil => exact .nil
  | cons c cs ih =>
    rw [admissions, List.map_append, List.pairwise_append]
    refine ⟨?_, ih _, ?_⟩
    · cases c with
      | admitSession sess =>
        simp only [admission]
        split
        · exact List.pairwise_singleton _ _
        · exact .nil
      | _ => exact .nil
    · simp only [List.mem_map]
      rintro _ ⟨⟨s, m⟩, hm, rfl⟩ _ ⟨⟨s', n⟩, hn, rfl⟩
      rw [(admission_generation hm).2]
      exact admissions_generation_lt hn

theorem exec_agents {g : Gateway} (h : (g.exec st c).actor.agents.lookup i = some s) :
    st.actor.agents.lookup i = some s ∨ s ∈ (g.admission st c).map (·.1) := by
  have hev {a : Actor} {s' s : AgentSession} (h : (a.evict s').agents.lookup i = some s) :
      a.agents.lookup i = some s := by
    simp only [Actor.evict, lookup_erase_eq] at h
    split at h
    · cases h
    · exact h
  have hevA {a : Actor} {k : String} (h : (a.evictAgent k).agents.lookup i = some s) :
      a.agents.lookup i = some s := by
    unfold Actor.evictAgent at h
    split at h
    · exact h
    · exact hev h
  cases c with
  | admitSession sess =>
    have hin {b : Actor} (hb : (b.install sess).2.agents.lookup i = some s)
        (hba : ∀ s, b.agents.lookup i = some s → st.actor.agents.lookup i = some s)
        (he : st.actor.admitSession g.env sess = b.install sess) :
        st.actor.agents.lookup i = some s ∨
          s ∈ (g.admission st (.admitSession sess)).map (·.1) := by
      simp only [Actor.install, lookup_insert_eq] at hb
      split at hb
      · cases hb
        simp only [admission, he, Actor.install, List.map_cons, List.mem_cons, true_or, or_true]
      · exact .inl (hba s hb)
    simp only [exec] at h
    rcases Actor.admit_cases g.env st.actor sess with ⟨b, hb, he⟩ | ⟨hi, he⟩ | ⟨_, b, hi, hb, he⟩
    · rw [he, hb.agents] at h
      exact .inl h
    · rw [he] at h
      exact hin h (fun _ => id) he
    · rw [he] at h
      exact hin h (fun _ hs => hev (hb.agents ▸ hs)) he
  | disconnected sess =>
    simp only [exec, Actor.disconnected] at h
    split at h
    · exact .inl (hev h)
    · exact .inl h
  | bindTunnel sess spec => exact .inl ((Actor.bindTunnel_rebinds g _ sess spec).agents ▸ h)
  | unbindTunnel sess tunnelID =>
    exact .inl ((Actor.unbindLocked_rebinds _ sess tunnelID).agents ▸ h)
  | reconcile sess desired => exact .inl ((Actor.reconcile_rebinds g _ sess desired).agents ▸ h)
  | revokeAgent agentID written => exact .inl (hevA h)
  | setAgentScope agentID scope written =>
    simp only [exec, setAgentScope] at h
    split at h
    · exact .inl (hevA h)
    · exact .inl h

theorem exec_evicted {g : Gateway} {st : GatewayState} {c : Command} (h : s ∈ st.actor.evicted) :
    s ∈ (g.exec st c).actor.evicted := by
  have hA {a : Actor} {k : String} (h : s ∈ a.evicted) : s ∈ (a.evictAgent k).evicted := by
    unfold Actor.evictAgent
    split
    · exact h
    · exact List.mem_cons_of_mem _ h
  cases c with
  | admitSession sess =>
    simp only [exec]
    rcases Actor.admit_cases g.env st.actor sess with ⟨b, hb, he⟩ | ⟨hi, he⟩ | ⟨_, b, hi, hb, he⟩
    · rw [he, hb.evicted]
      exact h
    · rw [he]
      exact h
    · rw [he, Actor.install, hb.evicted]
      exact List.mem_cons_of_mem _ h
  | disconnected sess =>
    simp only [exec, Actor.disconnected]
    split
    · exact List.mem_cons_of_mem _ h
    · exact h
  | bindTunnel sess spec => exact (Actor.bindTunnel_rebinds g st.actor sess spec).evicted ▸ h
  | unbindTunnel sess tunnelID =>
    exact (Actor.unbindLocked_rebinds st.actor sess tunnelID).evicted ▸ h
  | reconcile sess desired => exact (Actor.reconcile_rebinds g st.actor sess desired).evicted ▸ h
  | revokeAgent agentID written => exact hA h
  | setAgentScope agentID scope written =>
    simp only [exec, setAgentScope]
    split
    · exact hA h
    · exact h

theorem exec_live {g : Gateway} {st : GatewayState} {c : Command} {s : AgentSession}
    (h : (g.exec st c).actor.live s) :
    st.actor.live s ∨ s ∈ (g.admission st c).map (·.1) := by
  obtain ⟨hmap, hev⟩ := h
  rcases exec_agents hmap with hmap | ha
  · exact .inl ⟨hmap, fun he => hev (exec_evicted he)⟩
  · exact .inr ha

theorem exec_desiredConfig (g : Gateway) (st : GatewayState) (c : Command) (i : String) :
    (g.exec st c).agents.desiredConfig i = st.agents.desiredConfig i := by
  cases c with
  | revokeAgent agentID written => exact AgentStore.desiredConfig_revoke _ _ _ _
  | setAgentScope agentID scope written => exact AgentStore.desiredConfig_setScope _ _ _ _ _
  | _ => rfl

theorem exec_agentConfigGen (g : Gateway) (st : GatewayState) (c : Command) :
    (g.exec st c).agentConfigGen = st.agentConfigGen := by
  cases c <;> rfl

theorem run_desiredConfig (g : Gateway) (st : GatewayState) (cmds : List Command) (i : String) :
    (g.run st cmds).agents.desiredConfig i = st.agents.desiredConfig i := by
  induction cmds generalizing st with
  | nil => rfl
  | cons c cs ih => exact (ih _).trans (exec_desiredConfig g st c i)

theorem run_agentConfigGen (g : Gateway) (st : GatewayState) (cmds : List Command) :
    (g.run st cmds).agentConfigGen = st.agentConfigGen := by
  induction cmds generalizing st with
  | nil => rfl
  | cons c cs ih => exact (ih _).trans (exec_agentConfigGen g st c)

theorem admitted_fresh {g : Gateway} {st : GatewayState} {sess : AgentSession}
    (h : st.actor.Inv) (hnew : ¬st.actor.live sess)
    (hlive : (g.exec st (.admitSession sess)).actor.live sess) (t : String) :
    (g.exec st (.admitSession sess)).actor.listener? sess.agentID t = none := by
  simp only [exec] at hlive ⊢
  obtain ⟨b, hb, he⟩ | ⟨hi, he⟩ | ⟨incumbent, b, hi, hb, he⟩ :=
    Actor.admit_cases g.env st.actor sess
  · rw [he] at hlive
    refine absurd ⟨?_, ?_⟩ hnew
    · rw [← hb.agents]
      exact hlive.1
    · rw [← hb.evicted]
      exact hlive.2
  · rw [he]
    exact h.no_listener hi t
  · rw [he]
    have hclosed := Actor.listener?_congr hb.listeners sess.agentID t
    rw [Actor.listener?_evict, h.keyed _ _ hi, if_pos rfl] at hclosed
    exact hclosed

/-- What others ask of the actor leaves the listeners of a session alone as long as it stays live,
and never makes it live. -/
theorem exec_others {g : Gateway} {st : GatewayState} {c : Command} {sess : AgentSession}
    (h : st.actor.Inv) (hby : c.by? ≠ some sess) (hl : (g.exec st c).actor.live sess) :
    st.actor.live sess ∧
      (g.exec st c).actor.listeners.lookup sess.agentID =
        st.actor.listeners.lookup sess.agentID := by
  have hbefore : st.actor.live sess := by
    rcases exec_live hl with hl | ha
    · exact hl
    · cases c with
      | admitSession s =>
        simp only [admission] at ha
        split at ha
        · exact absurd (congrArg some (List.mem_singleton.1 ha).symm) hby
        · cases ha
      | _ => cases ha
  refine ⟨hbefore, ?_⟩
  by_cases hid : sess.agentID = c.agentID
  · have hdead {s : AgentSession} (hs : s.agentID = sess.agentID) (hne : s ≠ sess) :
        ¬st.actor.live s := fun hls => hne (Actor.live_unique hls hbefore hs)
    have hevict {k : String} (hk : sess.agentID = k) (hl : (st.actor.evictAgent k).live sess) :
        (st.actor.evictAgent k).listeners.lookup sess.agentID =
          st.actor.listeners.lookup sess.agentID := by
      have ha : st.actor.agents.lookup k = some sess := hk ▸ hbefore.1
      simp only [Actor.evictAgent, ha] at hl
      exact absurd List.mem_cons_self hl.2
    cases c with
    | admitSession s =>
      simp only [exec] at hl ⊢
      rcases Actor.admit_cases g.env st.actor s with ⟨b, hb, he⟩ | ⟨hi, he⟩ | ⟨_, b, hi, hb, he⟩
      · rw [he, hb.listeners]
      · rw [he] at hl
        have hm := hl.1
        rw [hid] at hm
        exact absurd ((Actor.install_lookup_self _ s).symm.trans hm) hby
      · rw [he] at hl
        have hm := hl.1
        rw [hid] at hm
        exact absurd ((Actor.install_lookup_self _ s).symm.trans hm) hby
    | disconnected s =>
      simp only [exec, Actor.disconnected] at hl ⊢
      split at hl
      · rename_i hs
        have hm := hbefore.1
        rw [hid] at hm
        have he : s = sess := Option.some.inj (hs.symm.trans hm)
        subst he
        exact absurd List.mem_cons_self hl.2
      · rename_i hs
        rw [if_neg hs]
    | bindTunnel s spec =>
      have hs := hdead hid.symm fun he => hby (congrArg some he)
      simp only [exec, Actor.bindTunnel, if_neg hs]
    | unbindTunnel s tunnelID =>
      simp only [exec, Actor.unbindLocked]
      split
      · rfl
      · rename_i pl hpl
        rw [if_pos]
        intro ho
        have hown := (h.owned _ _ _ hpl).1
        have hm := hbefore.1
        rw [hid] at hm
        exact hby (congrArg some (ho.symm.trans (Option.some.inj (hown.symm.trans hm))))
    | reconcile s desired =>
      have hs := hdead hid.symm fun he => hby (congrArg some he)
      simp only [exec, Actor.reconcile, if_neg hs]
    | revokeAgent agentID written => exact hevict hid hl
    | setAgentScope agentID scope written =>
      simp only [exec, setAgentScope] at hl ⊢
      split
      · rename_i hok
        rw [if_pos hok] at hl
        exact hevict hid hl
      · rfl
  · exact (exec_frame g h c _ hid).2

theorem run_agents {g : Gateway} (h : (g.run st cmds).actor.agents.lookup i = some s) :
    st.actor.agents.lookup i = some s ∨ s ∈ (g.admissions st cmds).map (·.1) := by
  induction cmds generalizing st with
  | nil => exact .inl h
  | cons c cs ih =>
    rw [admissions, List.map_append, List.mem_append]
    rcases ih h with h | h
    · exact (exec_agents h).imp_right .inl
    · exact .inr (.inr h)

/-- From the empty actor, any commands in any order leave every listener with the live session of
its agent; sessions that are evicted or were never admitted own none; admissions get increasing
generations; no port is bound twice; and a further command touches no other agent's session or
listeners. -/
theorem ownership_and_isolation (g : Gateway) (store : AgentStore) (cmds : List Command) :
    let st := g.run (GatewayState.start store) cmds
    let admitted := g.admissions (GatewayState.start store) cmds
    (∀ i t pl, st.actor.listener? i t = some pl →
      st.actor.agents.lookup i = some pl.owner ∧ pl.owner ∉ st.actor.evicted) ∧
    (∀ sess, sess ∈ st.actor.evicted ∨ sess ∉ admitted.map (·.1) →
      ∀ i t pl, st.actor.listener? i t = some pl → pl.owner ≠ sess) ∧
    (admitted.map (·.2)).Pairwise (· < ·) ∧
    (∀ i t pl i' t' pl', st.actor.listener? i t = some pl →
      st.actor.listener? i' t' = some pl' → pl.ln.port = pl'.ln.port → i = i' ∧ t = t') ∧
    ∀ c i, i ≠ c.agentID →
      (g.exec st c).actor.agents.lookup i = st.actor.agents.lookup i ∧
      (g.exec st c).actor.listeners.lookup i = st.actor.listeners.lookup i := by
  intro st admitted
  have hinv : st.actor.Inv := run_inv g Actor.newActor_inv cmds
  refine ⟨hinv.owned, ?_, admissions_increasing g _ cmds, hinv.distinct,
    fun c => exec_frame g hinv c⟩
  intro sess hsess i t pl hpl ho
  obtain ⟨hmap, hev⟩ := hinv.owned i t pl hpl
  subst ho
  rcases hsess with hsess | hsess
  · exact hev hsess
  · rcases run_agents hmap with h | h
    · cases h
    · exact hsess h

end Gateway

end ProxyForward

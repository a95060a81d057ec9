import ProxyForward.PushedConfig

namespace ProxyForward
set_option autoImplicit true

/-! What holds of a listener since it was bound. -/

/-- The listener was opened for the port that the spec asks for. -/
def Gateway.Opens (g : Gateway) (sess : AgentSession) (spec : TunnelSpec) (ln : Listener) : Prop :=
  ∃ held n, (g.openPort held n sess.scope spec.publicPort).1 = .granted ln ∨
    (g.openPort held n sess.scope spec.publicPort).1 = .reassigned ln

/-- It holds of a listener when it is bound, and whatever its limiters become. -/
structure Gateway.SinceBound (g : Gateway) (P : PublicListener → Prop) : Prop where
  limiters : ∀ pl set, P pl → P { pl with limiters := set }
  bound : ∀ sess spec ln set, g.Opens sess spec ln → P ⟨spec, sess, ln, set⟩

def Actor.All (P : PublicListener → Prop) (a : Actor) : Prop :=
  ∀ i t pl, a.listener? i t = some pl → P pl

namespace Actor

theorem bindLocked_opens (g : Gateway) (a : Actor) (sess : AgentSession) (spec : TunnelSpec) :
    (∃ text b, Same (a.closeTunnel sess.agentID spec.id) b ∧
      a.bindLocked g sess spec = (.error text, b)) ∨
    ∃ ln b, Same (a.closeTunnel sess.agentID spec.id) b ∧ g.Opens sess spec ln ∧
      a.bindLocked g sess spec = (.ok ln.port, b.putListener sess spec ln) := by
  unfold bindLocked
  simp only
  split
  · rename_i ln n h
    exact .inr ⟨ln, { a.closeTunnel sess.agentID spec.id with calls := n }, ⟨rfl, rfl, rfl, rfl⟩,
      ⟨_, _, .inl (congrArg Prod.fst h)⟩, rfl⟩
  · rename_i ln n h
    exact .inr ⟨ln, ({ a.closeTunnel sess.agentID spec.id with calls := n }).noteReassigned
      g.env sess spec ln, ⟨rfl, rfl, rfl, rfl⟩, ⟨_, _, .inr (congrArg Prod.fst h)⟩, rfl⟩
  · rename_i text n h
    exact .inl ⟨text, { a.closeTunnel sess.agentID spec.id with calls := n },
      ⟨rfl, rfl, rfl, rfl⟩, rfl⟩

theorem reconcileSpec_rebound {g : Gateway} {a : Actor} {sess : AgentSession} {spec : TunnelSpec}
    (h : a.kept? sess spec = none) :
    (a.reconcileSpec g sess spec).2 = (a.bindLocked g sess spec).2 := by
  simp only [reconcileSpec, h]
  split <;> simp only [*]

namespace All

theorem mono (h : All P a) (hP : ∀ pl, P pl → Q pl) : All Q a :=
  fun i t pl hpl => hP pl (h i t pl hpl)

theorem fewer (h : All P a) (hl : ∀ i t pl, b.listener? i t = some pl → a.listener? i t = some pl) :
    All P b := fun i t pl hpl => h i t pl (hl i t pl hpl)

theorem same (h : All P a) (hs : Same a b) : All P b :=
  h.fewer fun i t _ hpl => (listener?_congr hs.listeners i t).symm.trans hpl

theorem closeTunnel (h : All P a) (k u : String) : All P (a.closeTunnel k u) := by
  apply h.fewer
  intro i t pl hpl
  rw [listener?_closeTunnel] at hpl
  split at hpl
  · cases hpl
  · exact hpl

theorem unbindLocked (h : All P a) (sess : AgentSession) (u : String) :
    All P (a.unbindLocked sess u) := by
  apply h.fewer
  intro i t pl hpl
  rw [listener?_unbindLocked] at hpl
  split at hpl
  · cases hpl
  · exact hpl

theorem evict (h : All P a) (sess : AgentSession) : All P (a.evict sess) := by
  apply h.fewer
  intro i t pl hpl
  rw [listener?_evict] at hpl
  split at hpl
  · cases hpl
  · exact hpl

theorem unbindAll (h : All P a) (sess : AgentSession) (ids : List String) :
    All P (a.unbindAll sess ids) := by
  induction ids generalizing a with
  | nil => exact h
  | cons u ids ih => exact ih (h.unbindLocked sess u)

theorem putListener (h : All P a) (hP : ∀ set, P ⟨spec, sess, ln, set⟩) :
    All P (a.putListener sess spec ln) := by
  intro i t pl hpl
  rw [listener?_putListener] at hpl
  split at hpl
  · cases hpl
    exact hP _
  · exact h i t pl hpl

variable {g : Gateway} {P : PublicListener → Prop} {a : Actor}

theorem bindLocked (h : All P a) (hg : g.SinceBound P) (sess : AgentSession) (spec : TunnelSpec) :
    All P (a.bindLocked g sess spec).2 := by
  have hclosed := h.closeTunnel sess.agentID spec.id
  rcases bindLocked_opens g a sess spec with ⟨text, b, hb, he⟩ | ⟨ln, b, hb, hopens, he⟩
  · rw [he]
    exact hclosed.same hb
  · rw [he]
    exact (hclosed.same hb).putListener fun set => hg.bound sess spec ln set hopens

theorem bindTunnel (h : All P a) (hg : g.SinceBound P) (sess : AgentSession) (spec : TunnelSpec) :
    All P (a.bindTunnel g sess spec).2 := by
  unfold Actor.bindTunnel
  split
  · exact h.bindLocked hg sess spec
  · exact h

theorem reconcileSpec_kept (h : All P a)
    (hP : ∀ pl set, P pl → P { pl with limiters := set }) (hk : a.kept? sess spec = some pl) :
    All P (a.reconcileSpec g sess spec).2 := by
  obtain ⟨hpl, -⟩ := kept?_some hk
  rw [Actor.reconcileSpec_kept g hk]
  simp only
  split
  · intro i t pl' hpl'
    rw [listener?_storeLimiters] at hpl'
    split at hpl'
    · cases hpl'
      exact hP pl _ (h _ _ _ hpl)
    · exact h i t pl' hpl'
  · exact h

theorem reconcileSpec (h : All P a) (hg : g.SinceBound P) (sess : AgentSession)
    (spec : TunnelSpec) :
    All P (a.reconcileSpec g sess spec).2 := by
  cases hk : a.kept? sess spec with
  | some pl => exact h.reconcileSpec_kept hg.limiters hk
  | none =>
    rw [reconcileSpec_rebound hk]
    exact h.bindLocked hg sess spec

theorem reconcileSpecs (h : All P a) (hg : g.SinceBound P) (sess : AgentSession)
    (specs : List TunnelSpec) :
    All P (a.reconcileSpecs g sess specs).2 := by
  induction specs generalizing a with
  | nil => exact h
  | cons spec rest ih => exact ih (h.reconcileSpec hg sess spec)

theorem reconcile (h : All P a) (hg : g.SinceBound P) (sess : AgentSession)
    (desired : List TunnelSpec) :
    All P (a.reconcile g sess desired).2 := by
  unfold Actor.reconcile
  split
  · exact (h.unbindAll sess _).reconcileSpecs hg sess desired
  · exact h

theorem admitSession (h : All P a) (env : Env) (sess : AgentSession) :
    All P (a.admitSession env sess).2 := by
  rcases admit_cases env a sess with ⟨b, hb, he⟩ | ⟨-, he⟩ | ⟨incumbent, b, -, hb, he⟩
  · rw [he]
    exact h.same hb
  · rw [he]
    exact h
  · rw [he]
    have hevicted : All P b := (h.evict incumbent).same hb
    exact hevicted

theorem disconnected (h : All P a) (sess : AgentSession) : All P (a.disconnected sess) := by
  unfold Actor.disconnected
  split
  · exact h.evict sess
  · exact h

theorem evictAgent (h : All P a) (agentID : String) : All P (a.evictAgent agentID) := by
  unfold Actor.evictAgent
  split
  · exact h
  · exact h.evict _

end All

end Actor

namespace Gateway

variable {g : Gateway} {P : PublicListener → Prop} {st : GatewayState}

theorem exec_all (hg : g.SinceBound P) (h : st.actor.All P) (c : Command) :
    (g.exec st c).actor.All P := by
  cases c with
  | admitSession sess => exact h.admitSession g.env sess
  | disconnected sess => exact h.disconnected sess
  | bindTunnel sess spec => exact h.bindTunnel hg sess spec
  | unbindTunnel sess tunnelID => exact h.unbindLocked sess tunnelID
  | reconcile sess desired => exact h.reconcile hg sess desired
  | revokeAgent agentID written => exact h.evictAgent agentID
  | setAgentScope agentID scope written =>
    simp only [exec, setAgentScope]
    split
    · exact h.evictAgent agentID
    · exact h

theorem run_all (hg : g.SinceBound P) (h : st.actor.All P) (cmds : List Command) :
    (g.run st cmds).actor.All P := by
  induction cmds generalizing st with
  | nil => exact h
  | cons c cs ih => exact ih (exec_all hg h c)

theorem start_all (store : AgentStore) : (GatewayState.start store).actor.All P := by
  intro i t pl hpl
  cases hpl

end Gateway

/-- A listener is on the port it was asked for, or on one its session may have instead. -/
def PublicListener.Placed (g : Gateway) (pl : PublicListener) : Prop :=
  pl.spec.publicPort ≠ 0 → pl.ln.port = pl.spec.publicPort ∨
    portPermitted pl.owner.scope g.cfg.portAllowlist pl.ln.port = true

theorem placed_sinceBound (g : Gateway) : g.SinceBound (PublicListener.Placed g) where
  limiters _ _ h := h
  bound sess spec ln set hopens hport := by
    obtain ⟨held, n, h | h⟩ := hopens
    · exact .inl ((openPort_granted h).2.1 hport)
    · exact .inr (openPort_reassigned h).2.1

end ProxyForward

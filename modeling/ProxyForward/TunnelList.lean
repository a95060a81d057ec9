import Mathlib.Data.Prod.Lex
import Mathlib.Data.List.Sort
import ProxyForward.Bindings
import ProxyForward.CapHistory
import ProxyForward.HealthPush

namespace ProxyForward
set_option autoImplicit true

/-- One tunnel's row in the list that status surfaces show. -/
structure TunnelSnapshot where
  agentID : String
  id : String
  name : String
  publicPort : Int
  requestedPort : Int
  localUp : Bool
  localKnown : Bool
  bandwidthLimitMbps : Int
  bandwidthLimitScope : String
  deriving DecidableEq, Repr

/-- The order of the list. -/
def TunnelSnapshot.Less (a b : TunnelSnapshot) : Prop :=
  if a.agentID ≠ b.agentID then a.agentID < b.agentID
  else if a.name ≠ b.name then a.name < b.name
  else a.id < b.id

instance : DecidableRel TunnelSnapshot.Less := fun a b =>
  inferInstanceAs (Decidable (if a.agentID ≠ b.agentID then a.agentID < b.agentID
    else if a.name ≠ b.name then a.name < b.name else a.id < b.id))

/-- The row of a listener, with its owner's reports. -/
def PublicListener.snapshot (health : AgentSession → GoMap Bool) (pl : PublicListener) :
    TunnelSnapshot where
  agentID := pl.owner.agentID
  id := pl.spec.id
  name := pl.spec.name
  publicPort := pl.ln.port
  requestedPort := pl.spec.publicPort
  localUp := ((health pl.owner).lookup pl.spec.id).getD false
  localKnown := ((health pl.owner).lookup pl.spec.id).isSome
  bandwidthLimitMbps := pl.spec.bandwidthLimitMbps
  bandwidthLimitScope := pl.spec.bandwidthLimitScope

namespace Actor

def stored (a : Actor) : List PublicListener :=
  a.listeners.entries.flatMap fun e => e.2.entries.map (·.2)

def tunnels (a : Actor) (health : AgentSession → GoMap Bool) : List TunnelSnapshot :=
  (a.stored.map (·.snapshot health)).insertionSort fun r r' => ¬r'.Less r

end Actor

/-- A gateway with what the sessions have stored of their health reports, and what its run has seen
so far, newest first: the specs it accepted, each with its agent, the reports, and the events it
recorded. -/
structure ListingGateway where
  state : GatewayState
  health : AgentSession → GoMap Bool
  accepted : List (String × TunnelSpec)
  reports : List (AgentSession × Health)
  recorded : List GatewayEvent

inductive ListAct where
  | command (c : Command)
  | health (sess : AgentSession) (h : Health)
  deriving DecidableEq, Repr

/-- The specs of a pass whose outcomes have no error. -/
def acceptedSpecs (agentID : String) :
    List TunnelSpec → List ReconcileOutcome → List (String × TunnelSpec)
  | spec :: specs, o :: outcomes =>
    acceptedSpecs agentID specs outcomes ++ if o.err = none then [(agentID, spec)] else []
  | _, _ => []

/-- The specs that a command accepts, each with its agent. -/
def Gateway.accepts (g : Gateway) (a : Actor) : Command → List (String × TunnelSpec)
  | .bindTunnel sess spec =>
    match (a.bindTunnel g sess spec).1 with
    | .ok _ => [(sess.agentID, spec)]
    | .error _ => []
  | .reconcile sess desired => acceptedSpecs sess.agentID desired (a.reconcile g sess desired).1
  | _ => []

/-- What is new in the ring from one state to the next. -/
def Actor.news (a b : Actor) : List GatewayEvent := b.events.since a.events.nextSeq

/-- The events of a pass, spec by spec, as the ring holds no more than the newest. -/
def Actor.passEvents (g : Gateway) (sess : AgentSession) (a : Actor) :
    List TunnelSpec → List GatewayEvent
  | [] => []
  | spec :: rest =>
    let b := (a.reconcileSpec g sess spec).2
    b.passEvents g sess rest ++ a.news b

def Gateway.records (g : Gateway) (st : GatewayState) : Command → List GatewayEvent
  | .reconcile sess desired =>
    if st.actor.live sess then
      (st.actor.unbindAll sess (st.actor.unwanted sess desired)).passEvents g sess desired
    else []
  | c => st.actor.news (g.exec st c).actor

/-- The last accepted spec of a tunnel. -/
def latestOf (accepted : List (String × TunnelSpec)) (agentID id : String) : Option TunnelSpec :=
  (accepted.find? fun e => e.1 = agentID ∧ e.2.id = id).map (·.2)

namespace ListingGateway

def start (store : AgentStore) : ListingGateway := ⟨.start store, fun _ => ∅, [], [], []⟩

def step (g : Gateway) (s : ListingGateway) : ListAct → Option ListingGateway
  | .command c => some { s with
      state := g.exec s.state c
      accepted := g.accepts s.state.actor c ++ s.accepted
      recorded := g.records s.state c ++ s.recorded }
  | .health sess h => some { s with
      health := Function.update s.health sess ((s.health sess).insert h.tunnelID h.localUp)
      reports := (sess, h) :: s.reports }

def tunnels (s : ListingGateway) : List TunnelSnapshot := s.state.actor.tunnels s.health

/-- The last report of a session about a tunnel. -/
def lastReport (s : ListingGateway) (sess : AgentSession) (id : String) : Option Bool :=
  (s.reports.find? fun e => e.1 = sess ∧ e.2.tunnelID = id).map (·.2.localUp)

end ListingGateway

/-- The gateway has recorded that the listener has its port in place of the one that its spec asks
for. -/
def PublicListener.Reassigned (recorded : List GatewayEvent) (pl : PublicListener) : Prop :=
  ∃ ev ∈ recorded, ev.kind = eventPortReassigned ∧ ev.agentID = pl.owner.agentID ∧
    ev.tunnelID = pl.spec.id ∧ ev.requestedPort = pl.spec.publicPort ∧ ev.actualPort = pl.ln.port

/-- The row says what is so of the listener, of the last accepted spec of its tunnel, and of the
last report of its owner. -/
structure RowTells (s : ListingGateway) (r : TunnelSnapshot) (pl : PublicListener) :
    Prop where
  bound : r.publicPort = pl.ln.port
  requested : r.requestedPort ≠ r.publicPort → r.requestedPort = 0 ∨ pl.Reassigned s.recorded
  spec : ∃ spec, latestOf s.accepted r.agentID r.id = some spec ∧ r.name = spec.name ∧
    r.requestedPort = spec.publicPort ∧ r.bandwidthLimitMbps = spec.bandwidthLimitMbps ∧
    r.bandwidthLimitScope = spec.bandwidthLimitScope
  health : (if r.localKnown then some r.localUp else none) = s.lastReport pl.owner r.id

/-- The list has one row for each stored listener, in order, and every row tells the truth. -/
structure ListTells (s : ListingGateway) : Prop where
  sorted : s.tunnels.Pairwise TunnelSnapshot.Less
  listed : ∀ i t, (∃ r ∈ s.tunnels, r.agentID = i ∧ r.id = t) ↔
    (s.state.actor.listener? i t).isSome
  rows : ∀ r ∈ s.tunnels, ∃ pl, s.state.actor.listener? r.agentID r.id = some pl ∧
    RowTells s r pl

def SameCap (a b : TunnelSpec) : Prop :=
  a.bandwidthLimitMbps = b.bandwidthLimitMbps ∧ a.bandwidthLimitScope = b.bandwidthLimitScope

/-- In a pass over the specs, the last spec of a tunnel whose listener is kept is related to the
spec that the listener was bound with. -/
def Actor.Repeats (R : TunnelSpec → TunnelSpec → Prop) (g : Gateway) (sess : AgentSession)
    (a : Actor) : List TunnelSpec → Prop
  | [] => True
  | spec :: rest =>
    (spec.id ∉ rest.map (·.id) → ∀ pl ∈ a.kept? sess spec, R pl.spec spec) ∧
      Repeats R g sess (a.reconcileSpec g sess spec).2 rest

/-- No reconcile changes the cap of a listener that it keeps. -/
def Command.Repeats (R : TunnelSpec → TunnelSpec → Prop) (g : Gateway) (a : Actor) :
    Command → Prop
  | .reconcile sess desired =>
    a.live sess → (a.unbindAll sess (a.unwanted sess desired)).Repeats R g sess desired
  | _ => True

def KeepsCaps (g : Gateway) (s : ListingGateway) : ListAct → Prop
  | .command c => c.Repeats SameCap g s.state.actor
  | .health _ _ => True

theorem latestOf_cons (accepted : List (String × TunnelSpec)) (agentID : String)
    (spec : TunnelSpec) (i t : String) :
    latestOf ((agentID, spec) :: accepted) i t =
      if agentID = i ∧ spec.id = t then some spec else latestOf accepted i t := by
  rw [latestOf, List.find?_cons]
  by_cases h : agentID = i ∧ spec.id = t
  · simp only [h, and_self, decide_true, Option.map_some, if_true]
  · simp only [h, decide_false, if_false]
    rfl

theorem latestOf_append {l accepted : List (String × TunnelSpec)} (h : ∀ e ∈ l, e.1 ≠ i) :
    latestOf (l ++ accepted) i t = latestOf accepted i t := by
  have hnone : l.find? (fun e => decide (e.1 = i ∧ e.2.id = t)) = none := by
    rw [List.find?_eq_none]
    intro e he hc
    exact h e he (of_decide_eq_true hc).1
  rw [latestOf, List.find?_append, hnone, Option.none_or]
  rfl

theorem acceptedSpecs_agent (specs : List TunnelSpec) (outcomes : List ReconcileOutcome) :
    ∀ e ∈ acceptedSpecs agentID specs outcomes, e.1 = agentID := by
  induction specs generalizing outcomes with
  | nil => exact nofun
  | cons spec specs ih =>
    cases outcomes with
    | nil => exact nofun
    | cons o outcomes =>
      intro e he
      obtain he | he := List.mem_append.1 he
      · exact ih outcomes e he
      · split at he
        · rw [List.mem_singleton.1 he]
        · cases he

/-! ### The view -/

namespace TunnelSnapshot

def key (r : TunnelSnapshot) : String ×ₗ String ×ₗ String := toLex (r.agentID, toLex (r.name, r.id))

theorem less_iff (a b : TunnelSnapshot) : a.Less b ↔ a.key < b.key := by
  rw [key, key, Prod.Lex.toLex_lt_toLex, Prod.Lex.toLex_lt_toLex]
  unfold Less
  by_cases hagent : a.agentID = b.agentID
  · rw [if_neg (not_not.2 hagent)]
    by_cases hname : a.name = b.name
    · rw [if_neg (not_not.2 hname)]
      simp only [hagent, hname, lt_irrefl, true_and, false_or]
    · rw [if_pos hname]
      simp only [hagent, hname, lt_irrefl, true_and, false_and, false_or, or_false]
  · rw [if_pos hagent]
    simp only [hagent, false_and, or_false]

end TunnelSnapshot

namespace Actor

variable {a : Actor} {health : AgentSession → GoMap Bool}

theorem mem_stored : pl ∈ a.stored ↔ ∃ i t, a.listener? i t = some pl := by
  simp only [stored, List.mem_flatMap, List.mem_map]
  constructor
  · rintro ⟨⟨i, subtree⟩, hi, ⟨t, _⟩, ht, rfl⟩
    have hs : a.listeners.lookup i = some subtree := AList.mem_lookup_iff.2 hi
    refine ⟨i, t, ?_⟩
    rw [listener?, hs]
    exact AList.mem_lookup_iff.2 ht
  · rintro ⟨i, t, hpl⟩
    obtain ⟨subtree, hs, ht⟩ := Option.bind_eq_some_iff.1 hpl
    exact ⟨⟨i, subtree⟩, AList.mem_lookup_iff.1 hs, ⟨t, pl⟩, AList.mem_lookup_iff.1 ht, rfl⟩

theorem Inv.stored_at (h : a.Inv) (hpl : a.listener? i t = some pl) :
    pl.owner.agentID = i ∧ pl.spec.id = t :=
  ⟨h.keyed i pl.owner (h.owned i t pl hpl).1, h.named i t pl hpl⟩

theorem Inv.stored_self (h : a.Inv) (hpl : pl ∈ a.stored) :
    a.listener? pl.owner.agentID pl.spec.id = some pl := by
  obtain ⟨i, t, hit⟩ := mem_stored.1 hpl
  obtain ⟨rfl, rfl⟩ := h.stored_at hit
  exact hit

theorem Inv.stored_nodup (h : a.Inv) :
    (a.stored.map fun pl => (pl.owner.agentID, pl.spec.id)).Nodup := by
  have hkeys : (a.stored.map fun pl => (pl.owner.agentID, pl.spec.id)) =
      a.listeners.entries.flatMap fun e => e.2.keys.map fun t => (e.1, t) := by
    rw [stored, List.map_flatMap]
    apply List.flatMap_congr
    intro e he
    rw [AList.keys, List.keys, List.map_map, List.map_map]
    apply List.map_congr_left
    intro f hf
    have hs : a.listeners.lookup e.1 = some e.2 := AList.mem_lookup_iff.2 he
    have hpl : a.listener? e.1 f.1 = some f.2 := by
      rw [listener?, hs]
      exact AList.mem_lookup_iff.2 hf
    obtain ⟨hagent, hid⟩ := h.stored_at hpl
    exact Prod.ext hagent hid
  rw [hkeys, List.nodup_flatMap]
  constructor
  · intro e _
    exact e.2.keys_nodup.map fun _ _ heq => (Prod.mk.inj heq).2
  · have hkeys : (a.listeners.entries.map (·.1)).Nodup := a.listeners.nodupKeys
    refine (List.pairwise_map.1 hkeys).imp fun hne => ?_
    intro p hp hp'
    obtain ⟨_, -, rfl⟩ := List.mem_map.1 hp
    obtain ⟨_, -, heq⟩ := List.mem_map.1 hp'
    exact hne (Prod.mk.inj heq).1.symm

theorem tunnels_perm (a : Actor) (health : AgentSession → GoMap Bool) :
    (a.tunnels health).Perm (a.stored.map (·.snapshot health)) := List.perm_insertionSort _ _

theorem mem_tunnels : r ∈ a.tunnels health ↔ ∃ pl ∈ a.stored, pl.snapshot health = r := by
  rw [(a.tunnels_perm health).mem_iff, List.mem_map]

theorem Inv.tunnels_sorted (h : a.Inv) (health : AgentSession → GoMap Bool) :
    (a.tunnels health).Pairwise TunnelSnapshot.Less := by
  have hle (r r' : TunnelSnapshot) : (¬r'.Less r) = (r.key ≤ r'.key) := by
    rw [TunnelSnapshot.less_iff, not_lt]
  have hsorted : (a.tunnels health).Pairwise fun r r' => r.key ≤ r'.key := by
    have : Std.Total fun r r' : TunnelSnapshot => r.key ≤ r'.key :=
      ⟨fun r r' => le_total r.key r'.key⟩
    have : IsTrans TunnelSnapshot fun r r' => r.key ≤ r'.key := ⟨fun _ _ _ => le_trans⟩
    simp only [tunnels, hle]
    exact List.pairwise_insertionSort _ _
  have hnodup : ((a.tunnels health).map fun r => (r.agentID, r.id)).Nodup := by
    refine (((a.tunnels_perm health).map _).nodup_iff).2 ?_
    rw [List.map_map]
    exact h.stored_nodup
  refine (hsorted.and (List.pairwise_map.1 hnodup)).imp fun ⟨hle, hne⟩ => ?_
  rw [TunnelSnapshot.less_iff]
  refine lt_of_le_of_ne hle fun heq => hne ?_
  have hagent := congrArg (fun k => (ofLex k).1) heq
  have hid := congrArg (fun k => (ofLex (ofLex k).2).2) heq
  exact Prod.ext hagent hid

end Actor

/-! ### The accepted specs -/

/-- The tunnel's listener, if it has one, is of a spec related to the last accepted one. -/
def OfLatest (R : TunnelSpec → TunnelSpec → Prop) (accepted : List (String × TunnelSpec))
    (a : Actor) (i t : String) : Prop :=
  ∀ pl, a.listener? i t = some pl → ∃ spec, latestOf accepted i t = some spec ∧ R pl.spec spec

namespace Actor

variable {R : TunnelSpec → TunnelSpec → Prop} {a b : Actor} {accepted : List (String × TunnelSpec)}
  {sess : AgentSession}

theorem ofLatest_congr (hl : b.listener? i t = a.listener? i t)
    (hs : latestOf accepted' i t = latestOf accepted i t) :
    OfLatest R accepted' b i t ↔ OfLatest R accepted a i t := by
  rw [OfLatest, OfLatest, hl, hs]

theorem ofLatest_none (h : a.listener? i t = none) : OfLatest R accepted a i t := by
  intro pl hpl
  rw [h] at hpl
  cases hpl

theorem ofLatest_reconcileSpec (hR : ∀ s, R s s) (g : Gateway) (a : Actor) (sess : AgentSession)
    (spec : TunnelSpec) (accepted : List (String × TunnelSpec)) :
    OfLatest R ((if (a.reconcileSpec g sess spec).1.err = none then [(sess.agentID, spec)] else [])
        ++ accepted) (a.reconcileSpec g sess spec).2 sess.agentID spec.id ↔
      ∀ pl ∈ a.kept? sess spec, R pl.spec spec := by
  have hlatest : latestOf ([(sess.agentID, spec)] ++ accepted) sess.agentID spec.id = some spec :=
    (latestOf_cons accepted _ spec _ _).trans (if_pos ⟨rfl, rfl⟩)
  cases hk : a.kept? sess spec with
  | some pl =>
    obtain ⟨pl', hpl', hspec, -⟩ := reconcileSpec_keeps g hk
    have herr : (a.reconcileSpec g sess spec).1.err = none := by rw [reconcileSpec_kept g hk]
    rw [if_pos herr]
    simp only [OfLatest, hpl', hlatest, Option.some.injEq, forall_eq', exists_eq_left', hspec,
      Option.mem_def]
  | none =>
    refine iff_of_true ?_ fun pl hpl => absurd hpl (Option.not_mem_none pl)
    rcases reconcileSpec_bound g hk with ⟨text, b, hb, he⟩ | ⟨ln, b, hb, -, -, -, he⟩
    · apply ofLatest_none
      rw [he, listener?_congr hb.listeners, listener?_closeTunnel, if_pos ⟨rfl, rfl⟩]
    · rw [he, if_pos rfl]
      intro pl hpl
      rw [listener?_putListener, if_pos ⟨rfl, rfl⟩] at hpl
      cases hpl
      exact ⟨spec, hlatest, hR spec⟩

/-- After a pass every tunnel's listener is of the last accepted spec, if the tunnels that the specs
do not name had such listeners, and the last spec of every kept listener repeats. -/
theorem ofLatest_reconcileSpecs (hR : ∀ s, R s s) (g : Gateway) (a : Actor) (sess : AgentSession)
    (specs : List TunnelSpec) (accepted : List (String × TunnelSpec)) :
    (∀ t, OfLatest R
        (acceptedSpecs sess.agentID specs (a.reconcileSpecs g sess specs).1 ++ accepted)
        (a.reconcileSpecs g sess specs).2 sess.agentID t) ↔
      (∀ t, t ∉ specs.map (·.id) → OfLatest R accepted a sess.agentID t) ∧
        a.Repeats R g sess specs := by
  induction specs generalizing a accepted with
  | nil =>
    simp only [reconcileSpecs, acceptedSpecs, List.nil_append, List.map_nil, List.not_mem_nil,
      not_false_eq_true, true_imp_iff, Actor.Repeats, and_true]
  | cons spec rest ih =>
    have hlog : acceptedSpecs sess.agentID (spec :: rest)
        (a.reconcileSpecs g sess (spec :: rest)).1 ++ accepted =
      acceptedSpecs sess.agentID rest
          ((a.reconcileSpec g sess spec).2.reconcileSpecs g sess rest).1 ++
        ((if (a.reconcileSpec g sess spec).1.err = none then [(sess.agentID, spec)] else []) ++
          accepted) := List.append_assoc _ _ _
    have hother (t : String) (ht : t ≠ spec.id) :
        OfLatest R ((if (a.reconcileSpec g sess spec).1.err = none then [(sess.agentID, spec)]
          else []) ++ accepted) (a.reconcileSpec g sess spec).2 sess.agentID t ↔
        OfLatest R accepted a sess.agentID t := by
      apply ofLatest_congr (reconcileSpec_others g a sess spec fun h => ht h.2)
      split
      · exact (latestOf_cons accepted _ spec _ _).trans (if_neg fun h => ht h.2.symm)
      · rfl
    have hself := ofLatest_reconcileSpec hR g a sess spec accepted
    rw [hlog]
    refine (ih _ _).trans ?_
    rw [Actor.Repeats, ← and_assoc]
    apply and_congr_left'
    constructor
    · intro h
      refine ⟨fun t ht => ?_, fun hlast => hself.1 (h spec.id hlast)⟩
      rw [List.map_cons, List.mem_cons, not_or] at ht
      exact (hother t ht.1).1 (h t ht.2)
    · rintro ⟨h, hlast⟩ t ht
      by_cases heq : t = spec.id
      · rw [heq] at ht ⊢
        exact hself.2 (hlast ht)
      · refine (hother t heq).2 (h t ?_)
        rw [List.map_cons, List.mem_cons, not_or]
        exact ⟨heq, ht⟩

theorem acceptedSpecs_inactive (agentID : String) (desired : List TunnelSpec) :
    acceptedSpecs agentID desired
      (desired.map fun spec => ⟨spec.id, 0, some errInactive⟩) = [] := by
  induction desired with
  | nil => rfl
  | cons spec desired ih =>
    rw [List.map_cons, acceptedSpecs, ih]
    rfl

theorem Inv.ofLatest_reconcile (hinv : a.Inv) (hR : ∀ s, R s s)
    (h : ∀ i t, OfLatest R accepted a i t) (g : Gateway) (sess : AgentSession)
    (desired : List TunnelSpec) :
    (∀ i t, OfLatest R
        (acceptedSpecs sess.agentID desired (a.reconcile g sess desired).1 ++ accepted)
        (a.reconcile g sess desired).2 i t) ↔
      (Command.reconcile sess desired).Repeats R g a := by
  by_cases hs : a.live sess
  · have hother (i t : String) (hi : i ≠ sess.agentID) : OfLatest R
        (acceptedSpecs sess.agentID desired (a.reconcile g sess desired).1 ++ accepted)
        (a.reconcile g sess desired).2 i t := by
      refine (ofLatest_congr ((reconcile_rebinds g a sess desired).listener? hi t)
        (latestOf_append fun e he => ?_)).2 (h i t)
      rw [acceptedSpecs_agent _ _ e he]
      exact hi.symm
    have hgone (t : String) (ht : t ∉ desired.map (·.id)) :
        OfLatest R accepted (a.unbindAll sess (a.unwanted sess desired)) sess.agentID t := by
      apply ofLatest_none
      rw [listener?_unwanted hinv hs, if_neg ht]
    have hpass := ofLatest_reconcileSpecs hR g (a.unbindAll sess (a.unwanted sess desired)) sess
      desired accepted
    rw [← reconcile_live g hs] at hpass
    constructor
    · intro hall _
      exact (hpass.1 fun t => hall sess.agentID t).2
    · intro hrepeats i t
      by_cases hi : i = sess.agentID
      · rw [hi]
        exact hpass.2 ⟨hgone, hrepeats hs⟩ t
      · exact hother i t hi
  · have hresult : a.reconcile g sess desired =
        (desired.map fun spec => ⟨spec.id, 0, some errInactive⟩, a) := if_neg hs
    rw [hresult, acceptedSpecs_inactive]
    exact iff_of_true h fun hlive => absurd hlive hs

theorem ofLatest_bindTunnel (hR : ∀ s, R s s) (h : ∀ i t, OfLatest R accepted a i t) (g : Gateway)
    (sess : AgentSession) (spec : TunnelSpec) (i t : String) :
    OfLatest R (g.accepts a (.bindTunnel sess spec) ++ accepted) (a.bindTunnel g sess spec).2
      i t := by
  by_cases hs : a.live sess
  · have hbind : a.bindTunnel g sess spec = a.bindLocked g sess spec := if_pos hs
    rw [Gateway.accepts, hbind]
    rcases bindLocked_cases g a sess spec with ⟨text, b, hb, he⟩ | ⟨ln, b, hb, -, -, -, he⟩
    · rw [he]
      by_cases hit : i = sess.agentID ∧ t = spec.id
      · apply ofLatest_none
        rw [listener?_congr hb.listeners, listener?_closeTunnel, if_pos hit]
      · refine (ofLatest_congr ?_ rfl).2 (h i t)
        rw [listener?_congr hb.listeners, listener?_closeTunnel, if_neg hit]
    · rw [he]
      by_cases hit : i = sess.agentID ∧ t = spec.id
      · obtain ⟨rfl, rfl⟩ := hit
        intro pl hpl
        rw [listener?_putListener, if_pos ⟨rfl, rfl⟩] at hpl
        cases hpl
        exact ⟨spec, (latestOf_cons accepted _ spec _ _).trans (if_pos ⟨rfl, rfl⟩), hR spec⟩
      · refine (ofLatest_congr ?_ ?_).2 (h i t)
        · rw [listener?_putListener, if_neg hit, listener?_congr hb.listeners,
            listener?_closeTunnel, if_neg hit]
        · exact (latestOf_cons accepted _ spec i t).trans
            (if_neg fun hc => hit ⟨hc.1.symm, hc.2.symm⟩)
  · have hbind : a.bindTunnel g sess spec = (.error errInactive, a) := if_neg hs
    rw [Gateway.accepts, hbind]
    exact h i t

theorem Inv.ofLatest_iff (hinv : a.Inv) : (∀ i t, OfLatest R accepted a i t) ↔
    a.All fun pl => ∃ spec, latestOf accepted pl.owner.agentID pl.spec.id = some spec ∧
      R pl.spec spec := by
  constructor
  · intro h i t pl hpl
    obtain ⟨hagent, hid⟩ := hinv.stored_at hpl
    rw [hagent, hid]
    exact h i t pl hpl
  · intro h i t pl hpl
    obtain ⟨rfl, rfl⟩ := hinv.stored_at hpl
    exact h _ _ pl hpl

end Actor

/-- After a command every listener is of the last accepted spec of its tunnel if and only if the
command repeats the specs of the listeners that it keeps. -/
theorem ofLatest_exec {R : TunnelSpec → TunnelSpec → Prop} {st : GatewayState} (hR : ∀ s, R s s)
    (hinv : st.actor.Inv) (h : ∀ i t, OfLatest R accepted st.actor i t) (g : Gateway)
    (c : Command) :
    (∀ i t, OfLatest R (g.accepts st.actor c ++ accepted) (g.exec st c).actor i t) ↔
      c.Repeats R g st.actor := by
  have hall := hinv.ofLatest_iff.1 h
  have hinv' := Gateway.exec_inv g hinv c
  cases c with
  | admitSession sess =>
    exact iff_of_true (hinv'.ofLatest_iff.2 (hall.admitSession g.env sess)) trivial
  | disconnected sess =>
    exact iff_of_true (hinv'.ofLatest_iff.2 (hall.disconnected sess)) trivial
  | bindTunnel sess spec => exact iff_of_true (Actor.ofLatest_bindTunnel hR h g sess spec) trivial
  | unbindTunnel sess tunnelID =>
    exact iff_of_true (hinv'.ofLatest_iff.2 (hall.unbindLocked sess tunnelID)) trivial
  | reconcile sess desired => exact hinv.ofLatest_reconcile hR h g sess desired
  | revokeAgent agentID written =>
    exact iff_of_true (hinv'.ofLatest_iff.2 (hall.evictAgent agentID)) trivial
  | setAgentScope agentID scope written =>
    refine iff_of_true (hinv'.ofLatest_iff.2 ?_) trivial
    simp only [Gateway.exec, Gateway.setAgentScope]
    split
    · exact hall.evictAgent agentID
    · exact hall

/-! ### The recorded events -/

/-- The listener has the port that its spec asks for, if any, or an event says why not. -/
def PublicListener.Told (recorded : List GatewayEvent) (pl : PublicListener) : Prop :=
  pl.spec.publicPort = 0 ∨ pl.ln.port = pl.spec.publicPort ∨ pl.Reassigned recorded

theorem PublicListener.Told.append {pl : PublicListener} (h : pl.Told recorded)
    (newer : List GatewayEvent) : pl.Told (newer ++ recorded) := by
  obtain h | h | ⟨ev, hev, h⟩ := h
  · exact .inl h
  · exact .inr (.inl h)
  · exact .inr (.inr ⟨ev, List.mem_append_right _ hev, h⟩)

namespace Actor

variable {a : Actor} {recorded : List GatewayEvent}

theorem closeTunnel_events (a : Actor) (i t : String) : (a.closeTunnel i t).events = a.events := by
  unfold closeTunnel
  split <;> rfl

theorem unbindLocked_events (a : Actor) (sess : AgentSession) (t : String) :
    (a.unbindLocked sess t).events = a.events := by
  unfold unbindLocked
  split
  · rfl
  · split
    · rfl
    · unfold dropTunnel
      simp only
      split <;> rfl

theorem unbindAll_events (a : Actor) (sess : AgentSession) (ids : List String) :
    (a.unbindAll sess ids).events = a.events := by
  induction ids generalizing a with
  | nil => rfl
  | cons u ids ih => exact (ih _).trans (unbindLocked_events a sess u)

theorem within_events (env : Env) (a : Actor) (last : Option Int) (bound : Int) :
    (a.within env last bound).2.events = a.events := by
  cases last <;> rfl

theorem dampened_events (env : Env) (a : Actor) (agentID : String) :
    (a.dampened env agentID).2.events = a.events := by
  unfold dampened
  simp only
  split
  · exact within_events _ _ _ _
  · rfl

theorem noteContest_cap (env : Env) (a : Actor) (incumbent sess : AgentSession) :
    (a.noteContest env incumbent sess).events.cap = a.events.cap := by
  have hcontested : (a.contested env incumbent sess).2.events = a.events := by
    unfold contested
    split
    · exact within_events _ _ _ _
    · rfl
  rw [← hcontested]
  unfold noteContest
  simp only
  split <;> rfl

theorem noteSupersede_events (env : Env) (a : Actor) (agentID : String) :
    (a.noteSupersede env agentID).events = a.events :=
  within_events env a (a.damp agentID).lastSupersedeAt supersedeFlapWindow

theorem admitSession_cap (env : Env) (a : Actor) (sess : AgentSession) :
    (a.admitSession env sess).2.events.cap = a.events.cap := by
  unfold admitSession
  cases a.agents.lookup sess.agentID with
  | none => rfl
  | some incumbent =>
    have hdampened := dampened_events env a sess.agentID
    simp only
    split
    · rw [hdampened]
    · change (((a.dampened env sess.agentID).2.noteContest env incumbent sess).evict
        incumbent |>.noteSupersede env sess.agentID).events.cap = _
      rw [noteSupersede_events]
      exact (noteContest_cap env _ incumbent sess).trans (congrArg EventRing.cap hdampened)

theorem bindLocked_cap (g : Gateway) (a : Actor) (sess : AgentSession) (spec : TunnelSpec) :
    (a.bindLocked g sess spec).2.events.cap = a.events.cap := by
  have hclose := congrArg EventRing.cap (closeTunnel_events a sess.agentID spec.id)
  unfold bindLocked
  simp only
  split <;> exact hclose

theorem reconcileSpec_cap (g : Gateway) (a : Actor) (sess : AgentSession) (spec : TunnelSpec) :
    (a.reconcileSpec g sess spec).2.events.cap = a.events.cap := by
  cases hk : a.kept? sess spec with
  | some pl =>
    rw [reconcileSpec_kept g hk]
    simp only
    split <;> rfl
  | none =>
    rw [reconcileSpec_rebound hk]
    exact bindLocked_cap g a sess spec

theorem reconcileSpecs_cap (g : Gateway) (a : Actor) (sess : AgentSession)
    (specs : List TunnelSpec) :
    (a.reconcileSpecs g sess specs).2.events.cap = a.events.cap := by
  induction specs generalizing a with
  | nil => rfl
  | cons spec rest ih => exact (ih _).trans (reconcileSpec_cap g a sess spec)

/-- A listener that is bound has its port, or the ring has a new event that says why not. -/
theorem told_bindLocked (hcap : 0 < a.events.cap) (g : Gateway) (sess : AgentSession)
    (spec : TunnelSpec) (h : a.All (PublicListener.Told recorded)) :
    (a.bindLocked g sess spec).2.All
      (PublicListener.Told (a.news (a.bindLocked g sess spec).2 ++ recorded)) := by
  have hclosed := (h.closeTunnel sess.agentID spec.id).mono fun pl hpl =>
    hpl.append (a.news (a.bindLocked g sess spec).2)
  have hring := closeTunnel_events a sess.agentID spec.id
  revert hclosed
  unfold bindLocked
  simp only
  split
  · rename_i ln n hopen
    intro hclosed
    apply (hclosed.same ⟨rfl, rfl, rfl, rfl⟩).putListener
    intro set
    by_cases hzero : spec.publicPort = 0
    · exact .inl hzero
    · exact .inr (.inl ((openPort_granted (congrArg Prod.fst hopen)).2.1 hzero))
  · rename_i ln n hopen
    intro hclosed
    apply (hclosed.same ⟨rfl, rfl, rfl, rfl⟩).putListener
    intro set
    have hpush (ev : GatewayEvent) : { ev with seq := a.events.nextSeq + 1 } ∈
        ((a.closeTunnel sess.agentID spec.id).events.push ev).since a.events.nextSeq := by
      rw [← hring] at hcap ⊢
      exact EventRing.mem_since_push _ hcap ev
    exact .inr (.inr ⟨_, List.mem_append_left _ (hpush _), rfl, rfl, rfl, rfl, rfl⟩)
  · intro hclosed
    exact hclosed.same ⟨rfl, rfl, rfl, rfl⟩

theorem told_reconcileSpec (hcap : 0 < a.events.cap) (g : Gateway) (sess : AgentSession)
    (spec : TunnelSpec) (h : a.All (PublicListener.Told recorded)) :
    (a.reconcileSpec g sess spec).2.All
      (PublicListener.Told (a.news (a.reconcileSpec g sess spec).2 ++ recorded)) := by
  cases hk : a.kept? sess spec with
  | some pl => exact (h.reconcileSpec_kept (fun _ _ h => h) hk).mono fun pl hpl => hpl.append _
  | none =>
    rw [reconcileSpec_rebound hk]
    exact told_bindLocked hcap g sess spec h

theorem told_reconcileSpecs (hcap : 0 < a.events.cap) (g : Gateway) (sess : AgentSession)
    (specs : List TunnelSpec) (h : a.All (PublicListener.Told recorded)) :
    (a.reconcileSpecs g sess specs).2.All
      (PublicListener.Told (a.passEvents g sess specs ++ recorded)) := by
  induction specs generalizing a recorded with
  | nil => exact h
  | cons spec rest ih =>
    have hspec := told_reconcileSpec hcap g sess spec h
    rw [← reconcileSpec_cap g a sess spec] at hcap
    have hrest := ih hcap hspec
    rw [passEvents, List.append_assoc]
    exact hrest

end Actor

theorem evictAgent_cap (a : Actor) (agentID : String) :
    (a.evictAgent agentID).events.cap = a.events.cap := by
  unfold Actor.evictAgent
  split <;> rfl

theorem exec_cap (g : Gateway) (st : GatewayState) (c : Command) :
    (g.exec st c).actor.events.cap = st.actor.events.cap := by
  cases c with
  | admitSession sess => exact Actor.admitSession_cap g.env st.actor sess
  | disconnected sess =>
    simp only [Gateway.exec, Actor.disconnected]
    split <;> rfl
  | bindTunnel sess spec =>
    simp only [Gateway.exec, Actor.bindTunnel]
    split
    · exact Actor.bindLocked_cap g st.actor sess spec
    · rfl
  | unbindTunnel sess tunnelID =>
    exact congrArg EventRing.cap (Actor.unbindLocked_events st.actor sess tunnelID)
  | reconcile sess desired =>
    simp only [Gateway.exec, Actor.reconcile]
    split
    · exact (Actor.reconcileSpecs_cap g _ sess desired).trans
        (congrArg EventRing.cap (Actor.unbindAll_events _ _ _))
    · rfl
  | revokeAgent agentID written => exact evictAgent_cap st.actor agentID
  | setAgentScope agentID scope written =>
    simp only [Gateway.exec, Gateway.setAgentScope]
    split
    · exact evictAgent_cap st.actor agentID
    · rfl

theorem told_exec {st : GatewayState} (hcap : 0 < st.actor.events.cap)
    (h : st.actor.All (PublicListener.Told recorded)) (g : Gateway) (c : Command) :
    (g.exec st c).actor.All (PublicListener.Told (g.records st c ++ recorded)) := by
  cases c with
  | admitSession sess => exact (h.admitSession g.env sess).mono fun pl hpl => hpl.append _
  | disconnected sess => exact (h.disconnected sess).mono fun pl hpl => hpl.append _
  | bindTunnel sess spec =>
    simp only [Gateway.records, Gateway.exec, Actor.bindTunnel]
    split
    · exact Actor.told_bindLocked hcap g sess spec h
    · exact h.mono fun pl hpl => hpl.append _
  | unbindTunnel sess tunnelID =>
    exact (h.unbindLocked sess tunnelID).mono fun pl hpl => hpl.append _
  | reconcile sess desired =>
    simp only [Gateway.records, Gateway.exec, Actor.reconcile]
    split
    · apply Actor.told_reconcileSpecs _ g sess desired (h.unbindAll sess _)
      rw [Actor.unbindAll_events]
      exact hcap
    · exact h
  | revokeAgent agentID written => exact (h.evictAgent agentID).mono fun pl hpl => hpl.append _
  | setAgentScope agentID scope written =>
    have hevicted := (h.evictAgent agentID).mono fun pl hpl =>
      hpl.append (g.records st (.setAgentScope agentID scope written))
    simp only [Gateway.exec, Gateway.setAgentScope]
    split
    · exact hevicted
    · exact h.mono fun pl hpl => hpl.append _

/-! ### The list over a run -/

/-- What every run keeps. -/
structure ListingGateway.Inv (g : Gateway) (s : ListingGateway) : Prop where
  actor : s.state.actor.Inv
  ring : 0 < s.state.actor.events.cap
  told : s.state.actor.All (PublicListener.Told s.recorded)
  latest : ∀ i t, OfLatest (fun a b => sameListener a b = true) s.accepted s.state.actor i t
  health : ∀ sess t, (s.health sess).lookup t = s.lastReport sess t

theorem Actor.repeats_sameListener (g : Gateway) (a : Actor) (sess : AgentSession)
    (specs : List TunnelSpec) : a.Repeats (fun a b => sameListener a b = true) g sess specs := by
  induction specs generalizing a with
  | nil => trivial
  | cons spec rest ih => exact ⟨fun _ pl hpl => (kept?_some hpl).2, ih _⟩

theorem Command.repeats_sameListener (g : Gateway) (a : Actor) (c : Command) :
    c.Repeats (fun a b => sameListener a b = true) g a := by
  cases c with
  | reconcile sess desired => exact fun _ => Actor.repeats_sameListener g _ sess desired
  | _ => trivial

namespace ListingGateway

variable {g : Gateway} {s s' : ListingGateway}

theorem lastReport_cons (s : ListingGateway) (health : AgentSession → GoMap Bool)
    (sess sess' : AgentSession) (h : Health) (t : String) :
    ({ s with health := health, reports := (sess, h) :: s.reports }).lastReport sess' t =
      if sess = sess' ∧ h.tunnelID = t then some h.localUp else s.lastReport sess' t := by
  rw [lastReport, List.find?_cons]
  by_cases heq : sess = sess' ∧ h.tunnelID = t
  · simp only [heq, and_self, decide_true, Option.map_some, if_true]
  · simp only [heq, decide_false, if_false]
    rfl

theorem start_inv (g : Gateway) (store : AgentStore) : (start store).Inv g where
  actor := Actor.newActor_inv
  ring := (by decide : 0 < eventRingCap)
  told := Gateway.start_all store
  latest _ _ := Actor.ofLatest_none rfl
  health _ t := AList.lookup_empty t

theorem Inv.command (h : s.Inv g) (c : Command) :
    Inv g { s with
      state := g.exec s.state c, accepted := g.accepts s.state.actor c ++ s.accepted
      recorded := g.records s.state c ++ s.recorded } where
  actor := Gateway.exec_inv g h.actor c
  ring := by
    rw [exec_cap]
    exact h.ring
  told := told_exec h.ring h.told g c
  latest := (ofLatest_exec sameListener_refl h.actor h.latest g c).2
    (Command.repeats_sameListener g s.state.actor c)
  health := h.health

theorem Inv.report (h : s.Inv g) (sess : AgentSession) (frame : Health) :
    Inv g { s with
      health := Function.update s.health sess ((s.health sess).insert frame.tunnelID frame.localUp)
      reports := (sess, frame) :: s.reports } where
  actor := h.actor
  ring := h.ring
  told := h.told
  latest := h.latest
  health sess' t := by
    rw [lastReport_cons]
    dsimp only
    by_cases hsess : sess = sess'
    · subst hsess
      rw [Function.update_self, lookup_insert_eq]
      by_cases ht : t = frame.tunnelID
      · rw [if_pos ht, if_pos ⟨rfl, ht.symm⟩]
      · rw [if_neg ht, if_neg fun hc => ht hc.2.symm]
        exact h.health sess t
    · rw [Function.update_of_ne (Ne.symm hsess), if_neg fun hc => hsess hc.1]
      exact h.health sess' t

theorem Inv.row_tells (h : s.Inv g) (hpl : s.state.actor.listener? i t = some pl)
    (hcap : OfLatest SameCap s.accepted s.state.actor i t) :
    RowTells s (pl.snapshot s.health) pl := by
  obtain ⟨hagent, hid⟩ := h.actor.stored_at hpl
  obtain ⟨spec, hspec, hsame⟩ := h.latest i t pl hpl
  obtain ⟨spec', hspec', hmbps, hscope⟩ := hcap pl hpl
  cases hspec.symm.trans hspec'
  simp only [sameListener, Bool.and_eq_true, decide_eq_true_eq] at hsame
  obtain ⟨⟨⟨⟨⟨-, hname⟩, -⟩, hport⟩, -⟩, -⟩ := hsame
  refine ⟨rfl, fun hne => ?_, ⟨spec, ?_, hname, hport, hmbps, hscope⟩, ?_⟩
  · obtain hzero | hport | hevent := h.told i t pl hpl
    · exact .inl hzero
    · exact absurd hport.symm hne
    · exact .inr hevent
  · rw [← hspec]
    exact congrArg₂ (latestOf s.accepted) hagent hid
  · have hshown (o : Option Bool) : (if o.isSome then some (o.getD false) else none) = o := by
      cases o <;> rfl
    exact (hshown _).trans (h.health pl.owner pl.spec.id)

/-- The list tells the truth if and only if the caps that the listeners were bound with are those
that were accepted last. -/
theorem Inv.list_tells_iff (h : s.Inv g) :
    ListTells s ↔ ∀ i t, OfLatest SameCap s.accepted s.state.actor i t := by
  have hrow {i t : String} {pl : PublicListener} (hpl : s.state.actor.listener? i t = some pl) :
      pl.snapshot s.health ∈ s.tunnels :=
    Actor.mem_tunnels.2 ⟨pl, Actor.mem_stored.2 ⟨i, t, hpl⟩, rfl⟩
  constructor
  · intro htells i t pl hpl
    obtain ⟨rfl, rfl⟩ := h.actor.stored_at hpl
    obtain ⟨pl', -, hrow'⟩ := htells.rows _ (hrow hpl)
    obtain ⟨spec, hspec, -, -, hmbps, hscope⟩ := hrow'.spec
    exact ⟨spec, hspec, hmbps, hscope⟩
  · intro hcap
    refine ⟨h.actor.tunnels_sorted s.health, fun i t => ⟨?_, fun hsome => ?_⟩, fun r hr => ?_⟩
    · rintro ⟨r, hr, rfl, rfl⟩
      obtain ⟨pl, hpl, rfl⟩ := Actor.mem_tunnels.1 hr
      exact Option.isSome_of_mem (h.actor.stored_self hpl)
    · obtain ⟨pl, hpl⟩ := Option.isSome_iff_exists.1 hsome
      exact ⟨_, hrow hpl, h.actor.stored_at hpl⟩
    · obtain ⟨pl, hpl, rfl⟩ := Actor.mem_tunnels.1 hr
      have hself := h.actor.stored_self hpl
      exact ⟨pl, hself, h.row_tells hself (hcap _ _)⟩

end ListingGateway

/-- In every run of a gateway, of admissions, evictions, binds, unbinds, reconciles, operators'
calls and health reports in any order, the list tells the truth in every state if and only if no
reconcile changes the cap of a listener that it keeps. -/
theorem tunnel_list_tells_iff (g : Gateway) (store : AgentStore) (acts : List ListAct) :
    Runs.Always (ListingGateway.step g) ListTells (.start store) acts ↔
      Runs.Along (ListingGateway.step g) (KeepsCaps g) (.start store) acts := by
  apply Runs.always_iff_along (I := fun s => s.Inv g ∧
    ∀ i t, OfLatest SameCap s.accepted s.state.actor i t)
  · rintro s ⟨hs, hcap⟩
    exact hs.list_tells_iff.2 hcap
  · rintro s act s' ⟨hs, hcap⟩ hstep
    cases act with
    | command c =>
      cases hstep
      have hexec := ofLatest_exec (fun _ => ⟨rfl, rfl⟩) hs.actor hcap g c
      have hs' := hs.command c
      exact ⟨fun h => ⟨hs', hexec.2 h⟩, fun h => hexec.1 (hs'.list_tells_iff.1 h)⟩
    | health sess frame =>
      cases hstep
      exact ⟨fun _ => ⟨hs.report sess frame, hcap⟩, fun _ => trivial⟩
  · exact ⟨ListingGateway.start_inv g store, fun _ _ => Actor.ofLatest_none rfl⟩

/-- The row of a tunnel whose cap was raised in place shows the cap that it was bound with. -/
theorem tunnel_list_shows_old_cap :
    ¬∀ (g : Gateway) (store : AgentStore) (acts : List ListAct),
      Runs.Always (ListingGateway.step g) ListTells (.start store) acts := by
  intro h
  let sess := AgentSession.plain 1 "a"
  have hrun := h idleGateway .empty [.command (.admitSession sess),
    .command (.reconcile sess [cappedSpec 10]), .command (.reconcile sess [cappedSpec 20])]
  have hend := hrun.final (Runs.reaches_of_final rfl)
  obtain ⟨pl, -, hrow⟩ := hend.rows ⟨"a", "t", "t", 8080, 8080, false, false, 10, ""⟩
    (by decide +kernel)
  obtain ⟨spec, hspec, -, -, hmbps, -⟩ := hrow.spec
  have hlatest : spec = cappedSpec 20 := by
    refine Option.some.inj (hspec.symm.trans ?_)
    decide +kernel
  rw [hlatest] at hmbps
  exact absurd hmbps (by decide)

end ProxyForward

import ProxyForward.Ownership
import ProxyForward.Runs
import Mathlib.Data.Int.ConditionallyCompleteOrder
import Mathlib.Data.List.Chain
import Mathlib.Data.List.Iterate
import Mathlib.Order.ConditionallyCompleteLattice.Basic

namespace ProxyForward
set_option autoImplicit true

namespace Actor

variable {a b : Actor} {i : String} {sess : AgentSession}

/-- The actor that `noteSupersede` starts from, if the attempt supersedes an incumbent. -/
def superseding (env : Env) (a : Actor) (sess : AgentSession) : Option Actor :=
  (a.agents.lookup sess.agentID).bind fun incumbent =>
    let (refused, a) := a.dampened env sess.agentID
    if refused then none else some ((a.noteContest env incumbent sess).evict incumbent)

theorem admitSession_superseding {env : Env} (h : a.superseding env sess = some b) :
    a.admitSession env sess = (b.noteSupersede env sess.agentID).install sess := by
  obtain ⟨incumbent, hi, h⟩ := Option.bind_eq_some_iff.1 h
  simp only at h
  split at h
  · cases h
  · rename_i hr
    cases h
    simp only [admitSession, hi, if_neg hr, supersede]

/-- A step that keeps the damping records, without turning back the clock. -/
structure Later (a b : Actor) : Prop where
  damp : b.admitDamp = a.admitDamp
  calls : a.calls ≤ b.calls

theorem Later.refl (a : Actor) : Later a a := ⟨rfl, le_rfl⟩

theorem Later.trans {c : Actor} (h : Later a b) (h' : Later b c) : Later a c :=
  ⟨h'.damp.trans h.damp, h.calls.trans h'.calls⟩

theorem Later.damp_eq (h : Later a b) (i : String) : b.damp i = a.damp i := by
  rw [Actor.damp, h.damp]
  rfl

theorem within_later (env : Env) (a : Actor) (last : Option Int) (bound : Int) :
    Later a (a.within env last bound).2 := by
  cases last with
  | none => exact .refl a
  | some t => exact ⟨rfl, Nat.le_succ _⟩

theorem recordEvent_later (env : Env) (a : Actor) (ev : GatewayEvent) :
    Later a (a.recordEvent env ev) := ⟨rfl, Nat.le_succ _⟩

theorem dampened_later (env : Env) (a : Actor) (i : String) : Later a (a.dampened env i).2 := by
  unfold dampened
  simp only
  split
  · exact within_later _ _ _ _
  · exact .refl a

theorem contested_later (env : Env) (a : Actor) (incumbent sess : AgentSession) :
    Later a (a.contested env incumbent sess).2 := by
  unfold contested
  split
  · exact within_later _ _ _ _
  · exact .refl a

theorem noteContest_later (env : Env) (a : Actor) (incumbent sess : AgentSession) :
    Later a (a.noteContest env incumbent sess) := by
  refine (contested_later env a incumbent sess).trans ?_
  unfold noteContest
  simp only
  split
  · exact recordEvent_later _ _ _
  · exact .refl _

theorem evict_later (a : Actor) (sess : AgentSession) : Later a (a.evict sess) := ⟨rfl, le_rfl⟩

theorem superseding_later {env : Env} (h : a.superseding env sess = some b) :
    Later a b ∧ ∀ t, (a.damp sess.agentID).lastSupersedeAt = some t →
      0 < (a.damp sess.agentID).penalty →
        (a.damp sess.agentID).penalty ≤ env.now a.calls - t := by
  obtain ⟨incumbent, hi, h⟩ := Option.bind_eq_some_iff.1 h
  simp only at h
  split at h
  · cases h
  · rename_i hr
    cases h
    refine ⟨((dampened_later _ _ _).trans (noteContest_later _ _ _ _)).trans (evict_later _ _), ?_⟩
    intro t ht hp
    simp only [dampened, if_pos hp, within, ht, decide_eq_true_eq] at hr
    exact not_lt.1 hr

/-- The penalty after a supersede. -/
def raised (rapid : Bool) (penalty : Int) : Int :=
  if rapid then if penalty = 0 then basePenalty else min (2 * penalty) capPenalty else 0

/-- The last supersede is less than the flap window ago. -/
def rapid (env : Env) (a : Actor) (i : String) : Bool :=
  (a.within env (a.damp i).lastSupersedeAt supersedeFlapWindow).1

theorem damp_noteSupersede (env : Env) (a : Actor) (i j : String) :
    (a.noteSupersede env i).damp j =
      if j = i then
        ⟨some (env.now (a.within env (a.damp i).lastSupersedeAt supersedeFlapWindow).2.calls),
          raised (a.rapid env i) (a.damp i).penalty⟩
      else a.damp j := by
  have hw : (a.within env (a.damp i).lastSupersedeAt supersedeFlapWindow).2.admitDamp =
      a.admitDamp := (within_later _ _ _ _).damp
  simp only [damp, noteSupersede, lookup_insert_eq] at hw ⊢
  split
  · rfl
  · rw [hw]

theorem rapid_iff {env : Env} {t : Int} (ht : (a.damp i).lastSupersedeAt = some t) :
    a.rapid env i = true ↔ env.now a.calls - t < supersedeFlapWindow := by
  simp only [rapid, within, ht, decide_eq_true_eq]

theorem rapid_first {env : Env} (ht : (a.damp i).lastSupersedeAt = none) :
    a.rapid env i = false := by
  simp only [rapid, within, ht]

theorem damp_admitSession (env : Env) (a : Actor) (sess : AgentSession) (j : String) :
    (a.admitSession env sess).2.damp j =
      match a.superseding env sess with
      | some b => (b.noteSupersede env sess.agentID).damp j
      | none => a.damp j := by
  cases h : a.superseding env sess with
  | some b =>
    rw [admitSession_superseding h]
    rfl
  | none =>
    unfold admitSession
    cases hi : a.agents.lookup sess.agentID with
    | none => rfl
    | some incumbent =>
      have hr : (a.dampened env sess.agentID).1 = true := by
        by_contra hr
        simp only [superseding, hi, Option.bind_some, if_neg hr] at h
        cases h
      simp only [hr, if_true]
      exact (dampened_later env a sess.agentID).damp_eq j

/-- Penalties stop at twice the base. -/
def Level (penalty : Int) : Prop :=
  penalty = 0 ∨ penalty = basePenalty ∨ penalty = 2 * basePenalty

instance (penalty : Int) : Decidable (Level penalty) := inferInstanceAs (Decidable (_ ∨ _))

/-- Two seconds of penalty hold a newcomer back for the whole flap window, so that its supersede is
not a rapid one. -/
theorem raised_level {env : Env} (hclock : Monotone env.now)
    (hl : Level (a.damp sess.agentID).penalty) (h : a.superseding env sess = some b) :
    Level (raised (b.rapid env sess.agentID) (b.damp sess.agentID).penalty) ∧
      ((a.damp sess.agentID).penalty = 2 * basePenalty →
        b.rapid env sess.agentID = false) := by
  obtain ⟨hlater, hpast⟩ := superseding_later h
  have hslow : (a.damp sess.agentID).penalty = 2 * basePenalty →
      b.rapid env sess.agentID = false := by
    intro hp
    cases ht : (a.damp sess.agentID).lastSupersedeAt with
    | none => exact rapid_first (by rw [hlater.damp_eq, ht])
    | some t =>
      have hwait := hpast t ht (by rw [hp]; decide)
      have hnow := hclock hlater.calls
      rw [Bool.eq_false_iff, Ne, rapid_iff (t := t) (by rw [hlater.damp_eq, ht])]
      rw [hp] at hwait
      have hwindow : supersedeFlapWindow = 2 * basePenalty := rfl
      omega
  refine ⟨?_, hslow⟩
  rw [hlater.damp_eq]
  rcases hl with hp | hp | hp
  · rw [hp]
    cases b.rapid env sess.agentID <;> decide
  · rw [hp]
    cases b.rapid env sess.agentID <;> decide
  · rw [hslow hp]
    exact .inl rfl

theorem closeTunnel_damp (a : Actor) (i t : String) :
    (a.closeTunnel i t).admitDamp = a.admitDamp := by
  unfold closeTunnel
  split <;> rfl

theorem bindLocked_damp (g : Gateway) (a : Actor) (sess : AgentSession) (spec : TunnelSpec) :
    (a.bindLocked g sess spec).2.admitDamp = a.admitDamp := by
  have hclose := closeTunnel_damp a sess.agentID spec.id
  unfold bindLocked
  simp only
  split <;> exact hclose

theorem unbindLocked_damp (a : Actor) (sess : AgentSession) (t : String) :
    (a.unbindLocked sess t).admitDamp = a.admitDamp := by
  unfold unbindLocked
  split
  · rfl
  · split
    · rfl
    · unfold dropTunnel
      simp only
      split <;> rfl

theorem unbindAll_damp (a : Actor) (sess : AgentSession) (ids : List String) :
    (a.unbindAll sess ids).admitDamp = a.admitDamp := by
  induction ids generalizing a with
  | nil => rfl
  | cons id ids ih => exact (ih _).trans (unbindLocked_damp a sess id)

theorem reconcileSpec_damp (g : Gateway) (a : Actor) (sess : AgentSession) (spec : TunnelSpec) :
    (a.reconcileSpec g sess spec).2.admitDamp = a.admitDamp := by
  have hbind := bindLocked_damp g a sess spec
  unfold reconcileSpec
  split
  · simp only
    split <;> rfl
  · split <;> simpa only [*] using hbind

theorem reconcileSpecs_damp (g : Gateway) (a : Actor) (sess : AgentSession)
    (specs : List TunnelSpec) : (a.reconcileSpecs g sess specs).2.admitDamp = a.admitDamp := by
  induction specs generalizing a with
  | nil => rfl
  | cons spec rest ih => exact (ih _).trans (reconcileSpec_damp g a sess spec)

theorem reconcile_damp (g : Gateway) (a : Actor) (sess : AgentSession)
    (desired : List TunnelSpec) : (a.reconcile g sess desired).2.admitDamp = a.admitDamp := by
  unfold reconcile
  split
  · exact (reconcileSpecs_damp g _ sess desired).trans (unbindAll_damp a sess _)
  · rfl

theorem evictAgent_damp (a : Actor) (i : String) : (a.evictAgent i).admitDamp = a.admitDamp := by
  unfold evictAgent
  split <;> rfl

end Actor

namespace Gateway

variable {g : Gateway} {st : GatewayState} {agentID : String}

theorem exec_damp (g : Gateway) (st : GatewayState) {c : Command}
    (hc : ∀ sess, c ≠ .admitSession sess) :
    (g.exec st c).actor.admitDamp = st.actor.admitDamp := by
  cases c with
  | admitSession sess => exact absurd rfl (hc sess)
  | disconnected sess =>
    simp only [exec, Actor.disconnected]
    split <;> rfl
  | bindTunnel sess spec =>
    simp only [exec, Actor.bindTunnel]
    split
    · exact Actor.bindLocked_damp g _ sess spec
    · rfl
  | unbindTunnel sess tunnelID => exact Actor.unbindLocked_damp _ sess tunnelID
  | reconcile sess desired => exact Actor.reconcile_damp g _ sess desired
  | revokeAgent agentID written => exact Actor.evictAgent_damp _ agentID
  | setAgentScope agentID scope written =>
    simp only [exec, setAgentScope]
    split
    · exact Actor.evictAgent_damp _ agentID
    · rfl

/-- The state that a command supersedes in, if it supersedes the agent's session. -/
def supersedes (g : Gateway) (agentID : String) (st : GatewayState) : Command → Option Actor
  | .admitSession sess =>
    if sess.agentID = agentID then st.actor.superseding g.env sess else none
  | _ => none

theorem exec_damp_supersedes (g : Gateway) (st : GatewayState) (c : Command) :
    (g.exec st c).actor.damp agentID =
      match g.supersedes agentID st c with
      | some b => (b.noteSupersede g.env agentID).damp agentID
      | none => st.actor.damp agentID := by
  by_cases hc : ∀ sess, c ≠ .admitSession sess
  · have hnone : g.supersedes agentID st c = none := by
      cases c with
      | admitSession sess => exact absurd rfl (hc sess)
      | _ => rfl
    simp only [hnone, Actor.damp, exec_damp g st hc]
  · push Not at hc
    obtain ⟨sess, rfl⟩ := hc
    refine (Actor.damp_admitSession g.env st.actor sess agentID).trans ?_
    by_cases hid : sess.agentID = agentID
    · simp only [supersedes, hid, if_true]
    · simp only [supersedes, if_neg hid]
      cases hs : st.actor.superseding g.env sess with
      | none => rfl
      | some b =>
        have hlater := (Actor.superseding_later hs).1
        simp only [Actor.damp_noteSupersede, if_neg (Ne.symm hid), hlater.damp_eq]

/-- The penalties after the successive supersedes of an agent. -/
def penalties (g : Gateway) (agentID : String) (st : GatewayState) : List Command → List Int
  | [] => []
  | c :: cs =>
    (g.supersedes agentID st c).toList.map (fun _ =>
        ((g.exec st c).actor.damp agentID).penalty) ++
      g.penalties agentID (g.exec st c) cs

/-- Every penalty in force is one of the three levels. -/
def Levels (st : GatewayState) : Prop := ∀ i, Actor.Level (st.actor.damp i).penalty

theorem supersedes_level (hclock : Monotone g.env.now) (h : Levels st) {c : Command} {b : Actor}
    (hb : g.supersedes agentID st c = some b) :
    b.damp agentID = st.actor.damp agentID ∧
      Actor.Level (Actor.raised (b.rapid g.env agentID) (b.damp agentID).penalty) ∧
        ((b.damp agentID).penalty = 2 * basePenalty → b.rapid g.env agentID = false) := by
  cases c with
  | admitSession sess =>
    simp only [supersedes] at hb
    split at hb
    · rename_i hid
      subst hid
      obtain ⟨hlevel, hslow⟩ := Actor.raised_level hclock (h _) hb
      have hsame := (Actor.superseding_later hb).1.damp_eq sess.agentID
      exact ⟨hsame, hlevel, fun hp => hslow (hsame ▸ hp)⟩
    · cases hb
  | _ => cases hb

theorem exec_levels (hclock : Monotone g.env.now) (h : Levels st) (c : Command) :
    Levels (g.exec st c) := by
  intro i
  rw [exec_damp_supersedes]
  split
  · rename_i b hb
    rw [Actor.damp_noteSupersede, if_pos rfl]
    exact (supersedes_level hclock h hb).2.1
  · exact h i

theorem run_levels (hclock : Monotone g.env.now) (h : Levels st) (cmds : List Command) :
    Levels (g.run st cmds) := by
  induction cmds generalizing st with
  | nil => exact h
  | cons c cs ih => exact ih (exec_levels hclock h c)

theorem start_levels (store : AgentStore) : Levels (GatewayState.start store) :=
  fun _ => .inl rfl

theorem penalties_level (hclock : Monotone g.env.now) (h : Levels st) (cs : List Command) :
    ∀ p ∈ g.penalties agentID st cs, Actor.Level p := by
  induction cs generalizing st with
  | nil => exact fun p hp => absurd hp List.not_mem_nil
  | cons c cs ih =>
    intro p hp
    rcases List.mem_append.1 hp with hp | hp
    · obtain ⟨b, -, rfl⟩ := List.mem_map.1 hp
      exact exec_levels hclock h c agentID
    · exact ih (exec_levels hclock h c) p hp

/-- A newcomer that supersedes does so less than a second after the penalty lets it in. -/
def Prompt (g : Gateway) (agentID : String) (st : GatewayState) (c : Command) : Prop :=
  ∀ b ∈ g.supersedes agentID st c, ∀ t ∈ (b.damp agentID).lastSupersedeAt,
    g.env.now b.calls - t < (b.damp agentID).penalty + basePenalty

instance (g : Gateway) (agentID : String) (st : GatewayState) (c : Command) :
    Decidable (g.Prompt agentID st c) :=
  inferInstanceAs (Decidable (∀ b ∈ g.supersedes agentID st c,
    ∀ t ∈ (b.damp agentID).lastSupersedeAt, _))

/-- A stretch of a run in which the agent is contested, with whatever else goes on. -/
def Contest (g : Gateway) (agentID : String) (st : GatewayState) (cs : List Command) : Prop :=
  Runs.Along (fun st c => some (g.exec st c)) (g.Prompt agentID) st cs

instance (g : Gateway) (agentID : String) (st : GatewayState) (cs : List Command) :
    Decidable (g.Contest agentID st cs) :=
  inferInstanceAs (Decidable (Runs.Along _ _ st cs))

/-- The penalties of a contest: one second, two, and none again. -/
def cycle (p : Int) : Int :=
  if p = 0 then basePenalty else if p = basePenalty then 2 * basePenalty else 0

def nextPenalty (d : DampState) : Int := if d.lastSupersedeAt.isSome then cycle d.penalty else 0

theorem supersedes_prompt (hclock : Monotone g.env.now) (h : Levels st) {c : Command} {b : Actor}
    (hb : g.supersedes agentID st c = some b) (hp : g.Prompt agentID st c) :
    ((g.exec st c).actor.damp agentID).lastSupersedeAt.isSome ∧
      ((g.exec st c).actor.damp agentID).penalty = nextPenalty (st.actor.damp agentID) := by
  obtain ⟨hsame, -, hslow⟩ := supersedes_level hclock h hb
  have hprompt := hp b hb
  simp only [exec_damp_supersedes, hb, Actor.damp_noteSupersede, if_true]
  refine ⟨rfl, ?_⟩
  rw [← hsame]
  cases ht : (b.damp agentID).lastSupersedeAt with
  | none =>
    rw [Actor.rapid_first ht, nextPenalty, ht]
    rfl
  | some t =>
    have hsoon := hprompt t ht
    have hwindow : supersedeFlapWindow = 2 * basePenalty := rfl
    rw [nextPenalty, ht]
    simp only [Option.isSome_some, if_true]
    rcases hsame ▸ h agentID with hp0 | hp0 | hp0
    · have hr : b.rapid g.env agentID = true := by
        rw [Actor.rapid_iff ht]
        have hbase : basePenalty < 2 * basePenalty := by decide
        omega
      rw [hr, hp0]
      rfl
    · have hr : b.rapid g.env agentID = true := by
        rw [Actor.rapid_iff ht]
        omega
      rw [hr, hp0]
      rfl
    · rw [hslow hp0, hp0]
      rfl

theorem penalties_contest (hclock : Monotone g.env.now) (h : Levels st) {cs : List Command}
    (hc : g.Contest agentID st cs) :
    g.penalties agentID st cs = List.iterate cycle (nextPenalty (st.actor.damp agentID))
      (g.penalties agentID st cs).length := by
  induction cs generalizing st with
  | nil => rfl
  | cons c cs ih =>
    obtain ⟨hp, hc⟩ := Runs.Along.cons hc rfl
    have hrest := ih (exec_levels hclock h c) hc
    cases hb : g.supersedes agentID st c with
    | none =>
      have hsame : (g.exec st c).actor.damp agentID = _ := exec_damp_supersedes g st c
      simp only [hb] at hsame
      simp only [penalties, hb, Option.toList_none, List.map_nil, List.nil_append]
      rwa [hsame] at hrest
    | some b =>
      obtain ⟨hsome, hnext⟩ := supersedes_prompt hclock h hb hp
      rw [nextPenalty, if_pos hsome, hnext] at hrest
      simp only [penalties, hb, Option.toList_some, List.map_cons, List.map_nil,
        List.cons_append, List.nil_append, List.length_cons, List.iterate, hnext]
      exact congrArg _ hrest

/-- The penalties of a contest back off: they never decrease, and the seven supersedes that doubling
takes to the cap reach it. -/
def BacksOff (ps : List Int) : Prop :=
  ps.IsChain (· ≤ ·) ∧ (7 ≤ ps.length → capPenalty ∈ ps)

instance (ps : List Int) : Decidable (BacksOff ps) := inferInstanceAs (Decidable (_ ∧ _))

theorem iterate_backsOff (p : Int) (hp : Actor.Level p) (n : Nat) (hn : 4 ≤ n) :
    ¬BacksOff (List.iterate cycle p n) := by
  obtain ⟨m, rfl⟩ := Nat.exists_eq_add_of_le hn
  rintro ⟨hchain, -⟩
  rw [List.iterate_add] at hchain
  have hfour := hchain.left_of_append
  revert hfour
  rcases hp with rfl | rfl | rfl <;> decide

theorem backsOff_iff (n : Nat) : BacksOff (List.iterate cycle 0 n) ↔ n ≤ 3 := by
  constructor
  · intro h
    by_contra hn
    exact iterate_backsOff 0 (.inl rfl) n (by omega) h
  · intro hn
    have hsmall : n = 0 ∨ n = 1 ∨ n = 2 ∨ n = 3 := by omega
    rcases hsmall with rfl | rfl | rfl | rfl <;> decide

/-- A supersede that comes a flap window after the last one, under no penalty. -/
structure Isolated (env : Env) (a : Actor) (sess : AgentSession) : Prop where
  incumbent : (a.agents.lookup sess.agentID).isSome
  previous : ∃ t, (a.damp sess.agentID).lastSupersedeAt = some t ∧
    supersedeFlapWindow ≤ env.now a.calls - t ∧ (a.damp sess.agentID).penalty ≤ env.now a.calls - t

theorem isolated_admitted (hclock : Monotone g.env.now) {a : Actor} {sess : AgentSession}
    (h : Isolated g.env a sess) :
    (∃ gen, (a.admitSession g.env sess).1 = .ok gen) ∧
      ((a.admitSession g.env sess).2.damp sess.agentID).penalty = 0 := by
  obtain ⟨incumbent, hi⟩ := Option.isSome_iff_exists.1 h.incumbent
  obtain ⟨t, ht, hwindow, hpenalty⟩ := h.previous
  have hfree : (a.dampened g.env sess.agentID).1 = false := by
    unfold Actor.dampened
    simp only
    split
    · simp only [Actor.within, ht, decide_eq_false_iff_not, not_lt]
      exact hpenalty
    · rfl
  obtain ⟨b, hb⟩ : ∃ b, a.superseding g.env sess = some b := by
    simp only [Actor.superseding, hi, Option.bind_some, hfree, Bool.false_eq_true, if_false]
    exact ⟨_, rfl⟩
  have hlater := (Actor.superseding_later hb).1
  have hslow : b.rapid g.env sess.agentID = false := by
    have hnow := hclock hlater.calls
    rw [Bool.eq_false_iff, Ne, Actor.rapid_iff (t := t) (by rw [hlater.damp_eq, ht])]
    omega
  constructor
  · exact ⟨_, congrArg Prod.fst (Actor.admitSession_superseding hb)⟩
  · simp only [Actor.damp_admitSession, hb, Actor.damp_noteSupersede, if_true, hslow]
    rfl

end Gateway

/-- Isolated supersedes are not dampened, but a contest does not back off: two seconds of penalty
make the next supersede an isolated one. So the penalty falls at the fourth supersede at the latest,
and no run reaches the cap. -/
theorem supersede_backs_off_iff (g : Gateway) (hclock : Monotone g.env.now) (store : AgentStore)
    (cmds contest : List Command) (agentID : String) :
    let st := g.run (GatewayState.start store) cmds
    (∀ sess : AgentSession, Gateway.Isolated g.env st.actor sess →
      (∃ gen, (st.actor.admitSession g.env sess).1 = .ok gen) ∧
        ((st.actor.admitSession g.env sess).2.damp sess.agentID).penalty = 0) ∧
    (∀ p ∈ g.penalties agentID st contest, p < capPenalty) ∧
    (g.Contest agentID st contest →
      (st.actor.damp agentID = ⟨none, 0⟩ →
        (Gateway.BacksOff (g.penalties agentID st contest) ↔
          (g.penalties agentID st contest).length ≤ 3)) ∧
      (4 ≤ (g.penalties agentID st contest).length →
        ¬Gateway.BacksOff (g.penalties agentID st contest))) := by
  intro st
  have hlevels : Gateway.Levels st := Gateway.run_levels hclock (Gateway.start_levels store) cmds
  refine ⟨fun sess h => Gateway.isolated_admitted hclock h, ?_, ?_⟩
  · intro p hp
    rcases Gateway.penalties_level hclock hlevels contest p hp with rfl | rfl | rfl <;> decide
  · intro hc
    have hps := Gateway.penalties_contest hclock hlevels hc
    constructor
    · intro hfresh
      rw [hfresh] at hps
      rw [hps, List.length_iterate]
      exact Gateway.backsOff_iff _
    · intro hlong
      rw [hps]
      refine Gateway.iterate_backsOff _ ?_ _ hlong
      unfold Gateway.nextPenalty
      split
      · rcases hlevels agentID with hp | hp | hp <;> rw [hp] <;> decide
      · exact .inl rfl

/-- A gateway whose clock moves on by so many nanoseconds from one reading to the next. -/
def tickingGateway (ns : Nat) : Gateway :=
  { idleGateway with env := { idleEnv with now := fun n => n * ns } }

theorem tickingGateway_clock (ns : Nat) : Monotone (tickingGateway ns).env.now := by
  intro m n h
  exact Int.mul_le_mul_of_nonneg_right (Int.ofNat_le.2 h) (Int.natCast_nonneg ns)

/-- Machines with one agent id that try to get in again and again. -/
def volley (n : Nat) : List Command :=
  (List.range n).map fun k => .admitSession (.plain k "a")

theorem supersede_backs_off_iff_volley :
    Monotone (tickingGateway 500000000).env.now ∧ Monotone (tickingGateway 2000000000).env.now ∧
    Gateway.BacksOff ((tickingGateway 500000000).penalties "a"
      (GatewayState.start AgentStore.empty) (volley 5)) ∧
    ¬Gateway.BacksOff ((tickingGateway 500000000).penalties "a"
      (GatewayState.start AgentStore.empty) (volley 22)) ∧
    (((tickingGateway 2000000000).exec ((tickingGateway 2000000000).run
      (GatewayState.start AgentStore.empty) (volley 2)) (.admitSession (.plain 2 "a"))).actor.damp
        "a").penalty = 0 := by
  have hfast := tickingGateway_clock 500000000
  have hslow := tickingGateway_clock 2000000000
  obtain ⟨-, -, hshort⟩ := supersede_backs_off_iff _ hfast AgentStore.empty [] (volley 5) "a"
  obtain ⟨-, -, hlong⟩ := supersede_backs_off_iff _ hfast AgentStore.empty [] (volley 22) "a"
  obtain ⟨halone, -, -⟩ := supersede_backs_off_iff _ hslow AgentStore.empty (volley 2) [] "a"
  refine ⟨hfast, hslow, ((hshort (by decide +kernel)).1 rfl).2 (by decide +kernel),
    (hlong (by decide +kernel)).2 (by decide +kernel), ?_⟩
  exact (halone (.plain 2 "a") ⟨by decide +kernel, 0, by decide +kernel⟩).2

/-- Twenty-two attempts at half a second from reading to reading are a sustained contest of nine
supersedes, whose penalties go 0, 1 s, 2 s three times over. -/
theorem contest_starts_over :
    (tickingGateway 500000000).Contest "a" (GatewayState.start AgentStore.empty) (volley 22) ∧
      (tickingGateway 500000000).penalties "a" (GatewayState.start AgentStore.empty) (volley 22) =
        [0, basePenalty, 2 * basePenalty, 0, basePenalty, 2 * basePenalty, 0, basePenalty,
          2 * basePenalty] ∧
      ¬Gateway.BacksOff ((tickingGateway 500000000).penalties "a"
        (GatewayState.start AgentStore.empty) (volley 22)) := by
  decide +kernel

end ProxyForward

import ProxyForward.HeartbeatSteady

namespace ProxyForward.Heartbeat
open Runs
set_option autoImplicit true

/-! From every state time can go on for as long as one likes: what is due can be done in the
meantime. -/

/-- A ping is answered once. -/
def Msg.weight : Msg → Nat
  | .ping _ _ => 2
  | _ => 1

/-- What a side may still do at this time: end, and send the ping that is due. -/
def Session.weight (me : Session) (now : Int) : Nat :=
  (if me.phase = .ended then 0 else 4) + if me.phase = .serving ∧ me.due ≤ now then 3 else 0

namespace State

def weightAt (s : State) (role : Role) : Nat :=
  (s.session role).weight s.now + ((s.toward role).map fun f => f.msg.weight).sum

def weight (s : State) : Nat := s.weightAt .agent + s.weightAt .gateway

/-- Nothing is under way, and no timer is due. -/
structure Quiet (s : State) : Prop where
  toward : ∀ role, s.toward role = []
  early : ∀ role, (s.session role).phase ≠ .ended →
    s.now < (s.session role).readSince + (s.session role).timeout role
  due : ∀ role, (s.session role).phase = .serving → s.now < (s.session role).due

variable {s : State} {role : Role}

theorem weight_eq (s : State) (role : Role) :
    s.weight = s.weightAt role + s.weightAt role.peer := by
  cases role with
  | agent => rfl
  | gateway => exact Nat.add_comm _ _

theorem weight_set (s : State) (role : Role) (me : Session) :
    (s.set role me).weight + (s.session role).weight s.now = s.weight + me.weight s.now := by
  have hself : (s.set role me).weightAt role + (s.session role).weight s.now =
      s.weightAt role + me.weight s.now := by
    unfold weightAt
    rw [set_session_self]
    simp only [set]
    omega
  have hpeer : (s.set role me).weightAt role.peer = s.weightAt role.peer := by
    unfold weightAt
    rw [set_session_peer]
    rfl
  rw [weight_eq _ role, weight_eq s role, hpeer]
  omega

theorem weight_drop (hin : s.toward role = f :: rest) :
    (s.drop role rest).weight + f.msg.weight = s.weight := by
  have hself : (s.drop role rest).weightAt role + f.msg.weight = s.weightAt role := by
    unfold weightAt
    rw [drop_toward_self, hin, List.map_cons, List.sum_cons]
    simp only [drop]
    omega
  have hpeer : (s.drop role rest).weightAt role.peer = s.weightAt role.peer := by
    unfold weightAt
    rw [drop_toward_peer]
    rfl
  rw [weight_eq _ role, weight_eq s role, hpeer]
  omega

theorem weight_send_le (s : State) (role : Role) (msg : Msg) :
    (s.send role msg).weight ≤ s.weight + msg.weight := by
  cases hcut : s.cutAt role with
  | some c =>
    rw [send_toward_cut hcut]
    exact Nat.le_add_right _ _
  | none =>
    have hself : (s.send role msg).weightAt role = s.weightAt role + msg.weight := by
      unfold weightAt
      rw [send_toward hcut, send_session, send_now, List.map_append, List.sum_append]
      simp only [List.map_cons, List.map_nil, List.sum_cons, List.sum_nil]
      omega
    have hpeer : (s.send role msg).weightAt role.peer = s.weightAt role.peer := by
      unfold weightAt
      rw [send_toward_of_ne role.peer_ne, send_session, send_now]
    rw [weight_eq _ role, weight_eq s role, hself, hpeer]
    omega

theorem close_now (s : State) (role : Role) : (s.close role).now = s.now := send_now

theorem weight_close_lt (halive : (s.session role).phase ≠ .ended) :
    (s.close role).weight < s.weight := by
  have hsend := weight_send_le (s.set role { s.session role with phase := .ended }) role.peer
    .closed
  have hset := weight_set s role { s.session role with phase := .ended }
  have hbefore : 4 ≤ (s.session role).weight s.now := by
    rw [Session.weight, if_neg halive]
    exact Nat.le_add_right _ _
  have hafter : Session.weight { s.session role with phase := .ended } s.now = 0 := rfl
  have hclosed : Msg.weight .closed = 1 := rfl
  rw [close]
  omega

theorem weight_tick_lt (hme : (s.session role).phase = .serving)
    (hdue : (s.session role).due ≤ s.now) (visit : List Nat) (seq : Nat) :
    ((s.set role ((s.session role).onTick s.now visit)).send role.peer (.ping seq s.now)).weight <
      s.weight := by
  have hsend := weight_send_le (s.set role ((s.session role).onTick s.now visit)) role.peer
    (.ping seq s.now)
  have hset := weight_set s role ((s.session role).onTick s.now visit)
  have hne : ¬Phase.serving = .ended := by decide
  have hbefore : (s.session role).weight s.now = 7 := by
    rw [Session.weight, hme, if_neg hne, if_pos ⟨rfl, hdue⟩]
  have hafter : ((s.session role).onTick s.now visit).weight s.now = 4 := by
    have hnext := (Session.nextTick_bounds (s.session role).due s.now).1
    rw [Session.weight]
    simp only [Session.onTick, hme]
    rw [if_neg hne, if_neg fun h => absurd h.2 (not_le.2 hnext)]
  have hping : Msg.weight (.ping seq s.now) = 2 := rfl
  omega

theorem weight_handle_lt (s : State) (role : Role) (msg : Msg) :
    (s.handle role msg).now = s.now ∧ (s.handle role msg).weight < s.weight + msg.weight := by
  have hmsg : 0 < msg.weight := by
    unfold Msg.weight
    split <;> decide
  have hset (me : Session) (hme : me.weight s.now = (s.session role).weight s.now) :
      (s.set role me).weight = s.weight := by
    have hweight := weight_set s role me
    omega
  have halive (h : (s.session role).phase ≠ .ended) := weight_close_lt h
  have hheard : (s.set role (s.heard role)).weight = s.weight := hset (s.heard role) rfl
  unfold handle
  split
  · exact ⟨rfl, by omega⟩
  · rename_i hphase
    have hserve : (s.set role ((s.session role).serve s.now)).weight = s.weight := by
      have hpos := pingInterval_pos
      refine hset _ ?_
      simp only [Session.weight, Session.serve, hphase, reduceCtorEq, false_and, if_false]
      rw [if_neg fun h => absurd h.2 (by omega)]
    exact ⟨rfl, by omega⟩
  · rename_i hphase _
    have hclose := halive (hphase ▸ Phase.noConfusion)
    exact ⟨close_now s role, by omega⟩
  · rename_i hphase
    have hclose := halive (hphase ▸ Phase.noConfusion)
    exact ⟨close_now s role, by omega⟩
  · rename_i seq sent hphase
    have hsend := weight_send_le (s.set role (s.heard role)) role.peer (.pong seq sent)
    have hpong : Msg.weight (.pong seq sent) = 1 := rfl
    have hping : Msg.weight (.ping seq sent) = 2 := rfl
    exact ⟨send_now, by omega⟩
  · rename_i seq sent hphase
    have hpong : (s.set role ((s.heard role).onPong s.now seq sent)).weight = s.weight :=
      hset ((s.heard role).onPong s.now seq sent) rfl
    exact ⟨rfl, by omega⟩
  · exact ⟨rfl, by omega⟩
  · exact ⟨rfl, by omega⟩

end State

section

variable {slack δ : Int} {s : State}

theorem lighter_of_not_quiet (slack δ : Int) (h : ¬s.Quiet) : ∃ l t, step slack δ s l = some t ∧
    l.disturbs = false ∧ t.now = s.now ∧ t.weight < s.weight := by
  by_cases htoward : ∀ role, s.toward role = []
  · by_cases hdue : ∀ role, (s.session role).phase = .serving → s.now < (s.session role).due
    · have hlate : ∃ role, (s.session role).phase ≠ .ended ∧
          (s.session role).readSince + (s.session role).timeout role ≤ s.now := by
        by_contra hearly
        push Not at hearly
        exact h ⟨htoward, hearly, hdue⟩
      obtain ⟨role, halive, hlate⟩ := hlate
      exact ⟨.expire role, s.close role, if_pos ⟨halive, hlate⟩, rfl, State.close_now s role,
        State.weight_close_lt halive⟩
    · push Not at hdue
      obtain ⟨role, hme, hdue⟩ := hdue
      exact ⟨.tick role (s.session role).quality.outstanding.keys, _,
        if_pos ⟨hme, hdue, .refl _⟩, rfl, State.send_now, State.weight_tick_lt hme hdue _ _⟩
  · push Not at htoward
    obtain ⟨role, hne⟩ := htoward
    obtain ⟨f, rest, hin⟩ := List.exists_cons_of_ne_nil hne
    obtain ⟨hnow, hlt⟩ := State.weight_handle_lt (s.drop role rest) role f.msg
    rw [State.weight_drop hin] at hlt
    exact ⟨.deliver role, (s.drop role rest).handle role f.msg, by rw [step, hin], rfl, hnow, hlt⟩

theorem quiet_reached (slack δ : Int) (s : State) : ∃ steps t, Reaches (step slack δ) s steps t ∧
    (∀ l ∈ steps, l.disturbs = false) ∧ t.now = s.now ∧ t.Quiet := by
  induction hn : s.weight using Nat.strong_induction_on generalizing s with
  | _ n ih =>
    by_cases h : s.Quiet
    · exact ⟨[], s, .nil s, nofun, rfl, h⟩
    · obtain ⟨l, u, hl, hdisturbs, hnow, hlt⟩ := lighter_of_not_quiet slack δ h
      obtain ⟨steps, t, hr, hsteps, hnow', ht⟩ := ih u.weight (hn ▸ hlt) u rfl
      exact ⟨l :: steps, t, .cons hl hr, List.forall_mem_cons.2 ⟨hdisturbs, hsteps⟩,
        hnow'.trans hnow, ht⟩

theorem State.Quiet.wait (h : s.Quiet) (hslack : 0 ≤ slack) :
    step slack δ s (.wait 1) = some { s with now := s.now + 1 } := by
  refine if_pos ⟨by decide, fun role => ⟨fun halive => ?_, fun hme => ?_⟩, fun role f hf => ?_⟩
  · have hearly := h.early role halive
    omega
  · have hdue := h.due role hme
    omega
  · rw [h.toward role] at hf
    exact absurd hf List.not_mem_nil

theorem time_goes_on (hslack : 0 ≤ slack) (s : State) (till : Int) :
    ∃ steps t, Reaches (step slack δ) s steps t ∧ (∀ l ∈ steps, l.disturbs = false) ∧
      till ≤ t.now := by
  induction hn : (till - s.now).toNat generalizing s with
  | zero => exact ⟨[], s, .nil s, nofun, by omega⟩
  | succ n ih =>
    obtain ⟨steps, t, hr, hsteps, hnow, ht⟩ := quiet_reached slack δ s
    obtain ⟨later, u, hlater, hlater', hu⟩ := ih { t with now := t.now + 1 } (by
      simp only
      omega)
    refine ⟨steps ++ .wait 1 :: later, u, hr.append (.cons (ht.wait hslack) hlater), ?_, hu⟩
    exact List.forall_mem_append.2 ⟨hsteps, List.forall_mem_cons.2 ⟨rfl, hlater'⟩⟩

end

end ProxyForward.Heartbeat

import Mathlib.Algebra.Order.Ring.Rat
import Mathlib.Tactic.Linarith
import ProxyForward.Heartbeat

namespace ProxyForward.Heartbeat
open LinkQuality Runs
set_option autoImplicit true

theorem Session.nextTick_bounds (due now : Int) :
    now < nextTick due now ∧ nextTick due now ≤ now + pingInterval := by
  have hpos : 0 < pingInterval := by decide
  have hrest := Int.emod_add_mul_ediv (now - due) pingInterval
  have hnonneg := Int.emod_nonneg (now - due) (ne_of_gt hpos)
  have hlt := Int.emod_lt_of_pos (now - due) hpos
  unfold nextTick
  rw [mul_add, mul_one]
  omega

theorem sweep_of_fresh {q : LinkQuality.Tracker} (h : ∀ k, q.expired now timeout k = false)
    (visit : List Nat) : q.Sweep now timeout visit = q := by
  induction visit with
  | nil => rfl
  | cons seq visit ih =>
    have hkeep : LinkQuality.Tracker.sweep now timeout q seq = q := by
      have hseq := h seq
      unfold Tracker.expired at hseq
      unfold Tracker.sweep
      cases hlookup : q.outstanding.lookup seq with
      | none => rfl
      | some sent =>
        rw [hlookup, Option.any_some, decide_eq_false_iff_not] at hseq
        exact if_neg hseq
    rw [Tracker.Sweep, List.foldl_cons, hkeep]
    exact ih

theorem onPong_lookup (q : LinkQuality.Tracker) (seq : Nat) (rtt : Int) (k : Nat) :
    (q.OnPong seq rtt).outstanding.lookup k =
      if k = seq then none else q.outstanding.lookup k := by
  by_cases hk : k = seq
  · subst hk
    rw [if_pos rfl]
    cases hlookup : q.outstanding.lookup k with
    | none => rw [Tracker.OnPong_none hlookup, hlookup]
    | some sent =>
      rw [Tracker.OnPong_some hlookup]
      change AList.lookup k (Tracker.pushResult _ true).outstanding = none
      rw [Tracker.pushResult_outstanding, AList.lookup_erase]
  · rw [if_neg hk]
    cases hlookup : q.outstanding.lookup seq with
    | none => rw [Tracker.OnPong_none hlookup]
    | some sent =>
      rw [Tracker.OnPong_some hlookup]
      change AList.lookup k (Tracker.pushResult _ true).outstanding = q.outstanding.lookup k
      rw [Tracker.pushResult_outstanding, AList.lookup_erase_ne hk]

/-- What a tracker shows when no round trip took more than `2 * δ` and none failed. -/
structure Calm (δ : Int) (q : LinkQuality.Tracker) : Prop where
  received : ∀ r ∈ q.results, r = true
  jitter : 0 ≤ q.jitter ∧ q.jitter ≤ (2 * δ : Int)
  prevRTT : 0 ≤ q.prevRTT ∧ q.prevRTT ≤ 2 * δ

theorem Calm.onSent (h : Calm δ q) (seq : Nat) (t : Int) : Calm δ (q.OnSent seq t) :=
  ⟨h.received, h.jitter, h.prevRTT⟩

theorem pushResult_received {q : LinkQuality.Tracker} (h : ∀ r ∈ q.results, r = true) :
    ∀ r ∈ (q.pushResult true).results, r = true := by
  intro r hr
  unfold Tracker.pushResult at hr
  split at hr
  · obtain hr | hr := List.mem_append.1 hr
    · exact h r hr
    · exact List.mem_singleton.1 hr
  · obtain hr | hr := List.mem_or_eq_of_mem_set hr
    · exact h r hr
    · exact hr

theorem Calm.onPong (h : Calm δ q) (seq : Nat) (hrtt : 0 ≤ rtt ∧ rtt ≤ 2 * δ) :
    Calm δ (q.OnPong seq rtt) := by
  cases hlookup : q.outstanding.lookup seq with
  | none =>
    rw [Tracker.OnPong_none hlookup]
    exact h
  | some sent =>
    rw [Tracker.OnPong_some hlookup]
    have hpush : ({ q with outstanding := q.outstanding.erase seq }.pushResult true).jitter =
        q.jitter ∧ ({ q with outstanding := q.outstanding.erase seq }.pushResult true).prevRTT =
        q.prevRTT := by
      unfold Tracker.pushResult
      split <;> exact ⟨rfl, rfl⟩
    refine ⟨?_, ?_, hrtt⟩
    · exact pushResult_received (q := { q with outstanding := q.outstanding.erase seq }) h.received
    · obtain ⟨hlow, hhigh⟩ := h.jitter
      obtain ⟨hprev, hprev'⟩ := h.prevRTT
      have hdiff : |rtt - q.prevRTT| ≤ 2 * δ := abs_le.2 ⟨by omega, by omega⟩
      have hdiff' : ((|rtt - q.prevRTT| : Int) : Rat) ≤ (2 * δ : Int) := Int.cast_le.2 hdiff
      have hzero : (0 : Rat) ≤ (|rtt - q.prevRTT| : Int) := Int.cast_nonneg (abs_nonneg _)
      simp only [Tracker.sampleJitter, hpush.1, hpush.2, jitterGain]
      split
      · constructor <;> linarith
      · exact ⟨hlow, hhigh⟩

/-- What a frame says about the times it was sent at, on a link that takes at most `δ`. -/
def Frame.Formed (δ : Int) (f : Frame) : Prop :=
  match f.msg with
  | .ping _ sent => sent = f.sentAt
  | .pong _ sent => sent ≤ f.sentAt ∧ f.sentAt ≤ sent + δ
  | .closed => False
  | _ => True

/-- Every ping outstanding is under way, or its pong is. -/
def Answered (q : LinkQuality.Tracker) (inbox outbox : List Frame) : Prop :=
  ∀ seq t, q.outstanding.lookup seq = some t →
    ⟨t, .ping seq t⟩ ∈ outbox ∨ ∃ u, ⟨u, .pong seq t⟩ ∈ inbox

theorem Answered.mono (h : Answered q inbox outbox) (hin : inbox ⊆ inbox')
    (hout : outbox ⊆ outbox') : Answered q inbox' outbox' := by
  intro seq t hseq
  obtain hping | ⟨u, hpong⟩ := h seq t hseq
  · exact .inl (hout hping)
  · exact .inr ⟨u, hin hpong⟩

theorem Answered.taken (h : Answered q inbox (f :: outbox)) (hf : ∀ seq t, f.msg ≠ .ping seq t) :
    Answered q inbox outbox := by
  intro seq t hseq
  obtain hping | hpong := h seq t hseq
  · obtain rfl | hping := List.mem_cons.1 hping
    · exact absurd rfl (hf seq t)
    · exact .inl hping
  · exact .inr hpong

theorem Answered.read (h : Answered q (f :: inbox) outbox) (hf : ∀ seq t, f.msg ≠ .pong seq t) :
    Answered q inbox outbox := by
  intro seq t hseq
  obtain hping | ⟨u, hpong⟩ := h seq t hseq
  · exact .inl hping
  · obtain rfl | hpong := List.mem_cons.1 hpong
    · exact absurd rfl (hf seq t)
    · exact .inr ⟨u, hpong⟩

/-- One side of an undisturbed session. While nothing is under way to it, the other side is due to
ping soon enough; otherwise the next frame was sent soon enough. -/
structure Steady (slack δ now : Int) (me peer : Session) (inbox outbox : List Frame) : Prop where
  alive : me.phase ≠ .ended
  read : me.readSince ≤ now
  fresh : ∀ f ∈ inbox, f.sentAt ≤ now ∧ now ≤ f.sentAt + δ
  formed : ∀ f ∈ inbox, f.Formed δ
  ticks : me.phase = .serving → me.due ≤ now + pingInterval ∧ now ≤ me.due + slack
  opens : me.phase = .opening → peer.phase = .serving ∧ ∃ t rest,
    inbox = ⟨t, .opening⟩ :: rest ∧ t ≤ peer.readSince ∧ t ≤ me.readSince + δ
  comes : me.phase = .serving → ∀ f rest, inbox = f :: rest →
    f.sentAt ≤ me.readSince + (δ + pingInterval + slack)
  due : me.phase = .serving → inbox = [] → peer.phase = .serving →
    peer.due ≤ me.readSince + (δ + pingInterval)
  answered : Answered me.quality inbox outbox
  calm : Calm δ me.quality
  rtt : me.rttMillis ≤ max 1 ((2 * δ).tdiv millisecond)

section

variable {slack δ now : Int} {me peer : Session} {inbox outbox : List Frame}

theorem pingInterval_pos : 0 < pingInterval := by decide

theorem Steady.reach_nil (h : Steady slack δ now me peer [] outbox)
    (hp : Steady slack δ now peer me outbox []) (hslack : 0 ≤ slack)
    (hme : me.phase = .serving) : now ≤ me.readSince + (δ + pingInterval + slack) := by
  have hpos := pingInterval_pos
  cases hpeer : peer.phase with
  | opening =>
    obtain ⟨-, t, rest, rfl, ht, -⟩ := hp.opens hpeer
    have hfresh := (hp.fresh _ List.mem_cons_self).2
    change now ≤ t + δ at hfresh
    omega
  | serving =>
    have hdue := h.due hme rfl hpeer
    have hticks := (hp.ticks hpeer).2
    omega
  | ended => exact absurd hpeer hp.alive

theorem Steady.reach (h : Steady slack δ now me peer inbox outbox)
    (hp : Steady slack δ now peer me outbox inbox) (hδ : 0 ≤ δ) (hslack : 0 ≤ slack)
    (hme : me.phase = .serving) : now ≤ me.readSince + (2 * δ + pingInterval + slack) := by
  cases inbox with
  | nil =>
    have hnil := h.reach_nil hp hslack hme
    omega
  | cons f rest =>
    have hcomes := h.comes hme f rest rfl
    have hfresh := (h.fresh f List.mem_cons_self).2
    omega

theorem Steady.early (h : Steady slack δ now me peer inbox outbox)
    (hp : Steady slack δ now peer me outbox inbox) (hδ : 0 ≤ δ) (hslack : 0 ≤ slack)
    (hbound : pingInterval + slack + 2 * δ < controlIdleTimeout) (role : Role) :
    now < me.readSince + me.timeout role := by
  unfold Session.timeout
  cases hme : me.phase with
  | opening =>
    obtain ⟨-, t, rest, rfl, -, ht⟩ := h.opens hme
    have hfresh := (h.fresh _ List.mem_cons_self).2
    change now ≤ t + δ at hfresh
    simp only [Role.openTimeout_eq]
    simp only [pingInterval, controlIdleTimeout, second] at *
    omega
  | serving =>
    have hreach := h.reach hp hδ hslack hme
    simp only
    omega
  | ended => exact absurd hme h.alive

theorem Steady.recent (h : Steady slack δ now me peer inbox outbox)
    (hp : Steady slack δ now peer me outbox inbox) (hδ : 0 ≤ δ)
    (hseq : me.quality.outstanding.lookup seq = some t) : now ≤ t + 2 * δ := by
  obtain hping | ⟨u, hpong⟩ := h.answered seq t hseq
  · have hfresh := (hp.fresh _ hping).2
    change now ≤ t + δ at hfresh
    omega
  · have hfresh := (h.fresh _ hpong).2
    have hformed : t ≤ u ∧ u ≤ t + δ := h.formed _ hpong
    change now ≤ u + δ at hfresh
    omega

theorem Steady.sweep (h : Steady slack δ now me peer inbox outbox)
    (hp : Steady slack δ now peer me outbox inbox) (hδ : 0 ≤ δ) (hslack : 0 ≤ slack)
    (hbound : pingInterval + slack + 2 * δ < controlIdleTimeout) (visit : List Nat) :
    me.quality.Sweep now lossTimeout visit = me.quality := by
  refine sweep_of_fresh (fun k => ?_) visit
  unfold Tracker.expired
  cases hlookup : me.quality.outstanding.lookup k with
  | none => rfl
  | some t =>
    have hrecent := h.recent hp hδ hlookup
    rw [Option.any_some, decide_eq_false_iff_not]
    simp only [pingInterval, lossTimeout, controlIdleTimeout, second] at *
    omega

theorem Steady.wait (h : Steady slack δ now me peer inbox outbox) (hd : now ≤ now')
    (hin : me.InTime slack role now') (hfresh : ∀ f ∈ inbox, now' ≤ f.sentAt + δ) :
    Steady slack δ now' me peer inbox outbox where
  alive := h.alive
  read := le_trans h.read hd
  fresh f hf := ⟨le_trans (h.fresh f hf).1 hd, hfresh f hf⟩
  formed := h.formed
  ticks hme := by
    have hdue := (h.ticks hme).1
    exact ⟨by omega, hin.2 hme⟩
  opens := h.opens
  comes := h.comes
  due := h.due
  answered := h.answered
  calm := h.calm
  rtt := h.rtt

theorem Steady.faces (h : Steady slack δ now me peer inbox outbox)
    (hopens : me.phase = .opening → peer'.phase = .serving ∧ peer.readSince ≤ peer'.readSince)
    (hdue : me.phase = .serving → inbox = [] → peer'.phase = .serving →
      peer'.due ≤ me.readSince + (δ + pingInterval))
    (hanswered : Answered me.quality inbox outbox') :
    Steady slack δ now me peer' inbox outbox' where
  alive := h.alive
  read := h.read
  fresh := h.fresh
  formed := h.formed
  ticks := h.ticks
  opens hme := by
    obtain ⟨hserving, hread⟩ := hopens hme
    obtain ⟨-, t, rest, heq, ht, ht'⟩ := h.opens hme
    exact ⟨hserving, t, rest, heq, le_trans ht hread, ht'⟩
  comes := h.comes
  due := hdue
  answered := hanswered
  calm := h.calm
  rtt := h.rtt

theorem Steady.receives (h : Steady slack δ now me peer inbox outbox)
    (hp : Steady slack δ now peer me outbox inbox) (hδ : 0 ≤ δ) (hslack : 0 ≤ slack)
    (hformed : Frame.Formed δ ⟨now, msg⟩) (hphase : peer'.phase = peer.phase)
    (hread : peer.readSince ≤ peer'.readSince)
    (hanswered : Answered me.quality (inbox ++ [⟨now, msg⟩]) outbox') :
    Steady slack δ now me peer' (inbox ++ [⟨now, msg⟩]) outbox' where
  alive := h.alive
  read := h.read
  fresh f hf := by
    obtain hf | hf := List.mem_append.1 hf
    · exact h.fresh f hf
    · obtain rfl := List.mem_singleton.1 hf
      exact ⟨le_refl now, Int.le_add_of_nonneg_right hδ⟩
  formed f hf := by
    obtain hf | hf := List.mem_append.1 hf
    · exact h.formed f hf
    · obtain rfl := List.mem_singleton.1 hf
      exact hformed
  ticks := h.ticks
  opens hme := by
    obtain ⟨hserving, t, rest, rfl, ht, ht'⟩ := h.opens hme
    exact ⟨hphase.trans hserving, t, rest ++ [⟨now, msg⟩], rfl, le_trans ht hread, ht'⟩
  comes hme f rest heq := by
    cases inbox with
    | nil =>
      obtain ⟨rfl, -⟩ := List.cons.inj heq
      exact h.reach_nil hp hslack hme
    | cons f' rest' =>
      obtain ⟨rfl, -⟩ := List.cons.inj heq
      exact h.comes hme f' rest' rfl
  due hme hnil := absurd hnil (List.append_ne_nil_of_right_ne_nil inbox (List.cons_ne_nil _ []))
  answered := hanswered
  calm := h.calm
  rtt := h.rtt

theorem Steady.hears (h : Steady slack δ now me peer (f :: rest) outbox)
    (hp : Steady slack δ now peer me outbox (f :: rest)) (hδ : 0 ≤ δ) (hslack : 0 ≤ slack)
    (hme : me.phase = .serving) (hcalm : Calm δ q)
    (hms : ms ≤ max 1 ((2 * δ).tdiv millisecond)) (hanswered : Answered q rest outbox') :
    Steady slack δ now { me with readSince := now, rttMillis := ms, quality := q } peer rest
      outbox' where
  alive := h.alive
  read := le_refl now
  fresh g hg := h.fresh g (List.mem_cons_of_mem f hg)
  formed g hg := h.formed g (List.mem_cons_of_mem f hg)
  ticks := h.ticks
  opens hopening := Phase.noConfusion (hme.symm.trans hopening)
  comes _ g rest' heq := by
    have hpos := pingInterval_pos
    have hg := (h.fresh g (List.mem_cons_of_mem f (heq ▸ List.mem_cons_self))).1
    simp only
    omega
  due _ _ hpeer := by
    have hdue := (hp.ticks hpeer).1
    simp only
    omega
  answered := hanswered
  calm := hcalm
  rtt := hms

theorem Steady.serves (h : Steady slack δ now me peer (f :: rest) outbox)
    (hp : Steady slack δ now peer me outbox (f :: rest)) (hδ : 0 ≤ δ) (hslack : 0 ≤ slack)
    (hf : f.msg = .opening) : Steady slack δ now (me.serve now) peer rest outbox where
  alive := Phase.noConfusion
  read := le_refl now
  fresh g hg := h.fresh g (List.mem_cons_of_mem f hg)
  formed g hg := h.formed g (List.mem_cons_of_mem f hg)
  ticks _ := by
    have hpos := pingInterval_pos
    simp only [Session.serve]
    omega
  opens hopening := Phase.noConfusion hopening
  comes _ g rest' heq := by
    have hpos := pingInterval_pos
    have hg := (h.fresh g (List.mem_cons_of_mem f (heq ▸ List.mem_cons_self))).1
    simp only [Session.serve]
    omega
  due _ _ hpeer := by
    have hdue := (hp.ticks hpeer).1
    simp only [Session.serve]
    omega
  answered := h.answered.read fun seq t => by
    rw [hf]
    exact Msg.noConfusion
  calm := h.calm
  rtt := h.rtt

theorem Steady.served (h : Steady slack δ now me peer (f :: rest) outbox)
    (hp : Steady slack δ now peer me outbox (f :: rest)) (hme : me.phase = .opening)
    (hf : f.msg = .opening) : Steady slack δ now peer (me.serve now) outbox rest := by
  obtain ⟨hserving, t, rest', heq, ht, -⟩ := h.opens hme
  obtain ⟨rfl, rfl⟩ := List.cons.inj heq
  have hfresh := (h.fresh _ List.mem_cons_self).2
  change now ≤ t + δ at hfresh
  refine hp.faces (fun hopening => Phase.noConfusion (hserving.symm.trans hopening)) ?_ ?_
  · intro _ _ _
    simp only [Session.serve]
    omega
  · refine hp.answered.taken fun seq t => ?_
    exact Msg.noConfusion

theorem Steady.tick (h : Steady slack δ now me peer inbox outbox)
    (hp : Steady slack δ now peer me outbox inbox) (hδ : 0 ≤ δ) (hslack : 0 ≤ slack)
    (hbound : pingInterval + slack + 2 * δ < controlIdleTimeout) (hme : me.phase = .serving)
    (visit : List Nat) : Steady slack δ now (me.onTick now visit) peer inbox
      (outbox ++ [⟨now, .ping (me.pingSeq + 1) now⟩]) where
  alive := h.alive
  read := h.read
  fresh := h.fresh
  formed := h.formed
  ticks _ := by
    obtain ⟨hlow, hhigh⟩ := Session.nextTick_bounds me.due now
    exact ⟨hhigh, by simp only [Session.onTick]; omega⟩
  opens hopening := Phase.noConfusion (hme.symm.trans hopening)
  comes := h.comes
  due := h.due
  answered seq t hseq := by
    simp only [Session.onTick, h.sweep hp hδ hslack hbound, Tracker.OnSent] at hseq
    by_cases hk : seq = me.pingSeq + 1
    · subst hk
      rw [AList.lookup_insert] at hseq
      obtain rfl := Option.some.inj hseq
      exact .inl (List.mem_append_right _ (List.mem_singleton_self _))
    · rw [AList.lookup_insert_ne hk] at hseq
      obtain hping | hpong := h.answered seq t hseq
      · exact .inl (List.mem_append_left _ hping)
      · exact .inr hpong
  calm := by
    simp only [Session.onTick, h.sweep hp hδ hslack hbound]
    exact h.calm.onSent _ _
  rtt := h.rtt

theorem Answered.replied (h : Answered q inbox (f :: outbox)) (hf : f.msg = .ping seq sent)
    (hsent : sent = f.sentAt) : Answered q (inbox ++ [⟨now, .pong seq sent⟩]) outbox := by
  intro seq' t hseq
  obtain hping | ⟨u, hpong⟩ := h seq' t hseq
  · obtain heq | hping := List.mem_cons.1 hping
    · rw [← heq] at hf hsent
      obtain ⟨rfl, rfl⟩ := Msg.ping.inj hf
      exact .inr ⟨now, List.mem_append_right _ (List.mem_singleton_self _)⟩
    · exact .inl hping
  · exact .inr ⟨u, List.mem_append_left _ hpong⟩

theorem Answered.onPong (h : Answered q (f :: inbox) outbox) (hf : f.msg = .pong seq sent)
    (rtt : Int) : Answered (q.OnPong seq rtt) inbox outbox := by
  intro seq' t hseq
  rw [onPong_lookup] at hseq
  by_cases hk : seq' = seq
  · rw [if_pos hk] at hseq
    exact absurd hseq (Option.some_ne_none t).symm
  · rw [if_neg hk] at hseq
    obtain hping | ⟨u, hpong⟩ := h seq' t hseq
    · exact .inl hping
    · obtain heq | hpong := List.mem_cons.1 hpong
      · rw [← heq] at hf
        exact absurd (Msg.pong.inj hf).1 hk
      · exact .inr ⟨u, hpong⟩

end

/-- Both sides of the session are steady, and no link is cut. -/
structure State.Steady (slack δ : Int) (s : State) : Prop where
  uncut : ∀ role, s.cutAt role = none
  sides : ∀ role, Heartbeat.Steady slack δ s.now (s.session role) (s.session role.peer)
    (s.toward role) (s.toward role.peer)

namespace State

variable {slack δ : Int} {s t : State}

theorem Steady.peer (h : s.Steady slack δ) (role : Role) :
    Heartbeat.Steady slack δ s.now (s.session role.peer) (s.session role) (s.toward role.peer)
      (s.toward role) := by
  have hpeer := h.sides role.peer
  rwa [Role.peer_peer] at hpeer

theorem steady_of_sides (role : Role) (huncut : s.cutAt = fun _ => none)
    (h : Heartbeat.Steady slack δ s.now (s.session role) (s.session role.peer) (s.toward role)
      (s.toward role.peer))
    (hp : Heartbeat.Steady slack δ s.now (s.session role.peer) (s.session role)
      (s.toward role.peer) (s.toward role)) : s.Steady slack δ := by
  refine ⟨fun r => congrFun huncut r, role.both h ?_⟩
  rwa [Role.peer_peer]

theorem steady_set (huncut : ∀ r, s.cutAt r = none)
    (h : Heartbeat.Steady slack δ s.now me (s.session role.peer) (s.toward role)
      (s.toward role.peer))
    (hp : Heartbeat.Steady slack δ s.now (s.session role.peer) me (s.toward role.peer)
      (s.toward role)) : (s.set role me).Steady slack δ := by
  refine steady_of_sides role (funext huncut) ?_ ?_
  · rw [set_session_self, set_session_peer]
    exact h
  · rw [set_session_self, set_session_peer]
    exact hp

theorem steady_send (huncut : ∀ r, s.cutAt r = none)
    (h : Heartbeat.Steady slack δ s.now me (s.session role.peer) (s.toward role)
      (s.toward role.peer ++ [⟨s.now, msg⟩]))
    (hp : Heartbeat.Steady slack δ s.now (s.session role.peer) me
      (s.toward role.peer ++ [⟨s.now, msg⟩]) (s.toward role)) :
    ((s.set role me).send role.peer msg).Steady slack δ := by
  have htoward : ((s.set role me).send role.peer msg).toward role.peer =
      s.toward role.peer ++ [⟨s.now, msg⟩] := send_toward (huncut role.peer)
  refine steady_of_sides role ?_ ?_ ?_
  · rw [send_cutAt]
    exact funext huncut
  · rw [send_now, send_session, set_session_self, set_session_peer, send_toward_self, htoward]
    exact h
  · rw [send_now, send_session, set_session_self, set_session_peer, send_toward_self, htoward]
    exact hp

theorem Steady.wait (h : s.Steady slack δ) (hd : 0 ≤ d) (hpatient : Patient slack δ s (s.now + d)) :
    Steady slack δ { s with now := s.now + d } := by
  obtain ⟨hin, hfresh⟩ := hpatient
  exact ⟨h.uncut, fun role =>
    (h.sides role).wait (Int.le_add_of_nonneg_right hd) (hin role) (hfresh role)⟩

theorem Steady.tick (h : s.Steady slack δ) (hδ : 0 ≤ δ) (hslack : 0 ≤ slack)
    (hbound : pingInterval + slack + 2 * δ < controlIdleTimeout)
    (hme : (s.session role).phase = .serving) (visit : List Nat) :
    ((s.set role ((s.session role).onTick s.now visit)).send role.peer
      (.ping ((s.session role).pingSeq + 1) s.now)).Steady slack δ := by
  have hside := h.sides role
  have hpeer := h.peer role
  refine steady_send h.uncut (hside.tick hpeer hδ hslack hbound hme visit) ?_
  refine hpeer.receives hside hδ hslack rfl rfl (le_refl _) ?_
  exact hpeer.answered.mono (List.subset_append_left _ _) (List.Subset.refl _)

theorem Steady.say (h : s.Steady slack δ) (hδ : 0 ≤ δ) (hslack : 0 ≤ slack) (role : Role) :
    (s.send role.peer .other).Steady slack δ := by
  have hside := h.sides role
  have hpeer := h.peer role
  have hself : s.set role (s.session role) = s := by
    rw [set, Function.update_eq_self]
  rw [← hself]
  refine steady_send h.uncut ?_ ?_
  · refine hside.faces (fun hme => ⟨(hside.opens hme).1, le_refl _⟩) hside.due ?_
    exact hside.answered.mono (List.Subset.refl _) (List.subset_append_left _ _)
  · refine hpeer.receives hside hδ hslack trivial rfl (le_refl _) ?_
    exact hpeer.answered.mono (List.subset_append_left _ _) (List.Subset.refl _)

theorem Steady.hear (h : s.Steady slack δ) (hδ : 0 ≤ δ) (hslack : 0 ≤ slack)
    (hin : s.toward role = f :: rest) (hme : (s.session role).phase = .serving)
    (hping : ∀ seq t, f.msg ≠ .ping seq t) (hcalm : Calm δ q)
    (hms : ms ≤ max 1 ((2 * δ).tdiv millisecond))
    (hanswered : Answered q rest (s.toward role.peer)) :
    ((s.drop role rest).set role
      { s.session role with readSince := s.now, rttMillis := ms, quality := q }).Steady
        slack δ := by
  have hside := h.sides role
  have hpeer := h.peer role
  rw [hin] at hside hpeer
  refine steady_set h.uncut ?_ ?_
  · rw [drop_toward_self, drop_toward_peer]
    exact hside.hears hpeer hδ hslack hme hcalm hms hanswered
  · rw [drop_toward_self, drop_toward_peer]
    refine hpeer.faces (fun hopening => ⟨hme, hside.read⟩) hpeer.due ?_
    exact hpeer.answered.taken hping

theorem Steady.deliver (h : s.Steady slack δ) (hδ : 0 ≤ δ) (hslack : 0 ≤ slack)
    (hin : s.toward role = f :: rest) :
    ((s.drop role rest).handle role f.msg).Steady slack δ := by
  have hside := h.sides role
  have hpeer := h.peer role
  rw [hin] at hside hpeer
  have hformed := hside.formed f List.mem_cons_self
  cases hme : (s.session role).phase with
  | ended => exact absurd hme hside.alive
  | opening =>
    obtain ⟨-, t, rest', heq, -, -⟩ := hside.opens hme
    have hf : f.msg = .opening := congrArg Frame.msg (List.cons.inj heq).1
    have hhandle : (s.drop role rest).handle role f.msg =
        (s.drop role rest).set role ((s.session role).serve s.now) := by
      unfold handle
      rw [hf, show ((s.drop role rest).session role).phase = .opening from hme]
      rfl
    rw [hhandle]
    refine steady_set h.uncut ?_ ?_
    · rw [drop_toward_self, drop_toward_peer]
      exact hside.serves hpeer hδ hslack hf
    · rw [drop_toward_self, drop_toward_peer]
      exact hside.served hpeer hme hf
  | serving =>
    have hphase : ((s.drop role rest).session role).phase = .serving := hme
    unfold Frame.Formed at hformed
    unfold handle
    cases hmsg : f.msg with
    | closed =>
      rw [hmsg] at hformed
      exact hformed.elim
    | opening =>
      rw [hphase]
      refine h.hear hδ hslack hin hme ?_ hside.calm hside.rtt (hside.answered.read ?_)
      all_goals
        intro seq t
        rw [hmsg]
        exact Msg.noConfusion
    | other =>
      rw [hphase]
      refine h.hear hδ hslack hin hme ?_ hside.calm hside.rtt (hside.answered.read ?_)
      all_goals
        intro seq t
        rw [hmsg]
        exact Msg.noConfusion
    | pong seq sent =>
      rw [hphase]
      rw [hmsg] at hformed
      have hfresh := hside.fresh f List.mem_cons_self
      have htrip : 0 ≤ s.now - sent ∧ s.now - sent ≤ 2 * δ := ⟨by omega, by omega⟩
      refine h.hear hδ hslack hin hme ?_ (hside.calm.onPong seq htrip) ?_
        (hside.answered.onPong hmsg _)
      · intro seq' t
        rw [hmsg]
        exact Msg.noConfusion
      · exact max_le_max le_rfl (Int.tdiv_le_tdiv (by decide) htrip.2)
    | ping seq sent =>
      rw [hphase]
      rw [hmsg] at hformed
      have hfresh := hside.fresh f List.mem_cons_self
      refine steady_send h.uncut ?_ ?_
      · rw [drop_toward_self, drop_toward_peer]
        refine hside.hears hpeer hδ hslack hme hside.calm hside.rtt ?_
        refine (hside.answered.read ?_).mono (List.Subset.refl _) (List.subset_append_left _ _)
        intro seq' t
        rw [hmsg]
        exact Msg.noConfusion
      · rw [drop_toward_self, drop_toward_peer]
        refine (hpeer.receives hside hδ hslack ?_ rfl hside.read
          (hpeer.answered.replied hmsg hformed))
        exact ⟨hformed ▸ hfresh.1, hformed ▸ hfresh.2⟩

theorem Steady.step (h : s.Steady slack δ) (hδ : 0 ≤ δ) (hslack : 0 ≤ slack)
    (hbound : pingInterval + slack + 2 * δ < controlIdleTimeout)
    (hs : step slack δ s l = some t) (hl : l.disturbs = false) : t.Steady slack δ := by
  cases l with
  | wait d =>
    obtain ⟨⟨hd, hpatient⟩, ht⟩ := Option.ite_none_right_eq_some.1 hs
    rw [← Option.some.inj ht]
    exact h.wait hd hpatient
  | tick role visit =>
    obtain ⟨⟨hme, -, -⟩, ht⟩ := Option.ite_none_right_eq_some.1 hs
    rw [← Option.some.inj ht]
    exact h.tick hδ hslack hbound hme visit
  | say role =>
    obtain ⟨-, ht⟩ := Option.ite_none_right_eq_some.1 hs
    rw [← Option.some.inj ht]
    exact h.say hδ hslack role
  | deliver role =>
    simp only [Heartbeat.step] at hs
    cases hin : s.toward role with
    | nil =>
      rw [hin] at hs
      exact absurd hs (Option.some_ne_none t).symm
    | cons f rest =>
      rw [hin] at hs
      rw [← Option.some.inj hs]
      exact h.deliver hδ hslack hin
  | expire role =>
    -- no deadline passes
    obtain ⟨⟨-, hlate⟩, -⟩ := Option.ite_none_right_eq_some.1 hs
    have hearly := (h.sides role).early (h.peer role) hδ hslack hbound role
    exact absurd hlate (not_le.2 hearly)
  | leave role => exact absurd hl Bool.noConfusion
  | cut role => exact absurd hl Bool.noConfusion

theorem steady_init (hδ : 0 ≤ δ) (hslack : 0 ≤ slack) (hwaited : 0 ≤ waited)
    (hδ' : waited ≤ δ) : (init first waited).Steady slack δ := by
  have hcalm : Calm δ Session.new.quality := by
    refine ⟨fun r hr => absurd hr List.not_mem_nil, ⟨le_refl 0, ?_⟩, le_refl 0, by
      change (0 : Int) ≤ 2 * δ
      omega⟩
    change (0 : Rat) ≤ _
    exact Int.cast_nonneg (by omega)
  have hrtt : Session.new.rttMillis ≤ max 1 ((2 * δ).tdiv millisecond) :=
    le_trans (by decide) (le_max_left _ _)
  have hpos := pingInterval_pos
  refine steady_of_sides first rfl ?_ ?_
  · rw [init_session, init_session_peer, init_toward, init_toward_peer]
    exact {
      alive := Phase.noConfusion
      read := le_refl 0
      fresh := fun f hf => absurd hf List.not_mem_nil
      formed := fun f hf => absurd hf List.not_mem_nil
      ticks := fun _ => by
        simp only [init, Session.serve]
        omega
      opens := fun h => Phase.noConfusion h
      comes := fun _ f rest h => absurd h (List.cons_ne_nil f rest).symm
      due := fun _ _ h => Phase.noConfusion h
      answered := fun seq t h => absurd h (Option.some_ne_none t).symm
      calm := hcalm
      rtt := hrtt }
  · rw [init_session, init_session_peer, init_toward, init_toward_peer]
    exact {
      alive := Phase.noConfusion
      read := by
        simp only [init]
        omega
      fresh := fun f hf => by
        obtain rfl := List.mem_singleton.1 hf
        simp only [init]
        omega
      formed := fun f hf => by
        obtain rfl := List.mem_singleton.1 hf
        trivial
      ticks := fun h => Phase.noConfusion h
      opens := fun _ => by
        refine ⟨rfl, 0, [], rfl, le_refl 0, ?_⟩
        simp only
        omega
      comes := fun h => Phase.noConfusion h
      due := fun h => Phase.noConfusion h
      answered := fun seq t h => absurd h (Option.some_ne_none t).symm
      calm := hcalm
      rtt := hrtt }

/-- A side that holds on to the session, has lost no ping and measures at most two trips. -/
structure Healthy (δ : Int) (s : State) (role : Role) : Prop where
  alive : (s.session role).phase ≠ .ended
  early : s.now < (s.session role).readSince + (s.session role).timeout role
  loss : (s.session role).quality.LossPct ≤ 0
  jitter : (s.session role).quality.jitter ≤ (2 * δ : Int)
  rtt : (s.session role).rttMillis ≤ max 1 ((2 * δ).tdiv millisecond)

end State

theorem Calm.loss (h : Calm δ q) : q.LossPct ≤ 0 := by
  have hlost : q.results.filter (fun r => !r) = [] :=
    List.filter_eq_nil_iff.2 fun r hr => by
      rw [h.received r hr]
      decide
  unfold LinkQuality.Tracker.LossPct ProxyForward.Tracker.LossPct LinkQuality.Tracker.outcomes
  rw [hlost]
  split
  · decide
  · simp

/-- As long as no side leaves and no link is cut, a link that takes at most `δ` each way lets no
deadline pass and no ping count as lost, if a ping interval and two trips fit in the deadline. -/
theorem healthy_of_reaches (hδ : 0 ≤ δ) (hslack : 0 ≤ slack)
    (hbound : pingInterval + slack + 2 * δ < controlIdleTimeout) (hwaited : 0 ≤ waited)
    (hδ' : waited ≤ δ) (hr : Reaches (step slack δ) (.init first waited) steps s)
    (hsteps : ∀ l ∈ steps, l.disturbs = false) (role : Role) : s.Healthy δ role := by
  have hsteady : s.Steady slack δ :=
    hr.invariant_of_along (C := fun _ l => l.disturbs = false)
      (fun _ _ _ h hl hs => h.step hδ hslack hbound hs hl)
      (State.steady_init hδ hslack hwaited hδ')
      (along_of_forall hsteps _)
  have hside := hsteady.sides role
  exact {
    alive := hside.alive
    early := hside.early (hsteady.peer role) hδ hslack hbound role
    loss := hside.calm.loss
    jitter := hside.calm.jitter.2
    rtt := hside.rtt }

/-- Two heartbeats on a link that takes a second each way. -/
theorem healthy_two_heartbeats :
    let steps := [.wait second, .deliver .agent, .wait (4 * second), .tick .gateway [],
      .wait second, .deliver .agent, .tick .agent [], .wait second, .deliver .gateway,
      .deliver .gateway, .wait second, .deliver .agent]
    ∃ s, Reaches (step 0 second) (.init .gateway second) steps s ∧
      ∀ role, s.Healthy second role := by
  intro steps
  obtain ⟨s, hs⟩ := Option.isSome_iff_exists.1
    (by decide +kernel : (final (step 0 second) (.init .gateway second) steps).isSome = true)
  have hr := reaches_of_final hs
  exact ⟨s, hr, healthy_of_reaches (by decide) (by decide) (by decide) (by decide) (by decide) hr
    (by decide)⟩

end ProxyForward.Heartbeat

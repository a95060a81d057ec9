import ProxyForward.Heartbeat

namespace ProxyForward.Heartbeat
open Runs
set_option autoImplicit true

theorem timeout_le (me : Session) (role : Role) : me.timeout role ≤ controlIdleTimeout := by
  unfold Session.timeout
  split
  · rw [Role.openTimeout_eq]
    decide
  · exact le_refl _

/-- One side of any session. One that is cut off has read nothing since, and what it still says to
the other was said before its deadline. -/
structure OnTime (slack δ : Int) (s : State) (role : Role) : Prop where
  intime : (s.session role).phase ≠ .ended → (s.session role).readSince ≤ s.now ∧
    s.now ≤ (s.session role).readSince + (s.session role).timeout role + slack
  fresh : ∀ f ∈ s.toward role, f.sentAt ≤ s.now ∧ s.now ≤ f.sentAt + δ
  cutoff : ∀ c, s.cutAt role = some c → s.toward role = [] ∧ c ≤ s.now ∧
    ((s.session role).phase ≠ .ended → (s.session role).readSince ≤ c)
  late : ∀ c, s.cutAt role = some c → ∀ f ∈ s.toward role.peer, f.msg = .closed →
    f.sentAt ≤ c + (controlIdleTimeout + slack)

/-- A side that has ended has told the other, unless that one is cut off. -/
def Told (s : State) (role : Role) : Prop :=
  (s.session role).phase = .ended → s.cutAt role.peer = none →
    (s.session role.peer).phase ≠ .ended → ∃ f ∈ s.toward role.peer, f.msg = .closed

section

variable {slack δ : Int} {s : State} {role : Role}

theorem OnTime.deadline (h : OnTime slack δ s role) (hc : s.cutAt role = some c)
    (halive : (s.session role).phase ≠ .ended) : s.now ≤ c + (controlIdleTimeout + slack) := by
  have hin := (h.intime halive).2
  have hread := (h.cutoff c hc).2.2 halive
  have hle := timeout_le (s.session role) role
  omega

theorem onTime_drop (h : ∀ r, OnTime slack δ s r) (hin : s.toward role = f :: rest) :
    ∀ r, OnTime slack δ (s.drop role rest) r := by
  have hsub : ∀ g ∈ rest, g ∈ s.toward role := fun g hg => by
    rw [hin]
    exact List.mem_cons_of_mem f hg
  refine role.both ?_ ?_
  · refine ⟨(h role).intime, ?_, fun c hc => ?_, ?_⟩
    · rw [State.drop_toward_self]
      exact fun g hg => (h role).fresh g (hsub g hg)
    · exact absurd (hin.symm.trans ((h role).cutoff c hc).1) (List.cons_ne_nil f rest)
    · rw [State.drop_toward_peer]
      exact (h role).late
  · refine ⟨(h role.peer).intime, ?_, ?_, fun c hc => ?_⟩
    · rw [State.drop_toward_peer]
      exact (h role.peer).fresh
    · rw [State.drop_toward_peer]
      exact (h role.peer).cutoff
    · rw [Role.peer_peer, State.drop_toward_self]
      intro g hg
      exact (h role.peer).late c hc g (by
        rw [Role.peer_peer]
        exact hsub g hg)

theorem onTime_set (h : ∀ r, OnTime slack δ s r)
    (hin : me.phase ≠ .ended → me.readSince ≤ s.now ∧
      s.now ≤ me.readSince + me.timeout role + slack)
    (hcut : ∀ c, s.cutAt role = some c → me.phase ≠ .ended → me.readSince ≤ c) :
    ∀ r, OnTime slack δ (s.set role me) r := by
  refine role.both ?_ ?_
  · refine ⟨?_, (h role).fresh, fun c hc => ?_, (h role).late⟩
    · rw [State.set_session_self]
      exact hin
    · obtain ⟨hnil, hle, -⟩ := (h role).cutoff c hc
      rw [State.set_session_self]
      exact ⟨hnil, hle, hcut c hc⟩
  · refine ⟨?_, (h role.peer).fresh, ?_, (h role.peer).late⟩
    · rw [State.set_session_peer]
      exact (h role.peer).intime
    · rw [State.set_session_peer]
      exact (h role.peer).cutoff

theorem onTime_send (h : ∀ r, OnTime slack δ s r) (hδ : 0 ≤ δ)
    (hclosed : msg = .closed → ∀ c, s.cutAt role = some c →
      s.now ≤ c + (controlIdleTimeout + slack)) :
    ∀ r, OnTime slack δ (s.send role.peer msg) r := by
  cases hpeer : s.cutAt role.peer with
  | some c =>
    rw [State.send_toward_cut hpeer]
    exact h
  | none =>
    have htoward : (s.send role.peer msg).toward role.peer =
        s.toward role.peer ++ [⟨s.now, msg⟩] := State.send_toward hpeer
    refine role.both ?_ ?_
    · refine ⟨?_, ?_, ?_, ?_⟩
      · rw [State.send_session, State.send_now]
        exact (h role).intime
      · rw [State.send_toward_self, State.send_now]
        exact (h role).fresh
      · rw [State.send_toward_self, State.send_cutAt, State.send_session, State.send_now]
        exact (h role).cutoff
      · rw [State.send_cutAt, htoward]
        intro c hc f hf hmsg
        obtain hf | hf := List.mem_append.1 hf
        · exact (h role).late c hc f hf hmsg
        · obtain rfl := List.mem_singleton.1 hf
          exact hclosed hmsg c hc
    · refine ⟨?_, ?_, ?_, ?_⟩
      · rw [State.send_session, State.send_now]
        exact (h role.peer).intime
      · rw [htoward, State.send_now]
        intro f hf
        obtain hf | hf := List.mem_append.1 hf
        · exact (h role.peer).fresh f hf
        · obtain rfl := List.mem_singleton.1 hf
          exact ⟨le_refl _, Int.le_add_of_nonneg_right hδ⟩
      · rw [State.send_cutAt, hpeer]
        exact fun c hc => absurd hc (Option.some_ne_none c).symm
      · rw [State.send_cutAt, hpeer]
        exact fun c hc => absurd hc (Option.some_ne_none c).symm

theorem onTime_close (h : ∀ r, OnTime slack δ s r) (hδ : 0 ≤ δ)
    (halive : (s.session role).phase ≠ .ended) : ∀ r, OnTime slack δ (s.close role) r := by
  refine onTime_send (onTime_set h ?_ ?_) hδ fun _ c hc => (h role).deadline hc halive
  · exact fun hne => absurd rfl hne
  · exact fun _ _ hne => absurd rfl hne

theorem Told.send (h : Told s r) (role : Role) (msg : Msg) : Told (s.send role msg) r := by
  unfold Told
  rw [State.send_session, State.send_cutAt]
  intro hended hcut hpeer
  obtain ⟨f, hf, hmsg⟩ := h hended hcut hpeer
  refine ⟨f, ?_, hmsg⟩
  cases hrole : s.cutAt role with
  | some c =>
    rw [State.send_toward_cut hrole]
    exact hf
  | none =>
    by_cases heq : r.peer = role
    · rw [heq] at hf ⊢
      rw [State.send_toward hrole]
      exact List.mem_append_left _ hf
    · rw [State.send_toward_of_ne heq]
      exact hf

theorem told_set (h : ∀ r, Told s r) (hme : me.phase ≠ .ended)
    (hs : (s.session role).phase ≠ .ended) : ∀ r, Told (s.set role me) r := by
  refine role.both ?_ ?_
  · intro hended
    rw [State.set_session_self] at hended
    exact absurd hended hme
  · intro hended hcut _
    rw [State.set_session_peer] at hended
    exact h role.peer hended hcut (by rwa [Role.peer_peer])

theorem told_close (s : State) (role : Role) : ∀ r, Told (s.close role) r := by
  have hphase : ((s.close role).session role).phase = .ended := by
    rw [State.close, State.send_session, State.set_session_self]
  refine role.both ?_ ?_
  · intro _ hcut _
    rw [State.close, State.send_cutAt] at hcut
    refine ⟨⟨s.now, .closed⟩, ?_, rfl⟩
    rw [State.close, State.send_toward hcut]
    exact List.mem_append_right _ (List.mem_singleton_self _)
  · intro _ _ hne
    rw [Role.peer_peer] at hne
    exact absurd hphase hne

theorem told_drop (h : ∀ r, Told s r) (hin : s.toward role = f :: rest)
    (hf : f.msg = .closed → (s.session role).phase = .ended) :
    ∀ r, Told (s.drop role rest) r := by
  refine role.both ?_ ?_
  · intro hended hcut hpeer
    rw [State.drop_toward_peer]
    exact h role hended hcut hpeer
  · intro hended hcut hpeer
    obtain ⟨g, hg, hmsg⟩ := h role.peer hended hcut hpeer
    rw [Role.peer_peer] at hg ⊢
    rw [State.drop_toward_self]
    rw [hin] at hg
    obtain rfl | hg := List.mem_cons.1 hg
    · rw [Role.peer_peer] at hpeer
      exact absurd (hf hmsg) hpeer
    · exact ⟨g, hg, hmsg⟩

end

theorem timeout_nonneg (me : Session) (role : Role) : 0 ≤ me.timeout role := by
  unfold Session.timeout
  split
  · rw [Role.openTimeout_eq]
    decide
  · decide

/-- Both sides are on time and tell the other of their end. -/
structure Kept (slack δ : Int) (s : State) : Prop where
  onTime : ∀ role, OnTime slack δ s role
  told : ∀ role, Told s role

namespace Kept

variable {slack δ : Int} {s t : State} {role : Role}

theorem send (h : Kept slack δ s) (hδ : 0 ≤ δ) (role : Role) (hmsg : msg ≠ .closed) :
    Kept slack δ (s.send role.peer msg) :=
  ⟨onTime_send h.onTime hδ fun hclosed => absurd hclosed hmsg, fun r => (h.told r).send _ _⟩

theorem close (h : Kept slack δ s) (hδ : 0 ≤ δ) (halive : (s.session role).phase ≠ .ended) :
    Kept slack δ (s.close role) :=
  ⟨onTime_close h.onTime hδ halive, told_close s role⟩

theorem set (h : Kept slack δ s) (halive : (s.session role).phase ≠ .ended)
    (hme : me.phase ≠ .ended) (hread : me.readSince = (s.session role).readSince)
    (htimeout : me.timeout role = (s.session role).timeout role) :
    Kept slack δ (s.set role me) := by
  refine ⟨onTime_set h.onTime (fun _ => ?_) fun c hc _ => ?_, told_set h.told hme halive⟩
  · rw [hread, htimeout]
    exact (h.onTime role).intime halive
  · rw [hread]
    exact ((h.onTime role).cutoff c hc).2.2 halive

theorem reads (h : Kept slack δ s) (hslack : 0 ≤ slack) (hcut : s.cutAt role = none)
    (halive : (s.session role).phase ≠ .ended) (hme : me.phase ≠ .ended)
    (hread : me.readSince = s.now) : Kept slack δ (s.set role me) := by
  refine ⟨onTime_set h.onTime (fun _ => ?_) fun c hc => ?_, told_set h.told hme halive⟩
  · have hnonneg := timeout_nonneg me role
    omega
  · exact absurd (hcut.symm.trans hc) (Option.some_ne_none c).symm

theorem deliver (h : Kept slack δ s) (hδ : 0 ≤ δ) (hslack : 0 ≤ slack)
    (hin : s.toward role = f :: rest) : Kept slack δ ((s.drop role rest).handle role f.msg) := by
  have hdrop := onTime_drop h.onTime hin
  have hcut : (s.drop role rest).cutAt role = none := by
    cases hc : s.cutAt role with
    | none => exact hc
    | some c =>
      exact absurd (hin.symm.trans ((h.onTime role).cutoff c hc).1) (List.cons_ne_nil f rest)
  have hclose (halive : (s.session role).phase ≠ .ended) :
      Kept slack δ ((s.drop role rest).close role) :=
    ⟨onTime_close hdrop hδ halive, told_close _ role⟩
  have hkept (hf : f.msg = .closed → (s.session role).phase = .ended) :
      Kept slack δ (s.drop role rest) := ⟨hdrop, told_drop h.told hin hf⟩
  unfold State.handle
  cases hphase : (s.session role).phase with
  | ended =>
    have hphase' : ((s.drop role rest).session role).phase = .ended := hphase
    rw [hphase']
    exact hkept fun _ => hphase
  | opening =>
    have hphase' : ((s.drop role rest).session role).phase = .opening := hphase
    have halive : (s.session role).phase ≠ .ended := hphase ▸ Phase.noConfusion
    rw [hphase']
    cases hmsg : f.msg with
    | opening =>
      have hdrop := hkept fun hclosed => Msg.noConfusion (hmsg.symm.trans hclosed)
      exact hdrop.reads hslack hcut halive Phase.noConfusion rfl
    | ping seq sent => exact hclose halive
    | pong seq sent => exact hclose halive
    | other => exact hclose halive
    | closed => exact hclose halive
  | serving =>
    have hphase' : ((s.drop role rest).session role).phase = .serving := hphase
    have halive : (s.session role).phase ≠ .ended := hphase ▸ Phase.noConfusion
    have hheard {msg : Msg} (hmsg : f.msg = msg) (hne : msg ≠ .closed) {me : Session}
        (hme : me.phase = (s.session role).phase) (hread : me.readSince = s.now) :
        Kept slack δ ((s.drop role rest).set role me) := by
      have hdrop := hkept fun hclosed => absurd (hmsg.symm.trans hclosed) hne
      exact hdrop.reads hslack hcut halive (hme ▸ halive) hread
    rw [hphase']
    cases hmsg : f.msg with
    | opening => exact hheard hmsg Msg.noConfusion rfl rfl
    | ping seq sent =>
      have hset : Kept slack δ ((s.drop role rest).set role ((s.drop role rest).heard role)) :=
        hheard hmsg Msg.noConfusion rfl rfl
      refine hset.send hδ role ?_
      exact Msg.noConfusion
    | pong seq sent => exact hheard hmsg Msg.noConfusion rfl rfl
    | other => exact hheard hmsg Msg.noConfusion rfl rfl
    | closed => exact hclose halive

theorem cut (h : Kept slack δ s) (hslack : 0 ≤ slack) (role : Role) : Kept slack δ { s with
    toward := Function.update s.toward role []
    cutAt := Function.update s.cutAt role (some s.now) } := by
  have hnonneg : 0 ≤ controlIdleTimeout := by decide
  refine ⟨role.both ?_ ?_, role.both ?_ ?_⟩
  · have hside := h.onTime role
    refine ⟨hside.intime, ?_, fun c hc => ?_, fun c hc f hf _ => ?_⟩
    · simp only [Function.update_self]
      exact fun f hf => absurd hf List.not_mem_nil
    · simp only [Function.update_self] at hc ⊢
      obtain rfl := Option.some.inj hc
      exact ⟨trivial, le_refl _, fun halive => (hside.intime halive).1⟩
    · simp only [Function.update_self] at hc
      obtain rfl := Option.some.inj hc
      simp only [Function.update_of_ne role.peer_ne] at hf
      have hfresh := ((h.onTime role.peer).fresh f hf).1
      omega
  · have hpeer := h.onTime role.peer
    refine ⟨hpeer.intime, ?_, ?_, fun c _ f hf _ => ?_⟩
    · simp only [Function.update_of_ne role.peer_ne]
      exact hpeer.fresh
    · simp only [Function.update_of_ne role.peer_ne]
      exact hpeer.cutoff
    · simp only [Role.peer_peer, Function.update_self] at hf
      exact absurd hf List.not_mem_nil
  · intro hended hcut hpeer
    simp only [Function.update_of_ne role.peer_ne] at hcut ⊢
    exact h.told role hended hcut hpeer
  · intro _ hcut _
    simp only [Role.peer_peer, Function.update_self] at hcut
    exact absurd hcut (Option.some_ne_none _)

theorem wait (h : Kept slack δ s) (hd : 0 ≤ d) (hpatient : Patient slack δ s (s.now + d)) :
    Kept slack δ { s with now := s.now + d } := by
  obtain ⟨hin, hfresh⟩ := hpatient
  refine ⟨fun role => ?_, h.told⟩
  have hside := h.onTime role
  refine ⟨fun halive => ⟨?_, (hin role).1 halive⟩, fun f hf => ⟨?_, hfresh role f hf⟩,
    fun c hc => ?_, hside.late⟩
  · have hread := (hside.intime halive).1
    simp only
    omega
  · have hsent := (hside.fresh f hf).1
    simp only
    omega
  · obtain ⟨hnil, hle, hread⟩ := hside.cutoff c hc
    exact ⟨hnil, by simp only; omega, hread⟩

theorem step (h : Kept slack δ s) (hδ : 0 ≤ δ) (hslack : 0 ≤ slack)
    (hs : step slack δ s l = some t) : Kept slack δ t := by
  cases l with
  | wait d =>
    obtain ⟨⟨hd, hpatient⟩, ht⟩ := Option.ite_none_right_eq_some.1 hs
    rw [← Option.some.inj ht]
    exact h.wait hd hpatient
  | tick role visit =>
    obtain ⟨⟨hme, -, -⟩, ht⟩ := Option.ite_none_right_eq_some.1 hs
    have halive : (s.session role).phase ≠ .ended := hme ▸ Phase.noConfusion
    rw [← Option.some.inj ht]
    have hset : Kept slack δ (s.set role ((s.session role).onTick s.now visit)) :=
      h.set halive halive rfl rfl
    refine hset.send hδ role ?_
    exact Msg.noConfusion
  | say role =>
    obtain ⟨-, ht⟩ := Option.ite_none_right_eq_some.1 hs
    rw [← Option.some.inj ht]
    exact h.send hδ role fun h => Msg.noConfusion h
  | deliver role =>
    simp only [Heartbeat.step] at hs
    cases hin : s.toward role with
    | nil =>
      rw [hin] at hs
      exact absurd hs (Option.some_ne_none t).symm
    | cons f rest =>
      rw [hin] at hs
      rw [← Option.some.inj hs]
      exact h.deliver hδ hslack hin
  | expire role =>
    obtain ⟨⟨halive, -⟩, ht⟩ := Option.ite_none_right_eq_some.1 hs
    rw [← Option.some.inj ht]
    exact h.close hδ halive
  | leave role =>
    obtain ⟨halive, ht⟩ := Option.ite_none_right_eq_some.1 hs
    rw [← Option.some.inj ht]
    exact h.close hδ halive
  | cut role =>
    obtain ⟨-, ht⟩ := Option.ite_none_right_eq_some.1 hs
    rw [← Option.some.inj ht]
    exact h.cut hslack role

theorem init (first : Role) (hδ : 0 ≤ δ) (hslack : 0 ≤ slack) (hwaited : 0 ≤ waited)
    (hopen : waited ≤ first.peer.openTimeout + slack) : Kept slack δ (.init first waited) := by
  have hidle : 0 ≤ controlIdleTimeout := by decide
  refine ⟨first.both ?_ ?_, first.both ?_ ?_⟩
  · refine ⟨fun _ => ?_, ?_, fun c hc => ?_, fun c hc => ?_⟩
    · rw [State.init_session]
      have hnonneg := timeout_nonneg (Session.new.serve 0) first
      simp only [State.init, Session.serve] at hnonneg ⊢
      omega
    · rw [State.init_toward]
      exact fun f hf => absurd hf List.not_mem_nil
    · exact absurd hc (Option.some_ne_none c).symm
    · exact absurd hc (Option.some_ne_none c).symm
  · refine ⟨fun _ => ?_, ?_, fun c hc => ?_, fun c hc => ?_⟩
    · rw [State.init_session_peer]
      simp only [State.init, Session.timeout, Session.new]
      omega
    · rw [State.init_toward_peer]
      intro f hf
      obtain rfl := List.mem_singleton.1 hf
      simp only [State.init]
      omega
    · exact absurd hc (Option.some_ne_none c).symm
    · exact absurd hc (Option.some_ne_none c).symm
  · intro hended
    rw [State.init_session] at hended
    exact Phase.noConfusion hended
  · intro hended
    rw [State.init_session_peer] at hended
    exact Phase.noConfusion hended

end Kept

/-- When a side has been cut off, it ends by its deadline, and the other as soon as it hears of
that, unless it is cut off itself. -/
theorem ended_of_cut (hδ : 0 ≤ δ) (hslack : 0 ≤ slack) (hwaited : 0 ≤ waited)
    (hopen : waited ≤ first.peer.openTimeout + slack)
    (hr : Reaches (step slack δ) (.init first waited) steps s) (hc : s.cutAt role = some c) :
    (c + (controlIdleTimeout + slack) < s.now → (s.session role).phase = .ended) ∧
      (c + (controlIdleTimeout + slack) + δ < s.now → s.cutAt role.peer = none →
        (s.session role.peer).phase = .ended) := by
  have hkept : Kept slack δ s :=
    hr.invariant (fun _ _ _ h hs => h.step hδ hslack hs) (.init first hδ hslack hwaited hopen)
  have hside := hkept.onTime role
  refine ⟨fun hlate => ?_, fun hlate hcut => ?_⟩
  · by_contra halive
    have hdeadline := hside.deadline hc halive
    omega
  · by_contra hpeer
    by_cases hended : (s.session role).phase = .ended
    · obtain ⟨f, hf, hmsg⟩ := hkept.told role hended hcut hpeer
      have hsent := hside.late c hc f hf hmsg
      have hfresh := ((hkept.onTime role.peer).fresh f hf).2
      omega
    · have hdeadline := hside.deadline hc hended
      omega

/-- The agent stops hearing from the gateway; both have ended when its deadline has passed and the
gateway has heard of it. -/
theorem ended_agent_cut :
    let steps := [.wait second, .deliver .agent, .cut .agent, .wait (4 * second),
      .tick .gateway [], .wait second, .tick .agent [], .deliver .gateway, .wait (4 * second),
      .tick .gateway [1], .wait second, .tick .agent [1], .deliver .gateway, .wait (4 * second),
      .tick .gateway [2, 1], .wait second, .expire .agent, .deliver .gateway, .wait (2 * second)]
    ∃ s, Reaches (step 0 second) (.init .gateway second) steps s ∧
      (s.session .agent).phase = .ended ∧ (s.session .gateway).phase = .ended := by
  intro steps
  obtain ⟨s, hs⟩ := Option.isSome_iff_exists.1
    (by decide +kernel : (final (step 0 second) (.init .gateway second) steps).isSome = true)
  have hfinal : (final (step 0 second) (.init .gateway second) steps).any
      (fun s => s.cutAt .agent = some second ∧ s.cutAt .gateway = none ∧ s.now = 18 * second) =
      true := by decide +kernel
  rw [hs, Option.any_some, decide_eq_true_eq] at hfinal
  obtain ⟨hc, hcut, hnow⟩ := hfinal
  have hr := reaches_of_final hs
  obtain ⟨hagent, hgateway⟩ := ended_of_cut (by decide) (by decide) (by decide) (by decide) hr hc
  refine ⟨s, hr, hagent ?_, hgateway ?_ hcut⟩
  · rw [hnow]
    decide
  · rw [hnow]
    decide

end ProxyForward.Heartbeat

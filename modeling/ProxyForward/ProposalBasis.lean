import ProxyForward.ControlSession

namespace ProxyForward
set_option autoImplicit true

def AgentFrame.ackGen? : AgentFrame → Option Nat
  | .configAck ack => some ack.generation
  | _ => none

/-- The generations that the frames confirm, in order. -/
def ackGens (frames : List AgentFrame) : List Nat := frames.filterMap AgentFrame.ackGen?

/-- Read with the gateway's counter at `a`, the frames hold no proposal of another basis than `gen`
behind a confirmation of `gen`. -/
def Sound (gen : Nat) : Nat → List AgentFrame → Prop
  | _, [] => True
  | a, .proposeConfig _ basis :: fs => (gen ≠ 0 → a = gen → basis = gen) ∧ Sound gen a fs
  | _, .configAck ack :: fs => Sound gen ack.generation fs
  | a, _ :: fs => Sound gen a fs

/-- No proposal comes before the first confirmation. -/
def Unfollowed : List AgentFrame → Prop
  | [] => True
  | .proposeConfig _ _ :: _ => False
  | .configAck _ :: _ => True
  | _ :: fs => Unfollowed fs

instance decidableUnfollowed : (fs : List AgentFrame) → Decidable (Unfollowed fs)
  | [] => .isTrue trivial
  | .proposeConfig _ _ :: _ => .isFalse id
  | .configAck _ :: _ => .isTrue trivial
  | .syncTunnels _ :: fs | .register _ :: fs | .unregister _ :: fs => decidableUnfollowed fs

theorem ackGens_ack (ack : ConfigAck) (fs : List AgentFrame) :
    ackGens (.configAck ack :: fs) = ack.generation :: ackGens fs := rfl

theorem sound_append (gen a : Nat) (fs : List AgentFrame) (f : AgentFrame) :
    Sound gen a (fs ++ [f]) ↔
      Sound gen a fs ∧ Sound gen ((ackGens fs).getLast?.getD a) [f] := by
  induction fs generalizing a with
  | nil => exact (true_and _).to_iff.symm
  | cons f' fs ih =>
    cases f' with
    | proposeConfig tunnels basis =>
      simp only [List.cons_append, Sound, ih, and_assoc]
      rfl
    | configAck ack =>
      rw [List.cons_append, Sound, Sound, ih]
      rw [ackGens_ack, List.getLast?_cons, Option.getD_some]
    | syncTunnels | register | unregister =>
      simp only [List.cons_append, Sound, ih]
      rfl

theorem sound_of_older {fs : List AgentFrame} (ha : a < gen) (hn : ∀ n ∈ ackGens fs, n < gen) :
    Sound gen a fs := by
  induction fs generalizing a with
  | nil => trivial
  | cons f fs ih =>
    cases f with
    | proposeConfig tunnels basis => exact ⟨fun _ he => absurd he ha.ne, ih ha hn⟩
    | configAck ack =>
      rw [ackGens_ack] at hn
      exact ih (hn _ List.mem_cons_self) fun n hmem => hn n (List.mem_cons_of_mem _ hmem)
    | syncTunnels | register | unregister => exact ih ha hn

theorem sound_of_unfollowed {fs : List AgentFrame} (hu : Unfollowed fs)
    (hn : ∀ n ∈ ackGens fs, n < gen) : Sound gen a fs := by
  induction fs with
  | nil => trivial
  | cons f fs ih =>
    cases f with
    | proposeConfig tunnels basis => exact hu.elim
    | configAck ack =>
      rw [ackGens_ack] at hn
      change Sound gen ack.generation fs
      exact sound_of_older (hn _ List.mem_cons_self)
        fun n hmem => hn n (List.mem_cons_of_mem _ hmem)
    | syncTunnels | register | unregister => exact ih hu hn

namespace ControlSession

/-- A proposal whose basis is not the stored generation is refused, and answered with the stored
set. -/
def OwnBasis (g : Gateway) (sess : AgentSession) (s : ControlSession) : SessionStep → Prop
  | .handle written =>
    match s.up with
    | .proposeConfig proposed basis :: _ =>
      sess.enrolled && sess.has capGatewayConfig → ∀ c ∈ s.stored? sess, c.2 ≠ 0 → basis ≠ c.2 →
        let r := g.handleControlMsg s.gateway sess written (.proposeConfig proposed basis)
        r.1 = some (.pushConfig (g.pushOf c.2 c.1)) ∧
          r.2.agents.desiredConfig sess.agentID = some c
    | _ => True
  | _ => True

/-- A proposal is written in time. With no confirmation on its way, the gateway counts the agent at
the stored generation only if the proposal was composed there. Else the newest confirmation on its
way is of the generation it was composed at, or the confirmation of that one is being written. -/
def InTime (sess : AgentSession) (s : ControlSession) : AgentFrame → Prop
  | .proposeConfig _ basis =>
    match (ackGens s.up).getLast? with
    | none => ∀ c ∈ s.stored? sess, c.2 ≠ 0 → s.gateway.agentConfigGen sess = c.2 → basis = c.2
    | some n => basis = n ∨ ∃ ack ∈ s.acking, ack.generation = basis
  | _ => True

/-- Proposals are written in time, and none waits right behind one that is adopted. -/
def WellTimed (sess : AgentSession) (s : ControlSession) : SessionStep → Prop
  | .sendRegistration => ∀ f ∈ (s.registration.getD []).head?, s.InTime sess f
  | .sendEdit => ∀ f ∈ s.editing.head?, s.InTime sess f
  | .handle _ =>
    match s.up with
    | .proposeConfig _ _ :: fs =>
      ∀ c ∈ s.stored? sess, ¬Gateway.staleBasis s.gateway sess c.2 → Unfollowed fs
    | _ => True
  | _ => True

/-- What the oldest frame on its way proposes, if it is a proposal. -/
def proposed? (s : ControlSession) : Option (List TunnelSpec × Nat) :=
  s.up.head?.bind fun
    | .proposeConfig proposed basis => some (proposed, basis)
    | _ => none

theorem wellTimed_handle (sess : AgentSession) (s : ControlSession) (written : Bool) :
    WellTimed sess s (.handle written) ↔ ∀ p ∈ s.proposed?, ∀ c ∈ s.stored? sess,
      ¬Gateway.staleBasis s.gateway sess c.2 → Unfollowed s.up.tail := by
  simp only [WellTimed, proposed?]
  cases s.up with
  | nil => exact iff_of_true trivial fun _ hp => absurd hp (Option.not_mem_none _)
  | cons f fs =>
    cases f with
    | proposeConfig proposed basis => exact ⟨fun h _ _ => h, fun h => h _ rfl⟩
    | _ => exact iff_of_true trivial fun _ hp => absurd hp (Option.not_mem_none _)

theorem ownBasis_handle (g : Gateway) (sess : AgentSession) (s : ControlSession)
    (written : Bool) : OwnBasis g sess s (.handle written) ↔ ∀ p ∈ s.proposed?,
      (sess.enrolled && sess.has capGatewayConfig) = false ∨
      ∀ c ∈ s.stored? sess, c.2 ≠ 0 → p.2 ≠ c.2 →
        let r := g.handleControlMsg s.gateway sess written (.proposeConfig p.1 p.2)
        r.1 = some (.pushConfig (g.pushOf c.2 c.1)) ∧
          r.2.agents.desiredConfig sess.agentID = some c := by
  simp only [OwnBasis, proposed?]
  cases s.up with
  | nil => exact iff_of_true trivial fun _ hp => absurd hp (Option.not_mem_none _)
  | cons f fs =>
    cases f with
    | proposeConfig proposed basis =>
      rw [← Bool.not_eq_true]
      exact imp_iff_not_or.trans ⟨fun h _ hp => Option.some.inj hp ▸ h, fun h => h _ rfl⟩
    | _ => exact iff_of_true trivial fun _ hp => absurd hp (Option.not_mem_none _)

instance (sess : AgentSession) (s : ControlSession) (f : AgentFrame) :
    Decidable (s.InTime sess f) := by
  unfold InTime
  cases f with
  | proposeConfig =>
    simp only
    split <;> infer_instance
  | _ => infer_instance

instance (sess : AgentSession) (s : ControlSession) :
    (l : SessionStep) → Decidable (WellTimed sess s l)
  | .handle written => decidable_of_iff _ (wellTimed_handle sess s written).symm
  | .sendRegistration =>
    inferInstanceAs (Decidable (∀ f ∈ (s.registration.getD []).head?, s.InTime sess f))
  | .sendEdit => inferInstanceAs (Decidable (∀ f ∈ s.editing.head?, s.InTime sess f))
  | .connect | .register | .edit _ | .receive | .sendAck | .command _ => .isTrue trivial

instance (g : Gateway) (sess : AgentSession) (s : ControlSession) :
    (l : SessionStep) → Decidable (OwnBasis g sess s l)
  | .handle written => decidable_of_iff _ (ownBasis_handle g sess s written).symm
  | .connect | .register | .sendRegistration | .edit _ | .sendEdit | .receive | .sendAck
  | .command _ => .isTrue trivial

/-- The generations that the agent confirms or is yet to confirm, from the gateway back to the agent
and on to the pushes on their way. -/
def confirmed (s : ControlSession) : List Nat :=
  ackGens s.up ++ (s.acking.toList.map (·.generation) ++ s.pushes.map (·.generation))

/-- The frames on their way are sound, and generations reach the agent in order. -/
structure BasisInv (sess : AgentSession) (s : ControlSession) : Prop where
  sound : ∀ c ∈ s.stored? sess, Sound c.2 (s.gateway.agentConfigGen sess) s.up
  ordered : s.confirmed.Pairwise (· ≤ ·)
  bounded : ∀ c ∈ s.stored? sess, ∀ n ∈ s.confirmed, n ≤ c.2
  composed : ∀ f ∈ s.registration.getD [] ++ s.editing, f.ackGen? = none

theorem start_basisInv (agent : Agent) (st : GatewayState) (sess : AgentSession) :
    (start agent st sess).BasisInv sess :=
  ⟨fun _ _ => trivial, .nil, nofun, nofun⟩

variable {g : Gateway} {sess : AgentSession} {s t : ControlSession}

theorem BasisInv.congr (h : s.BasisInv sess) (hstored : t.stored? sess = s.stored? sess)
    (hgen : t.gateway.agentConfigGen = s.gateway.agentConfigGen) (hup : t.up = s.up)
    (hconf : t.confirmed = s.confirmed)
    (hcomp : ∀ f ∈ t.registration.getD [] ++ t.editing, f.ackGen? = none) : t.BasisInv sess := by
  refine ⟨?_, hconf ▸ h.ordered, ?_, hcomp⟩
  · rw [hstored, hgen, hup]
    exact h.sound
  · rw [hstored, hconf]
    exact h.bounded

theorem BasisInv.fits (h : s.BasisInv sess) (hf : f.ackGen? = none) (ht : s.InTime sess f) :
    ∀ c ∈ s.stored? sess,
      Sound c.2 ((ackGens s.up).getLast?.getD (s.gateway.agentConfigGen sess)) [f] := by
  intro c hc
  cases f with
  | proposeConfig tunnels basis =>
    refine ⟨fun hne hview => ?_, trivial⟩
    simp only [InTime] at ht
    cases hlast : (ackGens s.up).getLast? with
    | none =>
      rw [hlast] at ht hview
      exact ht c hc hne hview
    | some n =>
      rw [hlast] at ht hview
      rw [Option.getD_some] at hview
      obtain hb | ⟨ack, hack, hb⟩ := ht
      · exact hb.trans hview
      · have hwaits : basis ∈ s.acking.toList.map (·.generation) ++ s.pushes.map (·.generation) :=
          List.mem_append_left _ (List.mem_map.2 ⟨ack, Option.mem_toList.2 hack, hb⟩)
        have hle : n ≤ basis :=
          (List.pairwise_append.1 h.ordered).2.2 n (List.mem_of_getLast? hlast) basis hwaits
        have hge : basis ≤ c.2 := h.bounded c hc basis (List.mem_append_right _ hwaits)
        omega
  | configAck ack => cases hf
  | _ => trivial

theorem BasisInv.send (h : s.BasisInv sess) (hf : f.ackGen? = none) (ht : s.InTime sess f)
    (hgw : t.gateway = s.gateway) (hup : t.up = s.up ++ [f]) (hack : t.acking = s.acking)
    (hdown : t.down = s.down)
    (hcomp : ∀ f ∈ t.registration.getD [] ++ t.editing, f.ackGen? = none) : t.BasisInv sess := by
  have hconf : t.confirmed = s.confirmed := by
    simp only [confirmed, pushes, hup, hack, hdown, ackGens, List.filterMap_append,
      List.filterMap_cons, hf, List.filterMap_nil, List.append_nil]
  refine ⟨?_, hconf ▸ h.ordered, ?_, hcomp⟩
  · intro c hc
    rw [stored?, hgw] at hc
    rw [hgw, hup, sound_append]
    exact ⟨h.sound c hc, h.fits hf ht c hc⟩
  · intro c hc
    rw [stored?, hgw] at hc
    rw [hconf]
    exact h.bounded c hc

theorem BasisInv.push (h : s.BasisInv sess) (push : PushConfig)
    (hs : t.stored? sess = some (specs, push.generation))
    (hle : ∀ n ∈ s.confirmed, n ≤ push.generation)
    (hsound : Sound push.generation (t.gateway.agentConfigGen sess) t.up)
    (hconf : t.confirmed = s.confirmed ++ [push.generation])
    (hcomp : ∀ f ∈ t.registration.getD [] ++ t.editing, f.ackGen? = none) : t.BasisInv sess := by
  refine ⟨?_, ?_, ?_, hcomp⟩
  · intro c hc
    cases Option.some.inj (hs.symm.trans hc)
    exact hsound
  · rw [hconf, List.pairwise_append]
    refine ⟨h.ordered, List.pairwise_singleton _ _, ?_⟩
    intro n hn m hm
    rw [List.mem_singleton.1 hm]
    exact hle n hn
  · intro c hc n hn
    cases Option.some.inj (hs.symm.trans hc)
    rw [hconf, List.mem_append, List.mem_singleton] at hn
    exact hn.elim (hle n) fun he => he.le

theorem confirmed_answer (s : ControlSession) (r : Option GatewayFrame × GatewayState) :
    (s.answer r).confirmed =
      s.confirmed ++ (r.1.bind GatewayFrame.push?).toList.map (·.generation) := by
  rw [confirmed, pushes_answer, List.map_append, confirmed, ← List.append_assoc,
    ← List.append_assoc, ← List.append_assoc]
  rfl

theorem BasisInv.connect (h : s.BasisInv sess) :
    ({ s.answer (g.serveControl s.gateway sess) with serving := true } : ControlSession).BasisInv
      sess := by
  obtain ⟨hagents, hgen, hpush⟩ := Gateway.serveControl_config g s.gateway sess
  have hstored : (s.answer (g.serveControl s.gateway sess)).stored? sess = s.stored? sess :=
    congrArg (·.desiredConfig sess.agentID) hagents
  have hconf := confirmed_answer s (g.serveControl s.gateway sess)
  cases hf : (g.serveControl s.gateway sess).1 with
  | none =>
    rw [hf, Option.bind_none, Option.toList_none, List.map_nil, List.append_nil] at hconf
    exact h.congr hstored hgen rfl hconf h.composed
  | some f =>
    obtain ⟨c, hc, -, rfl⟩ := hpush f hf
    rw [hf] at hconf
    refine h.push (g.pushOf c.2 _) (hstored.trans hc) (h.bounded c hc) ?_ hconf h.composed
    have hsound := h.sound c hc
    rw [← hgen] at hsound
    exact hsound

theorem BasisInv.drop {fs : List AgentFrame} (h : s.BasisInv sess) (hup : s.up = f :: fs)
    (hstored : t.stored? sess = s.stored? sess)
    (hsound : ∀ c ∈ s.stored? sess, Sound c.2 (t.gateway.agentConfigGen sess) fs)
    (htup : t.up = fs) (hack : t.acking = s.acking) (hdown : t.down = s.down)
    (hcomp : ∀ f ∈ t.registration.getD [] ++ t.editing, f.ackGen? = none) : t.BasisInv sess := by
  have hsub : t.confirmed.Sublist s.confirmed := by
    simp only [confirmed, pushes, hup, htup, hack, hdown, ackGens]
    exact ((List.sublist_cons_self f fs).filterMap _).append_right _
  refine ⟨?_, h.ordered.sublist hsub, ?_, hcomp⟩
  · rw [hstored, htup]
    exact hsound
  · rw [hstored]
    exact fun c hc n hn => h.bounded c hc n (hsub.subset hn)

theorem BasisInv.handle_propose (h : s.BasisInv sess)
    (hup : s.up = .proposeConfig proposed basis :: fs)
    (hC : WellTimed sess s (.handle written)) :
    (({ s with up := fs } : ControlSession).answer
        (g.handleControlMsg s.gateway sess written (.proposeConfig proposed basis))).BasisInv sess ∧
      OwnBasis g sess s (.handle written) := by
  let s' : ControlSession := { s with up := fs }
  have hread (c) (hc : c ∈ s.stored? sess) := h.sound c hc
  simp only [hup] at hread
  have hdrop : s'.BasisInv sess :=
    h.drop hup rfl (fun c hc => (hread c hc).2) rfl rfl rfl h.composed
  have hconf := confirmed_answer s'
    (g.handleControlMsg s.gateway sess written (.proposeConfig proposed basis))
  simp only [WellTimed, OwnBasis, hup] at hC ⊢
  obtain ⟨hr, hoff⟩ | ⟨stored, gen, hd, hr⟩ :=
    Gateway.handleControlMsg_propose g s.gateway sess written proposed basis
  · rw [hr] at hconf ⊢
    rw [Option.bind_none, Option.toList_none, List.map_nil, List.append_nil] at hconf
    refine ⟨hdrop.congr rfl rfl rfl hconf h.composed, fun hon c hc => ?_⟩
    rw [stored?, hoff hon] at hc
    cases hc
  obtain ⟨hstale, hr⟩ | ⟨hstale, resolved, hpush, hstore, hcount⟩ := hr
  · rw [hr] at hconf ⊢
    refine ⟨hdrop.push (g.pushOf gen stored) hd (hdrop.bounded _ hd)
      (hdrop.sound _ hd) hconf h.composed, ?_⟩
    rintro - c hc - -
    cases Option.some.inj (hc.symm.trans hd)
    exact ⟨rfl, hd⟩
  · rw [hpush] at hconf
    have hbound := hdrop.bounded _ hd
    refine ⟨hdrop.push (g.pushOf (gen + 1) resolved) hstore
      (fun n hn => (hbound n hn).trans gen.le_succ) ?_ hconf h.composed, ?_⟩
    · refine sound_of_unfollowed (hC _ hd hstale) fun n hn => ?_
      exact Nat.lt_succ_of_le (hbound n (List.mem_append_left _ hn))
    · rintro - c hc hne hbasis
      cases Option.some.inj (hc.symm.trans hd)
      refine absurd ((hread _ hd).1 hne ?_) hbasis
      by_contra hcount'
      exact hstale (decide_eq_true ⟨hne, hcount'⟩)

theorem BasisInv.handle (h : s.BasisInv sess) (hup : s.up = f :: fs)
    (hC : WellTimed sess s (.handle written)) :
    (({ s with up := fs } : ControlSession).answer
        (g.handleControlMsg s.gateway sess written f)).BasisInv sess ∧
      OwnBasis g sess s (.handle written) := by
  let s' : ControlSession := { s with up := fs }
  cases hf : f.isConfig with
  | false =>
    obtain ⟨hagents, hgen, hpush⟩ :=
      Gateway.handleControlMsg_other g s.gateway sess hf written
    have hsound (c) (hc : c ∈ s.stored? sess) := h.sound c hc
    have hdrop : s'.BasisInv sess := by
      refine h.drop hup rfl (fun c hc => ?_) rfl rfl rfl h.composed
      have hread := hsound c hc
      rw [hup] at hread
      cases f with
      | proposeConfig | configAck => cases hf
      | _ => exact hread
    have hconf := confirmed_answer s' (g.handleControlMsg s.gateway sess written f)
    rw [hpush, Option.toList_none, List.map_nil, List.append_nil] at hconf
    have hstored := congrArg (·.desiredConfig sess.agentID) hagents
    refine ⟨hdrop.congr hstored hgen rfl hconf h.composed, ?_⟩
    simp only [OwnBasis, hup]
    cases f with
    | proposeConfig | configAck => cases hf
    | _ => trivial
  | true =>
    cases f with
    | proposeConfig proposed basis => exact h.handle_propose hup hC
    | configAck ack =>
      refine ⟨h.drop hup rfl (fun c hc => ?_) rfl rfl (List.append_nil _) h.composed, ?_⟩
      · have hread := h.sound c hc
        rw [hup] at hread
        have hcount : (Gateway.handleAck s.gateway sess ack).agentConfigGen sess =
            ack.generation := Function.update_self _ _ _
        exact hcount ▸ hread
      · simp only [OwnBasis, hup]
    | _ => cases hf

theorem registerTunnels_kept (s : ControlSession) (sess : AgentSession) :
    (s.registerTunnels sess).gateway = s.gateway ∧ (s.registerTunnels sess).up = s.up ∧
      (s.registerTunnels sess).confirmed = s.confirmed ∧
      (s.registerTunnels sess).editing = s.editing ∧
      ∀ f ∈ (s.registerTunnels sess).registration.getD [], f.ackGen? = none := by
  unfold registerTunnels
  split
  · split
    · exact ⟨rfl, rfl, rfl, rfl, List.forall_mem_singleton.2 rfl⟩
    · exact ⟨rfl, rfl, rfl, rfl, nofun⟩
  · split
    · exact ⟨rfl, rfl, rfl, rfl, List.forall_mem_singleton.2 rfl⟩
    · exact ⟨rfl, rfl, rfl, rfl, List.forall_mem_map.2 fun _ _ => rfl⟩

theorem applyTunnels_kept (s : ControlSession) (sess : AgentSession) (tunnels : List Tunnel) :
    (s.applyTunnels sess tunnels).gateway = s.gateway ∧
      (s.applyTunnels sess tunnels).up = s.up ∧
      (s.applyTunnels sess tunnels).confirmed = s.confirmed ∧
      (s.applyTunnels sess tunnels).registration = s.registration ∧
      ∀ f ∈ (s.applyTunnels sess tunnels).editing, f.ackGen? = none := by
  unfold applyTunnels
  split
  · exact ⟨rfl, rfl, rfl, rfl, List.forall_mem_singleton.2 rfl⟩
  · split
    · exact ⟨rfl, rfl, rfl, rfl, List.forall_mem_singleton.2 rfl⟩
    · refine ⟨rfl, rfl, rfl, rfl, List.forall_mem_append.2 ⟨?_, ?_⟩⟩
      · exact List.forall_mem_map.2 fun _ _ => rfl
      · exact List.forall_mem_map.2 fun _ _ => rfl

theorem confirmed_receive {fs : List GatewayFrame} (hack : s.acking = none)
    (hdown : s.down = f :: fs) :
    (({ s with down := fs } : ControlSession).handleControlMsg f).confirmed = s.confirmed := by
  cases f with
  | pushConfig push =>
    simp only [confirmed, pushes, handleControlMsg, hack, hdown]
    rfl
  | syncResult res =>
    simp only [handleControlMsg]
    split <;>
    · simp only [confirmed, pushes, hdown]
      rfl
  | registerOK | registerErr =>
    simp only [confirmed, pushes, handleControlMsg, hdown]
    rfl

theorem receive_kept (s : ControlSession) (f : GatewayFrame) :
    (s.handleControlMsg f).gateway = s.gateway ∧ (s.handleControlMsg f).up = s.up ∧
      (s.handleControlMsg f).registration = s.registration ∧
      (s.handleControlMsg f).editing = s.editing := by
  cases f with
  | syncResult res =>
    simp only [handleControlMsg]
    split <;> exact ⟨rfl, rfl, rfl, rfl⟩
  | _ => exact ⟨rfl, rfl, rfl, rfl⟩

theorem BasisInv.step {l : SessionStep} (h : s.BasisInv sess) (hC : WellTimed sess s l)
    (ht : s.step g sess l = some t) : t.BasisInv sess ∧ OwnBasis g sess s l := by
  cases moves_of_step ht with
  | connect => exact ⟨h.connect, trivial⟩
  | register =>
    obtain ⟨hgw, hup, hconf, hedit, hreg⟩ := registerTunnels_kept s sess
    refine ⟨h.congr (by rw [stored?, hgw]; rfl) (by rw [hgw]) hup hconf ?_, trivial⟩
    rw [hedit, List.forall_mem_append]
    exact ⟨hreg, (List.forall_mem_append.1 h.composed).2⟩
  | @sendRegistration f fs hreg =>
    have hcomp := h.composed
    rw [hreg] at hcomp
    have htime : s.InTime sess f := hC f (by rw [hreg]; rfl)
    exact ⟨h.send (hcomp f List.mem_cons_self) htime rfl rfl rfl rfl
      fun f' hf' => hcomp f' (List.mem_cons_of_mem _ hf'), trivial⟩
  | @edit set =>
    obtain ⟨hgw, hup, hconf, hreg, hedit⟩ := applyTunnels_kept s sess set.tunnels
    refine ⟨h.congr (by rw [stored?, hgw]; rfl) (by rw [hgw]) hup hconf ?_, trivial⟩
    rw [hreg, List.forall_mem_append]
    exact ⟨(List.forall_mem_append.1 h.composed).1, hedit⟩
  | @sendEdit f fs hedit =>
    have hcomp := List.forall_mem_append.1 h.composed
    rw [hedit, List.forall_mem_cons] at hcomp
    have htime : s.InTime sess f := hC f (by rw [hedit]; rfl)
    exact ⟨h.send hcomp.2.1 htime rfl rfl rfl rfl
      (List.forall_mem_append.2 ⟨hcomp.1, hcomp.2.2⟩), trivial⟩
  | @receive f fs _ hack hdown =>
    obtain ⟨hgw, hup, hreg, hedit⟩ := receive_kept ({ s with down := fs } : ControlSession) f
    refine ⟨h.congr (by rw [stored?, hgw]; rfl) (by rw [hgw]) hup
      (confirmed_receive hack hdown) ?_, trivial⟩
    rw [hreg, hedit]
    exact h.composed
  | @sendAck ack hack =>
    have hconf : ({ s with up := s.up ++ [.configAck ack], acking := none } :
        ControlSession).confirmed = s.confirmed := by
      simp only [confirmed, pushes, hack, ackGens, List.filterMap_append]
      simp only [List.append_assoc]
      rfl
    refine ⟨⟨fun c hc => (sound_append _ _ _ _).2 ⟨h.sound c hc, trivial⟩, ?_, ?_,
      h.composed⟩, trivial⟩
    · rw [hconf]
      exact h.ordered
    · rw [hconf]
      exact h.bounded
  | handle _ hup => exact h.handle hup hC
  | @command c =>
    have hstored := Gateway.exec_desiredConfig g s.gateway c sess.agentID
    exact ⟨h.congr hstored (Gateway.exec_agentConfigGen g s.gateway c) rfl rfl h.composed, trivial⟩

end ControlSession

/-- Along every run of a session whose proposals are well timed, a proposal of another basis than
the stored generation is refused and answered with the stored set. -/
theorem proposals_adopted_over_own_basis (g : Gateway) (agent : Agent) (st : GatewayState)
    (sess : AgentSession) (steps : List SessionStep)
    (h : Runs.Along (ControlSession.step g sess) (ControlSession.WellTimed sess)
      (ControlSession.start agent st sess) steps) :
    Runs.Along (ControlSession.step g sess) (ControlSession.OwnBasis g sess)
      (ControlSession.start agent st sess) steps :=
  Runs.along_of_invariant (I := ControlSession.BasisInv sess)
    (fun _ _ _ h hC ht => h.step hC ht) (ControlSession.start_basisInv agent st sess) h

/-- An edit is proposed, adopted, pushed back and confirmed, and a second one after it. -/
theorem proposals_adopted_over_own_basis_twice :
    Runs.Along (ControlSession.step idleGateway configSession)
      (ControlSession.OwnBasis idleGateway configSession)
      (ControlSession.start (agentAt 1 []) (servedConfig []) configSession)
      [.connect, .register, .edit (oneTunnel "t" 8080), .sendEdit, .handle true, .receive,
        .sendAck, .handle true, .edit (oneTunnel "t" 8081), .sendEdit, .handle true] :=
  proposals_adopted_over_own_basis _ _ _ _ _ (by decide)

/-- Two edits in a row: the gateway adopts the first and counts the agent as holding it, and then
adopts the second, which was composed before. -/
theorem second_proposal_adopted_over_first :
    ¬Runs.Along (ControlSession.step idleGateway configSession)
      (ControlSession.OwnBasis idleGateway configSession)
      (ControlSession.start (agentAt 1 []) (servedConfig []) configSession)
      [.connect, .register, .edit (oneTunnel "t" 8080), .sendEdit,
        .edit (oneTunnel "t" 8081), .sendEdit, .handle true, .handle true] := by
  decide

end ProxyForward

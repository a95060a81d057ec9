import ProxyForward.ControlSession

namespace ProxyForward
set_option autoImplicit true

/-- The fields of a tunnel that never cross the wire. -/
structure LocalFields where
  localAddr : String
  proxyProtocolV2 : Bool
  deriving DecidableEq, Repr

def Tunnel.localFields (t : Tunnel) : LocalFields := ⟨t.localAddr, t.options.proxyProtocolV2⟩

theorem mem_mergeTunnels : t ∈ mergeTunnels existing specs ↔
    (∃ spec ∈ specs, ((byID existing).lookup spec.id |>.getD Tunnel.zero).overwrite spec = t) ∨
      t ∈ existing ∧ t.enabled = false ∧ t.id ∉ specs.map (·.id) := by
  simp only [mergeTunnels, List.mem_append, List.mem_map, List.mem_filter, Bool.and_eq_true,
    Bool.not_eq_true', decide_eq_true_eq]

theorem overwrite_mem (existing : List Tunnel) (h : spec ∈ specs) :
    ((byID existing).lookup spec.id |>.getD Tunnel.zero).overwrite spec ∈
      mergeTunnels existing specs :=
  mem_mergeTunnels.2 (.inl ⟨spec, h, rfl⟩)

/-- A session together with its user: his last edit, and the local fields that he last gave each id
he configured. -/
structure UserSession where
  session : ControlSession
  lastEdit : TunnelSet
  given : String → Option LocalFields

/-- What an edit gives the ids it names. -/
def TunnelSet.give (set : TunnelSet) (given : String → Option LocalFields) (i : String) :
    Option LocalFields :=
  ((set.tunnels.find? fun t => t.id = i).map (·.localFields)).or (given i)

theorem TunnelSet.give_mem (set : TunnelSet) (given : String → Option LocalFields)
    (ht : t ∈ set.tunnels) : set.give given t.id = some t.localFields := by
  have hfind : (set.tunnels.find? fun u => u.id = t.id) = some t := by
    have hdistinct := set.distinct
    obtain ⟨before, after, hsplit⟩ := List.append_of_mem ht
    rw [hsplit] at hdistinct ⊢
    rw [List.map_append, List.map_cons, List.nodup_append] at hdistinct
    rw [List.find?_append, List.find?_cons_of_pos (by simp), List.find?_eq_none.2, Option.none_or]
    intro u hu
    have hne := hdistinct.2.2 u.id (List.mem_map_of_mem hu) t.id List.mem_cons_self
    simpa using hne
  rw [TunnelSet.give, hfind]
  rfl

namespace UserSession

/-- What a step that leads the session to `u` makes of the user's side. -/
def after (s : UserSession) (u : ControlSession) : SessionStep → UserSession
  | .edit set => ⟨u, set, set.give s.given⟩
  | _ => ⟨u, s.lastEdit, s.given⟩

def step (g : Gateway) (sess : AgentSession) (s : UserSession) (l : SessionStep) :
    Option UserSession :=
  (s.session.step g sess l).map fun u => s.after u l

/-- No enabled tunnel of an id that the user gave an address is without one, and when no frame is in
flight the tunnels of the last edit that the latest push lists are there as given. -/
def Kept (s : UserSession) : Prop :=
  (∀ t ∈ s.session.agent.tunnels, t.enabled = true → ∀ f ∈ s.given t.id, f.localAddr ≠ "" →
    t.localAddr ≠ "") ∧
  (s.session.up = [] → s.session.down = [] → ∀ push ∈ s.session.pushed,
    ∀ t ∈ s.lastEdit.tunnels, t.enabled = true → t.id ∈ push.tunnels.map (·.id) →
      ∃ u ∈ s.session.agent.tunnels, u.id = t.id ∧ u.enabled = true ∧ u.localFields = t.localFields)

instance (s : UserSession) : Decidable s.Kept := inferInstanceAs (Decidable (_ ∧ _))

def StepKeeps (g : Gateway) (sess : AgentSession) (s : UserSession) (l : SessionStep) : Prop :=
  ∀ t ∈ s.step g sess l, t.Kept

instance (g : Gateway) (sess : AgentSession) (s : UserSession) (l : SessionStep) :
    Decidable (StepKeeps g sess s l) := by
  unfold StepKeeps
  infer_instance

/-- A push that the agent applies lists no tunnel that the user configured and the agent does not
have. -/
def PushKnown (s : UserSession) : SessionStep → Prop
  | .receive =>
    match s.session.down with
    | .pushConfig push :: _ => ∀ spec ∈ push.tunnels, (s.given spec.id).isSome = true →
        ∃ t ∈ s.session.agent.tunnels, t.id = spec.id
    | _ => True
  | _ => True

instance (s : UserSession) (l : SessionStep) : Decidable (s.PushKnown l) := by
  cases l with
  | receive =>
    simp only [PushKnown]
    split <;> infer_instance
  | _ =>
    simp only [PushKnown]
    infer_instance

/-- What the user gave is on the agent. -/
structure Intact (s : UserSession) : Prop where
  carried : ∀ t ∈ s.session.agent.tunnels, ∀ f ∈ s.given t.id, t.localFields = f
  addressed : ∀ i, ∀ f ∈ s.given i, f.localAddr ≠ ""
  last : ∀ t ∈ s.lastEdit.tunnels, s.given t.id = some t.localFields

structure Inv (s : UserSession) : Prop extends s.Intact where
  placed : s.session.pushes = [] → ∀ push ∈ s.session.pushed,
    ∀ t ∈ s.lastEdit.tunnels, t.enabled = true → t.id ∈ push.tunnels.map (·.id) →
      ∃ u ∈ s.session.agent.tunnels, u.id = t.id ∧ u.enabled = true
  newest : ∀ push ∈ s.session.pushes.getLast?, s.session.pushed = some push

theorem Inv.kept {s : UserSession} (h : s.Inv) : s.Kept := by
  constructor
  · intro t ht _ f hf haddr
    have hlocal := h.carried t ht f hf
    rw [← hlocal] at haddr
    exact haddr
  · intro _ hdown push hpush t ht hon hlisted
    have hpushes : s.session.pushes = [] := by rw [ControlSession.pushes, hdown]; rfl
    obtain ⟨u, hu, hid, hue⟩ := h.placed hpushes push hpush t ht hon hlisted
    have hgiven := h.last t ht
    rw [← hid] at hgiven
    exact ⟨u, hu, hid, hue, h.carried u hu _ hgiven⟩

theorem Inv.congr {s : UserSession} {t : ControlSession} (h : s.Inv)
    (htunnels : t.agent.tunnels = s.session.agent.tunnels)
    (hpushes : t.pushes = s.session.pushes) (hpushed : t.pushed = s.session.pushed) :
    Inv ⟨t, s.lastEdit, s.given⟩ := by
  refine ⟨⟨?_, h.addressed, h.last⟩, ?_, ?_⟩
  · rw [htunnels]
    exact h.carried
  · rw [hpushes, hpushed, htunnels]
    exact h.placed
  · rw [hpushes, hpushed]
    exact h.newest

theorem Inv.answer {s : UserSession} (h : s.Inv) {u : ControlSession}
    (r : Option GatewayFrame × GatewayState) (hagent : u.agent = s.session.agent)
    (hdown : u.down = s.session.down) (hpushed : u.pushed = s.session.pushed) :
    Inv ⟨u.answer r, s.lastEdit, s.given⟩ := by
  have hpushes := ControlSession.pushes_answer u r
  have hbefore : u.pushes = s.session.pushes := by
    rw [ControlSession.pushes, hdown, ControlSession.pushes]
  rw [hbefore] at hpushes
  have hwritten : (u.answer r).pushed = (r.1.bind GatewayFrame.push?).or s.session.pushed := by
    rw [← hpushed]
    rfl
  cases hp : r.1.bind GatewayFrame.push? with
  | none =>
    rw [hp, Option.toList_none, List.append_nil] at hpushes
    rw [hp, Option.none_or] at hwritten
    exact h.congr (congrArg (·.tunnels) hagent) hpushes hwritten
  | some push =>
    rw [hp] at hpushes hwritten
    refine ⟨⟨?_, h.addressed, h.last⟩, ?_, ?_⟩
    · intro t ht
      exact h.carried t (hagent ▸ ht)
    · intro hnone
      rw [hpushes] at hnone
      exact absurd hnone (List.append_ne_nil_of_right_ne_nil _ (List.cons_ne_nil _ _))
    · intro push' hpush'
      rw [hpushes, Option.toList_some, List.getLast?_concat] at hpush'
      rw [hwritten]
      exact hpush'

theorem Inv.applyPush {s : UserSession} {push : PushConfig} {fs : List GatewayFrame} (h : s.Inv)
    (hdown : s.session.down = .pushConfig push :: fs)
    (hknown : ∀ spec ∈ push.tunnels, (s.given spec.id).isSome = true →
      ∃ t ∈ s.session.agent.tunnels, t.id = spec.id) :
    Inv ⟨({ s.session with down := fs } : ControlSession).handleControlMsg (.pushConfig push),
      s.lastEdit, s.given⟩ := by
  have hpushes : s.session.pushes = push :: fs.filterMap GatewayFrame.push? := by
    rw [ControlSession.pushes, hdown]
    rfl
  refine ⟨⟨?_, h.addressed, h.last⟩, ?_, ?_⟩
  · intro t ht f hf
    obtain ⟨spec, hspec, rfl⟩ | ⟨ht, -, -⟩ := mem_mergeTunnels.1 ht
    · obtain ⟨t, ht, hid⟩ := hknown spec hspec (Option.isSome_iff_exists.2 ⟨f, hf⟩)
      cases hl : (byID s.session.agent.tunnels).lookup spec.id with
      | none => exact absurd hid (lookup_byID_none.1 hl t ht)
      | some u =>
        obtain ⟨hu, huid⟩ := lookup_byID_mem hl
        exact h.carried u hu f (huid.symm ▸ hf)
    · exact h.carried t ht f hf
  · intro hnone push' hpush' t ht hon hlisted
    have hlast := h.newest push (by
      rw [hpushes]
      change fs.filterMap GatewayFrame.push? = [] at hnone
      rw [hnone]
      rfl)
    cases Option.some.inj (hlast.symm.trans hpush')
    obtain ⟨spec, hspec, hid⟩ := List.mem_map.1 hlisted
    exact ⟨_, overwrite_mem s.session.agent.tunnels hspec, hid, rfl⟩
  · intro push' hpush'
    refine h.newest push' ?_
    rw [hpushes, List.getLast?_cons]
    change (fs.filterMap GatewayFrame.push?).getLast? = some push' at hpush'
    rw [hpush']
    rfl

theorem Intact.known_of_kept {s : UserSession} {push : PushConfig} {u : ControlSession}
    (h : s.Intact)
    (htunnels : u.agent.tunnels = mergeTunnels s.session.agent.tunnels push.tunnels)
    (hkept : Kept ⟨u, s.lastEdit, s.given⟩) :
    ∀ spec ∈ push.tunnels, (s.given spec.id).isSome = true →
      ∃ t ∈ s.session.agent.tunnels, t.id = spec.id := by
  intro spec hspec hgiven
  obtain ⟨f, hf⟩ := Option.isSome_iff_exists.1 hgiven
  by_contra hunknown
  simp only [not_exists, not_and] at hunknown
  have hl := lookup_byID_none.2 hunknown
  have hmerged := overwrite_mem s.session.agent.tunnels hspec
  rw [hl] at hmerged
  have haddr := hkept.1 _ (htunnels ▸ hmerged) rfl f hf (h.addressed _ f hf)
  exact haddr rfl

theorem Inv.edit {s : UserSession} (h : s.Inv) (sess : AgentSession) (set : TunnelSet) :
    Inv ⟨s.session.applyTunnels sess set.tunnels, set, set.give s.given⟩ := by
  have htunnels : (s.session.applyTunnels sess set.tunnels).agent.tunnels = set.tunnels := by
    unfold ControlSession.applyTunnels
    split
    · rfl
    · split <;> rfl
  obtain ⟨hpushes, hpushed⟩ : (s.session.applyTunnels sess set.tunnels).pushes = s.session.pushes ∧
      (s.session.applyTunnels sess set.tunnels).pushed = s.session.pushed := by
    unfold ControlSession.applyTunnels
    split
    · exact ⟨rfl, rfl⟩
    · split <;> exact ⟨rfl, rfl⟩
  refine ⟨⟨?_, ?_, fun t ht => set.give_mem s.given ht⟩, ?_, ?_⟩
  · intro t ht f hf
    rw [htunnels] at ht
    exact Option.some.inj ((set.give_mem s.given ht).symm.trans hf)
  · intro i f hf
    change set.give s.given i = some f at hf
    rw [TunnelSet.give] at hf
    cases hfind : set.tunnels.find? fun t => t.id = i with
    | none =>
      rw [hfind] at hf
      exact h.addressed i f hf
    | some t =>
      rw [hfind] at hf
      cases hf
      exact set.addressed t (List.mem_of_find?_eq_some hfind)
  · intro _ push _ t ht hon _
    exact ⟨t, htunnels.symm ▸ ht, rfl, hon⟩
  · rw [hpushes, hpushed]
    exact h.newest

theorem Inv.receive {s : UserSession} {fs : List GatewayFrame} (h : s.Inv)
    (hdown : s.session.down = f :: fs) (hf : f.push? = none) :
    Inv ⟨({ s.session with down := fs } : ControlSession).handleControlMsg f, s.lastEdit,
      s.given⟩ := by
  have hpushes : s.session.pushes = fs.filterMap GatewayFrame.push? := by
    rw [ControlSession.pushes, hdown, List.filterMap_cons_none hf]
  obtain ⟨ports, he⟩ :=
    ControlSession.handleControlMsg_quiet ({ s.session with down := fs } : ControlSession) hf
  rw [he]
  exact h.congr rfl hpushes.symm rfl

theorem safe {s : UserSession} (h : s.Inv) (hp : p) : (s.Kept ↔ p) ∧ (p → s.Inv) :=
  ⟨iff_of_true h.kept hp, fun _ => h⟩

theorem Inv.step {g : Gateway} {sess : AgentSession} {s t : UserSession} {l : SessionStep}
    (h : s.Inv) (ht : s.step g sess l = some t) :
    (StepKeeps g sess s l ↔ s.PushKnown l) ∧ (s.PushKnown l → t.Inv) := by
  have hkeeps : StepKeeps g sess s l ↔ t.Kept := by
    simp only [StepKeeps, ht, Option.mem_some_iff, forall_eq']
  obtain ⟨u, hu, rfl⟩ := Option.map_eq_some_iff.1 ht
  rw [hkeeps]
  cases ControlSession.moves_of_step hu with
  | connect => exact safe ((h.answer _ rfl rfl rfl).congr rfl rfl rfl) trivial
  | register =>
    refine safe ?_ trivial
    simp only [ControlSession.registerTunnels]
    split
    · split <;> exact h.congr rfl rfl rfl
    · split <;> exact h.congr rfl rfl rfl
  | sendRegistration => exact safe (h.congr rfl rfl rfl) trivial
  | @edit set => exact safe (h.edit sess set) trivial
  | @sendEdit f =>
    refine safe (h.congr ?_ rfl rfl) trivial
    cases f <;> rfl
  | @receive f fs _ _ hdown =>
    cases hf : f.push? with
    | none =>
      refine safe (h.receive hdown hf) ?_
      simp only [PushKnown, hdown]
      cases f with
      | pushConfig push => cases hf
      | _ => trivial
    | some push =>
      cases f with
      | pushConfig push =>
        have hknown : s.PushKnown .receive ↔ ∀ spec ∈ push.tunnels,
            (s.given spec.id).isSome = true → ∃ t ∈ s.session.agent.tunnels, t.id = spec.id := by
          simp only [PushKnown, hdown]
        rw [hknown]
        exact ⟨⟨h.known_of_kept rfl, fun hk => (h.applyPush hdown hk).kept⟩, h.applyPush hdown⟩
      | _ => cases hf
  | sendAck => exact safe (h.congr rfl rfl rfl) trivial
  | handle => exact safe (h.answer _ rfl rfl rfl) trivial
  | command => exact safe (h.congr rfl rfl rfl) trivial

/-- A session that starts with what the user configured. -/
def start (agent : Agent) (st : GatewayState) (sess : AgentSession) (lastEdit : TunnelSet)
    (given : String → Option LocalFields) : UserSession :=
  ⟨ControlSession.start agent st sess, lastEdit, given⟩

end UserSession

/-- Along every run, the local fields that the user gave survive every step exactly when no push
that the agent applies lists a configured tunnel that the agent does not have. -/
theorem local_fields_survive_iff (g : Gateway) (agent : Agent) (st : GatewayState)
    (sess : AgentSession) (lastEdit : TunnelSet) (given : String → Option LocalFields)
    (h : (UserSession.start agent st sess lastEdit given).Intact) (steps : List SessionStep) :
    let s := UserSession.start agent st sess lastEdit given
    Runs.Along (UserSession.step g sess) (UserSession.StepKeeps g sess) s steps ↔
      Runs.Along (UserSession.step g sess) UserSession.PushKnown s steps :=
  Runs.along_congr_while (I := UserSession.Inv) (fun _ _ _ h ht => h.step ht)
    ⟨h, fun _ => nofun, nofun⟩

/-- A user who has configured nothing yet. -/
def freshUser : UserSession :=
  .start (agentAt 1 []) (servedConfig []) configSession ⟨[], List.nodup_nil, nofun⟩ fun _ => none

theorem freshUser_intact : freshUser.Intact := by
  refine ⟨?_, ?_, ?_⟩
  · intro t ht
    cases ht
  · intro i f hf
    cases hf
  · intro t ht
    cases ht

/-- A new tunnel comes back from the gateway with the address its user gave it. -/
theorem local_fields_survive_iff_one :
    Runs.Along (UserSession.step idleGateway configSession)
      (UserSession.StepKeeps idleGateway configSession) freshUser
      [.connect, .register, .edit (oneTunnel "t" 8080), .sendEdit, .handle true, .receive] :=
  (local_fields_survive_iff idleGateway (agentAt 1 []) (servedConfig []) configSession _ _
    freshUser_intact _).2 (by decide)

/-- A second tunnel, added while the first edit is on its way, is dropped by the answer to the first
edit and comes back without its address with the answer to the second. -/
theorem local_address_lost :
    let both : TunnelSet := ⟨[.plain "t" 8080 "127.0.0.1:25565", .plain "u" 8081 "127.0.0.1:25566"],
      by decide, by decide⟩
    ¬Runs.Along (UserSession.step idleGateway configSession)
      (UserSession.StepKeeps idleGateway configSession) freshUser
      [.connect, .register, .edit (oneTunnel "t" 8080), .sendEdit, .edit both, .sendEdit,
        .handle true, .handle true, .receive, .sendAck, .receive] := by
  decide

end ProxyForward

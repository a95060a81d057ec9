import ProxyForward.ControlSession

namespace ProxyForward
set_option autoImplicit true

/-- A tunnel-sync session in which `registerTunnels` and an `ApplyTunnels` take their steps one by
one. `snapshot` is the set that `registerTunnels` has read and not numbered yet, `swapped` the set
that an `ApplyTunnels` has put in place and not numbered yet. `reconciled` and `accepted` are the
last frame that the gateway reconciled, with its answer, and the last answer that the agent did not
drop. -/
structure SyncSession extends ControlSession where
  snapshot : Option (List Tunnel)
  swapped : Option (List Tunnel)
  reconciled : Option (SyncTunnels × SyncResult)
  accepted : Option SyncResult

inductive SyncStep where
  | snapshot
  | numberSnapshot
  | swap (tunnels : List Tunnel)
  | numberSwapped
  | other (l : SessionStep)
  deriving DecidableEq, Repr

/-- The steps that compose a frame in one go. -/
def SessionStep.composes : SessionStep → Bool
  | .register | .edit _ => true
  | _ => false

/-- The frame is written to the stream. -/
def SyncStep.Writes (l : SyncStep) : Prop :=
  l = .other .sendRegistration ∨ l = .other .sendEdit

namespace SyncSession

def start (agent : Agent) (st : GatewayState) (sess : AgentSession) : SyncSession where
  toControlSession := ControlSession.start agent st sess
  snapshot := none
  swapped := none
  reconciled := none
  accepted := none

/-- The frame of `syncTunnels`, under the next sequence number. -/
def nextFrame (s : ControlSession) (tunnels : List Tunnel) : AgentFrame :=
  .syncTunnels ⟨s.syncSeq + 1, enabledSpecs tunnels⟩

/-- The last frame reconciled once step `l` is taken. -/
def reconciledAfter (g : Gateway) (sess : AgentSession) (s : SyncSession) (l : SessionStep) :
    Option (SyncTunnels × SyncResult) :=
  match l, s.up with
  | .handle written, .syncTunnels sync :: _ =>
    match (g.handleControlMsg s.gateway sess written (.syncTunnels sync)).1 with
    | some (.syncResult res) => some (sync, res)
    | _ => s.reconciled
  | _, _ => s.reconciled

/-- The last answer accepted once step `l` is taken: one to an older frame is dropped. -/
def acceptedAfter (s : SyncSession) (l : SessionStep) : Option SyncResult :=
  match l, s.down with
  | .receive, .syncResult res :: _ => if res.seq ≠ s.syncSeq then s.accepted else some res
  | _, _ => s.accepted

def after (g : Gateway) (sess : AgentSession) (s : SyncSession) (l : SessionStep)
    (c : ControlSession) : SyncSession :=
  { s with
    toControlSession := c
    reconciled := s.reconciledAfter g sess l
    accepted := s.acceptedAfter l }

/-- One step. One edit is at work at a time; all other steps are those of a control session. -/
def step (g : Gateway) (sess : AgentSession) (s : SyncSession) : SyncStep → Option SyncSession
  | .snapshot =>
    if s.registration.isSome ∨ s.snapshot.isSome then none
    else some { s with snapshot := some s.agent.snapshotTunnels }
  | .numberSnapshot => s.snapshot.map fun tunnels =>
    { s with
      syncSeq := s.syncSeq + 1
      registration := some [nextFrame s.toControlSession tunnels]
      snapshot := none }
  | .swap tunnels =>
    if s.swapped.isSome ∨ s.editing ≠ [] then none
    else some { s with agent := s.agent.swapTunnels tunnels, swapped := some tunnels }
  | .numberSwapped => s.swapped.map fun tunnels =>
    { s with
      syncSeq := s.syncSeq + 1
      editing := [nextFrame s.toControlSession tunnels]
      swapped := none }
  | .other l =>
    if l.composes then none else (s.toControlSession.step g sess l).map (s.after g sess l)

/-- All calls have finished. -/
structure Finished (s : SyncSession) : Prop where
  registered : s.registration = some []
  swapped : s.swapped = none
  edited : s.editing = []

/-- All calls have finished, and all frames and answers are delivered. -/
structure Settled (s : SyncSession) : Prop extends Finished s where
  up : s.up = []
  down : s.down = []

instance (s : SyncSession) : Decidable s.Settled :=
  decidable_of_iff (s.registration = some [] ∧ s.swapped = none ∧ s.editing = [] ∧ s.up = [] ∧
      s.down = [])
    ⟨fun ⟨h₁, h₂, h₃, h₄, h₅⟩ => ⟨⟨h₁, h₂, h₃⟩, h₄, h₅⟩,
      fun ⟨⟨h₁, h₂, h₃⟩, h₄, h₅⟩ => ⟨h₁, h₂, h₃, h₄, h₅⟩⟩

/-- The frame has the newest number, and the enabled set of the agent. -/
def IsCurrent (s : ControlSession) (f : AgentFrame) : Prop :=
  ∃ sync, f = .syncTunnels sync ∧ sync.seq = s.syncSeq ∧ s.agent.Has sync.tunnels

theorem numberSnapshot_snapshot {g : Gateway} {sess : AgentSession} {s : SyncSession}
    (hsync : sess.has capTunnelSync = true ∧ sess.has capGatewayConfig = false)
    (hs : s.snapshot = none) :
    ((s.step g sess .snapshot).bind fun t => t.step g sess .numberSnapshot) =
      (s.toControlSession.step g sess .register).map fun c =>
        { s with toControlSession := c } := by
  simp only [step, ControlSession.step]
  by_cases hr : s.registration.isSome
  · simp only [hr, true_or, if_true, Option.bind_none, Option.map_none]
  · have hreg : s.toControlSession.registerTunnels sess = { s.toControlSession with
        syncSeq := s.syncSeq + 1
        registration := some [nextFrame s.toControlSession s.agent.snapshotTunnels] } := by
      simp only [ControlSession.registerTunnels, hsync.1, hsync.2, Bool.false_eq_true, if_false,
        if_true, nextFrame]
    simp only [hr, hs, Option.isSome_none, Bool.false_eq_true, or_self, if_false, Option.bind_some,
      Option.map_some, hreg]

theorem numberSwapped_swap {g : Gateway} {sess : AgentSession} {s : SyncSession}
    (hsync : sess.has capTunnelSync = true ∧ sess.has capGatewayConfig = false)
    (hs : s.swapped = none) (new : TunnelSet) :
    ((s.step g sess (.swap new.tunnels)).bind fun t => t.step g sess .numberSwapped) =
      (s.toControlSession.step g sess (.edit new)).map fun c =>
        { s with toControlSession := c } := by
  simp only [step, ControlSession.step]
  by_cases he : s.editing ≠ []
  · rw [if_pos (.inr he), if_pos he]
    rfl
  · have happly : s.toControlSession.applyTunnels sess new.tunnels = { s.toControlSession with
        agent := s.agent.swapTunnels new.tunnels
        syncSeq := s.syncSeq + 1
        editing := [nextFrame s.toControlSession new.tunnels] } := by
      simp only [ControlSession.applyTunnels, hsync.1, hsync.2, Bool.false_eq_true, if_false,
        if_true, nextFrame]
    rw [if_neg he, if_neg (not_or.2 ⟨hs ▸ Bool.false_ne_true, he⟩)]
    simp only [Option.bind_some, Option.map_some, happly, hs]
    rfl

/-- What each step does, and when it is enabled. -/
inductive Moves (g : Gateway) (sess : AgentSession) (s : SyncSession) :
    SyncStep → SyncSession → Prop
  | snapshot (hr : s.registration = none) (hs : s.snapshot = none) :
      Moves g sess s .snapshot { s with snapshot := some s.agent.snapshotTunnels }
  | numberSnapshot (hs : s.snapshot = some tunnels) : Moves g sess s .numberSnapshot
      { s with
        syncSeq := s.syncSeq + 1
        registration := some [nextFrame s.toControlSession tunnels]
        snapshot := none }
  | swap (hs : s.swapped = none) (he : s.editing = []) : Moves g sess s (.swap tunnels)
      { s with agent := s.agent.swapTunnels tunnels, swapped := some tunnels }
  | numberSwapped (hs : s.swapped = some tunnels) : Moves g sess s .numberSwapped
      { s with
        syncSeq := s.syncSeq + 1
        editing := [nextFrame s.toControlSession tunnels]
        swapped := none }
  | other (hl : l.composes = false) (hc : s.toControlSession.Moves g sess l c) :
      Moves g sess s (.other l) (s.after g sess l c)

variable {g : Gateway} {sess : AgentSession} {s t : SyncSession} {l : SyncStep}

theorem moves_of_step (h : s.step g sess l = some t) : s.Moves g sess l t := by
  cases l with
  | snapshot =>
    simp only [step] at h
    split at h
    · cases h
    · rename_i hn
      rw [not_or, Option.not_isSome_iff_eq_none, Option.not_isSome_iff_eq_none] at hn
      cases h
      exact .snapshot hn.1 hn.2
  | numberSnapshot =>
    obtain ⟨tunnels, hs, rfl⟩ := Option.map_eq_some_iff.1 h
    exact .numberSnapshot hs
  | swap tunnels =>
    simp only [step] at h
    split at h
    · cases h
    · rename_i hn
      rw [not_or, Option.not_isSome_iff_eq_none, not_not] at hn
      cases h
      exact .swap hn.1 hn.2
  | numberSwapped =>
    obtain ⟨tunnels, hs, rfl⟩ := Option.map_eq_some_iff.1 h
    exact .numberSwapped hs
  | other l =>
    simp only [step] at h
    split at h
    · cases h
    · rename_i hl
      obtain ⟨c, hc, rfl⟩ := Option.map_eq_some_iff.1 h
      exact .other (Bool.not_eq_true _ ▸ hl) (ControlSession.moves_of_step hc)

/-- The frames that are numbered and not handled yet. -/
def pending (s : SyncSession) : List AgentFrame := s.registration.getD [] ++ s.editing ++ s.up

theorem mem_pending {s : SyncSession} :
    f ∈ s.pending ↔ f ∈ s.registration.getD [] ∨ f ∈ s.editing ∨ f ∈ s.up := by
  rw [pending, List.mem_append, List.mem_append, or_assoc]

/-- What every run keeps. The number given last is that of a frame or an answer on its way, or of
the answer accepted last. -/
structure Inv (s : SyncSession) : Prop where
  pending : ∀ f ∈ s.pending, ∃ sync, f = .syncTunnels sync ∧ sync.seq ≤ s.syncSeq
  answers : ∀ f ∈ s.down, ∃ res, f = .syncResult res
  acked : s.acking = none
  answered : ∀ r ∈ s.reconciled, r.2.seq = r.1.seq ∧ r.1.seq ≤ s.syncSeq
  last : ∀ f ∈ s.down.getLast?, ∃ r ∈ s.reconciled, f = .syncResult r.2
  accepts : ∀ r ∈ s.reconciled, r.1.seq = s.syncSeq → s.down = [] → s.accepted = some r.2
  located : s.syncSeq = 0 ∨ (∃ sync, .syncTunnels sync ∈ s.pending ∧ sync.seq = s.syncSeq) ∨
    (∃ res, .syncResult res ∈ s.down ∧ res.seq = s.syncSeq) ∨
    ∃ res ∈ s.accepted, res.seq = s.syncSeq

theorem inv_start (agent : Agent) (st : GatewayState) (sess : AgentSession) :
    (start agent st sess).Inv :=
  ⟨nofun, nofun, rfl, nofun, nofun, nofun, .inl rfl⟩

theorem Inv.same (h : s.Inv) (hpending : ∀ f, f ∈ t.pending ↔ f ∈ s.pending)
    (hseq : t.syncSeq = s.syncSeq) (hdown : t.down = s.down) (hack : t.acking = s.acking)
    (hrec : t.reconciled = s.reconciled) (hacc : t.accepted = s.accepted) : t.Inv := by
  refine ⟨?_, hdown ▸ h.answers, hack.trans h.acked, ?_, ?_, ?_, ?_⟩
  · intro f hf
    rw [hseq]
    exact h.pending f ((hpending f).1 hf)
  · rw [hrec, hseq]
    exact h.answered
  · rw [hdown, hrec]
    exact h.last
  · rw [hrec, hseq, hdown, hacc]
    exact h.accepts
  · rw [hseq, hdown, hacc]
    simp only [hpending]
    exact h.located

theorem Inv.number (h : s.Inv)
    (hpending : ∀ f ∈ t.pending, f = nextFrame s.toControlSession tunnels ∨ f ∈ s.pending)
    (hnext : nextFrame s.toControlSession tunnels ∈ t.pending)
    (hseq : t.syncSeq = s.syncSeq + 1) (hdown : t.down = s.down) (hack : t.acking = s.acking)
    (hrec : t.reconciled = s.reconciled) : t.Inv := by
  refine ⟨?_, hdown ▸ h.answers, hack.trans h.acked, ?_, ?_, ?_, .inr (.inl ?_)⟩
  · intro f hf
    obtain rfl | hf := hpending f hf
    · exact ⟨_, rfl, hseq.ge⟩
    · obtain ⟨sync, rfl, hle⟩ := h.pending f hf
      exact ⟨sync, rfl, by omega⟩
  · rw [hrec, hseq]
    intro r hr
    obtain ⟨heq, hle⟩ := h.answered r hr
    exact ⟨heq, by omega⟩
  · rw [hdown, hrec]
    exact h.last
  · rw [hrec, hseq]
    intro r hr heq
    have hle := (h.answered r hr).2
    omega
  · exact ⟨_, hnext, hseq.symm⟩

theorem handleControlMsg_sync (g : Gateway) (st : GatewayState) (written : Bool)
    (sync : SyncTunnels) (hcap : sess.has capTunnelSync = true) :
    g.handleControlMsg st sess written (.syncTunnels sync) =
      (some (.syncResult (g.syncTunnels st.actor sess sync).1),
        { st with actor := (g.syncTunnels st.actor sess sync).2 }) := by
  simp only [Gateway.handleControlMsg, hcap, if_true]

theorem reconciledAfter_sync (s : SyncSession) (written : Bool)
    (hcap : sess.has capTunnelSync = true) (hup : s.up = .syncTunnels sync :: fs) :
    s.reconciledAfter g sess (.handle written) =
      some (sync, (g.syncTunnels s.gateway.actor sess sync).1) := by
  simp only [reconciledAfter, hup, handleControlMsg_sync g _ _ _ hcap]

theorem Inv.handle {c : ControlSession} (h : s.Inv) (hcap : sess.has capTunnelSync = true)
    (hup : s.up = f :: fs) (hc : c = ControlSession.answer { s.toControlSession with up := fs }
      (g.handleControlMsg s.gateway sess written f)) :
    (s.after g sess (.handle written) c).Inv := by
  obtain ⟨sync, rfl, hle⟩ :=
    h.pending f (mem_pending.2 (.inr (.inr (hup ▸ List.mem_cons_self))))
  have hrec := reconciledAfter_sync (g := g) s written hcap hup
  have hpending : ∀ f, f ∈ s.pending ↔ f = .syncTunnels sync ∨
      f ∈ (s.after g sess (.handle written) c).pending := by
    intro f
    rw [mem_pending, mem_pending, hup, List.mem_cons, hc]
    change _ ↔ _ ∨ f ∈ s.registration.getD [] ∨ f ∈ s.editing ∨ f ∈ fs
    tauto
  rw [handleControlMsg_sync g _ _ _ hcap] at hc
  have hdown : c.down = s.down ++ [.syncResult (g.syncTunnels s.gateway.actor sess sync).1] := by
    rw [hc]
    rfl
  obtain ⟨hseq, hack⟩ : c.syncSeq = s.syncSeq ∧ c.acking = s.acking := by
    rw [hc]
    exact ⟨rfl, rfl⟩
  refine ⟨?_, ?_, hack.trans h.acked, ?_, ?_, ?_, ?_⟩
  · intro f hf
    obtain ⟨sync', hsync', hle'⟩ := h.pending f ((hpending f).2 (.inr hf))
    exact ⟨sync', hsync', hle'.trans hseq.ge⟩
  · intro f hf
    obtain hf | hf := List.mem_append.1 (hdown ▸ hf)
    · exact h.answers f hf
    · exact ⟨_, List.mem_singleton.1 hf⟩
  · intro r hr
    obtain rfl := Option.some.inj (hrec.symm.trans hr)
    exact ⟨rfl, hle.trans hseq.ge⟩
  · intro f hf
    refine ⟨_, hrec, ?_⟩
    rw [show (s.after g sess (.handle written) c).down = _ from hdown, List.getLast?_concat] at hf
    exact (Option.some.inj hf).symm
  · intro r _ _ hnil
    exact absurd (hdown.symm.trans hnil)
      (List.append_ne_nil_of_right_ne_nil _ (List.cons_ne_nil _ _))
  · change c.syncSeq = 0 ∨ (∃ sync, .syncTunnels sync ∈ (s.after g sess _ c).pending ∧
      sync.seq = c.syncSeq) ∨ (∃ res, .syncResult res ∈ c.down ∧ res.seq = c.syncSeq) ∨
      ∃ res ∈ s.accepted, res.seq = c.syncSeq
    rw [hseq, hdown]
    obtain hz | ⟨sync', hmem, heq⟩ | ⟨res, hmem, heq⟩ | hacc := h.located
    · exact .inl hz
    · obtain hnew | hmem := (hpending _).1 hmem
      · obtain rfl := AgentFrame.syncTunnels.inj hnew
        exact .inr (.inr (.inl ⟨_, List.mem_append_right _ List.mem_cons_self, heq⟩))
      · exact .inr (.inl ⟨sync', hmem, heq⟩)
    · exact .inr (.inr (.inl ⟨res, List.mem_append_left _ hmem, heq⟩))
    · exact .inr (.inr (.inr hacc))

theorem Inv.receive {c : ControlSession} (h : s.Inv) (hdown : s.down = f :: fs)
    (hc : c = ControlSession.handleControlMsg { s.toControlSession with down := fs } f) :
    (s.after g sess .receive c).Inv := by
  obtain ⟨res, rfl⟩ := h.answers f (hdown ▸ List.mem_cons_self)
  obtain ⟨hseq, hdown', hup, hedit, hreg, hack⟩ : c.syncSeq = s.syncSeq ∧ c.down = fs ∧
      c.up = s.up ∧ c.editing = s.editing ∧ c.registration = s.registration ∧
      c.acking = s.acking := by
    obtain ⟨ports, hports⟩ := ControlSession.handleControlMsg_quiet
      { s.toControlSession with down := fs } (f := .syncResult res) rfl
    rw [hc, hports]
    exact ⟨rfl, rfl, rfl, rfl, rfl, rfl⟩
  have hpending : (s.after g sess .receive c).pending = s.pending := by
    simp only [SyncSession.pending, after, hreg, hedit, hup]
  have hacc : (s.after g sess .receive c).accepted =
      if res.seq ≠ s.syncSeq then s.accepted else some res := by
    simp only [after, acceptedAfter, hdown]
  have haccept : res.seq = s.syncSeq → (s.after g sess .receive c).accepted = some res :=
    fun heq => hacc.trans (if_neg (not_not.2 heq))
  refine ⟨?_, ?_, hack.trans h.acked, ?_, ?_, ?_, ?_⟩
  · intro f hf
    obtain ⟨sync, hsync, hle⟩ := h.pending f (hpending ▸ hf)
    exact ⟨sync, hsync, hle.trans hseq.ge⟩
  · intro f hf
    exact h.answers f (hdown ▸ List.mem_cons_of_mem _ (hdown' ▸ hf))
  · intro r hr
    obtain ⟨heq, hle⟩ := h.answered r hr
    exact ⟨heq, hle.trans hseq.ge⟩
  · intro f hf
    refine h.last f ?_
    have hf : f ∈ fs.getLast? := hdown' ▸ hf
    rw [hdown, List.getLast?_cons, Option.mem_def.1 hf]
    rfl
  · intro r hr heq hnil
    -- the answer received is the last one that was on its way
    have hlast : .syncResult res ∈ s.down.getLast? := by
      rw [hdown, hdown'.symm.trans hnil]
      rfl
    obtain ⟨r', hr', hres⟩ := h.last _ hlast
    obtain rfl := Option.some.inj (hr.symm.trans hr')
    obtain rfl := GatewayFrame.syncResult.inj hres
    exact haccept ((h.answered r hr).1.trans (heq.trans hseq))
  · change c.syncSeq = 0 ∨ (∃ sync, .syncTunnels sync ∈ (s.after g sess .receive c).pending ∧
      sync.seq = c.syncSeq) ∨ (∃ res, .syncResult res ∈ c.down ∧ res.seq = c.syncSeq) ∨
      ∃ res ∈ (s.after g sess .receive c).accepted, res.seq = c.syncSeq
    rw [hseq, hpending, hdown']
    by_cases hcur : res.seq = s.syncSeq
    · exact .inr (.inr (.inr ⟨res, haccept hcur, hcur⟩))
    · obtain hz | hmem | ⟨res', hmem, heq⟩ | ⟨res', hmem, heq⟩ := h.located
      · exact .inl hz
      · exact .inr (.inl hmem)
      · obtain hres | hmem := List.mem_cons.1 (hdown ▸ hmem)
        · exact absurd (GatewayFrame.syncResult.inj hres ▸ heq) hcur
        · exact .inr (.inr (.inl ⟨res', hmem, heq⟩))
      · exact .inr (.inr (.inr ⟨res', hacc.trans ((if_pos hcur).trans hmem), heq⟩))

theorem Inv.step (h : s.Inv)
    (hsync : sess.has capTunnelSync = true ∧ sess.has capGatewayConfig = false)
    (ht : s.step g sess l = some t) : t.Inv := by
  cases moves_of_step ht with
  | snapshot => exact h.same (fun _ => Iff.rfl) rfl rfl rfl rfl rfl
  | numberSnapshot =>
    refine h.number ?_ (mem_pending.2 (.inl List.mem_cons_self)) rfl rfl rfl rfl
    intro f hf
    obtain hf | hf := mem_pending.1 hf
    · exact .inl (List.mem_singleton.1 hf)
    · exact .inr (mem_pending.2 (.inr hf))
  | swap => exact h.same (fun _ => Iff.rfl) rfl rfl rfl rfl rfl
  | numberSwapped =>
    refine h.number ?_ (mem_pending.2 (.inr (.inl List.mem_cons_self))) rfl rfl rfl rfl
    intro f hf
    obtain hf | hf | hf := mem_pending.1 hf
    · exact .inr (mem_pending.2 (.inl hf))
    · exact .inl (List.mem_singleton.1 hf)
    · exact .inr (mem_pending.2 (.inr (.inr hf)))
  | other hl hc =>
    cases hc with
    | connect =>
      rw [Gateway.serveControl_unconfigured g _ hsync.2]
      exact h.same (fun _ => Iff.rfl) rfl (List.append_nil _) rfl rfl rfl
    | register | edit => cases hl
    | @sendRegistration f fs hreg =>
      refine h.same (fun f' => ?_) rfl rfl rfl rfl rfl
      rw [mem_pending, mem_pending, hreg]
      simp only [after, Option.getD_some, List.mem_append, List.mem_cons, List.not_mem_nil,
        or_false]
      tauto
    | @sendEdit f fs hedit =>
      refine h.same (fun f' => ?_) rfl rfl rfl rfl rfl
      rw [mem_pending, mem_pending, hedit]
      simp only [after, List.mem_append, List.mem_cons, List.not_mem_nil, or_false]
      tauto
    | receive _ _ hdown => exact h.receive hdown rfl
    | sendAck hack => exact absurd (h.acked.symm.trans hack) (Option.some_ne_none _).symm
    | handle _ hup => exact h.handle hsync.1 hup rfl
    | command => exact h.same (fun _ => Iff.rfl) rfl rfl rfl rfl rfl

/-- The frame written last. -/
def latest (s : SyncSession) : Option AgentFrame :=
  s.up.getLast?.or (s.reconciled.map fun r => .syncTunnels r.1)

/-- The frame written last is current. -/
def LatestCurrent (s : SyncSession) : Prop := ∃ f ∈ s.latest, IsCurrent s.toControlSession f

/-- A step after which no call is in progress, and that writes nothing, finds none in progress and
leaves the last frame what it was. -/
theorem Inv.keep (h : s.Inv)
    (hsync : sess.has capTunnelSync = true ∧ sess.has capGatewayConfig = false)
    (hl : ¬l.Writes) (ht : s.step g sess l = some t) (hf : t.Finished) :
    s.Finished ∧ (t.LatestCurrent ↔ s.LatestCurrent) := by
  cases moves_of_step ht with
  | snapshot hr => exact absurd (hr.symm.trans hf.registered) (Option.some_ne_none _).symm
  | numberSnapshot =>
    exact absurd (Option.some.inj hf.registered) (List.cons_ne_nil _ _)
  | swap => exact absurd hf.swapped (Option.some_ne_none _)
  | numberSwapped => exact absurd hf.edited (List.cons_ne_nil _ _)
  | other hl' hc =>
    cases hc with
    | connect => exact ⟨⟨hf.registered, hf.swapped, hf.edited⟩, Iff.rfl⟩
    | register | edit => cases hl'
    | sendRegistration => exact absurd (.inl rfl) hl
    | sendEdit => exact absurd (.inr rfl) hl
    | @receive f fs hr ha hdown =>
      obtain ⟨res, rfl⟩ := h.answers f (hdown ▸ List.mem_cons_self)
      obtain ⟨ports, hports⟩ := ControlSession.handleControlMsg_quiet
        { s.toControlSession with down := fs } (f := .syncResult res) rfl
      rw [hports] at hf ⊢
      exact ⟨⟨hf.registered, hf.swapped, hf.edited⟩, Iff.rfl⟩
    | sendAck hack => exact absurd (h.acked.symm.trans hack) (Option.some_ne_none _).symm
    | @handle f fs written hserving hup =>
      obtain ⟨sync, rfl, -⟩ :=
        h.pending f (mem_pending.2 (.inr (.inr (hup ▸ List.mem_cons_self))))
      refine ⟨⟨hf.registered, hf.swapped, hf.edited⟩, ?_⟩
      have hlatest : (s.after g sess (.handle written) (ControlSession.answer
          { s.toControlSession with up := fs }
          (g.handleControlMsg s.gateway sess written (.syncTunnels sync)))).latest = s.latest := by
        change fs.getLast?.or ((s.reconciledAfter g sess (.handle written)).map _) = s.latest
        rw [reconciledAfter_sync s written hsync.1 hup, latest, hup, List.getLast?_cons]
        cases fs.getLast? <;> rfl
      rw [LatestCurrent, LatestCurrent, hlatest]
      rfl
    | command => exact ⟨⟨hf.registered, hf.swapped, hf.edited⟩, Iff.rfl⟩

end SyncSession

end ProxyForward


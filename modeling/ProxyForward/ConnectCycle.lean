import ProxyForward.Greeting
import ProxyForward.TransportLadder

namespace ProxyForward
open Ladder Runs
set_option autoImplicit true

def offerFor (tr : Transport) : List String :=
  [capTunnelSync, capConnStats, capGatewayConfig] ++ if tr = .perConn then [capPerConn] else []

/-- An agent that connects: its config and key, and the protocol version of its build. -/
structure Dialer where
  cfg : AgentConfig
  key : Option AgentKey
  speaks : Int

/-- One attempt to connect: where the dial reaches the gateway there, the gateway that the hello
gets to, the agent's view of its config, whether the reply arrives, and whether the session opens on
top of it. -/
structure Attempt where
  gate : Option Gate
  state : String × Nat
  delivered : Bool
  opened : Bool

namespace Dialer

/-- The transport that the config names, or none for the ladder. -/
def transport (d : Dialer) : Option Transport :=
  if d.cfg.transport = transportAuto then none
  else if d.cfg.transport = transportQUIC then some .quic
  else if d.cfg.transport = transportPerConn then some .perConn
  else some .mux

def greeting (d : Dialer) (tr : Transport) (state : String × Nat) : Greeting :=
  ⟨d.speaks, kindControl, d.cfg.hello d.key (offerFor tr) state⟩

/-- What comes of the hello at the gateway. -/
def greeted (d : Dialer) (tr : Transport) (a : Attempt) : Option Greeted :=
  a.gate.map fun gate => gate.handle (tr = .quic) (.hello (d.greeting tr a.state))

/-- The agent reads that its credential is refused. -/
def refuses (d : Dialer) (tr : Transport) (a : Attempt) : Bool :=
  a.delivered && (d.greeted tr a).any Greeted.counted

/-- `connectMux` and `connectQUIC`: the capabilities of the session, or why there is none. -/
def connect (d : Dialer) (tr : Transport) (a : Attempt) :
    Except LinkError (List String × Option AgentSession) :=
  match d.greeted tr a with
  | none => .error .io
  | some greeted =>
    match helloExchange (if a.delivered then greeted.reply else .closed) with
    | .error err => .error err
    | .ok (caps, _) => if a.opened then .ok (caps, greeted.session) else .error .io

end Dialer

/-- Where the reconnect loop stands: on the transport `tr` of a cycle, with those yet to try and
those that failed before, in a session over it, or between cycles. -/
inductive LadderPhase
  | idle
  | trying (tr : Transport) (rest failedBefore : List Transport)
  | serving (tr : Transport) (failedBefore : List Transport) (caps : List String)
      (sess : Option AgentSession)
  | waiting
  | gaveUp (err : LinkError)
  | stopped

/-- The loop with its cooldowns. `lastFailed` has the last failed attempt over a transport since the
last change of the network, and `told` counts the replies that refused the agent's credential. -/
structure Reconnect where
  clock : Int
  cooldown : Cooldown
  phase : LadderPhase
  lastFailed : Transport → Option Int
  told : Nat

inductive LadderStep
  | tick (d : Int)
  | begin
  | attempt (a : Attempt)
  | ends
  | wake (netChanged : Bool)
  | cancel

namespace Reconnect

def start (clock : Int) : Reconnect := ⟨clock, clearAllCooldowns, .idle, fun _ => none, 0⟩

/-- A transport that failed to connect, with the rest of the ladder. -/
def failed (s : Reconnect) (tr : Transport) (rest failedBefore : List Transport) (err : LinkError) :
    Reconnect :=
  { s with
    lastFailed := fun x => if x = tr then some s.clock else s.lastFailed x
    phase :=
      if err.isFatal then .gaveUp err
      else match rest with
        | [] => .waiting
        | next :: rest => .trying next rest (failedBefore ++ [tr]) }

/-- A session that ended; the transports tried in vain before it are parked from now on. -/
def ended (d : Dialer) (s : Reconnect) (tr : Transport) (failedBefore : List Transport) :
    Reconnect :=
  { s with
    cooldown := if d.transport = none then
        clearCooldown (coolTransports s.cooldown failedBefore s.clock) tr
      else s.cooldown
    phase := .waiting }

def order (d : Dialer) (s : Reconnect) : List Transport :=
  match d.transport with
  | none => ladderOrder s.cooldown s.clock
  | some tr => [tr]

def step (d : Dialer) (s : Reconnect) : LadderStep → Option Reconnect
  | .tick dt => if 0 ≤ dt then some { s with clock := s.clock + dt } else none
  | .begin =>
    match s.phase, s.order d with
    | .idle, tr :: rest => some { s with phase := .trying tr rest [] }
    | _, _ => none
  | .attempt a =>
    match s.phase with
    | .trying tr rest failedBefore =>
      let s := { s with told := s.told + if d.refuses tr a then 1 else 0 }
      match d.connect tr a with
      | .ok (caps, sess) => some { s with phase := .serving tr failedBefore caps sess }
      | .error err => some (s.failed tr rest failedBefore err)
    | _ => none
  | .ends =>
    match s.phase with
    | .serving tr failedBefore _ _ => some (s.ended d tr failedBefore)
    | _ => none
  | .wake netChanged =>
    match s.phase with
    | .waiting =>
      if netChanged then
        some { s with cooldown := clearAllCooldowns, lastFailed := fun _ => none, phase := .idle }
      else some { s with phase := .idle }
    | _ => none
  | .cancel =>
    match s.phase with
    | .gaveUp _ | .stopped => none
    | _ => some { s with phase := .stopped }

end Reconnect

/-- Both sides of a session have the same capabilities: dial-backs are for the transport made for
them only, and the gateway owns the config of enrolled agents only. -/
def Agreed (tr : Transport) (caps : List String) (sess : Option AgentSession) : Prop :=
  ∃ s, sess = some s ∧ caps = s.caps ∧ (capPerConn ∈ caps ↔ tr = .perConn) ∧
    (capGatewayConfig ∈ caps ↔ s.enrolled = true) ∧ capTunnelSync ∈ caps ∧ capConnStats ∈ caps

theorem buildSession_agreed (ptr : Nat) (ip : String) {hello : Hello} (i : Identity)
    (h : hello.capabilities = offerFor tr) :
    Agreed tr (buildSession ptr hello ip i).caps (some (buildSession ptr hello ip i)) := by
  refine ⟨_, rfl, rfl, ?_⟩
  simp only [buildSession, h]
  generalize i.pubKey.isSome = enrolled
  cases enrolled <;> cases tr <;> decide

theorem welcome_session {gate : Gate} (h : (gate.welcome hello i).reply = .welcome ok) :
    (gate.welcome hello i).session = some (buildSession gate.ptr hello gate.ip i) ∧
      ok.capabilities = (buildSession gate.ptr hello gate.ip i).caps := by
  unfold Gate.welcome at h ⊢
  simp only at h ⊢
  split at h
  · cases h
  · refine ⟨rfl, ?_⟩
    rw [← Reply.welcome.inj h]
    split <;> rfl

theorem greet_welcome {gate : Gate} (h : (gate.greet quic g).reply = .welcome ok) :
    ∃ i, (gate.greet quic g).session = some (buildSession gate.ptr g.hello gate.ip i) ∧
      ok.capabilities = (buildSession gate.ptr g.hello gate.ip i).caps := by
  unfold Gate.greet at h ⊢
  by_cases hallowed : ¬gate.allowed
  · rw [if_pos hallowed] at h
    cases h
  rw [if_neg hallowed] at h ⊢
  by_cases hversion : g.protocolVersion ≠ protocolVersion
  · rw [if_pos hversion] at h
    cases h
  rw [if_neg hversion] at h ⊢
  cases hv : (gate.auth.compositeValidate gate.store g.hello gate.now gate.written).1 with
  | error err =>
    rw [hv] at h
    cases h
  | ok i =>
    simp only [hv] at h ⊢
    by_cases hkind : g.kind = kindControl
    · simp only [if_pos hkind] at h ⊢
      exact ⟨i, welcome_session h⟩
    · rw [if_neg hkind] at h
      split at h
      · cases h
      · split at h <;> cases h

theorem helloExchange_ok (h : helloExchange reply = .ok p) :
    ∃ ok, reply = .welcome ok ∧ p.1 = ok.capabilities := by
  cases reply with
  | closed => cases h
  | refused code message =>
    simp only [helloExchange] at h
    split at h
    · cases h
    · split at h
      · cases h
      · split at h
        · cases h
        · split at h <;> cases h
  | welcome ok =>
    cases h
    exact ⟨ok, rfl, rfl⟩

theorem connect_agreed {d : Dialer} (h : d.connect tr a = .ok (caps, sess)) :
    Agreed tr caps sess := by
  unfold Dialer.connect Dialer.greeted at h
  cases hgate : a.gate with
  | none =>
    rw [hgate] at h
    cases h
  | some gate =>
    simp only [hgate, Option.map_some, Gate.handle_hello] at h
    split at h
    · cases h
    · rename_i caps' seed hexchange
      obtain ⟨ok, hreply, hcaps⟩ := helloExchange_ok hexchange
      split at hreply
      · obtain ⟨i, hsession, hok⟩ := greet_welcome hreply
        split at h
        · cases h
          have hoffer : (d.greeting tr a.state).hello.capabilities = offerFor tr := rfl
          have hagreed := buildSession_agreed gate.ptr gate.ip i hoffer
          rw [hsession]
          simp only at hcaps
          rw [hcaps, hok]
          exact hagreed
        · cases h
      · cases hreply

theorem counted_fatal {gate : Gate} (h : (gate.greet quic g).counted = true) :
    ∃ err, helloExchange (gate.greet quic g).reply = .error err ∧ err.isFatal = true := by
  unfold Gate.greet at h ⊢
  by_cases hallowed : ¬gate.allowed
  · rw [if_pos hallowed] at h
    cases h
  rw [if_neg hallowed] at h ⊢
  by_cases hversion : g.protocolVersion ≠ protocolVersion
  · rw [if_pos hversion] at h
    cases h
  rw [if_neg hversion] at h ⊢
  cases hv : (gate.auth.compositeValidate gate.store g.hello gate.now gate.written).1 with
  | error err =>
    cases err with
    | revoked => exact ⟨_, rfl, rfl⟩
    | enroll err => cases err <;> exact ⟨_, rfl, rfl⟩
    | badToken => exact ⟨_, rfl, rfl⟩
    | missingAgentID => exact ⟨_, rfl, rfl⟩
    | reservedAgentID => exact ⟨_, rfl, rfl⟩
  | ok i =>
    simp only [hv] at h
    by_cases hkind : g.kind = kindControl
    · rw [if_pos hkind, Gate.welcome] at h
      simp only at h
      split at h <;> cases h
    · rw [if_neg hkind] at h
      split at h
      · cases h
      · split at h <;> cases h

theorem refuses_fatal {d : Dialer} (h : d.refuses tr a = true) :
    ∃ err, d.connect tr a = .error err ∧ err.isFatal = true := by
  unfold Dialer.refuses Dialer.greeted at h
  unfold Dialer.connect Dialer.greeted
  rw [Bool.and_eq_true] at h
  obtain ⟨hdelivered, hcounted⟩ := h
  cases hgate : a.gate with
  | none =>
    rw [hgate] at hcounted
    cases hcounted
  | some gate =>
    rw [hgate] at hcounted
    obtain ⟨err, herr, hfatal⟩ := counted_fatal (g := d.greeting tr a.state) hcounted
    refine ⟨err, ?_, hfatal⟩
    simp only [Option.map_some, hdelivered, if_true, Gate.handle_hello, herr]

/-- The transports of one cycle, in the order of the ladder down to its last rung. -/
def Dialer.Climbs (d : Dialer) (trs : List Transport) : Prop :=
  match d.transport with
  | none => trs.Sublist transportPreference ∧ Transport.mux ∈ trs
  | some tr => trs = [tr]

/-- What holds in every run: the last rung is never parked, a cycle climbs the ladder, a session has
one set of capabilities at both ends, and an agent that is told that its credential is refused has
given up. -/
structure Reconnect.Sound (d : Dialer) (s : Reconnect) : Prop where
  mux : s.cooldown .mux = none
  trying : ∀ tr rest failedBefore, s.phase = .trying tr rest failedBefore →
    d.Climbs (failedBefore ++ tr :: rest)
  serving : ∀ tr failedBefore caps sess, s.phase = .serving tr failedBefore caps sess →
    Agreed tr caps sess ∧ ∃ rest, d.Climbs (failedBefore ++ tr :: rest)
  gaveUp : ∀ err, s.phase = .gaveUp err → err.isFatal = true
  told : s.told = 0 ∨ s.told = 1 ∧ ∃ err, s.phase = .gaveUp err

theorem clearCooldown_apply (cd : Cooldown) (tr x : Transport) :
    clearCooldown cd tr x = if x = tr then none else cd x := by
  unfold clearCooldown
  rw [Function.update_apply]

theorem mux_unparked {cd : Cooldown} (h : cd .mux = none) {failedBefore : List Transport}
    (hnot : Transport.mux ∉ failedBefore) (tr : Transport) (now : Int) :
    clearCooldown (coolTransports cd failedBefore now) tr .mux = none := by
  rw [clearCooldown_apply]
  split
  · rfl
  · rw [coolTransports, if_neg hnot, h]

namespace Reconnect

theorem sound_start (d : Dialer) (clock : Int) : (start clock).Sound d where
  mux := rfl
  trying := nofun
  serving := nofun
  gaveUp := nofun
  told := .inl rfl

theorem Sound.failed {d : Dialer} {s : Reconnect} {err : LinkError} {failedBefore : List Transport}
    (h : s.Sound d) (hphase : s.phase = .trying tr rest failedBefore)
    (hnew : n = s.told ∨ s.told = 0 ∧ n = 1 ∧ err.isFatal = true) :
    ({ s with told := n }.failed tr rest failedBefore err).Sound d := by
  have hclimbs := h.trying tr rest failedBefore hphase
  have hquiet : s.told = 0 := by
    obtain hzero | ⟨-, err', hgave⟩ := h.told
    · exact hzero
    · rw [hphase] at hgave
      cases hgave
  unfold Reconnect.failed
  by_cases hfatal : err.isFatal = true
  · refine ⟨h.mux, ?_, ?_, ?_, ?_⟩
    all_goals simp only [if_pos hfatal]
    · nofun
    · nofun
    · intro err' heq
      cases heq
      exact hfatal
    · obtain rfl | ⟨-, rfl, -⟩ := hnew
      · exact .inl hquiet
      · exact .inr ⟨rfl, err, rfl⟩
  · have hn : n = 0 := by
      obtain rfl | ⟨-, -, hf⟩ := hnew
      · exact hquiet
      · exact absurd hf hfatal
    refine ⟨h.mux, ?_, ?_, ?_, .inl hn⟩
    all_goals simp only [if_neg hfatal]
    · intro tr' rest' failedBefore' heq
      cases rest with
      | nil => cases heq
      | cons next rest =>
        cases heq
        rw [List.append_assoc]
        exact hclimbs
    · intro tr' failedBefore' caps sess heq
      cases rest with
      | nil => cases heq
      | cons next rest => cases heq
    · intro err' heq
      cases rest with
      | nil => cases heq
      | cons next rest => cases heq

theorem Sound.untold {d : Dialer} {s : Reconnect} (h : s.Sound d)
    (hphase : ∀ err, s.phase ≠ .gaveUp err) : s.told = 0 := by
  obtain hzero | ⟨-, err, hgave⟩ := h.told
  · exact hzero
  · exact absurd hgave (hphase err)

theorem Sound.step {d : Dialer} {s t : Reconnect} {l : LadderStep} (h : s.Sound d)
    (hs : s.step d l = some t) : t.Sound d := by
  unfold Reconnect.step at hs
  cases l with
  | tick dt =>
    simp only at hs
    split at hs
    · cases hs
      exact ⟨h.mux, h.trying, h.serving, h.gaveUp, h.told⟩
    · cases hs
  | begin =>
    simp only at hs
    split at hs
    · rename_i tr rest hphase horder
      cases hs
      refine ⟨h.mux, ?_, nofun, nofun, ?_⟩
      · intro tr' rest' failedBefore' heq
        cases heq
        rw [List.nil_append, ← horder, order, Dialer.Climbs]
        cases d.transport with
        | none =>
          refine ⟨ladderOrder_sublist s.cooldown s.clock, (mem_ladderOrder h.mux _ _).2 ?_⟩
          intro till htill
          rw [h.mux] at htill
          cases htill
        | some tr => rfl
      · exact .inl (h.untold (hphase ▸ nofun))
    · cases hs
  | attempt a =>
    simp only at hs
    split at hs
    · rename_i tr rest failedBefore hphase
      cases hconnect : d.connect tr a with
      | ok p =>
        obtain ⟨caps, sess⟩ := p
        rw [hconnect] at hs
        cases hs
        have hkept : d.refuses tr a = false := by
          rw [Bool.eq_false_iff]
          intro hrefuses
          obtain ⟨err, herr, -⟩ := refuses_fatal hrefuses
          rw [hconnect] at herr
          cases herr
        refine ⟨h.mux, nofun, ?_, nofun, ?_⟩
        · intro tr' failedBefore' caps' sess' heq
          cases heq
          exact ⟨connect_agreed hconnect, rest, h.trying _ _ _ hphase⟩
        · left
          simp only [hkept, h.untold (hphase ▸ nofun)]
          rfl
      | error err =>
        rw [hconnect] at hs
        cases hs
        refine h.failed hphase ?_
        by_cases hrefuses : d.refuses tr a = true
        · obtain ⟨err', herr, hfatal⟩ := refuses_fatal hrefuses
          rw [hconnect] at herr
          cases herr
          have hzero := h.untold (hphase ▸ nofun)
          right
          refine ⟨hzero, ?_, hfatal⟩
          rw [if_pos hrefuses, hzero]
        · left
          rw [if_neg hrefuses]
          rfl
    · cases hs
  | ends =>
    simp only at hs
    split at hs
    · rename_i tr failedBefore caps sess hphase
      cases hs
      obtain ⟨-, rest, hclimbs⟩ := h.serving _ _ _ _ hphase
      refine ⟨?_, nofun, nofun, nofun, ?_⟩
      · unfold ended Dialer.Climbs at *
        cases htransport : d.transport with
        | none =>
          rw [htransport] at hclimbs
          rw [if_pos rfl]
          exact mux_unparked h.mux (mux_last hclimbs.1) tr s.clock
        | some tr => exact h.mux
      · exact .inl (h.untold (hphase ▸ nofun))
    · cases hs
  | wake netChanged =>
    simp only at hs
    split at hs
    · rename_i hphase
      have htold := h.untold (hphase ▸ nofun)
      split at hs
      · cases hs
        exact ⟨rfl, nofun, nofun, nofun, .inl htold⟩
      · cases hs
        exact ⟨h.mux, nofun, nofun, nofun, .inl htold⟩
    · cases hs
  | cancel =>
    simp only at hs
    split at hs
    · cases hs
    · cases hs
    · rename_i hgave hstopped
      cases hs
      exact ⟨h.mux, nofun, nofun, nofun, .inl (h.untold hgave)⟩

/-- Whatever the gateways and the networks do: the last rung of the ladder is never parked, a cycle
climbs in order, both ends of a session agree on what they may use, and the agent is told at most
once that its credential is refused. -/
theorem sound_of_reaches {d : Dialer} {clock : Int} {s : Reconnect}
    (hr : Reaches (step d) (start clock) ls s) : s.Sound d :=
  hr.invariant (fun _ _ _ h hs => h.step hs) (sound_start d clock)

/-- The transports that are up, and no others, get through to a session here. -/
def Over (up : Transport → Bool) (d : Dialer) (s : Reconnect) : LadderStep → Prop
  | .attempt a => ∀ tr rest failedBefore, s.phase = .trying tr rest failedBefore →
      match d.connect tr a with
      | .ok _ => up tr = true
      | .error err => up tr = false ∧ err.isFatal = false
  | _ => True

/-- The transport is up and no better one is. -/
def Best (up : Transport → Bool) (tr : Transport) : Prop :=
  up tr = true ∧ ∀ x, up x = true → transportPreference.idxOf tr ≤ transportPreference.idxOf x

/-- The last failed attempt over the transport is long ago. -/
def Waited (s : Reconnect) (x : Transport) : Prop :=
  ∀ t, s.lastFailed x = some t → t + transportReprobeAfter ≤ s.clock

/-- It is long ago, or the transport is parked until it will be. -/
def Rested (s : Reconnect) (x : Transport) : Prop :=
  ∀ t, s.lastFailed x = some t → t + transportReprobeAfter ≤ s.clock ∨
    ∃ till, s.cooldown x = some till ∧ t + transportReprobeAfter ≤ till

/-- The transports that failed in this cycle are down, and the others are rested. -/
structure Passed (up : Transport → Bool) (s : Reconnect) (failedBefore : List Transport) :
    Prop where
  down : ∀ x ∈ failedBefore, up x = false
  past : ∀ x ∈ failedBefore, ∀ t, s.lastFailed x = some t → t ≤ s.clock
  rested : ∀ x ∉ failedBefore, s.Rested x

/-- What holds while the network stays as it is. -/
structure Settled (up : Transport → Bool) (s : Reconnect) : Prop where
  mux : s.cooldown .mux = none
  parked : ∀ x till, s.cooldown x = some till → up x = false
  between : s.phase = .idle ∨ s.phase = .waiting → ∀ x, s.Rested x
  trying : ∀ tr rest failedBefore, s.phase = .trying tr rest failedBefore →
    (∀ x, up x = true → x ∈ tr :: rest) ∧
      (failedBefore ++ tr :: rest).Sublist transportPreference ∧
      (∀ x ∈ tr :: rest, s.Waited x) ∧ Passed up s failedBefore
  serving : ∀ tr failedBefore caps sess, s.phase = .serving tr failedBefore caps sess →
    Best up tr ∧ s.Waited tr ∧ Transport.mux ∉ failedBefore ∧ Passed up s failedBefore

/-- No transport is parked, and no failure is remembered. -/
def Fresh (s : Reconnect) : Prop :=
  s.phase = .idle ∧ (∀ x, s.cooldown x = none) ∧ ∀ x, s.lastFailed x = none

theorem Fresh.settled {s : Reconnect} (h : s.Fresh) (up : Transport → Bool) : s.Settled up := by
  obtain ⟨hphase, hcooldown, hfailed⟩ := h
  refine ⟨hcooldown .mux, fun x till hx => ?_, fun _ x t ht => ?_,
    fun tr rest failedBefore hp => ?_, fun tr failedBefore caps sess hp => ?_⟩
  · rw [hcooldown] at hx
    cases hx
  · rw [hfailed] at ht
    cases ht
  · rw [hphase] at hp
    cases hp
  · rw [hphase] at hp
    cases hp

theorem Rested.later {s : Reconnect} (h : s.Rested x) (hd : 0 ≤ dt) :
    ({ s with clock := s.clock + dt } : Reconnect).Rested x := by
  intro t ht
  obtain hlong | hparked := h t ht
  · exact .inl (hlong.trans (le_add_of_nonneg_right hd))
  · exact .inr hparked

theorem Waited.later {s : Reconnect} (h : s.Waited x) (hd : 0 ≤ dt) :
    ({ s with clock := s.clock + dt } : Reconnect).Waited x :=
  fun t ht => (h t ht).trans (le_add_of_nonneg_right hd)

theorem Passed.later {s : Reconnect} (h : Passed up s failedBefore) (hd : 0 ≤ dt) :
    Passed up { s with clock := s.clock + dt } failedBefore where
  down := h.down
  past := fun x hx t ht => (h.past x hx t ht).trans (le_add_of_nonneg_right hd)
  rested := fun x hx => (h.rested x hx).later hd

theorem Waited.rested {s : Reconnect} (h : s.Waited x) : s.Rested x := fun t ht => .inl (h t ht)

theorem Settled.begin {s : Reconnect} {rest : List Transport} (h : s.Settled up)
    (hphase : s.phase = .idle)
    (horder : ladderOrder s.cooldown s.clock = tr :: rest) :
    ({ s with phase := .trying tr rest [] } : Reconnect).Settled up := by
  refine ⟨h.mux, h.parked, by simp, fun tr' rest' failedBefore' heq => ?_, nofun⟩
  cases heq
  refine ⟨fun x hx => ?_, horder ▸ ladderOrder_sublist _ _, fun x hx t ht => ?_, ⟨nofun, nofun,
    fun x _ => h.between (.inl hphase) x⟩⟩
  · rw [← horder, mem_ladderOrder h.mux]
    intro till htill
    rw [h.parked x till htill] at hx
    cases hx
  · rw [← horder, mem_ladderOrder h.mux] at hx
    obtain hlong | ⟨till, htill, hle⟩ := h.between (.inl hphase) x t ht
    · exact hlong
    · exact hle.trans (hx till htill)

theorem Settled.failed {s : Reconnect} {rest : List Transport} (h : s.Settled up)
    (hup : up y = true) (hphase : s.phase = .trying tr rest failedBefore) (hdown : up tr = false)
    (hfatal : err.isFatal = false) (n : Nat) :
    ({ s with told := n }.failed tr rest failedBefore err).Settled up := by
  obtain ⟨hall, hsub, hwaited, hpassed⟩ := h.trying tr rest failedBefore hphase
  cases rest with
  | nil =>
    have hy := List.mem_singleton.1 (hall y hup)
    rw [← hy, hup] at hdown
    cases hdown
  | cons next rest =>
    have hnodup : (tr :: next :: rest).Nodup :=
      ((List.sublist_append_right failedBefore _).trans hsub).nodup (by decide)
    have hne (x : Transport) (hx : x ∈ next :: rest) : x ≠ tr :=
      fun heq => (List.nodup_cons.1 hnodup).1 (heq ▸ hx)
    unfold Reconnect.failed
    refine ⟨h.mux, h.parked, ?_, fun tr' rest' failedBefore' heq => ?_, ?_⟩
    · simp only [hfatal]
      simp
    · simp only [hfatal] at heq
      cases heq
      refine ⟨fun x hx => ?_, by rw [List.append_assoc]; exact hsub, fun x hx t ht => ?_,
        ⟨fun x hx => ?_, fun x hx t ht => ?_, fun x hx t ht => ?_⟩⟩
      · obtain rfl | hmem := List.mem_cons.1 (hall x hx)
        · rw [hx] at hdown
          cases hdown
        · exact hmem
      · simp only [if_neg (hne x hx)] at ht
        exact hwaited x (List.mem_cons_of_mem tr hx) t ht
      · obtain hold | hnew := List.mem_append.1 hx
        · exact hpassed.down x hold
        · rw [List.mem_singleton.1 hnew]
          exact hdown
      · by_cases heq : x = tr
        · simp only [if_pos heq, Option.some_inj] at ht
          exact ht.symm.le
        · simp only [if_neg heq] at ht
          obtain hold | hnew := List.mem_append.1 hx
          · exact hpassed.past x hold t ht
          · exact absurd (List.mem_singleton.1 hnew) heq
      · rw [List.mem_append, not_or, List.mem_singleton] at hx
        simp only [if_neg hx.2] at ht
        exact hpassed.rested x hx.1 t ht
    · simp only [hfatal]
      nofun

theorem Settled.ended {d : Dialer} {s : Reconnect} (h : s.Settled up) (hauto : d.transport = none)
    (hphase : s.phase = .serving tr failedBefore caps sess) :
    (s.ended d tr failedBefore).Settled up := by
  obtain ⟨hbest, hwaited, hmux, hpassed⟩ := h.serving _ _ _ _ hphase
  unfold Reconnect.ended
  rw [if_pos hauto]
  refine ⟨mux_unparked h.mux hmux tr s.clock, fun x till hx => ?_, fun _ x => ?_, nofun, nofun⟩
  · simp only [clearCooldown_apply, coolTransports] at hx
    split at hx
    · cases hx
    · split at hx
      · exact hpassed.down x ‹_›
      · exact h.parked x till hx
  · by_cases htr : x = tr
    · rw [htr]
      exact Waited.rested (s := { s with cooldown := _, phase := _ }) hwaited
    · by_cases hin : x ∈ failedBefore
      · intro t ht
        refine .inr ⟨s.clock + transportReprobeAfter, ?_, ?_⟩
        · simp only [clearCooldown_apply, coolTransports, if_neg htr, if_pos hin]
        · exact Int.add_le_add_right (hpassed.past x hin t ht) _
      · intro t ht
        obtain hlong | ⟨till, htill, hle⟩ := hpassed.rested x hin t ht
        · exact .inl hlong
        · refine .inr ⟨till, ?_, hle⟩
          simp only [clearCooldown_apply, coolTransports, if_neg htr, if_neg hin, htill]

theorem Settled.step {d : Dialer} {s t : Reconnect} {l : LadderStep} (h : s.Settled up)
    (hup : up y = true) (hauto : d.transport = none) (hover : Over up d s l)
    (hs : s.step d l = some t) : t.Settled up := by
  unfold Reconnect.step at hs
  cases l with
  | tick dt =>
    simp only at hs
    split at hs
    · rename_i hd
      cases hs
      refine ⟨h.mux, h.parked, fun hp x => (h.between hp x).later hd,
        fun tr rest failedBefore hp => ?_, fun tr failedBefore caps sess hp => ?_⟩
      · obtain ⟨hall, hsub, hwaited, hpassed⟩ := h.trying tr rest failedBefore hp
        exact ⟨hall, hsub, fun x hx => (hwaited x hx).later hd, hpassed.later hd⟩
      · obtain ⟨hbest, hwaited, hmux, hpassed⟩ := h.serving tr failedBefore caps sess hp
        exact ⟨hbest, hwaited.later hd, hmux, hpassed.later hd⟩
    · cases hs
  | begin =>
    simp only at hs
    split at hs
    · rename_i tr rest hphase horder
      cases hs
      unfold order at horder
      rw [hauto] at horder
      exact h.begin hphase horder
    · cases hs
  | attempt a =>
    simp only at hs
    split at hs
    · rename_i tr rest failedBefore hphase
      have hresult := hover tr rest failedBefore hphase
      obtain ⟨hall, hsub, hwaited, hpassed⟩ := h.trying tr rest failedBefore hphase
      cases hconnect : d.connect tr a with
      | ok p =>
        rw [hconnect] at hs hresult
        cases hs
        refine ⟨h.mux, h.parked, by simp, nofun, fun tr' failedBefore' caps' sess' heq => ?_⟩
        cases heq
        refine ⟨⟨hresult, fun x hx => ?_⟩, hwaited tr List.mem_cons_self, mux_last hsub,
          ⟨hpassed.down, hpassed.past, hpassed.rested⟩⟩
        have hrank : (tr :: rest).Pairwise fun x y =>
            transportPreference.idxOf x < transportPreference.idxOf y :=
          List.Pairwise.sublist ((List.sublist_append_right failedBefore _).trans hsub) (by decide)
        obtain rfl | hmem := List.mem_cons.1 (hall x hx)
        · exact le_rfl
        · exact ((List.pairwise_cons.1 hrank).1 x hmem).le
      | error err =>
        rw [hconnect] at hs hresult
        cases hs
        exact h.failed hup hphase hresult.1 hresult.2 _
    · cases hs
  | ends =>
    simp only at hs
    split at hs
    · rename_i tr failedBefore caps sess hphase
      cases hs
      exact h.ended hauto hphase
    · cases hs
  | wake netChanged =>
    simp only at hs
    split at hs
    · rename_i hphase
      split at hs
      · cases hs
        exact Fresh.settled ⟨rfl, fun _ => rfl, fun _ => rfl⟩ up
      · cases hs
        exact ⟨h.mux, h.parked, fun _ => h.between (.inr hphase), nofun, nofun⟩
    · cases hs
  | cancel =>
    simp only at hs
    split at hs
    · cases hs
    · cases hs
    · cases hs
      exact ⟨h.mux, h.parked, by simp, nofun, nofun⟩

/-- While the same transports are up, if only one: every session is over the best of them, no cycle
runs out of transports, and one that failed is not tried again for five minutes unless the network
changes. -/
theorem settled_of_reaches {d : Dialer} {s t : Reconnect} (hauto : d.transport = none)
    (hup : up y = true) (hfresh : s.Fresh) (hr : Reaches (step d) s ls t)
    (hover : Along (step d) (Over up d) s ls) :
    (∀ tr failedBefore caps sess, t.phase = .serving tr failedBefore caps sess → Best up tr) ∧
      ∀ tr rest failedBefore, t.phase = .trying tr rest failedBefore →
        t.Waited tr ∧ y ∈ tr :: rest := by
  have h : t.Settled up := hr.invariant_of_along
    (fun _ _ _ hs hl hstep => hs.step hup hauto hl hstep) (hfresh.settled up) hover
  refine ⟨fun tr failedBefore caps sess hp => (h.serving _ _ _ _ hp).1,
    fun tr rest failedBefore hp => ?_⟩
  obtain ⟨hall, -, hwaited, -⟩ := h.trying tr rest failedBefore hp
  exact ⟨hwaited tr List.mem_cons_self, hall y hup⟩

/-- An agent with a shared token, on a network that blocks UDP. -/
def tokenDialer : Dialer :=
  ⟨{ defaultConfig.agent with agentID := "a", token := "t" }, none, protocolVersion⟩

def tokenGate : Gate where
  allowed := true
  auth := ⟨some "t", "fp", id, fun pub _ sig => pub = sig⟩
  store := .empty
  now := 0
  written := true
  ptr := 1
  ip := ""
  gatewayID := ""
  isPrint := fun _ => true
  admitted := fun _ => some 1
  needsSeed := fun _ => false

def udpBlocked : List LadderStep :=
  [.begin, .attempt ⟨none, ("", 0), false, false⟩, .attempt ⟨some tokenGate, ("", 0), true, true⟩]

theorem udpBlocked_reaches : ∃ s caps sess, Reaches (step tokenDialer) (start 0) udpBlocked s ∧
    s.phase = .serving .perConn [.quic] caps sess :=
  ⟨_, _, _, .cons rfl (.cons rfl (.cons rfl (.nil _))), rfl⟩

theorem sound_udpBlocked : ∃ s, Reaches (step tokenDialer) (start 0) udpBlocked s ∧
    s.Sound tokenDialer := by
  obtain ⟨s, -, -, hr, -⟩ := udpBlocked_reaches
  exact ⟨s, hr, sound_of_reaches hr⟩

theorem settled_udpBlocked : ∃ s caps sess,
    Reaches (step tokenDialer) (start 0) udpBlocked s ∧
      s.phase = .serving .perConn [.quic] caps sess ∧ Best (· ≠ .quic) .perConn := by
  obtain ⟨s, caps, sess, hr, hphase⟩ := udpBlocked_reaches
  have hover : Along (step tokenDialer) (Over (· ≠ .quic) tokenDialer) (start 0) udpBlocked := by
    refine along_cons rfl trivial (along_cons rfl ?_ (along_cons rfl ?_ trivial))
    · intro tr rest failedBefore heq
      cases heq
      exact ⟨rfl, rfl⟩
    · intro tr rest failedBefore heq
      cases heq
      exact (rfl : decide (Transport.perConn ≠ .quic) = true)
  exact ⟨s, caps, sess, hr, hphase, (settled_of_reaches (y := .mux) rfl rfl
    ⟨rfl, fun _ => rfl, fun _ => rfl⟩ hr hover).1 _ _ _ _ hphase⟩

end Reconnect

end ProxyForward

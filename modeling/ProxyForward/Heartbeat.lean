import Mathlib.Logic.Function.Basic
import ProxyForward.LinkQuality
import ProxyForward.Runs

namespace ProxyForward.Heartbeat
open LinkQuality Runs
set_option autoImplicit true

/-- Times and durations are in nanoseconds. -/
def second : Int := 1000000000

def millisecond : Int := 1000000

def pingInterval : Int := 5 * second

/-- The liveness read deadline of both sides. -/
def controlIdleTimeout : Int := 15 * second

def lossWindow : Nat := DefaultWindow

/-- How long a ping waits for its pong before it counts as lost. -/
def lossTimeout : Int := 2 * pingInterval

/-- The agent's deadline for the answer to its hello. -/
def helloTimeout : Int := 10 * second

/-- The gateway's for the control stream of an admitted agent. -/
def preAuthTimeout : Int := 10 * second

inductive Role where
  | agent
  | gateway
  deriving DecidableEq, Repr

namespace Role

def peer : Role → Role
  | agent => gateway
  | gateway => agent

/-- How long a side waits for what lets it serve: the gateway's `hello_ok`, or the agent's control
stream. -/
def openTimeout : Role → Int
  | agent => helloTimeout
  | gateway => preAuthTimeout

@[simp] theorem peer_peer (role : Role) : role.peer.peer = role := by
  cases role <;> rfl

@[simp] theorem peer_ne (role : Role) : role.peer ≠ role := by
  cases role <;> decide

@[simp] theorem ne_peer (role : Role) : role ≠ role.peer := (peer_ne role).symm

theorem both {P : Role → Prop} (role : Role) (h : P role) (hpeer : P role.peer) : ∀ r, P r := by
  intro r
  cases role with
  | agent =>
    cases r with
    | agent => exact h
    | gateway => exact hpeer
  | gateway =>
    cases r with
    | agent => exact hpeer
    | gateway => exact h

instance decidableBoth (P : Role → Prop) [DecidablePred P] : Decidable (∀ role, P role) :=
  decidable_of_iff (P .agent ∧ P .gateway)
    ⟨fun h => both .agent h.1 h.2, fun h => ⟨h .agent, h .gateway⟩⟩

theorem openTimeout_eq (role : Role) : role.openTimeout = 10 * second := by
  cases role <;> rfl

end Role

/-- What the control stream carries. The opening is what lets the other side serve; the rest of the
protocol's messages are alike to the heartbeat. -/
inductive Msg where
  | opening
  | ping (seq : Nat) (sent : Int)
  | pong (seq : Nat) (sent : Int)
  | other
  | closed
  deriving DecidableEq, Repr

structure Frame where
  sentAt : Int
  msg : Msg
  deriving DecidableEq, Repr

inductive Phase where
  | opening
  | serving
  | ended
  deriving DecidableEq, Repr

/-- One side's session: when its reader began to wait, when its ticker fires next, and what it
measures. -/
structure Session where
  phase : Phase
  readSince : Int
  due : Int
  pingSeq : Nat
  quality : LinkQuality.Tracker
  rttMillis : Int

namespace Session

def new : Session where
  phase := .opening
  readSince := 0
  due := 0
  pingSeq := 0
  quality := New lossWindow
  rttMillis := 0

/-- The read deadline in force. -/
def timeout (me : Session) (role : Role) : Int :=
  match me.phase with
  | .opening => role.openTimeout
  | _ => controlIdleTimeout

def serve (me : Session) (now : Int) : Session :=
  { me with phase := .serving, readSince := now, due := now + pingInterval }

/-- A ticker whose reader is late drops the ticks it has no room for. -/
def nextTick (due now : Int) : Int := due + pingInterval * ((now - due) / pingInterval + 1)

def onTick (me : Session) (now : Int) (visit : List Nat) : Session :=
  { me with
    due := nextTick me.due now
    pingSeq := me.pingSeq + 1
    quality := (me.quality.Sweep now lossTimeout visit).OnSent (me.pingSeq + 1) now }

/-- The round trip is at least 1 ms: 0 stands for no measurement. It is read off the wall clock,
which is not stepped here. -/
def onPong (me : Session) (now : Int) (seq : Nat) (sent : Int) : Session :=
  { me with
    rttMillis := max 1 ((now - sent).tdiv millisecond)
    quality := me.quality.OnPong seq (now - sent) }

/-- The reader is not past its deadline by more than the slack, nor the ticker. -/
def InTime (me : Session) (slack : Int) (role : Role) (now : Int) : Prop :=
  (me.phase ≠ .ended → now ≤ me.readSince + me.timeout role + slack) ∧
    (me.phase = .serving → now ≤ me.due + slack)

instance (me : Session) (slack : Int) (role : Role) (now : Int) :
    Decidable (me.InTime slack role now) :=
  inferInstanceAs (Decidable (_ ∧ _))

end Session

/-- Both sides, the frames under way to each, and since when each gets no more of them. -/
structure State where
  now : Int
  session : Role → Session
  toward : Role → List Frame
  cutAt : Role → Option Int

namespace State

/-- One side serves; the opening is under way to the other, which has been waiting for it. -/
def init (first : Role) (waited : Int) : State where
  now := 0
  session := Function.update (fun _ => Session.new.serve 0) first.peer
    { Session.new with readSince := -waited }
  toward := Function.update (fun _ => []) first.peer [⟨0, .opening⟩]
  cutAt _ := none

def set (s : State) (role : Role) (me : Session) : State :=
  { s with session := Function.update s.session role me }

def send (s : State) (role : Role) (msg : Msg) : State :=
  match s.cutAt role with
  | some _ => s
  | none => { s with toward := Function.update s.toward role (s.toward role ++ [⟨s.now, msg⟩]) }

/-- A side that gives up closes the session. -/
def close (s : State) (role : Role) : State :=
  (s.set role { s.session role with phase := .ended }).send role.peer .closed

/-- The reader's new deadline runs from here. -/
def heard (s : State) (role : Role) : Session := { s.session role with readSince := s.now }

/-- `handleControlMsg`, and what comes before and after the serving. -/
def handle (s : State) (role : Role) (msg : Msg) : State :=
  match (s.session role).phase, msg with
  | .ended, _ => s
  | .opening, .opening => s.set role ((s.session role).serve s.now)
  | .opening, _ => s.close role
  | .serving, .closed => s.close role
  | .serving, .ping seq sent => (s.set role (s.heard role)).send role.peer (.pong seq sent)
  | .serving, .pong seq sent => s.set role ((s.heard role).onPong s.now seq sent)
  | .serving, .opening => s.set role (s.heard role)
  | .serving, .other => s.set role (s.heard role)

def drop (s : State) (role : Role) (rest : List Frame) : State :=
  { s with toward := Function.update s.toward role rest }

end State

inductive Step where
  | wait (d : Int)
  | tick (role : Role) (visit : List Nat)
  | say (role : Role)
  | deliver (role : Role)
  | expire (role : Role)
  | leave (role : Role)
  | cut (role : Role)
  deriving DecidableEq, Repr

/-- What the heartbeat has no part in. -/
def Step.disturbs : Step → Bool
  | .leave _ => true
  | .cut _ => true
  | _ => false

section

-- How late a timer may run, and how long a frame may take to be handled.
variable (slack δ : Int)

/-- No timer is late by more than the slack after the wait, and no frame under way too old. -/
def Patient (s : State) (now : Int) : Prop :=
  (∀ role, (s.session role).InTime slack role now) ∧
    ∀ role, ∀ f ∈ s.toward role, now ≤ f.sentAt + δ

instance (s : State) (now : Int) : Decidable (Patient slack δ s now) :=
  inferInstanceAs (Decidable (_ ∧ _))

/-- A side may write before it serves, as the agent does for its tunnels; it may leave for any
reason. A side that is cut off gets nothing more. -/
def step (s : State) : Step → Option State
  | .wait d =>
    if 0 ≤ d ∧ Patient slack δ s (s.now + d) then some { s with now := s.now + d } else none
  | .tick role visit =>
    let me := s.session role
    if me.phase = .serving ∧ me.due ≤ s.now ∧ visit.Perm me.quality.outstanding.keys then
      some ((s.set role (me.onTick s.now visit)).send role.peer (.ping (me.pingSeq + 1) s.now))
    else none
  | .say role =>
    if (s.session role).phase ≠ .ended then some (s.send role.peer .other) else none
  | .deliver role =>
    match s.toward role with
    | [] => none
    | f :: rest => some ((s.drop role rest).handle role f.msg)
  | .expire role =>
    let me := s.session role
    if me.phase ≠ .ended ∧ me.readSince + me.timeout role ≤ s.now then some (s.close role)
    else none
  | .leave role =>
    if (s.session role).phase ≠ .ended then some (s.close role) else none
  | .cut role =>
    if s.cutAt role = none then
      some { s with
        toward := Function.update s.toward role []
        cutAt := Function.update s.cutAt role (some s.now) }
    else none

end

namespace State

variable {s : State} {role : Role}

variable {first : Role} {waited : Int}

theorem init_session : (init first waited).session first = Session.new.serve 0 := by
  simp [init]

theorem init_session_peer :
    (init first waited).session first.peer = { Session.new with readSince := -waited } := by
  simp [init]

theorem init_toward : (init first waited).toward first = [] := by
  simp [init]

theorem init_toward_peer : (init first waited).toward first.peer = [⟨0, .opening⟩] := by
  simp [init]

@[simp] theorem set_session_self : (s.set role me).session role = me :=
  Function.update_self (β := fun _ => Session) role me s.session

@[simp] theorem set_session_peer : (s.set role me).session role.peer = s.session role.peer :=
  Function.update_of_ne (β := fun _ => Session) role.peer_ne me s.session

@[simp] theorem send_now : (s.send role msg).now = s.now := by
  unfold send
  split <;> rfl

@[simp] theorem send_session : (s.send role msg).session = s.session := by
  unfold send
  split <;> rfl

@[simp] theorem send_cutAt : (s.send role msg).cutAt = s.cutAt := by
  unfold send
  split <;> rfl

theorem send_toward (h : s.cutAt role = none) :
    (s.send role msg).toward role = s.toward role ++ [⟨s.now, msg⟩] := by
  rw [send, h]
  exact Function.update_self role _ s.toward

theorem send_toward_cut (h : s.cutAt role = some c) : s.send role msg = s := by
  rw [send, h]

theorem send_toward_of_ne (h : r ≠ role) : (s.send role msg).toward r = s.toward r := by
  unfold send
  split
  · rfl
  · exact Function.update_of_ne h _ s.toward

@[simp] theorem send_toward_self : (s.send role.peer msg).toward role = s.toward role :=
  send_toward_of_ne role.ne_peer

@[simp] theorem drop_toward_self : (s.drop role rest).toward role = rest :=
  Function.update_self (β := fun _ => List Frame) role rest s.toward

@[simp] theorem drop_toward_peer : (s.drop role rest).toward role.peer = s.toward role.peer :=
  Function.update_of_ne (β := fun _ => List Frame) role.peer_ne rest s.toward

end State

end ProxyForward.Heartbeat

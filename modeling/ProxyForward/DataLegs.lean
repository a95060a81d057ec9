import ProxyForward.Actor
import ProxyForward.Listeners
import ProxyForward.Runs

namespace ProxyForward
set_option autoImplicit true

/-- Where the accept path of a dialed-back data connection stands: its hello validated, matched to a
player's pending entry, refused and about to be closed, or through. -/
inductive DialPhase where
  | arrived
  | matched (n : Nat)
  | refused
  | finished
  deriving DecidableEq, Repr

def DialPhase.target? : DialPhase → Option Nat
  | .matched n => some n
  | _ => none

theorem DialPhase.matched_of_target? {p : DialPhase} (h : p.target? = some n) :
    p = .matched n := by
  unfold DialPhase.target? at h
  split at h
  · cases h
    rfl
  · cases h

/-- A data connection with the agent id its hello was validated to and the id it named. -/
structure DataConn where
  agentID : String
  connID : String
  phase : DialPhase
  closed : Bool
  deriving DecidableEq, Repr

/-- Where the acquisition of one player's data leg stands: its entry stored, `open_data` written,
`take` woken by the timer or the session's context, `openDataConn` about to return, `openFlow` about
to go on, spliced, with its leg closed, or through. -/
inductive FlowPhase where
  | registered
  | waiting
  | woken
  | returning (leg : Option Nat)
  | returned (leg : Option Nat)
  | splicing (k : Nat)
  | ending (k : Nat)
  | finished
  deriving DecidableEq, Repr

/-- One player on a tunnel of a session, with the fields of its `pendingConn`. -/
structure Flow where
  sess : AgentSession
  phase : FlowPhase
  conn : Option Nat
  done : Bool
  deriving DecidableEq, Repr

/-- How far the eviction of a session is. `Range` has to visit the keys it found at the start. -/
inductive Draining where
  | live
  | cancelled
  | ranging (todo visited : List String)
  | drained
  deriving DecidableEq, Repr

/-- The pending table and the players and data connections of all agents, with the data connections
each session tracks. -/
structure DataLegs where
  connSeq : Nat
  flows : Nat → Option Flow
  pendingData : GoMap Nat
  conns : Nat → Option DataConn
  draining : AgentSession → Draining
  dataConns : AgentSession → GoMap Nat

/-- The steps of a player's own goroutine, from the answer of the `open_data` write on. -/
inductive PlayerStep where
  | writeOpenData (ok : Bool)
  | takeReady
  | wake
  | takeLocked
  | delete
  | record
  | closeLeg
  | releaseFlow
  deriving DecidableEq, Repr

/-- The steps of a data connection's accept path after its hello. -/
inductive DialStep where
  | load
  | deliver
  | close
  deriving DecidableEq, Repr

inductive LegStep where
  | openDataConn (sess : AgentSession)
  | player (n : Nat) (a : PlayerStep)
  | hello (k : Nat) (agentID connID : String)
  | dial (k : Nat) (a : DialStep)
  | cancel (sess : AgentSession)
  | rangeStart (sess : AgentSession)
  | visit (sess : AgentSession) (connID : String)
  | rangeEnd (sess : AgentSession)
  deriving DecidableEq, Repr

/-- The id that correlates the `n`-th connection. -/
def connID (n : Nat) : String := toString n

theorem connID_injective : Function.Injective connID := by
  intro m n h
  have hread := congrArg (fun s : String => Nat.ofDigitChars 10 s.toList 0) h
  simpa only [connID, Nat.toString_eq_repr, Nat.toList_repr, Nat.ofDigitChars_ten_toDigits]
    using hread

/-- The leg that `take` handed to the player. -/
def Flow.leg? (f : Flow) : Option Nat :=
  match f.phase with
  | .returning leg | .returned leg => leg
  | .splicing k | .ending k => some k
  | .registered | .waiting | .woken | .finished => none

/-- The leg that the session tracks for the player. -/
def Flow.tracked? (f : Flow) : Option Nat :=
  match f.phase with
  | .splicing k | .ending k => some k
  | _ => none

/-- The player has yet to take what is delivered. -/
def Flow.awaiting (f : Flow) : Bool :=
  match f.phase with
  | .registered | .waiting | .woken => true
  | _ => false

namespace DataLegs

def start : DataLegs := ⟨0, fun _ => none, ∅, fun _ => none, fun _ => .live, fun _ => ∅⟩

def setFlow (s : DataLegs) (n : Nat) (f : Flow) : DataLegs :=
  { s with flows := Function.update s.flows n (some f) }

def setConn (s : DataLegs) (k : Nat) (d : DataConn) : DataLegs :=
  { s with conns := Function.update s.conns k (some d) }

def track (s : DataLegs) (sess : AgentSession) (m : GoMap Nat) : DataLegs :=
  { s with dataConns := Function.update s.dataConns sess m }

def drain (s : DataLegs) (sess : AgentSession) (p : Draining) : DataLegs :=
  { s with draining := Function.update s.draining sess p }

def closeConn (s : DataLegs) (k : Nat) : DataLegs :=
  match s.conns k with
  | none => s
  | some d => s.setConn k { d with closed := true }

/-- The lookup of a dial-back in the pending table, and the identity check. -/
def handleDataConn (s : DataLegs) (d : DataConn) : DialPhase :=
  if d.connID = "" then .refused
  else match s.pendingData.lookup d.connID with
    | none => .refused
    | some n =>
      match s.flows n with
      | none => .refused
      | some f => if f.sess.agentID ≠ d.agentID then .refused else .matched n

def playerStep (s : DataLegs) (n : Nat) (f : Flow) : PlayerStep → Option DataLegs
  | .writeOpenData ok =>
    if f.phase = .registered then
      some (s.setFlow n { f with phase := if ok then .waiting else .returning none })
    else none
  | .takeReady =>
    if f.phase = .waiting ∧ f.conn.isSome then
      some (s.setFlow n { f with phase := .returning f.conn })
    else none
  | .wake => if f.phase = .waiting then some (s.setFlow n { f with phase := .woken }) else none
  | .takeLocked =>
    if f.phase = .woken then
      if f.done then some (s.setFlow n { f with phase := .returning f.conn })
      else some (s.setFlow n { f with phase := .returning none, done := true })
    else none
  | .delete =>
    match f.phase with
    | .returning leg =>
      some { s.setFlow n { f with phase := .returned leg } with
        pendingData := s.pendingData.erase (connID n) }
    | _ => none
  | .record =>
    match f.phase with
    | .returned none => some (s.setFlow n { f with phase := .finished })
    | .returned (some k) =>
      some ((s.setFlow n { f with phase := .splicing k }).track f.sess
        ((s.dataConns f.sess).insert (connID n) k))
    | _ => none
  | .closeLeg =>
    match f.phase with
    | .splicing k => some ((s.closeConn k).setFlow n { f with phase := .ending k })
    | _ => none
  | .releaseFlow =>
    match f.phase with
    | .ending _ =>
      some ((s.setFlow n { f with phase := .finished }).track f.sess
        ((s.dataConns f.sess).erase (connID n)))
    | _ => none

/-- Hand a matched connection to the waiting player, unless the player already gave up. -/
def deliver (s : DataLegs) (k n : Nat) (d : DataConn) (f : Flow) : DataLegs :=
  if f.done then s.setConn k { d with phase := .refused }
  else (s.setConn k { d with phase := .finished }).setFlow n { f with conn := some k, done := true }

def dialStep (s : DataLegs) (k : Nat) (d : DataConn) : DialStep → Option DataLegs
  | .load =>
    if d.phase = .arrived then some (s.setConn k { d with phase := s.handleDataConn d }) else none
  | .deliver => d.phase.target?.bind fun n => (s.flows n).map fun f => s.deliver k n d f
  | .close =>
    if d.phase = .refused then some (s.setConn k { d with phase := .finished, closed := true })
    else none

def step (s : DataLegs) : LegStep → Option DataLegs
  | .openDataConn sess =>
    let n := s.connSeq + 1
    some { s.setFlow n ⟨sess, .registered, none, false⟩ with
      connSeq := n
      pendingData := s.pendingData.insert (connID n) n }
  | .player n a => (s.flows n).bind fun f => s.playerStep n f a
  | .hello k agentID connID =>
    match s.conns k with
    | none => some (s.setConn k ⟨agentID, connID, .arrived, false⟩)
    | some _ => none
  | .dial k a => (s.conns k).bind fun d => s.dialStep k d a
  | .cancel sess => if s.draining sess = .live then some (s.drain sess .cancelled) else none
  | .rangeStart sess =>
    if s.draining sess = .cancelled then
      some (s.drain sess (.ranging (s.dataConns sess).keys []))
    else none
  | .visit sess id =>
    match s.draining sess with
    | .ranging todo visited =>
      if id ∈ visited then none
      else ((s.dataConns sess).lookup id).map fun k =>
        (s.closeConn k).drain sess (.ranging todo (id :: visited))
    | _ => none
  | .rangeEnd sess =>
    match s.draining sess with
    | .ranging todo visited =>
      if ∀ id ∈ todo, id ∈ visited ∨ id ∉ s.dataConns sess then some (s.drain sess .drained)
      else none
    | _ => none

variable {s t : DataLegs} {f : Flow} {d : DataConn}

theorem closeConn_conns (hd : s.conns k = some d) :
    (s.closeConn k).conns = Function.update s.conns k (some { d with closed := true }) := by
  simp only [closeConn, hd, setConn]

theorem closeConn_eq (s : DataLegs) (k : Nat) :
    s.closeConn k = { s with conns := (s.closeConn k).conns } := by
  unfold closeConn
  split <;> rfl

/-- What a player's step does: the player moves on and takes nothing new; it touches no entry but
its own, and at most closes a connection. -/
structure Moved (s : DataLegs) (n : Nat) (f : Flow) (a : PlayerStep) (t : DataLegs) : Prop where
  flows : ∃ f' : Flow, t.flows = Function.update s.flows n (some f') ∧ f'.sess = f.sess ∧
    f'.conn = f.conn ∧
    ∀ k, f'.tracked? = some k → f.tracked? = some k ∨ a = .record ∧ f.leg? = some k
  conns : t.conns = s.conns ∨ ∃ k, t.conns = (s.closeConn k).conns
  pending : ∀ c, c ≠ connID n → t.pendingData.lookup c = s.pendingData.lookup c
  draining : t.draining = s.draining

theorem moved_setFlow (a : PlayerStep) (f' : Flow) (hsess : f'.sess = f.sess)
    (hconn : f'.conn = f.conn) (htracked : f'.tracked? = none) :
    Moved s n f a (s.setFlow n f') := by
  refine ⟨⟨f', rfl, hsess, hconn, fun k hk => ?_⟩, .inl rfl, fun _ _ => rfl, rfl⟩
  rw [htracked] at hk
  cases hk

theorem moved_of_playerStep (hs : s.playerStep n f a = some t) : Moved s n f a t := by
  cases a with
  | writeOpenData ok =>
    simp only [playerStep] at hs
    split at hs <;> cases hs
    cases ok <;> exact moved_setFlow _ _ rfl rfl rfl
  | takeReady | wake =>
    simp only [playerStep] at hs
    split at hs <;> cases hs
    exact moved_setFlow _ _ rfl rfl rfl
  | takeLocked =>
    simp only [playerStep] at hs
    split at hs
    · split at hs <;> cases hs <;> exact moved_setFlow _ _ rfl rfl rfl
    · cases hs
  | delete =>
    simp only [playerStep] at hs
    split at hs <;> cases hs
    rename_i leg _
    refine ⟨⟨{ f with phase := .returned leg }, rfl, rfl, rfl, fun k hk => ?_⟩, .inl rfl,
      fun c hc => ?_, rfl⟩
    · cases hk
    · exact (lookup_erase_eq _ _ _).trans (if_neg hc)
  | record =>
    simp only [playerStep] at hs
    split at hs <;> cases hs
    · exact moved_setFlow _ _ rfl rfl rfl
    · rename_i k hph
      refine ⟨⟨{ f with phase := .splicing k }, rfl, rfl, rfl, fun j hj => .inr ⟨rfl, ?_⟩⟩,
        .inl rfl, fun _ _ => rfl, rfl⟩
      simpa only [Flow.leg?, Flow.tracked?, hph] using hj
  | closeLeg =>
    simp only [playerStep] at hs
    split at hs <;> cases hs
    rename_i k hph
    rw [closeConn_eq]
    refine ⟨⟨{ f with phase := .ending k }, rfl, rfl, rfl, fun j hj => .inl ?_⟩, .inr ⟨k, rfl⟩,
      fun _ _ => rfl, rfl⟩
    simpa only [Flow.tracked?, hph] using hj
  | releaseFlow =>
    simp only [playerStep] at hs
    split at hs <;> cases hs
    refine ⟨⟨{ f with phase := .finished }, rfl, rfl, rfl, fun k hk => ?_⟩, .inl rfl,
      fun _ _ => rfl, rfl⟩
    cases hk

/-- What a step of an accept path does: its connection, not through before, moves on, and a delivery
marks the matched player. -/
structure Dialed (s : DataLegs) (k : Nat) (d : DataConn) (a : DialStep) (t : DataLegs) : Prop where
  under : d.phase ≠ .finished
  conns : ∃ d' : DataConn, t.conns = Function.update s.conns k (some d')
  flows : t.flows = s.flows ∨ ∃ n f, a = .deliver ∧ d.phase = .matched n ∧ s.flows n = some f ∧
    t.flows = Function.update s.flows n (some { f with conn := some k, done := true })
  pending : t.pendingData = s.pendingData
  draining : t.draining = s.draining

theorem dialed_of_dialStep (hs : s.dialStep k d a = some t) : Dialed s k d a t := by
  cases a with
  | load | close =>
    simp only [dialStep] at hs
    split at hs <;> cases hs
    rename_i hph
    refine ⟨?_, ⟨_, rfl⟩, .inl rfl, rfl, rfl⟩
    rw [hph]
    exact DialPhase.noConfusion
  | deliver =>
    simp only [dialStep, Option.bind_eq_some_iff, Option.map_eq_some_iff] at hs
    obtain ⟨n, hn, f, hf, rfl⟩ := hs
    have hph := DialPhase.matched_of_target? hn
    have hunder : d.phase ≠ .finished := by
      rw [hph]
      exact DialPhase.noConfusion
    unfold deliver
    split
    · exact ⟨hunder, ⟨_, rfl⟩, .inl rfl, rfl, rfl⟩
    · exact ⟨hunder, ⟨_, rfl⟩, .inr ⟨n, f, rfl, hph, hf, rfl⟩, rfl, rfl⟩

/-- Everything else leaves the players there are alone. -/
structure Apart (s : DataLegs) (l : LegStep) (t : DataLegs) : Prop where
  flows : ∀ n, n ≤ s.connSeq → t.flows n = s.flows n
  fresh : ∀ n f, t.flows n = some f → s.flows n = some f ∨ f.tracked? = none
  conns : t.conns = s.conns ∨ (∃ k d, s.conns k = none ∧
    t.conns = Function.update s.conns k (some d)) ∨ ∃ k, t.conns = (s.closeConn k).conns
  pending : ∀ n, n ≤ s.connSeq → t.pendingData.lookup (connID n) = s.pendingData.lookup (connID n)
  draining : ∀ sess, t.draining sess = .drained → s.draining sess = .drained ∨ l = .rangeEnd sess
  ranging : ∀ sess todo visited, t.draining sess = .ranging todo visited →
    s.draining sess = .ranging todo visited ∨ visited = [] ∨
      ∃ id rest k, visited = id :: rest ∧ s.draining sess = .ranging todo rest ∧
        (s.dataConns sess).lookup id = some k ∧ t.conns = (s.closeConn k).conns ∧
        t.flows = s.flows

theorem eq_or_of_drain {p q : Draining} (h : (s.drain sess p).draining sess' = q) :
    sess = sess' ∧ p = q ∨ s.draining sess' = q := by
  simp only [drain, Function.update_apply] at h
  split at h
  · exact .inl ⟨Eq.symm ‹_›, h⟩
  · exact .inr h

theorem drained_of_drain {p : Draining} (hp : p ≠ .drained)
    (h : (s.drain sess p).draining sess' = .drained) : s.draining sess' = .drained := by
  obtain ⟨-, h⟩ | h := eq_or_of_drain h
  · exact absurd h hp
  · exact h

theorem apart_of_step (hs : s.step l = some t) :
    (∃ n f a, l = .player n a ∧ s.flows n = some f ∧ s.playerStep n f a = some t) ∨
    (∃ k d a, l = .dial k a ∧ s.conns k = some d ∧ s.dialStep k d a = some t) ∨ Apart s l t := by
  cases l with
  | player n a =>
    obtain ⟨f, hf, hs⟩ := Option.bind_eq_some_iff.1 hs
    exact .inl ⟨n, f, a, rfl, hf, hs⟩
  | dial k a =>
    obtain ⟨d, hd, hs⟩ := Option.bind_eq_some_iff.1 hs
    exact .inr (.inl ⟨k, d, a, rfl, hd, hs⟩)
  | openDataConn sess =>
    obtain rfl := Option.some.inj hs
    refine .inr (.inr ⟨fun n hn => ?_, fun n f hf => ?_, .inl rfl, fun n hn => ?_, fun _ => .inl,
      fun _ _ _ => .inl⟩)
    · exact Function.update_of_ne (by omega) _ _
    · simp only [setFlow, Function.update_apply] at hf
      split at hf
      · obtain rfl := Option.some.inj hf
        exact .inr rfl
      · exact .inl hf
    · refine (lookup_insert_eq _ _ _ _).trans (if_neg fun he => ?_)
      have := connID_injective he
      omega
  | hello k agentID id =>
    simp only [DataLegs.step] at hs
    split at hs <;> cases hs
    exact .inr (.inr ⟨fun _ _ => rfl, fun _ _ => .inl, .inr (.inl ⟨k, _, ‹_›, rfl⟩), fun _ _ => rfl,
      fun _ => .inl, fun _ _ _ => .inl⟩)
  | cancel sess =>
    simp only [DataLegs.step] at hs
    split at hs <;> cases hs
    refine .inr (.inr ⟨fun _ _ => rfl, fun _ _ => .inl, .inl rfl, fun _ _ => rfl,
      fun _ h => .inl (drained_of_drain Draining.noConfusion h), fun sess' todo visited h => ?_⟩)
    obtain ⟨-, h⟩ | h := eq_or_of_drain h
    · cases h
    · exact .inl h
  | rangeStart sess =>
    simp only [DataLegs.step] at hs
    split at hs <;> cases hs
    refine .inr (.inr ⟨fun _ _ => rfl, fun _ _ => .inl, .inl rfl, fun _ _ => rfl,
      fun _ h => .inl (drained_of_drain Draining.noConfusion h), fun sess' todo visited h => ?_⟩)
    obtain ⟨-, h⟩ | h := eq_or_of_drain h
    · cases h
      exact .inr (.inl rfl)
    · exact .inl h
  | visit sess id =>
    simp only [DataLegs.step] at hs
    split at hs
    · split at hs
      · cases hs
      · rename_i todo visited hd _
        obtain ⟨k, hk, rfl⟩ := Option.map_eq_some_iff.1 hs
        rw [closeConn_eq]
        refine .inr (.inr ⟨fun _ _ => rfl, fun _ _ => .inl, .inr (.inr ⟨k, rfl⟩), fun _ _ => rfl,
          fun _ h => .inl (drained_of_drain (s := s) Draining.noConfusion h),
          fun sess' todo' visited' h => ?_⟩)
        obtain ⟨rfl, hsame⟩ | h := eq_or_of_drain (s := s) h
        · cases hsame
          exact .inr (.inr ⟨id, visited, k, rfl, hd, hk, rfl, rfl⟩)
        · exact .inl h
    · cases hs
  | rangeEnd sess =>
    simp only [DataLegs.step] at hs
    split at hs
    · split at hs <;> cases hs
      refine .inr (.inr ⟨fun _ _ => rfl, fun _ _ => .inl, .inl rfl, fun _ _ => rfl,
        fun sess' h => ?_, fun sess' todo visited h => ?_⟩)
      · obtain ⟨rfl, -⟩ | h := eq_or_of_drain h
        · exact .inr rfl
        · exact .inl h
      · obtain ⟨-, h⟩ | h := eq_or_of_drain h
        · cases h
        · exact .inl h
    · cases hs

end DataLegs

end ProxyForward

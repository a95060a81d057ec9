import Mathlib.Logic.Function.Basic
import ProxyForward.Runs

namespace ProxyForward
set_option autoImplicit true

/-! One `pendingConn`, at the grain of its lock, its fields and its channel. -/

namespace Handoff

inductive DeliverPhase
  | called | locked | refusing | stored | marked | closing
  | returned (ok : Bool)
  deriving DecidableEq, Repr

/-- A call of `deliver`. -/
structure Deliver where
  conn : Nat
  phase : DeliverPhase
  deriving DecidableEq, Repr

inductive TakePhase
  | waiting | woken | locked
  | leaving (got : Option Nat)
  | returned (got : Option Nat)
  deriving DecidableEq, Repr

inductive Holder
  | deliver (i : Nat)
  | take
  deriving DecidableEq, Repr

structure PendingConn where
  mu : Option Holder
  conn : Option Nat
  done : Bool
  /-- The `ready` channel is closed. -/
  ready : Bool
  delivers : Nat → Option Deliver
  take : TakePhase
  /-- A closed channel was closed. -/
  panicked : Bool

inductive HandoffStep
  | deliver (i conn : Nat)
  | run (i : Nat)
  /-- The select of `take` wakes: for the channel, or for the context or the timer. -/
  | ready
  | giveUp
  | runTake
  deriving DecidableEq, Repr

namespace PendingConn

def init : PendingConn := ⟨none, none, false, false, fun _ => none, .waiting, false⟩

def moveTo (s : PendingConn) (i : Nat) (d : Deliver) (phase : DeliverPhase) : PendingConn :=
  { s with delivers := Function.update s.delivers i (some { d with phase }) }

/-- What `deliver` does next. -/
def runDeliver (s : PendingConn) (i : Nat) (d : Deliver) : Option PendingConn :=
  match d.phase with
  | .called =>
    if s.mu = none then some { s.moveTo i d .locked with mu := some (.deliver i) } else none
  | .locked =>
    if s.done then some (s.moveTo i d .refusing)
      else some { s.moveTo i d .stored with conn := some d.conn }
  | .refusing => some { s.moveTo i d (.returned false) with mu := none }
  | .stored => some { s.moveTo i d .marked with done := true }
  | .marked => some { s.moveTo i d .closing with mu := none }
  | .closing =>
    if s.ready then some { s with panicked := true }
    else some { s.moveTo i d (.returned true) with ready := true }
  | .returned _ => none

/-- What `take` does next, once its select is over. -/
def runTake (s : PendingConn) : Option PendingConn :=
  match s.take with
  | .waiting | .returned _ => none
  | .woken => if s.mu = none then some { s with take := .locked, mu := some .take } else none
  | .locked =>
    if s.done then some { s with take := .leaving s.conn }
      else some { s with take := .leaving none, done := true }
  | .leaving got => some { s with take := .returned got, mu := none }

def step (s : PendingConn) : HandoffStep → Option PendingConn
  | .deliver i conn =>
    match s.delivers i with
    | none => some { s with delivers := Function.update s.delivers i (some ⟨conn, .called⟩) }
    | some _ => none
  | .run i => (s.delivers i).bind (s.runDeliver i)
  | .ready =>
    match s.take with
    | .waiting => if s.ready then some { s with take := .returned s.conn } else none
    | _ => none
  | .giveUp =>
    match s.take with
    | .waiting => some { s with take := .woken }
    | _ => none
  | .runTake => s.runTake

/-- Every call has returned. -/
def Quiet (s : PendingConn) : Prop :=
  (∃ got, s.take = .returned got) ∧ ∀ i d, s.delivers i = some d → ∃ ok, d.phase = .returned ok

/-- Nothing panics, no call is stuck, and once all have returned each connection has one owner. -/
structure ExactlyOnce (s : PendingConn) : Prop where
  noPanic : s.panicked = false
  live : ¬s.Quiet → ∃ l t, (∀ i conn, l ≠ .deliver i conn) ∧ s.step l = some t
  owner : s.Quiet → ∀ c, s.take = .returned (some c) ↔ ∃! i, s.delivers i = some ⟨c, .returned true⟩
  single : ∀ i j c c', s.delivers i = some ⟨c, .returned true⟩ →
    s.delivers j = some ⟨c', .returned true⟩ → i = j
  nobody : s.take = .returned none → ∀ i c, s.delivers i ≠ some ⟨c, .returned true⟩

end PendingConn

/-- Who decided the handoff. -/
inductive Claim
  | nobody
  | deliver (i : Nat)
  | take
  deriving DecidableEq, Repr

/-- Where a `deliver` may be under a claim. -/
def DeliverPhase.OK (s : PendingConn) (claim : Claim) (i conn : Nat) : DeliverPhase → Prop
  | .called => claim ≠ .deliver i
  | .locked => s.mu = some (.deliver i) ∧ claim ≠ .deliver i
  | .refusing => s.mu = some (.deliver i) ∧ claim ≠ .nobody ∧ claim ≠ .deliver i
  | .stored => s.mu = some (.deliver i) ∧ claim = .nobody ∧ s.conn = some conn
  | .marked => s.mu = some (.deliver i) ∧ claim = .deliver i ∧ s.conn = some conn ∧ s.ready = false
  | .closing => claim = .deliver i ∧ s.conn = some conn ∧ s.ready = false
  | .returned true => claim = .deliver i ∧ s.conn = some conn ∧ s.ready = true
  | .returned false => claim ≠ .nobody ∧ claim ≠ .deliver i

def TakePhase.OK (s : PendingConn) (claim : Claim) : TakePhase → Prop
  | .waiting | .woken => claim ≠ .take
  | .locked => s.mu = some .take ∧ claim ≠ .take
  | .leaving none => s.mu = some .take ∧ claim = .take
  | .leaving (some c) => s.mu = some .take ∧ s.conn = some c ∧ ∃ i, claim = .deliver i
  | .returned none => claim = .take
  | .returned (some c) => s.conn = some c ∧ ∃ i, claim = .deliver i

theorem DeliverPhase.OK.frame {p : DeliverPhase} (hok : p.OK s claim j conn)
    (hmu : s.mu = some (.deliver j) → t.mu = some (.deliver j))
    (hclaim : claim' = .deliver j ↔ claim = .deliver j)
    (hclaimed : claim ≠ .nobody → claim' ≠ .nobody)
    (hstored : s.mu = some (.deliver j) → claim = .nobody → claim' = .nobody ∧ t.conn = s.conn)
    (hmine : claim = .deliver j → t.conn = s.conn ∧ t.ready = s.ready) : p.OK t claim' j conn := by
  have hnot : claim ≠ .deliver j → claim' ≠ .deliver j := fun h h' => h (hclaim.1 h')
  cases p with
  | called => exact hnot hok
  | locked => exact ⟨hmu hok.1, hnot hok.2⟩
  | refusing => exact ⟨hmu hok.1, hclaimed hok.2.1, hnot hok.2.2⟩
  | stored =>
    obtain ⟨hlock, hnobody, hconn⟩ := hok
    obtain ⟨hnobody', hkept⟩ := hstored hlock hnobody
    exact ⟨hmu hlock, hnobody', hkept.trans hconn⟩
  | marked =>
    obtain ⟨hlock, hc, hconn, hready⟩ := hok
    exact ⟨hmu hlock, hclaim.2 hc, (hmine hc).1.trans hconn, (hmine hc).2.trans hready⟩
  | closing =>
    obtain ⟨hc, hconn, hready⟩ := hok
    exact ⟨hclaim.2 hc, (hmine hc).1.trans hconn, (hmine hc).2.trans hready⟩
  | returned ok =>
    cases ok with
    | true =>
      obtain ⟨hc, hconn, hready⟩ := hok
      exact ⟨hclaim.2 hc, (hmine hc).1.trans hconn, (hmine hc).2.trans hready⟩
    | false => exact ⟨hclaimed hok.1, hnot hok.2⟩

theorem TakePhase.OK.frame {p : TakePhase} (hok : p.OK s claim)
    (hmu : s.mu = some .take → t.mu = some .take) (hclaim : claim' = .take ↔ claim = .take)
    (hmine : ∀ i, claim = .deliver i → t.conn = s.conn ∧ claim' = .deliver i) : p.OK t claim' := by
  have hnot : claim ≠ .take → claim' ≠ .take := fun h h' => h (hclaim.1 h')
  cases p with
  | waiting => exact hnot hok
  | woken => exact hnot hok
  | locked => exact ⟨hmu hok.1, hnot hok.2⟩
  | leaving got =>
    cases got with
    | none => exact ⟨hmu hok.1, hclaim.2 hok.2⟩
    | some c =>
      obtain ⟨hlock, hconn, i, hc⟩ := hok
      exact ⟨hmu hlock, (hmine i hc).1.trans hconn, i, (hmine i hc).2⟩
  | returned got =>
    cases got with
    | none => exact hclaim.2 hok
    | some c =>
      obtain ⟨hconn, i, hc⟩ := hok
      exact ⟨(hmine i hc).1.trans hconn, i, (hmine i hc).2⟩

def DeliverPhase.holds : DeliverPhase → Bool
  | .locked | .refusing | .stored | .marked => true
  | .called | .closing | .returned _ => false

def TakePhase.holds : TakePhase → Bool
  | .locked | .leaving _ => true
  | .waiting | .woken | .returned _ => false

/-- The claim explains the fields, the lock is held by who is in its section, and every call is
where the claim allows it. -/
structure Inv (s : PendingConn) (claim : Claim) : Prop where
  noPanic : s.panicked = false
  done : s.done = true ↔ claim ≠ .nobody
  ready : s.ready = true → ∃ i, claim = .deliver i
  claimed : ∀ i, claim = .deliver i → ∃ d, s.delivers i = some d
  deliver : ∀ i d, s.delivers i = some d → d.phase.OK s claim i d.conn
  take : s.take.OK s claim
  heldDeliver : ∀ i, s.mu = some (.deliver i) → ∃ d, s.delivers i = some d ∧ d.phase.holds = true
  heldTake : s.mu = some .take → s.take.holds = true

namespace Inv

theorem init : Inv .init .nobody where
  noPanic := rfl
  done := by decide
  ready h := nomatch h
  claimed i h := nomatch h
  deliver i d h := nomatch h
  take := Claim.noConfusion
  heldDeliver i h := nomatch h
  heldTake h := nomatch h

theorem move {s t : PendingConn} (h : Inv s claim)
    (hdelivers : t.delivers = Function.update s.delivers i (some d))
    (hpanic : t.panicked = false) (hdone : t.done = true ↔ claim' ≠ .nobody)
    (hready : t.ready = true → ∃ j, claim' = .deliver j)
    (hclaimed : ∀ j, claim' = .deliver j → j = i ∨ claim = .deliver j)
    (hself : d.phase.OK t claim' i d.conn)
    (hothers : ∀ j conn (p : DeliverPhase), j ≠ i → p.OK s claim j conn → p.OK t claim' j conn)
    (htake : t.take.OK t claim')
    (hmu : ∀ j, t.mu = some (.deliver j) →
      (j = i ∧ d.phase.holds = true) ∨ j ≠ i ∧ s.mu = some (.deliver j))
    (hmuTake : t.mu = some .take → t.take.holds = true) : Inv t claim' := by
  have hself' : t.delivers i = some d := by rw [hdelivers, Function.update_self]
  have hother {j : Nat} (hj : j ≠ i) : t.delivers j = s.delivers j := by
    rw [hdelivers, Function.update_of_ne hj]
  refine ⟨hpanic, hdone, hready, fun j hj => ?_, fun j d' hj => ?_, htake, fun j hj => ?_, hmuTake⟩
  · by_cases hji : j = i
    · exact ⟨d, hji ▸ hself'⟩
    · obtain ⟨d', hd'⟩ := h.claimed j ((hclaimed j hj).resolve_left hji)
      exact ⟨d', (hother hji).trans hd'⟩
  · by_cases hji : j = i
    · subst hji
      obtain rfl := Option.some.inj (hself'.symm.trans hj)
      exact hself
    · exact hothers j d'.conn d'.phase hji (h.deliver j d' ((hother hji).symm.trans hj))
  · obtain ⟨rfl, hholds⟩ | ⟨hji, hj⟩ := hmu j hj
    · exact ⟨d, hself', hholds⟩
    · obtain ⟨d', hd', hholds⟩ := h.heldDeliver j hj
      exact ⟨d', (hother hji).trans hd', hholds⟩

theorem moveTake {s t : PendingConn} (h : Inv s claim) (hdelivers : t.delivers = s.delivers)
    (hpanic : t.panicked = s.panicked) (hdone : t.done = true ↔ claim' ≠ .nobody)
    (hready : t.ready = s.ready) (hclaim : ∀ j, claim' = .deliver j ↔ claim = .deliver j)
    (hself : t.take.OK t claim')
    (hothers : ∀ j conn (p : DeliverPhase), p.OK s claim j conn → p.OK t claim' j conn)
    (hmu : ∀ j, t.mu = some (.deliver j) → s.mu = some (.deliver j))
    (hmuTake : t.mu = some .take → t.take.holds = true) : Inv t claim' where
  noPanic := hpanic.trans h.noPanic
  done := hdone
  ready hr := by
    obtain ⟨i, hi⟩ := h.ready (hready.symm.trans hr)
    exact ⟨i, (hclaim i).2 hi⟩
  claimed i hi := by
    rw [hdelivers]
    exact h.claimed i ((hclaim i).1 hi)
  deliver i d hd := hothers i d.conn d.phase (h.deliver i d ((congrFun hdelivers i).symm.trans hd))
  take := hself
  heldDeliver i hi := by
    rw [hdelivers]
    exact h.heldDeliver i (hmu i hi)
  heldTake := hmuTake

theorem conn_of_claim {s : PendingConn} (h : Inv s (.deliver i)) :
    ∃ d, s.delivers i = some d ∧ s.conn = some d.conn := by
  obtain ⟨d, hd⟩ := h.claimed i rfl
  have hown := h.deliver i d hd
  refine ⟨d, hd, ?_⟩
  cases hphase : d.phase with
  | called => exact absurd rfl (hphase ▸ hown : DeliverPhase.called.OK s _ i d.conn)
  | locked => exact absurd rfl (hphase ▸ hown : DeliverPhase.locked.OK s _ i d.conn).2
  | refusing => exact absurd rfl (hphase ▸ hown : DeliverPhase.refusing.OK s _ i d.conn).2.2
  | stored => exact (hphase ▸ hown : DeliverPhase.stored.OK s _ i d.conn).2.2
  | marked => exact (hphase ▸ hown : DeliverPhase.marked.OK s _ i d.conn).2.2.1
  | closing => exact (hphase ▸ hown : DeliverPhase.closing.OK s _ i d.conn).2.1
  | returned ok =>
    cases ok with
    | true => exact (hphase ▸ hown : (DeliverPhase.returned true).OK s _ i d.conn).2.1
    | false => exact absurd rfl (hphase ▸ hown : (DeliverPhase.returned false).OK s _ i d.conn).2

theorem holder_unique {s : PendingConn} (hmu : s.mu = some (.deliver i))
    (hj : s.mu = some (.deliver j)) :
    j = i :=
  (Holder.deliver.inj (Option.some.inj (hmu.symm.trans hj))).symm

theorem not_holder {s : PendingConn} (hmu : s.mu = some (.deliver i)) (hji : j ≠ i) :
    s.mu ≠ some (.deliver j) :=
  fun hj => hji (holder_unique hmu hj)

theorem not_taker {s : PendingConn} (hmu : s.mu = some (.deliver i)) : s.mu ≠ some .take := by
  intro htake
  cases hmu.symm.trans htake

theorem run {s t : PendingConn} (h : Inv s claim) (hd : s.delivers i = some d)
    (hs : s.runDeliver i d = some t) : ∃ claim', Inv t claim' := by
  have hown := h.deliver i d hd
  unfold PendingConn.runDeliver at hs
  cases hphase : d.phase with
  | called =>
    simp only [hphase, DeliverPhase.OK] at hs hown
    obtain ⟨hmu, hs⟩ := Option.ite_none_right_eq_some.1 hs
    obtain rfl := Option.some.inj hs
    have hfree {who : Holder} : s.mu ≠ some who := by simp [hmu]
    refine ⟨claim, h.move rfl h.noPanic h.done h.ready (fun _ => .inr) ⟨rfl, hown⟩ ?_ ?_ ?_ nofun⟩
    · intro j conn p _ hok
      exact hok.frame (absurd · hfree) .rfl id (absurd · hfree) (fun _ => ⟨rfl, rfl⟩)
    · exact h.take.frame (absurd · hfree) .rfl (fun _ hc => ⟨rfl, hc⟩)
    · intro j hj
      obtain rfl := Holder.deliver.inj (Option.some.inj hj)
      exact .inl ⟨rfl, rfl⟩
  | locked =>
    simp only [hphase, DeliverPhase.OK] at hs hown
    obtain ⟨hmu, hne⟩ := hown
    split at hs
    · rename_i hdone
      obtain rfl := Option.some.inj hs
      refine ⟨claim, h.move rfl h.noPanic h.done h.ready (fun _ => .inr)
        ⟨hmu, h.done.1 hdone, hne⟩ ?_ ?_ ?_ (absurd · (not_taker hmu))⟩
      · intro j conn p _ hok
        exact hok.frame id .rfl id (fun _ hc => ⟨hc, rfl⟩) (fun _ => ⟨rfl, rfl⟩)
      · exact h.take.frame id .rfl (fun _ hc => ⟨rfl, hc⟩)
      · intro j hj
        exact .inl ⟨holder_unique hmu hj, rfl⟩
    · rename_i hdone
      have hnobody : claim = .nobody := not_not.1 (mt h.done.2 hdone)
      obtain rfl := Option.some.inj hs
      refine ⟨claim, h.move rfl h.noPanic h.done h.ready (fun _ => .inr)
        ⟨hmu, hnobody, rfl⟩ ?_ ?_ ?_ (absurd · (not_taker hmu))⟩
      · intro j conn p hji hok
        have hfree := not_holder hmu hji
        exact hok.frame id .rfl id (absurd · hfree) (fun hc => by simp [hnobody] at hc)
      · exact h.take.frame id .rfl (fun _ hc => by simp [hnobody] at hc)
      · intro j hj
        exact .inl ⟨holder_unique hmu hj, rfl⟩
  | refusing =>
    simp only [hphase, DeliverPhase.OK] at hs hown
    obtain ⟨hmu, hsome, hne⟩ := hown
    obtain rfl := Option.some.inj hs
    refine ⟨claim, h.move rfl h.noPanic h.done h.ready (fun _ => .inr)
      ⟨hsome, hne⟩ ?_ ?_ nofun nofun⟩
    · intro j conn p hji hok
      have hfree := not_holder hmu hji
      exact hok.frame (absurd · hfree) .rfl id (absurd · hfree) (fun _ => ⟨rfl, rfl⟩)
    · exact h.take.frame (absurd · (not_taker hmu)) .rfl (fun _ hc => ⟨rfl, hc⟩)
  | stored =>
    simp only [hphase, DeliverPhase.OK] at hs hown
    obtain ⟨hmu, hnobody, hconn⟩ := hown
    obtain rfl := Option.some.inj hs
    have hready : s.ready = false := by
      by_contra hr
      obtain ⟨j, hj⟩ := h.ready (by simpa using hr)
      exact absurd (hnobody.symm.trans hj) nofun
    subst hnobody
    refine ⟨.deliver i, h.move rfl h.noPanic (by simp) (fun _ => ⟨i, rfl⟩)
      (fun j hj => .inl (Claim.deliver.inj hj).symm)
      ⟨hmu, rfl, hconn, hready⟩ ?_ ?_ ?_ (absurd · (not_taker hmu))⟩
    · intro j conn p hji hok
      exact hok.frame id (by simp [Ne.symm hji]) nofun (absurd · (not_holder hmu hji)) nofun
    · exact h.take.frame id (by simp) nofun
    · intro j hj
      exact .inl ⟨holder_unique hmu hj, rfl⟩
  | marked =>
    simp only [hphase, DeliverPhase.OK] at hs hown
    obtain ⟨hmu, hc, hconn, hready⟩ := hown
    obtain rfl := Option.some.inj hs
    refine ⟨claim, h.move rfl h.noPanic h.done h.ready (fun _ => .inr)
      ⟨hc, hconn, hready⟩ ?_ ?_ nofun nofun⟩
    · intro j conn p hji hok
      have hfree := not_holder hmu hji
      exact hok.frame (absurd · hfree) .rfl id (absurd · hfree) (fun _ => ⟨rfl, rfl⟩)
    · exact h.take.frame (absurd · (not_taker hmu)) .rfl (fun _ hc => ⟨rfl, hc⟩)
  | closing =>
    simp only [hphase, DeliverPhase.OK] at hs hown
    obtain ⟨hc, hconn, hready⟩ := hown
    simp only [hready, Bool.false_eq_true, if_false] at hs
    obtain rfl := Option.some.inj hs
    subst hc
    refine ⟨.deliver i, h.move rfl h.noPanic h.done (fun _ => ⟨i, rfl⟩) (fun _ => .inr)
      ⟨rfl, hconn, rfl⟩ ?_ ?_ ?_ h.heldTake⟩
    · intro j conn p hji hok
      exact hok.frame id .rfl id nofun (fun hj => absurd (Claim.deliver.inj hj).symm hji)
    · exact h.take.frame id .rfl (fun _ hc => ⟨rfl, hc⟩)
    · intro j hj
      refine .inr ⟨?_, hj⟩
      rintro rfl
      obtain ⟨d', hd', hholds⟩ := h.heldDeliver j hj
      obtain rfl := Option.some.inj (hd.symm.trans hd')
      simp [hphase, DeliverPhase.holds] at hholds
  | returned ok => simp only [hphase, reduceCtorEq] at hs

theorem claim_of_done {s : PendingConn} (h : Inv s claim) (hdone : s.done = true)
    (htake : claim ≠ .take) :
    ∃ i c, claim = .deliver i ∧ s.conn = some c := by
  cases claim with
  | nobody => exact absurd rfl (h.done.1 hdone)
  | take => exact absurd rfl htake
  | deliver i =>
    obtain ⟨d, -, hconn⟩ := h.conn_of_claim
    exact ⟨i, d.conn, rfl, hconn⟩

theorem runTake {s t : PendingConn} (h : Inv s claim) (hs : s.runTake = some t) :
    ∃ claim', Inv t claim' := by
  have hown := h.take
  unfold PendingConn.runTake at hs
  cases htake : s.take with
  | waiting => simp only [htake, reduceCtorEq] at hs
  | woken =>
    simp only [htake, TakePhase.OK] at hs hown
    obtain ⟨hmu, hs⟩ := Option.ite_none_right_eq_some.1 hs
    obtain rfl := Option.some.inj hs
    have hfree {who : Holder} : s.mu ≠ some who := by simp [hmu]
    refine ⟨claim, h.moveTake rfl rfl h.done rfl (fun _ => .rfl) ⟨rfl, hown⟩ ?_
      nofun (fun _ => rfl)⟩
    intro j conn p hok
    exact hok.frame (absurd · hfree) .rfl id (absurd · hfree) (fun _ => ⟨rfl, rfl⟩)
  | locked =>
    simp only [htake, TakePhase.OK] at hs hown
    obtain ⟨hmu, hne⟩ := hown
    have hfree {j : Nat} : s.mu ≠ some (.deliver j) := by simp [hmu]
    split at hs
    · rename_i hdone
      obtain ⟨i, c, rfl, hconn⟩ := h.claim_of_done hdone hne
      obtain rfl := Option.some.inj hs
      refine ⟨.deliver i, h.moveTake rfl rfl h.done rfl (fun _ => .rfl) ?_ ?_ (fun _ => id)
        (fun _ => rfl)⟩
      · rw [hconn]
        exact ⟨hmu, rfl, i, rfl⟩
      · intro j conn p hok
        exact hok.frame id .rfl id (absurd · hfree) (fun _ => ⟨rfl, rfl⟩)
    · rename_i hdone
      have hnobody : claim = .nobody := not_not.1 (mt h.done.2 hdone)
      subst hnobody
      obtain rfl := Option.some.inj hs
      refine ⟨.take, h.moveTake rfl rfl (by simp) rfl (by simp) ⟨hmu, rfl⟩ ?_ (fun _ => id)
        (fun _ => rfl)⟩
      intro j conn p hok
      exact hok.frame id (by simp) nofun (absurd · hfree) nofun
  | leaving got =>
    simp only [htake] at hs hown
    obtain rfl := Option.some.inj hs
    have hmu : s.mu = some .take := by
      cases got with
      | none => exact hown.1
      | some c => exact hown.1
    have hfree {j : Nat} : s.mu ≠ some (.deliver j) := by simp [hmu]
    refine ⟨claim, h.moveTake rfl rfl h.done rfl (fun _ => .rfl) ?_ ?_ nofun nofun⟩
    · cases got with
      | none => exact hown.2
      | some c => exact hown.2
    · intro j conn p hok
      exact hok.frame (absurd · hfree) .rfl id (absurd · hfree) (fun _ => ⟨rfl, rfl⟩)
  | returned got => simp only [htake, reduceCtorEq] at hs

theorem step {s t : PendingConn} (h : Inv s claim) (hs : s.step l = some t) :
    ∃ claim', Inv t claim' := by
  cases l with
  | deliver i conn =>
    simp only [PendingConn.step] at hs
    split at hs
    · rename_i hnew
      obtain rfl := Option.some.inj hs
      refine ⟨claim, h.move rfl h.noPanic h.done h.ready (fun _ => .inr) ?_ (fun _ _ _ _ => id)
        h.take ?_ h.heldTake⟩
      · rintro rfl
        obtain ⟨d, hd⟩ := h.claimed i rfl
        exact absurd (hnew.symm.trans hd) nofun
      · intro j hj
        refine .inr ⟨?_, hj⟩
        rintro rfl
        obtain ⟨d, hd, -⟩ := h.heldDeliver j hj
        exact absurd (hnew.symm.trans hd) nofun
    · exact absurd hs nofun
  | run i =>
    obtain ⟨d, hd, hs⟩ := Option.bind_eq_some_iff.1 hs
    exact h.run hd hs
  | ready =>
    simp only [PendingConn.step] at hs
    split at hs
    · rename_i htake
      obtain ⟨hready, hs⟩ := Option.ite_none_right_eq_some.1 hs
      obtain rfl := Option.some.inj hs
      obtain ⟨i, rfl⟩ := h.ready hready
      obtain ⟨d, -, hconn⟩ := h.conn_of_claim
      refine ⟨.deliver i, h.moveTake rfl rfl h.done rfl (fun _ => .rfl) ?_ (fun _ _ _ => id)
        (fun _ => id) ?_⟩
      · rw [hconn]
        exact ⟨rfl, i, rfl⟩
      · intro hmu
        exact absurd (htake ▸ h.heldTake hmu) nofun
    · exact absurd hs nofun
  | giveUp =>
    simp only [PendingConn.step] at hs
    split at hs
    · rename_i htake
      obtain rfl := Option.some.inj hs
      have hown := h.take
      rw [htake] at hown
      refine ⟨claim, h.moveTake rfl rfl h.done rfl (fun _ => .rfl) hown (fun _ _ _ => id)
        (fun _ => id) ?_⟩
      intro hmu
      exact absurd (htake ▸ h.heldTake hmu) nofun
    · exact absurd hs nofun
  | runTake => exact h.runTake hs
theorem returned_true {s : PendingConn} (h : Inv s claim)
    (hd : s.delivers i = some ⟨c, .returned true⟩) :
    claim = .deliver i ∧ s.conn = some c := by
  obtain ⟨hclaim, hconn, -⟩ := h.deliver i _ hd
  exact ⟨hclaim, hconn⟩

theorem take_returned {s : PendingConn} (h : Inv s claim) (htake : s.take = .returned (some c)) :
    s.conn = some c ∧ ∃ i, claim = .deliver i := by
  have hown := h.take
  rw [htake] at hown
  exact hown

theorem take_gave_up {s : PendingConn} (h : Inv s claim) (htake : s.take = .returned none) :
    claim = .take := by
  have hown := h.take
  rw [htake] at hown
  exact hown

theorem runDeliver_holds {s : PendingConn} (hholds : d.phase.holds = true) :
    ∃ t, s.runDeliver i d = some t := by
  unfold PendingConn.runDeliver
  cases hphase : d.phase with
  | called => simp [hphase, DeliverPhase.holds] at hholds
  | locked => cases s.done <;> exact ⟨_, rfl⟩
  | refusing => exact ⟨_, rfl⟩
  | stored => exact ⟨_, rfl⟩
  | marked => exact ⟨_, rfl⟩
  | closing => simp [hphase, DeliverPhase.holds] at hholds
  | returned ok => simp [hphase, DeliverPhase.holds] at hholds

theorem runTake_holds {s : PendingConn} (hholds : s.take.holds = true) :
    ∃ t, s.runTake = some t := by
  unfold PendingConn.runTake
  cases htake : s.take with
  | waiting => simp [htake, TakePhase.holds] at hholds
  | woken => simp [htake, TakePhase.holds] at hholds
  | locked => cases s.done <;> exact ⟨_, rfl⟩
  | leaving got => exact ⟨_, rfl⟩
  | returned got => simp [htake, TakePhase.holds] at hholds

theorem step_run {s : PendingConn} (hd : s.delivers i = some d)
    (hrun : ∃ t, s.runDeliver i d = some t) :
    ∃ l t, (∀ j conn, l ≠ .deliver j conn) ∧ s.step l = some t := by
  obtain ⟨t, ht⟩ := hrun
  exact ⟨.run i, t, nofun, Option.bind_eq_some_iff.2 ⟨d, hd, ht⟩⟩

theorem step_runTake {s : PendingConn} (hrun : ∃ t, s.runTake = some t) :
    ∃ l t, (∀ j conn, l ≠ .deliver j conn) ∧ s.step l = some t := by
  obtain ⟨t, ht⟩ := hrun
  exact ⟨.runTake, t, nofun, ht⟩

theorem held_runs {s : PendingConn} (h : Inv s claim) (hmu : s.mu ≠ none) :
    ∃ l t, (∀ j conn, l ≠ .deliver j conn) ∧ s.step l = some t := by
  obtain ⟨who, hwho⟩ := Option.ne_none_iff_exists'.1 hmu
  cases who with
  | deliver j =>
    obtain ⟨d, hd, hholds⟩ := h.heldDeliver j hwho
    exact step_run hd (runDeliver_holds hholds)
  | take => exact step_runTake (runTake_holds (h.heldTake hwho))

theorem deliver_runs {s : PendingConn} (h : Inv s claim) (hd : s.delivers i = some d)
    (hphase : ∀ ok, d.phase ≠ .returned ok) :
    ∃ l t, (∀ j conn, l ≠ .deliver j conn) ∧ s.step l = some t := by
  by_cases hmu : s.mu = none
  · apply step_run hd
    unfold PendingConn.runDeliver
    cases hp : d.phase with
    | called => exact ⟨_, if_pos hmu⟩
    | closing => cases s.ready <;> exact ⟨_, rfl⟩
    | returned ok => exact absurd hp (hphase ok)
    | locked => cases s.done <;> exact ⟨_, rfl⟩
    | refusing => exact ⟨_, rfl⟩
    | stored => exact ⟨_, rfl⟩
    | marked => exact ⟨_, rfl⟩
  · exact h.held_runs hmu

theorem take_runs {s : PendingConn} (h : Inv s claim) (htake : ∀ got, s.take ≠ .returned got) :
    ∃ l t, (∀ j conn, l ≠ .deliver j conn) ∧ s.step l = some t := by
  cases hp : s.take with
  | waiting =>
    refine ⟨.giveUp, { s with take := .woken }, nofun, ?_⟩
    simp only [PendingConn.step, hp]
  | woken =>
    by_cases hmu : s.mu = none
    · apply step_runTake
      simp only [PendingConn.runTake, hp, hmu, if_true]
      exact ⟨_, rfl⟩
    · exact h.held_runs hmu
  | locked => exact step_runTake (runTake_holds (by simp [hp, TakePhase.holds]))
  | leaving got => exact step_runTake (runTake_holds (by simp [hp, TakePhase.holds]))
  | returned got => exact absurd hp (htake got)

theorem live {s : PendingConn} (h : Inv s claim) (hbusy : ¬s.Quiet) :
    ∃ l t, (∀ j conn, l ≠ .deliver j conn) ∧ s.step l = some t := by
  by_cases htake : ∃ got, s.take = .returned got
  · by_contra hstuck
    refine hbusy ⟨htake, fun i d hd => ?_⟩
    by_contra hphase
    exact hstuck (h.deliver_runs hd fun ok hok => hphase ⟨ok, hok⟩)
  · exact h.take_runs fun got hgot => htake ⟨got, hgot⟩

theorem owner {s : PendingConn} (h : Inv s claim) (hquiet : s.Quiet) (c : Nat) :
    s.take = .returned (some c) ↔ ∃! i, s.delivers i = some ⟨c, .returned true⟩ := by
  constructor
  · intro htake
    obtain ⟨hconn, i, rfl⟩ := h.take_returned htake
    obtain ⟨d, hd, hconn'⟩ := h.conn_of_claim
    have hc : d.conn = c := Option.some.inj (hconn'.symm.trans hconn)
    obtain ⟨ok, hphase⟩ := hquiet.2 i d hd
    have hown := h.deliver i d hd
    rw [hphase] at hown
    cases ok with
    | true =>
      refine ⟨i, hd.trans (congrArg some ?_), fun j hj => ?_⟩
      · rw [← hc, ← hphase]
      · exact (Claim.deliver.inj (h.returned_true hj).1).symm
    | false => exact absurd rfl hown.2
  · rintro ⟨i, hi, -⟩
    obtain ⟨rfl, hconn⟩ := h.returned_true hi
    obtain ⟨got, htake⟩ := hquiet.1
    cases got with
    | none => exact absurd (h.take_gave_up htake) nofun
    | some c' =>
      have hc : c' = c := Option.some.inj ((h.take_returned htake).1.symm.trans hconn)
      rw [htake, hc]

theorem exactlyOnce {s : PendingConn} (h : Inv s claim) : s.ExactlyOnce where
  noPanic := h.noPanic
  live := h.live
  owner := h.owner
  single i j c c' hi hj :=
    Claim.deliver.inj ((h.returned_true hi).1.symm.trans (h.returned_true hj).1)
  nobody htake i c hi := by
    have hclaim := (h.take_gave_up htake).symm.trans (h.returned_true hi).1
    exact absurd hclaim nofun

end Inv

/-- However the calls interleave, a connection that was delivered has exactly one owner. -/
theorem always_exactlyOnce (ls : List HandoffStep) :
    Runs.Always PendingConn.step PendingConn.ExactlyOnce .init ls := by
  refine Runs.always_of_invariant (C := fun _ _ => True) (I := fun s => ∃ claim, Inv s claim)
    ?_ ?_ ⟨.nobody, Inv.init⟩ (Runs.along_of_forall (fun _ _ => trivial) _)
  · rintro s l t ⟨claim, h⟩ - hs
    exact h.step hs
  · rintro s ⟨claim, h⟩
    exact h.exactlyOnce

end Handoff

end ProxyForward

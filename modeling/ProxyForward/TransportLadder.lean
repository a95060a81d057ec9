import Mathlib.Algebra.Order.Ring.Int
import Mathlib.Data.List.Perm.Subperm
import Mathlib.Logic.Function.Basic
import ProxyForward.Runs

namespace ProxyForward.Ladder
set_option autoImplicit true
open Runs

inductive Transport where
  | quic
  | perConn
  | mux
  deriving DecidableEq, Repr

/-- The auto ladder, best isolation first. -/
def transportPreference : List Transport := [.quic, .perConn, .mux]

/-- Five minutes; times are nanoseconds. -/
def transportReprobeAfter : Int := 300000000000

/-- What `runSessionWith` comes to: no connection, for a reason that another transport may or may
not mend, the end of the agent, or a session that starts at `t` and is over at `ended`. -/
inductive Outcome where
  | failed (t : Int)
  | fatal (t : Int)
  | cancelled (t : Int)
  | connected (t ended : Int) (fatal : Bool)
  deriving DecidableEq, Repr

def Outcome.times : Outcome → List Int
  | .failed t | .fatal t | .cancelled t => [t]
  | .connected t ended _ => [t, ended]

/-- When the session of an attempt that connected was over. -/
def Outcome.ended? : Outcome → Option Int
  | .connected _ ended _ => some ended
  | .failed _ | .fatal _ | .cancelled _ => none

/-- `Run` does not go on after it. -/
def Outcome.stops : Outcome → Bool
  | .fatal _ | .cancelled _ | .connected _ _ true => true
  | .failed _ | .connected _ _ false => false

/-- `transportCooldown`. -/
abbrev Cooldown := Transport → Option Int

def ladderOrder (cd : Cooldown) (now : Int) : List Transport :=
  let out := transportPreference.filter fun tr => ¬∃ until_ ∈ cd tr, now < until_
  if out = [] then transportPreference else out

def coolTransports (cd : Cooldown) (trs : List Transport) (now : Int) : Cooldown :=
  fun tr => if tr ∈ trs then some (now + transportReprobeAfter) else cd tr

def clearCooldown (cd : Cooldown) (tr : Transport) : Cooldown := Function.update cd tr none

def clearAllCooldowns : Cooldown := fun _ => none

/-- The attempts of one cycle in their order, each transport with what came of it. -/
abbrev Attempts := List (Transport × Outcome)

/-- The walk of `runSessionAuto` down the rest of the ladder: the attempts that it makes and the
cooldowns that it leaves. `out` says what comes of each transport. -/
def runSessionAuto (out : Transport → Outcome) (cd : Cooldown) :
    List Transport → List Transport → Attempts × Cooldown
  | _, [] => ([], cd)
  | failedBefore, tr :: trs =>
    match out tr with
    | .connected t ended fatal =>
      ([(tr, .connected t ended fatal)], clearCooldown (coolTransports cd failedBefore ended) tr)
    | .fatal t => ([(tr, .fatal t)], cd)
    | .cancelled t => ([(tr, .cancelled t)], cd)
    | .failed t =>
      let (attempts, cd') := runSessionAuto out cd (failedBefore ++ [tr]) trs
      ((tr, .failed t) :: attempts, cd')

/-- What has happened to the link, newest first: cycles with their attempts, and network changes
that `Run` has seen. -/
inductive Event where
  | cycle (attempts : Attempts)
  | changed
  deriving DecidableEq, Repr

inductive Phase where
  | connecting
  | waiting
  | stopped
  deriving DecidableEq, Repr

/-- `Run` between its steps. `pending` is the tick that waits in the channel. -/
structure Run where
  cooldown : Cooldown
  clock : Int
  phase : Phase
  pending : Bool
  history : List Event

/-- The steps of `Run` and its network watcher: one connect cycle, a tick, and the two ways out of
the wait for the next cycle, which are both open when a tick is pending. -/
inductive Label where
  | cycle (start : Int) (out : Transport → Outcome)
  | tick
  | timer (now : Int)
  | changed (now : Int)
  | cancel

namespace Run

def fresh (clock : Int) : Run := ⟨clearAllCooldowns, clock, .connecting, false, []⟩

def attempts (s : Run) (start : Int) (out : Transport → Outcome) : Attempts :=
  (runSessionAuto out s.cooldown [] (ladderOrder s.cooldown start)).1

def afterCycle (s : Run) (start : Int) (out : Transport → Outcome) : Run :=
  let (attempts, cooldown) := runSessionAuto out s.cooldown [] (ladderOrder s.cooldown start)
  { s with
    cooldown
    clock := (start :: attempts.flatMap fun a => a.2.times).foldr max s.clock
    phase := if attempts.any fun a => a.2.stops then .stopped else .waiting
    history := .cycle attempts :: s.history }

def step (s : Run) : Label → Option Run
  | .cycle start out =>
    if s.phase = .connecting ∧
        (s.clock :: start :: (s.attempts start out).flatMap fun a => a.2.times).Pairwise
          (· ≤ ·) then
      some (s.afterCycle start out)
    else none
  | .tick => some { s with pending := true }
  | .timer now =>
    if s.phase = .waiting ∧ s.clock ≤ now then
      some { s with phase := .connecting, clock := now }
    else none
  | .changed now =>
    if s.phase = .waiting ∧ s.pending = true ∧ s.clock ≤ now then
      some { s with
        phase := .connecting
        clock := now
        pending := false
        cooldown := clearAllCooldowns
        history := .changed :: s.history }
    else none
  | .cancel => if s.phase = .waiting then some { s with phase := .stopped } else none

end Run

/-- The attempts of the last cycle that tried a transport. -/
def lastTry (tr : Transport) : List Event → Option Attempts
  | [] => none
  | .changed :: h => lastTry tr h
  | .cycle attempts :: h =>
    if tr ∈ attempts.map Prod.fst then some attempts else lastTry tr h

/-- Where a transport failed to connect and a later one of the cycle did: when it failed, and when
the session of the later one was over. -/
def parkedBy (tr : Transport) : Attempts → Option (Int × Int)
  | [] => none
  | (x, .failed t) :: rest =>
    if x = tr then (rest.findSome? fun a => a.2.ended?).map fun ended => (t, ended)
    else parkedBy tr rest
  | _ => none

/-- The same for the last attempt of the transport, if no network change was seen since. -/
def parked (tr : Transport) : List Event → Option (Int × Int)
  | [] | .changed :: _ => none
  | .cycle attempts :: h =>
    if tr ∈ attempts.map Prod.fst then parkedBy tr attempts else parked tr h

/-- What one cycle is to respect. -/
structure CoolsWhatFailed (s : Run) (start : Int) (out : Transport → Outcome) : Prop where
  /-- A transport is left out only within `transportReprobeAfter` of its own failure, in a cycle
  that went on to connect with another. -/
  leftOut : ∀ tr, tr ∉ ladderOrder s.cooldown start →
    ∃ before t after, lastTry tr s.history = some (before ++ (tr, .failed t) :: after) ∧
      tr ∉ before.map Prod.fst ∧ start - t < transportReprobeAfter ∧
        ∃ a ∈ after, a.2.ended?.isSome = true
  /-- Where all fail, nothing is newly cooled. -/
  allFail : (∀ a ∈ s.attempts start out, ∃ t, a.2 = .failed t) →
    (s.afterCycle start out).cooldown = s.cooldown
  /-- After a network change the ladder is whole. -/
  changed : s.pending = true ∨ s.history.head? = some .changed →
    ladderOrder s.cooldown start = transportPreference
  /-- Short of a success, a fatal error or the end of the agent, `mux` is tried. -/
  triesMux : (∀ a ∈ s.attempts start out, a.1 ≠ .mux → ∃ t, a.2 = .failed t) →
    Transport.mux ∈ (s.attempts start out).map Prod.fst

/-- No cycle starts in the time by which a session delays the end of a transport's cooldown, nor in
that cooldown at all while a tick waits. -/
def InTime (s : Run) (start : Int) : Prop :=
  ∀ tr t ended, parked tr s.history = some (t, ended) →
    ¬(t + transportReprobeAfter ≤ start ∧ start < ended + transportReprobeAfter) ∧
      (s.pending = true → ended + transportReprobeAfter ≤ start)

/-- A property of the cycles of a run, none of its other steps. -/
def AtCycle (P : Run → Int → (Transport → Outcome) → Prop) (s : Run) : Label → Prop
  | .cycle start out => P s start out
  | .tick | .timer _ | .changed _ | .cancel => True

theorem ladderOrder_sublist (cd : Cooldown) (now : Int) :
    (ladderOrder cd now).Sublist transportPreference := by
  unfold ladderOrder
  simp only
  split
  · exact List.Sublist.refl _
  · exact List.filter_sublist

theorem mem_transportPreference (tr : Transport) : tr ∈ transportPreference := by
  cases tr <;> decide

theorem mem_ladderOrder {cd : Cooldown} (hmux : cd .mux = none) (now : Int) (tr : Transport) :
    tr ∈ ladderOrder cd now ↔ ∀ u, cd tr = some u → u ≤ now := by
  have hfilter : ∀ x, x ∈ transportPreference.filter (fun tr => ¬∃ u ∈ cd tr, now < u) ↔
      ∀ u, cd x = some u → u ≤ now := by
    intro x
    rw [List.mem_filter, decide_eq_true_eq]
    constructor
    · intro h u hu
      exact Int.not_lt.1 fun hlt => h.2 ⟨u, hu, hlt⟩
    · intro h
      refine ⟨mem_transportPreference x, ?_⟩
      rintro ⟨u, hu, hlt⟩
      exact absurd (h u hu) (Int.not_le.2 hlt)
  have hne : transportPreference.filter (fun tr => ¬∃ u ∈ cd tr, now < u) ≠ [] := by
    apply List.ne_nil_of_mem ((hfilter .mux).2 _)
    intro u hu
    rw [hmux] at hu
    cases hu
  unfold ladderOrder
  simp only
  rw [if_neg hne]
  exact hfilter tr

theorem ladderOrder_whole {cd : Cooldown} {now : Int} (hmux : cd .mux = none)
    (h : ∀ tr u, cd tr = some u → u ≤ now) : ladderOrder cd now = transportPreference := by
  apply (ladderOrder_sublist cd now).eq_of_length_le
  have hsub : transportPreference ⊆ ladderOrder cd now := by
    intro tr _
    exact (mem_ladderOrder hmux now tr).2 (h tr)
  exact (List.subperm_of_subset (by decide) hsub).length_le

theorem mux_last {before after : List Transport}
    (h : (before ++ tr :: after).Sublist transportPreference) : Transport.mux ∉ before := by
  intro hm
  have hpair : [Transport.mux, tr].Sublist transportPreference := by
    have h1 : [Transport.mux].Sublist before := List.singleton_sublist.2 hm
    have h2 : [tr].Sublist (tr :: after) := List.singleton_sublist.2 List.mem_cons_self
    exact (h1.append h2).trans h
  cases tr <;> exact absurd hpair (by decide)

theorem walk_cases (out : Transport → Outcome) (cd : Cooldown) (fb trs : List Transport) :
    (∃ before tr after t ended fatal, trs = before ++ tr :: after ∧
      (∀ x ∈ before, ∃ t, out x = .failed t) ∧ out tr = .connected t ended fatal ∧
      (runSessionAuto out cd fb trs).1 = (before ++ [tr]).map (fun x => (x, out x)) ∧
      (runSessionAuto out cd fb trs).2 =
        clearCooldown (coolTransports cd (fb ++ before) ended) tr) ∨
    (∃ tried after, trs = tried ++ after ∧ (∀ x ∈ tried, (out x).ended? = none) ∧
      (after ≠ [] → ∃ x ∈ tried, ∀ t, out x ≠ .failed t) ∧
      (runSessionAuto out cd fb trs).1 = tried.map (fun x => (x, out x)) ∧
      (runSessionAuto out cd fb trs).2 = cd) := by
  induction trs generalizing fb with
  | nil => exact .inr ⟨[], [], rfl, nofun, fun h => absurd rfl h, rfl, rfl⟩
  | cons tr trs ih =>
    unfold runSessionAuto
    cases ho : out tr with
    | connected t ended fatal =>
      refine .inl ⟨[], tr, trs, t, ended, fatal, rfl, nofun, ho, ?_, ?_⟩
      · rw [List.nil_append, List.map_singleton, ho]
      · rw [List.append_nil]
    | fatal t =>
      refine .inr ⟨[tr], trs, rfl, ?_, ?_, ?_, rfl⟩
      · intro x hx
        rw [List.mem_singleton.1 hx, ho]
        rfl
      · intro _
        refine ⟨tr, List.mem_cons_self, ?_⟩
        rw [ho]
        nofun
      · rw [List.map_singleton, ho]
    | cancelled t =>
      refine .inr ⟨[tr], trs, rfl, ?_, ?_, ?_, rfl⟩
      · intro x hx
        rw [List.mem_singleton.1 hx, ho]
        rfl
      · intro _
        refine ⟨tr, List.mem_cons_self, ?_⟩
        rw [ho]
        nofun
      · rw [List.map_singleton, ho]
    | failed t =>
      obtain ⟨before, x, after, t', ended, fatal, rfl, hfail, hx, h1, h2⟩ |
        ⟨tried, after, rfl, hnone, hstop, h1, h2⟩ := ih (fb ++ [tr])
      · refine .inl ⟨tr :: before, x, after, t', ended, fatal, rfl, ?_, hx, ?_, ?_⟩
        · intro y hy
          obtain rfl | hy := List.mem_cons.1 hy
          · exact ⟨t, ho⟩
          · exact hfail y hy
        · simp only [h1, List.cons_append, List.map_cons, ho]
        · simp only [h2, List.append_assoc, List.singleton_append]
      · refine .inr ⟨tr :: tried, after, rfl, ?_, ?_, ?_, h2⟩
        · intro y hy
          obtain rfl | hy := List.mem_cons.1 hy
          · rw [ho]
            rfl
          · exact hnone y hy
        · intro hne
          obtain ⟨y, hy, hno⟩ := hstop hne
          exact ⟨y, List.mem_cons_of_mem _ hy, hno⟩
        · simp only [h1, List.map_cons, ho]

theorem parkedBy_some (h : parkedBy tr attempts = some (t, ended)) :
    ∃ before after, attempts = before ++ (tr, .failed t) :: after ∧
      tr ∉ before.map Prod.fst ∧ ∃ a ∈ after, a.2.ended? = some ended := by
  induction attempts with
  | nil => cases h
  | cons a rest ih =>
    obtain ⟨x, o⟩ := a
    cases o with
    | failed t' =>
      unfold parkedBy at h
      by_cases hx : x = tr
      · rw [if_pos hx] at h
        obtain ⟨e, he, hp⟩ := Option.map_eq_some_iff.1 h
        cases hp
        obtain ⟨a, ha, hae⟩ := List.exists_of_findSome?_eq_some he
        subst hx
        exact ⟨[], rest, rfl, List.not_mem_nil, a, ha, hae⟩
      · rw [if_neg hx] at h
        obtain ⟨before, after, rfl, hno, ha⟩ := ih h
        refine ⟨(x, .failed t') :: before, after, rfl, ?_, ha⟩
        rw [List.map_cons, List.mem_cons, not_or]
        exact ⟨Ne.symm hx, hno⟩
    | _ => cases h

theorem parkedBy_none (h : ∀ a ∈ attempts, a.2.ended? = none) : parkedBy tr attempts = none := by
  cases hp : parkedBy tr attempts with
  | none => rfl
  | some r =>
    obtain ⟨t, ended⟩ := r
    obtain ⟨before, after, rfl, -, a, ha, he⟩ := parkedBy_some hp
    rw [h a (List.mem_append_right _ (List.mem_cons_of_mem _ ha))] at he
    cases he

/-- In a cycle that connects, the transports before are parked, and the one that connects is not. -/
theorem parkedBy_connected {out : Transport → Outcome} {before : List Transport}
    (hfail : ∀ x ∈ before, ∃ t, out x = .failed t) (hc : out tr = .connected t ended fatal)
    (htr : tr ∉ before) :
    parkedBy tr ((before ++ [tr]).map fun x => (x, out x)) = none ∧
      ∀ x ∈ before, ∃ t, parkedBy x ((before ++ [tr]).map fun x => (x, out x)) =
        some (t, ended) := by
  have hend : ∀ l : List Transport, (∀ x ∈ l, ∃ t, out x = .failed t) →
      ((l ++ [tr]).map fun x => (x, out x)).findSome? (fun a => a.2.ended?) = some ended := by
    intro l hl
    induction l with
    | nil =>
      rw [List.nil_append, List.map_singleton, hc]
      rfl
    | cons y l ih =>
      obtain ⟨t', ht'⟩ := hl y List.mem_cons_self
      rw [List.cons_append, List.map_cons, List.findSome?_cons, ht']
      exact ih fun x hx => hl x (List.mem_cons_of_mem _ hx)
  induction before with
  | nil =>
    refine ⟨?_, nofun⟩
    rw [List.nil_append, List.map_singleton, hc]
    rfl
  | cons y before ih =>
    obtain ⟨t', ht'⟩ := hfail y List.mem_cons_self
    rw [List.mem_cons, not_or] at htr
    have hrest := fun x hx => hfail x (List.mem_cons_of_mem _ hx)
    obtain ⟨h1, h2⟩ := ih hrest htr.2
    rw [List.cons_append, List.map_cons, ht']
    constructor
    · rw [parkedBy, if_neg (Ne.symm htr.1)]
      exact h1
    · intro x hx
      rw [parkedBy]
      by_cases hyx : y = x
      · rw [if_pos hyx, hend before hrest]
        exact ⟨t', rfl⟩
      · rw [if_neg hyx]
        obtain rfl | hx := List.mem_cons.1 hx
        · exact absurd rfl hyx
        · exact h2 x hx

theorem lastTry_of_parked (h : parked tr history = some (t, ended)) :
    ∃ before after, lastTry tr history = some (before ++ (tr, .failed t) :: after) ∧
      tr ∉ before.map Prod.fst ∧ ∃ a ∈ after, a.2.ended? = some ended := by
  induction history with
  | nil => cases h
  | cons e history ih =>
    cases e with
    | changed => cases h
    | cycle attempts =>
      unfold parked at h
      unfold lastTry
      by_cases hm : tr ∈ attempts.map Prod.fst
      · rw [if_pos hm] at h ⊢
        obtain ⟨before, after, rfl, hno, ha⟩ := parkedBy_some h
        exact ⟨before, after, rfl, hno, ha⟩
      · rw [if_neg hm] at h ⊢
        exact ih h

/-- What the cooldowns have to do with the history. -/
structure Inv (s : Run) : Prop where
  mux : s.cooldown .mux = none
  /-- A cooldown that has not ended is that of a parked transport. -/
  active : ∀ tr u, s.cooldown tr = some u → s.clock < u →
    ∃ t ended, parked tr s.history = some (t, ended) ∧ u = ended + transportReprobeAfter
  cooled : ∀ tr t ended, parked tr s.history = some (t, ended) →
    s.cooldown tr = some (ended + transportReprobeAfter)

theorem inv_fresh (clock : Int) : Inv (.fresh clock) := ⟨rfl, nofun, nofun⟩

theorem Inv.advance {s : Run} (hi : Inv s) (hc : s.clock ≤ now) (phase : Phase) :
    Inv { s with phase, clock := now } :=
  ⟨hi.mux, fun tr u hu hlt => hi.active tr u hu (lt_of_le_of_lt hc hlt), hi.cooled⟩

theorem le_clock (s : Run) (start : Int) (out : Transport → Outcome) :
    s.clock ≤ (s.afterCycle start out).clock ∧ start ≤ (s.afterCycle start out).clock := by
  have hmax : ∀ (ts : List Int) (b : Int), b ≤ ts.foldr max b := by
    intro ts b
    induction ts with
    | nil => exact le_refl b
    | cons t ts ih => exact le_max_of_le_right ih
  exact ⟨hmax _ _, le_max_left _ _⟩

theorem map_fst_attempts (out : Transport → Outcome) (trs : List Transport) :
    (trs.map fun x => (x, out x)).map Prod.fst = trs := by
  rw [List.map_map]
  exact List.map_id trs

theorem parked_afterCycle {s : Run} {trs : List Transport}
    (h : s.attempts start out = trs.map fun x => (x, out x)) (tr : Transport) :
    parked tr (s.afterCycle start out).history =
      if tr ∈ trs then parkedBy tr (trs.map fun x => (x, out x)) else parked tr s.history := by
  have hhist : (s.afterCycle start out).history = .cycle (s.attempts start out) :: s.history :=
    rfl
  rw [hhist, parked, h, map_fst_attempts]

theorem Inv.connected {s : Run} (hi : Inv s)
    (hl : ladderOrder s.cooldown start = before ++ x :: after)
    (hfail : ∀ y ∈ before, ∃ t, out y = .failed t) (hx : out x = .connected t ended fatal)
    (h1 : s.attempts start out = (before ++ [x]).map fun y => (y, out y))
    (h2 : (s.afterCycle start out).cooldown =
      clearCooldown (coolTransports s.cooldown before ended) x) :
    Inv (s.afterCycle start out) := by
  obtain ⟨hclock, -⟩ := le_clock s start out
  have hsub := ladderOrder_sublist s.cooldown start
  have hnodup : (ladderOrder s.cooldown start).Nodup := hsub.nodup (by decide)
  rw [hl] at hnodup hsub
  have hxb : x ∉ before := by
    intro hm
    exact (List.nodup_append.1 hnodup).2.2 x hm x List.mem_cons_self rfl
  obtain ⟨hpx, hpb⟩ := parkedBy_connected hfail hx hxb
  have hval : ∀ tr, (s.afterCycle start out).cooldown tr =
      if tr = x then none
      else if tr ∈ before then some (ended + transportReprobeAfter) else s.cooldown tr := by
    intro tr
    rw [h2, clearCooldown, Function.update_apply]
    rfl
  have htried : ∀ tr ∈ before, ∃ t, parked tr (s.afterCycle start out).history =
      some (t, ended) := by
    intro tr hb
    obtain ⟨t, hp⟩ := hpb tr hb
    exact ⟨t, by rw [parked_afterCycle h1, if_pos (List.mem_append_left _ hb), hp]⟩
  have hrest : ∀ tr, tr ≠ x → tr ∉ before →
      parked tr (s.afterCycle start out).history = parked tr s.history := by
    intro tr hne hb
    rw [parked_afterCycle h1, if_neg]
    intro hm
    exact (List.mem_append.1 hm).elim hb fun hm => hne (List.mem_singleton.1 hm)
  refine ⟨?_, ?_, ?_⟩
  · rw [hval, if_neg (mux_last hsub)]
    split
    · rfl
    · exact hi.mux
  · intro tr u hu hlt
    rw [hval] at hu
    split at hu
    · cases hu
    · rename_i hne
      split at hu
      · rename_i hb
        cases hu
        obtain ⟨t', hp⟩ := htried tr hb
        exact ⟨t', ended, hp, rfl⟩
      · rename_i hb
        rw [hrest tr hne hb]
        exact hi.active tr u hu (lt_of_le_of_lt hclock hlt)
  · intro tr t' e hp
    rw [hval]
    by_cases hne : tr = x
    · rw [parked_afterCycle h1, if_pos (hne ▸ List.mem_append_right _ List.mem_cons_self), hne,
        hpx] at hp
      cases hp
    · rw [if_neg hne]
      by_cases hb : tr ∈ before
      · obtain ⟨t'', hp'⟩ := htried tr hb
        rw [hp'] at hp
        cases hp
        rw [if_pos hb]
      · rw [if_neg hb]
        rw [hrest tr hne hb] at hp
        exact hi.cooled tr t' e hp

theorem Inv.unconnected {s : Run} (hi : Inv s) (hl : ladderOrder s.cooldown start = tried ++ after)
    (hnone : ∀ x ∈ tried, (out x).ended? = none)
    (h1 : s.attempts start out = tried.map fun x => (x, out x))
    (h2 : (s.afterCycle start out).cooldown = s.cooldown) : Inv (s.afterCycle start out) := by
  obtain ⟨hclock, hstart⟩ := le_clock s start out
  have hp0 : ∀ tr, parkedBy tr (tried.map fun x => (x, out x)) = none := by
    intro tr
    apply parkedBy_none
    intro a ha
    obtain ⟨x, hx, rfl⟩ := List.mem_map.1 ha
    exact hnone x hx
  refine ⟨?_, ?_, ?_⟩
  · rw [h2]
    exact hi.mux
  · intro tr u hu hlt
    rw [h2] at hu
    by_cases hm : tr ∈ tried
    · -- What is tried is not cooled at the start of the cycle.
      have hin : tr ∈ ladderOrder s.cooldown start := by
        rw [hl]
        exact List.mem_append_left _ hm
      have hle := (mem_ladderOrder hi.mux start tr).1 hin u hu
      exact absurd (le_trans hle hstart) (Int.not_le.2 hlt)
    · rw [parked_afterCycle h1, if_neg hm]
      exact hi.active tr u hu (lt_of_le_of_lt hclock hlt)
  · intro tr t e hp
    rw [h2]
    by_cases hm : tr ∈ tried
    · rw [parked_afterCycle h1, if_pos hm, hp0] at hp
      cases hp
    · rw [parked_afterCycle h1, if_neg hm] at hp
      exact hi.cooled tr t e hp

theorem Inv.cycle {s : Run} (hi : Inv s) (start : Int) (out : Transport → Outcome) :
    Inv (s.afterCycle start out) := by
  obtain ⟨before, x, after, t, ended, fatal, hl, hfail, hx, h1, h2⟩ |
    ⟨tried, after, hl, hnone, -, h1, h2⟩ :=
      walk_cases out s.cooldown [] (ladderOrder s.cooldown start)
  · exact hi.connected hl hfail hx h1 h2
  · exact hi.unconnected hl hnone h1 h2

theorem Inv.step {s s' : Run} (hi : Inv s) (hs : s.step l = some s') : Inv s' := by
  cases l with
  | cycle start out =>
    unfold Run.step at hs
    simp only at hs
    split at hs
    · cases hs
      exact hi.cycle start out
    · cases hs
  | tick =>
    cases hs
    exact ⟨hi.mux, hi.active, hi.cooled⟩
  | timer now =>
    unfold Run.step at hs
    simp only at hs
    split at hs
    · rename_i h
      cases hs
      exact hi.advance h.2 _
    · cases hs
  | changed now =>
    unfold Run.step at hs
    simp only at hs
    split at hs
    · cases hs
      exact ⟨rfl, nofun, nofun⟩
    · cases hs
  | cancel =>
    unfold Run.step at hs
    simp only at hs
    split at hs
    · cases hs
      exact ⟨hi.mux, hi.active, hi.cooled⟩
    · cases hs

theorem mux_mem_attempts {s : Run} (hi : Inv s) (start : Int) (out : Transport → Outcome)
    (h : ∀ a ∈ s.attempts start out, a.1 ≠ .mux → ∃ t, a.2 = .failed t) :
    Transport.mux ∈ (s.attempts start out).map Prod.fst := by
  have hmem : Transport.mux ∈ ladderOrder s.cooldown start := by
    rw [mem_ladderOrder hi.mux]
    intro u hu
    rw [hi.mux] at hu
    cases hu
  unfold Run.attempts at h ⊢
  obtain ⟨before, x, after, t, ended, fatal, hl, -, hx, h1, -⟩ |
    ⟨tried, after, hl, -, hstop, h1, -⟩ :=
      walk_cases out s.cooldown [] (ladderOrder s.cooldown start)
  · rw [h1, map_fst_attempts]
    rw [h1] at h
    by_cases hxm : x = .mux
    · rw [hxm]
      exact List.mem_append_right _ List.mem_cons_self
    · have hin : (x, out x) ∈ (before ++ [x]).map fun x => (x, out x) :=
        List.mem_map_of_mem (List.mem_append_right _ List.mem_cons_self)
      obtain ⟨t', ht'⟩ := h _ hin hxm
      cases hx.symm.trans ht'
  · rw [h1, map_fst_attempts]
    rw [h1] at h
    by_cases hne : after = []
    · rw [hne, List.append_nil] at hl
      exact hl ▸ hmem
    · obtain ⟨x, hxt, hno⟩ := hstop hne
      by_cases hxm : x = .mux
      · exact hxm ▸ hxt
      · obtain ⟨t', ht'⟩ := h _ (List.mem_map_of_mem hxt) hxm
        exact absurd ht' (hno t')

theorem cooldown_of_all_failed {s : Run} {start : Int} {out : Transport → Outcome}
    (h : ∀ a ∈ s.attempts start out, ∃ t, a.2 = .failed t) :
    (s.afterCycle start out).cooldown = s.cooldown := by
  unfold Run.attempts at h
  obtain ⟨before, x, after, t, ended, fatal, -, -, hx, h1, -⟩ | ⟨tried, after, -, -, -, -, h2⟩ :=
    walk_cases out s.cooldown [] (ladderOrder s.cooldown start)
  · rw [h1] at h
    obtain ⟨t', ht'⟩ := h (x, out x)
      (List.mem_map_of_mem (List.mem_append_right _ List.mem_cons_self))
    cases hx.symm.trans ht'
  · exact h2

theorem lookup_of_first {before : Attempts} (h : tr ∉ before.map Prod.fst) (o : Outcome)
    (after : Attempts) :
    (before ++ (tr, o) :: after).lookup tr = some o := by
  induction before with
  | nil => exact List.lookup_cons_self
  | cons a before ih =>
    rw [List.map_cons, List.mem_cons, not_or] at h
    rw [List.cons_append, List.lookup_cons, beq_false_of_ne h.1]
    exact ih h.2

/-- One cycle respects the cooldowns exactly when it does not start in the time by which they
outlast the failures. -/
theorem coolsWhatFailed_iff {s : Run} (hi : Inv s) (hc : s.clock ≤ start)
    (out : Transport → Outcome) : CoolsWhatFailed s start out ↔ InTime s start := by
  -- A parked transport whose cooldown has not ended is left out.
  have hleft : ∀ tr t ended, parked tr s.history = some (t, ended) →
      start < ended + transportReprobeAfter → tr ∉ ladderOrder s.cooldown start := by
    intro tr t ended hp hlt hm
    exact absurd ((mem_ladderOrder hi.mux start tr).1 hm _ (hi.cooled tr t ended hp))
      (Int.not_le.2 hlt)
  constructor
  · intro h tr t ended hp
    constructor
    · rintro ⟨h1, h2⟩
      obtain ⟨before, t', after, hl, hno, hlt, -⟩ := h.leftOut tr (hleft tr t ended hp h2)
      obtain ⟨before', after', hl', hno', -⟩ := lastTry_of_parked hp
      have he := lookup_of_first hno' (.failed t) after'
      rw [← Option.some.inj (hl.symm.trans hl'), lookup_of_first hno] at he
      cases he
      omega
    · intro hpend
      by_contra hlt
      have hnot := hleft tr t ended hp (Int.not_le.1 hlt)
      rw [h.changed (.inl hpend)] at hnot
      exact hnot (mem_transportPreference tr)
  · intro h
    refine ⟨?_, cooldown_of_all_failed, ?_, mux_mem_attempts hi start out⟩
    · intro tr hnot
      rw [mem_ladderOrder hi.mux] at hnot
      simp only [not_forall, Int.not_le] at hnot
      obtain ⟨u, hu, hlt⟩ := hnot
      obtain ⟨t, ended, hp, rfl⟩ := hi.active tr u hu (lt_of_le_of_lt hc hlt)
      obtain ⟨before, after, hl, hno, a, ha, he⟩ := lastTry_of_parked hp
      refine ⟨before, t, after, hl, hno, ?_, a, ha, by rw [he]; rfl⟩
      have hout := (h tr t ended hp).1
      omega
    · intro hch
      apply ladderOrder_whole hi.mux
      intro tr u hu
      by_contra hlt
      obtain ⟨t, ended, hp, rfl⟩ := hi.active tr u hu (lt_of_le_of_lt hc (Int.not_le.1 hlt))
      obtain hpend | hhead := hch
      · exact hlt ((h tr t ended hp).2 hpend)
      · obtain ⟨rest, hrest⟩ := List.head?_eq_some_iff.1 hhead
        rw [hrest] at hp
        cases hp

/-- Every cycle of a run cools only what failed, exactly when none starts in the time by which the
cooldowns outlast the failures. -/
theorem ladder_cools_what_failed_iff (clock : Int) (ls : List Label) :
    Along Run.step (AtCycle CoolsWhatFailed) (.fresh clock) ls ↔
      Along Run.step (AtCycle fun s start _ => InTime s start) (.fresh clock) ls := by
  apply along_congr (I := Inv) _ (inv_fresh clock)
  intro s l s' hi hs
  refine ⟨hi.step hs, ?_⟩
  cases l with
  | cycle start out =>
    unfold Run.step at hs
    simp only at hs
    split at hs
    · rename_i h
      exact coolsWhatFailed_iff hi (List.rel_of_pairwise_cons h.2 List.mem_cons_self) out
    · cases hs
  | _ => exact Iff.rfl

/-- UDP is blocked once, and the session that follows lasts an hour. -/
def udpBlocked : Transport → Outcome
  | .quic => .failed 1
  | .perConn => .connected 2 3600000000000 false
  | .mux => .failed 3

/-- An hour after it failed, QUIC is left out of the next cycle. -/
theorem left_out_after_session :
    ¬∀ (clock : Int) (ls : List Label),
      Along Run.step (AtCycle CoolsWhatFailed) (.fresh clock) ls := by
  intro h
  obtain ⟨-, hrun⟩ := (h 0 [.cycle 0 udpBlocked, .timer 3601000000000,
    .cycle 3601000000000 fun _ => .failed 3602000000000]).cons rfl
  obtain ⟨-, hrun⟩ := hrun.cons rfl
  obtain ⟨hcools, -⟩ := hrun.cons rfl
  obtain ⟨before, t, after, hl, hno, hlt, -⟩ := hcools.leftOut .quic (by decide)
  have ht := lookup_of_first hno (.failed t) after
  rw [← Option.some.inj hl] at ht
  cases ht
  exact absurd hlt (by decide)

end ProxyForward.Ladder

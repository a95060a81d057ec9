import ProxyForward.Runs
import Mathlib.Logic.Function.Basic

namespace ProxyForward.Clients
set_option autoImplicit true

/-- The slots that are taken; an address without any has no entry. -/
structure ConnGate where
  maxGlobal : Int
  maxPerIP : Int
  global : Int
  perIP : String → Option Int

namespace ConnGate

def newConnGate (maxGlobal maxPerIP : Int) : ConnGate := ⟨maxGlobal, maxPerIP, 0, fun _ => none⟩

/-- `g.perIP[ip]`. -/
def count (g : ConnGate) (ip : String) : Int := (g.perIP ip).getD 0

/-- `admit`. -/
def admitConn (g : ConnGate) (ip : String) : Bool × ConnGate :=
  if g.maxGlobal ≤ g.global ∨ g.maxPerIP ≤ g.count ip then (false, g)
  else
    (true, { g with
      global := g.global + 1
      perIP := Function.update g.perIP ip (some (g.count ip + 1)) })

def release (g : ConnGate) (ip : String) : ConnGate :=
  let g := { g with global := g.global - 1 }
  if g.count ip ≤ 1 then { g with perIP := Function.update g.perIP ip none }
  else { g with perIP := Function.update g.perIP ip (some (g.count ip - 1)) }

end ConnGate

/-- What a `handleClient` run has deferred. -/
inductive Deferred
  | closeConn | release | closeEntry | releaseFlow | closeStream | deleteRtt
  deriving DecidableEq, Repr

/-- Where a `handleClient` run stands. -/
inductive Point
  | entered
  /-- Before `admit`. -/
  | asking
  /-- `admit` was true, and its release is not deferred yet. -/
  | admitted
  /-- Before the test for a live session with a backend that is up. -/
  | looking
  /-- Before the type assertion to a TCP connection. -/
  | asserting
  /-- Before `Conns.Open`. -/
  | opening
  /-- Before `openFlow`. -/
  | flow
  /-- Before one of the two calls of `serveOffline`. -/
  | offline
  /-- Before the write of the header. -/
  | header
  | tracking
  | splicing
  /-- The body is over, and what is deferred runs. -/
  | returning
  | ended
  deriving DecidableEq, Repr

/-- A run for one accepted connection, whichever listener accepted it. -/
structure Run where
  ip : String
  point : Point
  /-- The latest first. -/
  deferred : List Deferred
  /-- What the gate said. -/
  admitted : Option Bool
  deriving DecidableEq, Repr

namespace Run

def defer (r : Run) (d : Deferred) (p : Point) : Run :=
  { r with deferred := d :: r.deferred, point := p }

def goto (r : Run) (p : Point) : Run := { r with point := p }

/-- The next step of a run; `ok` is what the environment answers where the body branches. -/
def step (g : ConnGate) (r : Run) (ok : Bool) : Option (ConnGate × Run) :=
  match r.point with
  | .entered => some (g, r.defer .closeConn .asking)
  | .asking =>
    let (admitted, g) := g.admitConn r.ip
    some (g, { r with
      admitted := some admitted
      point := if admitted then .admitted else .returning })
  | .admitted => some (g, r.defer .release .looking)
  | .looking => some (g, r.goto (if ok then .asserting else .offline))
  | .asserting => some (g, r.goto (if ok then .opening else .returning))
  | .opening => some (g, r.defer .closeEntry .flow)
  | .flow =>
    some (g, if ok then (r.defer .releaseFlow .flow).defer .closeStream .header
      else r.goto .offline)
  | .offline => some (g, r.goto .returning)
  | .header => some (g, r.goto (if ok then .tracking else .returning))
  | .tracking => some (g, r.defer .deleteRtt .splicing)
  | .splicing => some (g, r.goto .returning)
  | .returning =>
    match r.deferred with
    | [] => some (g, r.goto .ended)
    | .release :: ds => some (g.release r.ip, { r with deferred := ds })
    | _ :: ds => some (g, { r with deferred := ds })
  | .ended => none

/-- On its way out, with its release behind it: all that is left is to close the connection. -/
def released (r : Run) : Bool :=
  (r.point = .returning || r.point = .ended) && !r.deferred.contains .release

/-- The gate admitted the run, and it has not released its slot. -/
def live (r : Run) : Bool := r.admitted = some true && !r.released

end Run

/-- The gate, and the runs that there have been. -/
structure State where
  gate : ConnGate
  runs : List Run

inductive Event
  | accept (ip : String)
  | step (i : Nat) (ok : Bool)
  deriving DecidableEq, Repr

def State.start (maxGlobal maxPerIP : Int) : State := ⟨.newConnGate maxGlobal maxPerIP, []⟩

def State.step (s : State) : Event → Option State
  | .accept ip => some { s with runs := s.runs ++ [⟨ip, .entered, [], none⟩] }
  | .step i ok =>
    match s.runs[i]? with
    | none => none
    | some r => (r.step s.gate ok).map fun (g, r') => ⟨g, s.runs.set i r'⟩

/-- How many runs are admitted and not released, and how many of these from an address. -/
def State.live (s : State) : Nat := s.runs.countP Run.live

def State.liveFrom (s : State) (ip : String) : Nat := s.runs.countP fun r => r.live && r.ip = ip

/-- The gate counts the admitted runs that are not released, and is under its caps; one below 1
admits nobody. -/
structure State.Conserved (s : State) : Prop where
  global : s.gate.global = s.live
  perIP : ∀ ip, s.gate.perIP ip = if s.liveFrom ip = 0 then none else some (s.liveFrom ip : Int)
  underGlobal : 0 ≤ s.gate.global ∧ s.gate.global ≤ max 0 s.gate.maxGlobal
  underPerIP : ∀ ip, 0 ≤ s.gate.count ip ∧ s.gate.count ip ≤ max 0 s.gate.maxPerIP

/-- The gate counts `n` slots, and `m ip` of an address. -/
structure ConnGate.Counts (g : ConnGate) (n : Nat) (m : String → Nat) : Prop where
  global : g.global = n
  perIP : ∀ ip, g.perIP ip = if m ip = 0 then none else some (m ip : Int)
  underGlobal : (n : Int) ≤ max 0 g.maxGlobal
  underPerIP : ∀ ip, (m ip : Int) ≤ max 0 g.maxPerIP

namespace ConnGate.Counts

variable {g g' : ConnGate} {n : Nat} {m : String → Nat} {ip : String}

theorem count (h : g.Counts n m) (ip : String) : g.count ip = m ip := by
  rw [ConnGate.count, h.perIP]
  split
  · rename_i hzero
    rw [hzero]
    rfl
  · rfl

theorem init (maxGlobal maxPerIP : Int) :
    (newConnGate maxGlobal maxPerIP).Counts 0 fun _ => 0 where
  global := rfl
  perIP _ := rfl
  underGlobal := by omega
  underPerIP _ := by omega

theorem set (h : g.Counts n m) (ip : String) (n' k : Nat) (hn : (n' : Int) ≤ max 0 g.maxGlobal)
    (hk : (k : Int) ≤ max 0 g.maxPerIP) :
    ConnGate.Counts
      { g with
        global := n'
        perIP := Function.update g.perIP ip (if k = 0 then none else some (k : Int)) }
      n' (Function.update m ip k) where
  global := rfl
  perIP ip' := by
    by_cases hip : ip' = ip
    · simp only [hip, Function.update_self]
    · simp only [Function.update_of_ne hip, h.perIP]
  underGlobal := hn
  underPerIP ip' := by
    by_cases hip : ip' = ip
    · rw [hip, Function.update_self]
      exact hk
    · rw [Function.update_of_ne hip]
      exact h.underPerIP ip'

theorem admitConn (h : g.Counts n m) (ha : g.admitConn ip = (true, g')) :
    g'.Counts (n + 1) (Function.update m ip (m ip + 1)) := by
  have hglobal := h.global
  have hcount := h.count ip
  unfold ConnGate.admitConn at ha
  split at ha
  · cases ha
  · cases ha
    have hset := h.set ip (n + 1) (m ip + 1) (by omega) (by omega)
    rw [if_neg (Nat.succ_ne_zero _), Int.natCast_succ, Int.natCast_succ] at hset
    rw [hglobal, hcount]
    exact hset

theorem release (h : g.Counts (n + 1) m) (hip : m ip = k + 1) :
    (g.release ip).Counts n (Function.update m ip k) := by
  have hcount : g.count ip = k + 1 := by rw [h.count, hip, Int.natCast_succ]
  have hglobal : g.global - 1 = n := by
    have hbefore := h.global
    omega
  have hunder := h.underGlobal
  have hunder' := h.underPerIP ip
  have hset := h.set ip n k (by omega) (by omega)
  have hsame : ConnGate.count { g with global := g.global - 1 } ip = k + 1 := hcount
  unfold ConnGate.release
  simp only [hsame]
  split
  · rw [if_pos (by omega), ← hglobal] at hset
    exact hset
  · rw [if_neg (by omega), ← hglobal] at hset
    rw [Int.add_sub_cancel]
    exact hset

end ConnGate.Counts

namespace Run

/-- A run has deferred its release once from its admission to its release, and else not at all. -/
def Shaped (r : Run) : Prop :=
  match r.point with
  | .entered => r.deferred = [] ∧ r.admitted = none
  | .asking => r.deferred = [.closeConn] ∧ r.admitted = none
  | .admitted => r.deferred = [.closeConn] ∧ r.admitted = some true
  | .returning => r.deferred.count .release ≤ 1 ∧ r.admitted ≠ none ∧
      (.release ∈ r.deferred → r.admitted = some true)
  | .ended => r.deferred = [] ∧ r.admitted ≠ none
  | _ => r.deferred.count .release = 1 ∧ r.admitted = some true

/-- The points that a run reaches with its release deferred. -/
def past (p : Point) : Bool :=
  match p with
  | .entered | .asking | .admitted | .ended => false
  | _ => true

/-- In its body an admitted run has one release to come. -/
def InBody (r : Run) : Prop := r.deferred.count .release = 1 ∧ r.admitted = some true

theorem live_of_body {r : Run} (h : r.InBody) : r.live = true := by
  have hmem : r.deferred.contains .release = true :=
    List.contains_iff_mem.2 (List.count_pos_iff.1 (by rw [h.1]; decide))
  rw [live, released, h.2, hmem]
  simp

theorem shaped_of_body {r : Run} (h : r.InBody) (hp : past r.point = true) : r.Shaped := by
  obtain ⟨ip, point, deferred, admitted⟩ := r
  obtain ⟨hcount, hadmitted⟩ := h
  cases point with
  | entered => cases hp
  | asking => cases hp
  | admitted => cases hp
  | ended => cases hp
  | returning =>
    refine ⟨Nat.le_of_eq hcount, ?_, fun _ => hadmitted⟩
    simp only at hadmitted ⊢
    rw [hadmitted]
    exact Option.some_ne_none true
  | _ => exact ⟨hcount, hadmitted⟩

theorem admitConn_false {g g' : ConnGate} {ip : String} (h : g.admitConn ip = (false, g')) :
    g' = g := by
  unfold ConnGate.admitConn at h
  split at h
  · cases h
    rfl
  · cases h

/-- What a step can do: it leaves the gate and its run's share of it alone, it takes a slot that the
run did not have, or it gives back the one that it had. -/
inductive Effect (g g' : ConnGate) (r r' : Run) : Prop
  | keeps (hgate : g' = g) (hlive : r'.live = r.live)
  | admits (hbefore : r.live = false) (hafter : r'.live = true)
      (hgate : g.admitConn r.ip = (true, g'))
  | releases (hbefore : r.live = true) (hafter : r'.live = false)
      (hadmitted : r'.admitted = r.admitted) (hgate : g' = g.release r.ip)

theorem step_effect {g g' : ConnGate} {r r' : Run} (h : r.Shaped)
    (hs : r.step g ok = some (g', r')) : r'.Shaped ∧ r'.ip = r.ip ∧ Effect g g' r r' := by
  -- a step inside the body keeps the release that is to come
  have hbody (hin : r.InBody) (hin' : r'.InBody) (hg : g' = g) (hip : r'.ip = r.ip)
      (hp : past r'.point = true) : r'.Shaped ∧ r'.ip = r.ip ∧ Effect g g' r r' :=
    ⟨shaped_of_body hin' hp, hip, .keeps hg (by rw [live_of_body hin', live_of_body hin])⟩
  obtain ⟨ip, point, deferred, admitted⟩ := r
  cases point with
  | entered =>
    obtain ⟨hd, ha⟩ := h
    simp only at hd ha
    subst hd ha
    cases hs
    exact ⟨⟨rfl, rfl⟩, rfl, .keeps rfl rfl⟩
  | asking =>
    obtain ⟨hd, ha⟩ := h
    simp only at hd ha
    subst hd ha
    unfold step at hs
    rcases hgate : g.admitConn ip with ⟨b, g₁⟩
    simp only [hgate, Option.some.injEq, Prod.mk.injEq] at hs
    obtain ⟨rfl, rfl⟩ := hs
    cases b with
    | false =>
      have hnone : Deferred.release ∉ [Deferred.closeConn] := by decide
      exact ⟨⟨by simp, Option.some_ne_none false, fun hmem => absurd hmem hnone⟩, rfl,
        .keeps (admitConn_false hgate) rfl⟩
    | true => exact ⟨⟨rfl, rfl⟩, rfl, .admits rfl rfl hgate⟩
  | admitted =>
    obtain ⟨hd, ha⟩ := h
    simp only at hd ha
    subst hd ha
    cases hs
    exact ⟨⟨rfl, rfl⟩, rfl, .keeps rfl rfl⟩
  | looking =>
    cases hs
    cases ok with
    | false => exact hbody h h rfl rfl rfl
    | true => exact hbody h h rfl rfl rfl
  | asserting =>
    cases hs
    cases ok with
    | false => exact hbody h h rfl rfl rfl
    | true => exact hbody h h rfl rfl rfl
  | opening =>
    cases hs
    refine hbody h ⟨?_, h.2⟩ rfl rfl rfl
    exact (List.count_cons_of_ne (by decide)).trans h.1
  | flow =>
    cases hs
    cases ok with
    | false => exact hbody h h rfl rfl rfl
    | true =>
      refine hbody h ⟨?_, h.2⟩ rfl rfl rfl
      exact ((List.count_cons_of_ne (by decide)).trans
        (List.count_cons_of_ne (by decide))).trans h.1
  | offline =>
    cases hs
    exact hbody h h rfl rfl rfl
  | header =>
    cases hs
    cases ok with
    | false => exact hbody h h rfl rfl rfl
    | true => exact hbody h h rfl rfl rfl
  | tracking =>
    cases hs
    refine hbody h ⟨?_, h.2⟩ rfl rfl rfl
    exact (List.count_cons_of_ne (by decide)).trans h.1
  | splicing =>
    cases hs
    exact hbody h h rfl rfl rfl
  | returning =>
    obtain ⟨hone, hsaid, htrue⟩ := h
    simp only at hone hsaid htrue
    unfold step at hs
    simp only at hs
    cases deferred with
    | nil =>
      cases hs
      exact ⟨⟨rfl, hsaid⟩, rfl, .keeps rfl rfl⟩
    | cons d ds =>
      have hrest : d ≠ .release → (Run.mk ip .returning ds admitted).Shaped ∧
          (Run.mk ip .returning ds admitted).live =
            (Run.mk ip .returning (d :: ds) admitted).live := by
        intro hne
        rw [List.count_cons_of_ne hne] at hone
        refine ⟨⟨hone, hsaid, fun hmem => htrue (List.mem_cons_of_mem d hmem)⟩, ?_⟩
        have hsame : (d :: ds).contains .release = ds.contains .release := by
          rw [List.contains_cons, beq_eq_false_iff_ne.2 (Ne.symm hne), Bool.false_or]
        simp only [live, released, hsame]
      cases d with
      | release =>
        cases hs
        rw [List.count_cons_self] at hone
        have hnone : .release ∉ ds := List.count_eq_zero.1 (by omega)
        have hadmitted := htrue List.mem_cons_self
        refine ⟨⟨by simp only; omega, hsaid, fun hmem => absurd hmem hnone⟩, rfl,
          .releases ?_ ?_ rfl rfl⟩
        · simp [live, released, hadmitted]
        · simp [live, released, hnone]
      | _ =>
        cases hs
        exact ⟨(hrest (by decide)).1, rfl, .keeps rfl (hrest (by decide)).2⟩
  | ended => cases hs

theorem live_of_ended {r : Run} (h : r.Shaped) (hended : r.point = .ended) : r.live = false := by
  obtain ⟨ip, point, deferred, admitted⟩ := r
  simp only at hended
  subst hended
  obtain ⟨hd, -⟩ := h
  simp only at hd
  rw [live, released, hd]
  simp

end Run

theorem countP_set_add (p : α → Bool) {l : List α} (h : l[i]? = some a) (b : α) :
    (l.set i b).countP p + (if p a then 1 else 0) = l.countP p + if p b then 1 else 0 := by
  obtain ⟨hi, rfl⟩ := List.getElem?_eq_some_iff.1 h
  rw [List.countP_set hi]
  by_cases hp : p l[i] = true
  · have hpos := List.countP_pos_iff.2 ⟨l[i], List.getElem_mem hi, hp⟩
    rw [if_pos hp]
    omega
  · rw [if_neg hp]
    omega

namespace State

/-- Runs are shaped, and the gate counts those that are live. -/
structure Inv (s : State) : Prop where
  shaped : ∀ r ∈ s.runs, r.Shaped
  counts : s.gate.Counts s.live s.liveFrom

theorem Inv.init (maxGlobal maxPerIP : Int) : (State.start maxGlobal maxPerIP).Inv where
  shaped _ hr := (List.not_mem_nil hr).elim
  counts := .init maxGlobal maxPerIP

variable {s t : State}

theorem live_set (g : ConnGate) {r : Run} (r' : Run) (hi : s.runs[i]? = some r) :
    (State.mk g (s.runs.set i r')).live + (if r.live then 1 else 0) =
      s.live + if r'.live then 1 else 0 :=
  countP_set_add Run.live hi r'

theorem liveFrom_set (g : ConnGate) {r r' : Run} (hi : s.runs[i]? = some r) (hip : r'.ip = r.ip)
    (ip : String) :
    (State.mk g (s.runs.set i r')).liveFrom ip + (if r.live ∧ r.ip = ip then 1 else 0) =
      s.liveFrom ip + if r'.live ∧ r.ip = ip then 1 else 0 := by
  have hset := countP_set_add (fun r => r.live && r.ip = ip) hi r'
  simp only [Bool.and_eq_true, decide_eq_true_eq, hip] at hset
  exact hset

theorem counts_set {g : ConnGate} {r r' : Run} (h : s.gate.Counts s.live s.liveFrom)
    (hi : s.runs[i]? = some r) (hip : r'.ip = r.ip) (heffect : Run.Effect s.gate g r r') :
    g.Counts (State.mk g (s.runs.set i r')).live (State.mk g (s.runs.set i r')).liveFrom := by
  have hlive := live_set g r' hi
  have hfrom := liveFrom_set g hi hip
  cases heffect with
  | keeps hgate hsame =>
    subst hgate
    rw [hsame] at hlive hfrom
    have hlive := Nat.add_right_cancel hlive
    have hfrom := funext fun ip => Nat.add_right_cancel (hfrom ip)
    rw [hlive, hfrom]
    exact h
  | admits hbefore hafter hgate =>
    rw [hbefore, hafter] at hlive hfrom
    have hlive : (State.mk g (s.runs.set i r')).live = s.live + 1 := by simpa using hlive
    have hfrom : (State.mk g (s.runs.set i r')).liveFrom =
        Function.update s.liveFrom r.ip (s.liveFrom r.ip + 1) := by
      funext ip
      have hat := hfrom ip
      by_cases hsame : ip = r.ip
      · subst hsame
        rw [Function.update_self]
        simpa using hat
      · rw [Function.update_of_ne hsame]
        simpa [Ne.symm hsame] using hat
    rw [hlive, hfrom]
    exact h.admitConn hgate
  | releases hbefore hafter _ hgate =>
    rw [hbefore, hafter] at hlive hfrom
    have hlive : s.live = (State.mk g (s.runs.set i r')).live + 1 := by simpa using hlive.symm
    have hlast : s.liveFrom r.ip = (State.mk g (s.runs.set i r')).liveFrom r.ip + 1 := by
      simpa using (hfrom r.ip).symm
    have hfrom : (State.mk g (s.runs.set i r')).liveFrom =
        Function.update s.liveFrom r.ip ((State.mk g (s.runs.set i r')).liveFrom r.ip) := by
      funext ip
      by_cases hsame : ip = r.ip
      · rw [hsame, Function.update_self]
      · rw [Function.update_of_ne hsame]
        simpa [Ne.symm hsame] using hfrom ip
    rw [hlive] at h
    rw [hfrom, hgate]
    rw [hgate] at hlast
    exact h.release hlast

theorem step_run (hs : s.step (.step i ok) = some t) :
    ∃ r g r', s.runs[i]? = some r ∧ r.step s.gate ok = some (g, r') ∧
      t = ⟨g, s.runs.set i r'⟩ := by
  unfold State.step at hs
  simp only at hs
  cases hi : s.runs[i]? with
  | none =>
    rw [hi] at hs
    cases hs
  | some r =>
    rw [hi] at hs
    obtain ⟨⟨g, r'⟩, hrun, hs⟩ := Option.map_eq_some_iff.1 hs
    exact ⟨r, g, r', rfl, hrun, hs.symm⟩

theorem Inv.step (h : s.Inv) (hs : s.step e = some t) : t.Inv := by
  cases e with
  | accept ip =>
    cases hs
    refine ⟨?_, ?_⟩
    · intro r hr
      rcases List.mem_append.1 hr with hr | hr
      · exact h.shaped r hr
      · rw [List.mem_singleton.1 hr]
        exact ⟨rfl, rfl⟩
    · have hlive : (State.mk s.gate (s.runs ++ [⟨ip, .entered, [], none⟩])).live = s.live :=
        List.countP_append
      have hfrom : (State.mk s.gate (s.runs ++ [⟨ip, .entered, [], none⟩])).liveFrom =
          s.liveFrom := funext fun _ => List.countP_append
      rw [hlive, hfrom]
      exact h.counts
  | step i ok =>
    obtain ⟨r, g, r', hi, hrun, rfl⟩ := step_run hs
    obtain ⟨hshaped, hip, heffect⟩ := Run.step_effect (h.shaped r (List.mem_of_getElem? hi)) hrun
    refine ⟨?_, counts_set h.counts hi hip heffect⟩
    intro r₁ hr₁
    rcases List.mem_or_eq_of_mem_set hr₁ with hr₁ | hr₁
    · exact h.shaped r₁ hr₁
    · rw [hr₁]
      exact hshaped

theorem Inv.conserved (h : s.Inv) : s.Conserved where
  global := h.counts.global
  perIP := h.counts.perIP
  underGlobal := by
    have hglobal := h.counts.global
    have hunder := h.counts.underGlobal
    omega
  underPerIP ip := by
    have hcount := h.counts.count ip
    have hunder := h.counts.underPerIP ip
    omega

/-- No step of a refused run changes the gate, the one that refuses it included. -/
def RefusedHarmless (s : State) : Prop :=
  ∀ i ok t r, s.step (.step i ok) = some t → t.runs[i]? = some r → r.admitted = some false →
    t.gate = s.gate

theorem Inv.refusedHarmless (h : s.Inv) : s.RefusedHarmless := by
  intro i ok t r₁ hs hr₁ hrefused
  obtain ⟨r, g, r', hi, hrun, rfl⟩ := step_run hs
  obtain ⟨hlt, -⟩ := List.getElem?_eq_some_iff.1 hi
  simp only [List.getElem?_set_self hlt, Option.some.injEq] at hr₁
  subst hr₁
  obtain ⟨-, -, heffect⟩ := Run.step_effect (h.shaped r (List.mem_of_getElem? hi)) hrun
  have hadmitted {r : Run} (hlive : r.live = true) : r.admitted = some true := by
    rw [Run.live, Bool.and_eq_true, decide_eq_true_eq] at hlive
    exact hlive.1
  cases heffect with
  | keeps hgate _ => exact hgate
  | admits _ hafter _ =>
    rw [hadmitted hafter] at hrefused
    cases hrefused
  | releases hbefore _ hsame _ =>
    rw [hsame, hadmitted hbefore] at hrefused
    cases hrefused

/-- In every interleaving of any runs the gate counts the admitted ones that are not released, one
that has ended is not counted, and one that was refused has changed nothing. -/
theorem slots_conserved (maxGlobal maxPerIP : Int) (events : List Event) :
    Runs.Always State.step
      (fun s => s.Conserved ∧ s.RefusedHarmless ∧
        ∀ r ∈ s.runs, r.point = .ended → r.live = false)
      (State.start maxGlobal maxPerIP) events :=
  Runs.always_of_invariant (C := fun _ _ => True) (fun _ _ _ h _ hs => h.step hs)
    (fun _ h => ⟨h.conserved, h.refusedHarmless, fun r hr => Run.live_of_ended (h.shaped r hr)⟩)
    (Inv.init maxGlobal maxPerIP) (Runs.along_of_forall (P := fun _ => True) (fun _ _ => trivial) _)

theorem drained (hr : Runs.Reaches State.step (State.start maxGlobal maxPerIP) events s)
    (hended : ∀ r ∈ s.runs, r.point = .ended) :
    s.gate.global = 0 ∧ ∀ ip, s.gate.perIP ip = none := by
  have hinv : s.Inv := hr.invariant (fun _ _ _ h hs => h.step hs) (.init maxGlobal maxPerIP)
  have hdead (r : Run) (hmem : r ∈ s.runs) : ¬r.live = true := by
    rw [Run.live_of_ended (hinv.shaped r hmem) (hended r hmem)]
    exact Bool.false_ne_true
  have hlive : s.live = 0 := List.countP_eq_zero.2 hdead
  refine ⟨?_, fun ip => ?_⟩
  · rw [hinv.counts.global, hlive]
    rfl
  · have hfrom : s.liveFrom ip = 0 := List.countP_eq_zero.2 fun r hmem hboth =>
      hdead r hmem (Bool.and_eq_true_iff.1 hboth).1
    rw [hinv.counts.perIP, if_pos hfrom]

end State

end ProxyForward.Clients

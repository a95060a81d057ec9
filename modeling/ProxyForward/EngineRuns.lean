import ProxyForward.Runs
import ProxyForward.Uptime

namespace ProxyForward
set_option autoImplicit true

/-- An instant lies in one of the intervals. -/
def CoveredBy (cover : List (Int × Int)) (t : Int) : Prop := ∃ iv ∈ cover, iv.1 ≤ t ∧ t ≤ iv.2

instance (cover : List (Int × Int)) (t : Int) : Decidable (CoveredBy cover t) :=
  inferInstanceAs (Decidable (∃ iv ∈ cover, iv.1 ≤ t ∧ t ≤ iv.2))

theorem engineCoverageFrom_covers (h : Chronological es) (hpos : ∀ e ∈ es, 0 ≤ e.t)
    (hnow : t ≤ nowMs)
    (hle : ∀ e ∈ es, open' ≤ e.t)
    (hup : (0 ≤ open' ∧ open' ≤ t ∧ ∀ f ∈ es, f.up = false → t ≤ f.t) ∨
      ∃ e ∈ es, e.up = true ∧ e.t ≤ t ∧ ∀ f ∈ es, f.up = false → f.t < e.t ∨ t ≤ f.t) :
    CoveredBy (engineCoverageFrom nowMs open' es) t := by
  induction es generalizing open' with
  | nil =>
    obtain ⟨hopen, hopent, -⟩ | ⟨e, he, -⟩ := hup
    · simp only [engineCoverageFrom, if_pos hopen]
      exact ⟨_, List.mem_cons_self, hopent, hnow⟩
    · exact absurd he List.not_mem_nil
  | cons e es ih =>
    obtain ⟨hsorted, hes⟩ := List.pairwise_cons.1 h
    obtain ⟨hpose, hposes⟩ := List.forall_mem_cons.1 hpos
    obtain ⟨hlee, hlees⟩ := List.forall_mem_cons.1 hle
    simp only [engineCoverageFrom]
    cases heup : e.up with
    | true =>
      rw [if_pos rfl]
      have hstart : (if open' < 0 then e.t else open') ≤ e.t ∧ 0 ≤ (if open' < 0 then e.t
        else open') := by
        split
        · exact ⟨le_rfl, hpose⟩
        · rename_i hopen
          exact ⟨hlee, not_lt.1 hopen⟩
      refine ih hes hposes (fun f hf => hstart.1.trans (hsorted f hf)) ?_
      obtain ⟨hopen, hopent, hdown⟩ | ⟨e', he', hup', het, hdown⟩ := hup
      · rw [if_neg (not_lt.2 hopen)]
        exact .inl ⟨hopen, hopent, fun f hf => hdown f (List.mem_cons_of_mem _ hf)⟩
      · rcases List.mem_cons.1 he' with rfl | he'
        · refine .inl ⟨hstart.2, hstart.1.trans het, fun f hf hfup => ?_⟩
          exact (hdown f (List.mem_cons_of_mem _ hf) hfup).resolve_left (not_lt.2 (hsorted f hf))
        · exact .inr ⟨e', he', hup', het, fun f hf => hdown f (List.mem_cons_of_mem _ hf)⟩
    | false =>
      rw [if_neg Bool.false_ne_true]
      by_cases hopen : 0 ≤ open'
      · rw [if_pos hopen]
        by_cases ht : open' ≤ t ∧ t ≤ e.t
        · exact ⟨_, List.mem_cons_self, ht⟩
        · obtain ⟨-, hopent, hdown⟩ | ⟨e', he', hup', het, hdown⟩ := hup
          · exact absurd ⟨hopent, hdown e List.mem_cons_self heup⟩ ht
          · rcases List.mem_cons.1 he' with rfl | he'
            · exact absurd (heup.symm.trans hup') Bool.false_ne_true
            · have hclosed : ∀ f ∈ es, (-1 : Int) ≤ f.t :=
                fun f hf => (by omega : (-1 : Int) ≤ 0).trans (hposes f hf)
              obtain ⟨iv, hiv, hin⟩ := ih hes hposes hclosed
                (.inr ⟨e', he', hup', het, fun f hf => hdown f (List.mem_cons_of_mem _ hf)⟩)
              exact ⟨iv, List.mem_cons_of_mem _ hiv, hin⟩
      · rw [if_neg hopen]
        refine ih hes hposes hlees ?_
        obtain ⟨hopen', -⟩ | ⟨e', he', hup', het, hdown⟩ := hup
        · exact absurd hopen' hopen
        · rcases List.mem_cons.1 he' with rfl | he'
          · exact absurd (heup.symm.trans hup') Bool.false_ne_true
          · exact .inr ⟨e', he', hup', het, fun f hf => hdown f (List.mem_cons_of_mem _ hf)⟩

theorem engineCoverage_covers (h : Chronological events) (hpos : ∀ e ∈ events, 0 ≤ e.t)
    (hnow : t ≤ nowMs)
    (he : e ∈ events) (hup : e.up = true) (het : e.t ≤ t)
    (hdown : ∀ f ∈ events, f.up = false → f.t < e.t ∨ t ≤ f.t) :
    CoveredBy (engineCoverage events nowMs) t :=
  engineCoverageFrom_covers h hpos hnow (fun f hf => (by omega : (-1 : Int) ≤ 0).trans (hpos f hf))
    (.inr ⟨e, he, hup, het, hdown⟩)

/-! Engine processes on one config directory. -/

/-- Where a call of `Run` is; `up` is the time of its engine-up event. -/
inductive RunPhase
  | journaled (up : Nat)
  | owner (up : Nat)
  | refused
  | released
  | returned
  deriving DecidableEq, Repr

/-- The process owns the pipe, or may still get it. -/
def RunPhase.upSince : RunPhase → Option Nat
  | .journaled up | .owner up => some up
  | .refused | .released | .returned => none

def RunPhase.ownsPipe : RunPhase → Bool
  | .owner _ => true
  | .journaled _ | .refused | .released | .returned => false

structure EngineRuns where
  now : Nat
  procs : List RunPhase
  journal : List EventRow
  /-- The instants at which the pipe owner was running. -/
  ran : List Nat
  deriving DecidableEq, Repr

inductive RunStep
  | tick
  | start
  /-- `ipc.Serve` of a process asks for the pipe. -/
  | serve (i : Nat)
  | release (i : Nat)
  | finish (i : Nat)
  deriving DecidableEq, Repr

namespace EngineRuns

def init (now : Nat) : EngineRuns := ⟨now, [], [], []⟩

def owned (s : EngineRuns) : Bool := s.procs.any RunPhase.ownsPipe

def recordEngine (s : EngineRuns) (up : Bool) : EngineRuns :=
  { s with journal := recordEventAt s.journal s.now eventEngine "" "" up }

def move (s : EngineRuns) (i : Nat) (p : RunPhase) : EngineRuns :=
    { s with procs := s.procs.set i p }

/-- The pipe owner, if there is one, runs at this instant. -/
def observe (s : EngineRuns) : EngineRuns :=
  if s.owned then { s with ran := s.now :: s.ran } else s

def next (s : EngineRuns) : RunStep → Option EngineRuns
  | .tick => some { s with now := s.now + 1 }
  | .start => some { s.recordEngine true with procs := s.procs ++ [.journaled s.now] }
  | .serve i =>
    match s.procs[i]? with
    | some (.journaled up) => some (s.move i (if s.owned then .refused else .owner up))
    | _ => none
  | .release i =>
    match s.procs[i]? with
    | some (.owner _) => some (s.move i .released)
    | _ => none
  | .finish i =>
    match s.procs[i]? with
    | some .refused | some .released => some ((s.recordEngine false).move i .returned)
    | _ => none

def step (s : EngineRuns) (l : RunStep) : Option EngineRuns := (s.next l).map observe

/-- Whatever order the journal is loaded in, the coverage holds every instant the pipe owner ran. -/
def Covered (s : EngineRuns) : Prop :=
  ∀ events, LoadEvents s.journal eventEngine "" events →
    ∀ t ∈ s.ran, CoveredBy (engineCoverage events s.now) t

/-- A process ends when no other one owns the pipe or may still get it, and one starts in a later
millisecond than the last one ended. -/
def Alone (s : EngineRuns) : RunStep → Prop
  | .finish _ => ∀ p ∈ s.procs, p.upSince = none
  | .start => ∀ r ∈ s.journal, r.up = false → r.t < s.now
  | .tick | .serve _ | .release _ => True

instance (s : EngineRuns) (l : RunStep) : Decidable (s.Alone l) :=
  match l with
  | .finish _ => inferInstanceAs (Decidable (∀ p ∈ s.procs, p.upSince = none))
  | .start => inferInstanceAs (Decidable (∀ r ∈ s.journal, r.up = false → r.t < s.now))
  | .tick | .serve _ | .release _ => isTrue trivial

/-- An up event at `up` starts an interval that holds `t`. -/
structure Shown (s : EngineRuns) (up t : Nat) : Prop where
  le : up ≤ t
  row : ∃ r ∈ s.journal, r.t = up ∧ r.up = true
  down : ∀ r ∈ s.journal, r.up = false → r.t < up ∨ t ≤ r.t

structure Inv (s : EngineRuns) : Prop where
  engine : ∀ r ∈ s.journal, r.kind = eventEngine ∧ r.tunnelID = ""
  past : ∀ r ∈ s.journal, 0 ≤ r.t ∧ r.t ≤ s.now
  ranPast : ∀ t ∈ s.ran, t ≤ s.now
  ran : ∀ t ∈ s.ran, ∃ up, s.Shown up t
  pending : ∀ p ∈ s.procs, ∀ up ∈ p.upSince, up ≤ s.now ∧
    (∃ r ∈ s.journal, r.t = up ∧ r.up = true) ∧ ∀ r ∈ s.journal, r.up = false → r.t < up

namespace Inv

theorem init (n : Nat) : Inv (.init n) where
  engine _ hr := absurd hr List.not_mem_nil
  past _ hr := absurd hr List.not_mem_nil
  ranPast _ ht := absurd ht List.not_mem_nil
  ran _ ht := absurd ht List.not_mem_nil
  pending _ hp := absurd hp List.not_mem_nil

theorem covered (h : Inv s) : s.Covered := by
  intro events hload t ht
  obtain ⟨up, hle, ⟨r, hr, hrt, hrup⟩, hdown⟩ := h.ran t ht
  have hmem {r : EventRow} (hr : r ∈ s.journal) : r ∈ eventsOf s.journal eventEngine "" :=
    List.mem_filter.2 ⟨hr, decide_eq_true (h.engine r hr)⟩
  refine engineCoverage_covers (e := ⟨up, true⟩) hload.chronological (fun e he => ?_)
    (Int.ofNat_le.2 (h.ranPast t ht)) (hload.mem_iff.2 ⟨r, hmem hr, hrt, hrup⟩) rfl
    (Int.ofNat_le.2 hle)
    fun f hf hfup => ?_
  · obtain ⟨r, hr, hrt, -⟩ := hload.mem_iff.1 he
    exact hrt ▸ (h.past r (List.mem_filter.1 hr).1).1
  · obtain ⟨r, hr, hrt, hrup⟩ := hload.mem_iff.1 hf
    exact hrt ▸ hdown r (List.mem_filter.1 hr).1 (hrup.trans hfup)

theorem observe (h : Inv s) : Inv s.observe := by
  unfold EngineRuns.observe
  split
  · rename_i howned
    obtain ⟨p, hp, hpipe⟩ := List.any_eq_true.1 howned
    refine ⟨h.engine, h.past, List.forall_mem_cons.2 ⟨le_rfl, h.ranPast⟩, ?_, h.pending⟩
    refine List.forall_mem_cons.2 ⟨?_, fun t ht => ?_⟩
    · cases p with
      | owner up =>
        obtain ⟨hle, hrow, hdown⟩ := h.pending _ hp up rfl
        exact ⟨up, hle, hrow, fun r hr hrup => .inl (hdown r hr hrup)⟩
      | journaled up => cases hpipe
      | refused => cases hpipe
      | released => cases hpipe
      | returned => cases hpipe
    · obtain ⟨up, hle, hrow, hdown⟩ := h.ran t ht
      exact ⟨up, hle, hrow, hdown⟩
  · exact h

theorem move (h : Inv s) (hp : s.procs[i]? = some p) (hup : ∀ up ∈ q.upSince, p.upSince = some up) :
    Inv (s.move i q) where
  engine := h.engine
  past := h.past
  ranPast := h.ranPast
  ran t ht := by
    obtain ⟨up, hle, hrow, hdown⟩ := h.ran t ht
    exact ⟨up, hle, hrow, hdown⟩
  pending p' hp' up hup' := by
    rcases List.mem_or_eq_of_mem_set hp' with hp' | rfl
    · exact h.pending p' hp' up hup'
    · exact h.pending p (List.mem_of_getElem? hp) up (hup up hup')

theorem tick (h : Inv s) : Inv { s with now := s.now + 1 } where
  engine := h.engine
  past r hr := ⟨(h.past r hr).1, (h.past r hr).2.trans (Int.ofNat_le.2 (Nat.le_succ _))⟩
  ranPast t ht := (h.ranPast t ht).trans (Nat.le_succ _)
  ran t ht := by
    obtain ⟨up, hle, hrow, hdown⟩ := h.ran t ht
    exact ⟨up, hle, hrow, hdown⟩
  pending p hp up hup := by
    obtain ⟨hle, hrow, hdown⟩ := h.pending p hp up hup
    exact ⟨hle.trans (Nat.le_succ _), hrow, hdown⟩

theorem mem_record {s : EngineRuns} :
    r ∈ (s.recordEngine up).journal ↔ r ∈ s.journal ∨ r = ⟨s.now, "", eventEngine, "", up⟩ := by
  simp only [recordEngine, recordEventAt, List.mem_append, List.mem_singleton]

theorem shown_record {s : EngineRuns} (hs : s.Shown upAt t) (ht : t ≤ s.now) :
    (s.recordEngine up).Shown upAt t where
  le := hs.le
  row := by
    obtain ⟨r, hr, hrow⟩ := hs.row
    exact ⟨r, mem_record.2 (.inl hr), hrow⟩
  down r hr hrup := by
    rcases mem_record.1 hr with hr | rfl
    · exact hs.down r hr hrup
    · exact .inr (Int.ofNat_le.2 ht)

theorem record (h : Inv s)
    (hpending : ∀ p ∈ s.procs, ∀ upAt ∈ p.upSince, up = true) : Inv (s.recordEngine up) where
  engine r hr := by
    rcases mem_record.1 hr with hr | rfl
    · exact h.engine r hr
    · exact ⟨rfl, rfl⟩
  past r hr := by
    rcases mem_record.1 hr with hr | rfl
    · exact h.past r hr
    · exact ⟨Int.natCast_nonneg _, le_rfl⟩
  ranPast := h.ranPast
  ran t ht := by
    obtain ⟨upAt, hshown⟩ := h.ran t ht
    exact ⟨upAt, shown_record hshown (h.ranPast t ht)⟩
  pending p hp upAt hupAt := by
    obtain ⟨hle, ⟨r, hr, hrow⟩, hdown⟩ := h.pending p hp upAt hupAt
    refine ⟨hle, ⟨r, mem_record.2 (.inl hr), hrow⟩, fun r hr hrup => ?_⟩
    rcases mem_record.1 hr with hr | rfl
    · exact hdown r hr hrup
    · exact absurd ((hpending p hp upAt hupAt).symm.trans hrup) nofun

theorem next (h : Inv s) (halone : s.Alone l) (hs : s.next l = some t) : Inv t := by
  cases l with
  | tick =>
    obtain rfl := Option.some.inj hs
    exact h.tick
  | start =>
    obtain rfl := Option.some.inj hs
    have hrecord : Inv (s.recordEngine true) := h.record fun _ _ _ _ => rfl
    obtain ⟨hengine, hpast, hranPast, hran, hpending⟩ := hrecord
    refine ⟨hengine, hpast, hranPast, fun t ht => ?_, fun p hp up hup => ?_⟩
    · obtain ⟨up, hle, hrow, hdown⟩ := hran t ht
      exact ⟨up, hle, hrow, hdown⟩
    · rcases List.mem_append.1 hp with hp | hp
      · exact hpending p hp up hup
      · obtain rfl := List.mem_singleton.1 hp
        obtain rfl := Option.some.inj hup
        refine ⟨le_rfl, ⟨_, mem_record.2 (.inr rfl), rfl, rfl⟩, fun r hr hrup => ?_⟩
        rcases mem_record.1 hr with hr | rfl
        · exact halone r hr hrup
        · exact absurd hrup nofun
  | serve i =>
    simp only [EngineRuns.next] at hs
    split at hs
    · rename_i up hp
      obtain rfl := Option.some.inj hs
      refine h.move hp fun up' hup' => ?_
      split at hup'
      · exact absurd hup' nofun
      · exact hup'
    · exact absurd hs nofun
  | release i =>
    simp only [EngineRuns.next] at hs
    split at hs
    · rename_i up hp
      obtain rfl := Option.some.inj hs
      exact h.move hp nofun
    · exact absurd hs nofun
  | finish i =>
    have hrecord : Inv (s.recordEngine false) := h.record fun p hp upAt hupAt =>
      absurd ((halone p hp).symm.trans hupAt) nofun
    simp only [EngineRuns.next] at hs
    split at hs
    · rename_i hp
      obtain rfl := Option.some.inj hs
      exact hrecord.move hp nofun
    · rename_i hp
      obtain rfl := Option.some.inj hs
      exact hrecord.move hp nofun
    · exact absurd hs nofun

theorem step (h : Inv s) (halone : s.Alone l) (hs : s.step l = some t) : Inv t := by
  obtain ⟨u, hu, rfl⟩ := Option.map_eq_some_iff.1 hs
  exact (h.next halone hu).observe

end Inv

/-- The coverage holds every instant of the pipe owner in every run in which a process ends
alone. -/
theorem always_covered (n : Nat) (ls : List RunStep) (h : Runs.Along step Alone (.init n) ls) :
    Runs.Always step Covered (.init n) ls :=
  Runs.always_of_invariant (fun _ _ _ hs hl ht => Inv.step hs hl ht) (fun _ hs => hs.covered)
    (Inv.init n) h

/-- Two processes, one after the other, and a refused one that ends between them. -/
theorem always_covered_in_turn : Runs.Always step Covered (.init 100)
    [.start, .serve 0, .tick, .start, .serve 1, .release 0, .finish 0, .finish 1, .tick, .start,
    .serve 2, .tick] :=
  always_covered 100 _ (by decide)

/-- A second start that is refused ends the coverage of the running daemon. -/
theorem refused_start_uncovers : ¬∀ n ls, Runs.Always step Covered (.init n) ls := by
  intro h
  have hrun : Runs.final step (.init 100)
      [.start, .serve 0, .tick, .start, .serve 1, .tick, .finish 1, .tick] = some
        ⟨103, [.owner 100, .returned],
          [⟨100, "", eventEngine, "", true⟩, ⟨101, "", eventEngine, "", true⟩,
          ⟨102, "", eventEngine, "", false⟩], [103, 102, 102, 101, 101, 101, 100]⟩ := by
    decide
  have hload : LoadEvents [⟨100, "", eventEngine, "", true⟩, ⟨101, "", eventEngine, "", true⟩,
      ⟨102, "", eventEngine, "", false⟩] eventEngine "" [⟨100, true⟩, ⟨101, true⟩, ⟨102, false⟩] :=
    ⟨_, .refl _, by decide, rfl⟩
  have hcovered := (h _ _).final (Runs.reaches_of_final hrun) _ hload 103 List.mem_cons_self
  exact absurd hcovered (by decide)

end EngineRuns

end ProxyForward

import Mathlib.Data.Int.ConditionallyCompleteOrder
import Mathlib.Data.Int.Interval
import Mathlib.Data.List.Sort
import Mathlib.Algebra.Order.Field.Rat

namespace ProxyForward
set_option autoImplicit true

def eventLink : String := "link"
def eventTunnelLocal : String := "tunnel_local"
def eventEngine : String := "engine"

/-- A row of the event journal. -/
structure EventRow where
  t : Int
  agentID : String
  kind : String
  tunnelID : String
  up : Bool
  deriving DecidableEq, Repr

def recordEventAt (journal : List EventRow) (t : Int) (kind agentID tunnelID : String) (up : Bool) :
    List EventRow :=
  journal ++ [⟨t, agentID, kind, tunnelID, up⟩]

structure UptimeEvent where
  t : Int
  up : Bool
  deriving DecidableEq, Repr

/-- The rows that `loadEvents` selects. -/
def eventsOf (journal : List EventRow) (kind tunnelID : String) : List EventRow :=
  journal.filter fun r => r.kind = kind ∧ r.tunnelID = tunnelID

/-- `loadEvents` may return `events`: the selected rows by time, those of one instant in any
order. -/
def LoadEvents (journal : List EventRow) (kind tunnelID : String)
    (events : List UptimeEvent) : Prop :=
  ∃ rows : List EventRow, rows.Perm (eventsOf journal kind tunnelID) ∧
    rows.Pairwise (fun r r' => r.t ≤ r'.t) ∧ events = rows.map fun r => ⟨r.t, r.up⟩

/-- The loop of `stateAt` from the events still to come; it stops at the first one past `t`. -/
def stateFrom (state : Option Bool) (t : Int) : List UptimeEvent → Option Bool
  | [] => state
  | e :: es => if e.t ≤ t then stateFrom (some e.up) t es else state

/-- The state at `t`, if one is known. -/
def stateAt (events : List UptimeEvent) (t : Int) : Option Bool := stateFrom none t events

/-- The time a state adds to up-time and to known time. -/
def segment (state : Option Bool) (seg : Int) : Int × Int :=
  match state with
  | some true => (seg, seg)
  | some false => (0, seg)
  | none => (0, 0)

/-- The loop of `upKnown`, and the segment after it. -/
def upKnownFrom (a b cursor : Int) (state : Option Bool) : List UptimeEvent → Int × Int
  | [] => segment state (b - cursor)
  | e :: es =>
    if e.t ≤ a ∨ b ≤ e.t then upKnownFrom a b cursor state es
    else segment state (e.t - cursor) + upKnownFrom a b e.t (some e.up) es

/-- Up-time and known time within `[a, b]`. -/
def upKnown (events : List UptimeEvent) (a b : Int) : Int × Int :=
  if b ≤ a then (0, 0) else upKnownFrom a b a (stateAt events a) events

/-- The intervals in which the engine ran. `open'` is the start of the current one, or -1. -/
def engineCoverageFrom (nowMs open' : Int) : List UptimeEvent → List (Int × Int)
  | [] => if 0 ≤ open' then [(open', nowMs)] else []
  | e :: es =>
    if e.up then engineCoverageFrom nowMs (if open' < 0 then e.t else open') es
    else if 0 ≤ open' then (open', e.t) :: engineCoverageFrom nowMs (-1) es
    else engineCoverageFrom nowMs open' es

def engineCoverage (events : List UptimeEvent) (nowMs : Int) : List (Int × Int) :=
  engineCoverageFrom nowMs (-1) events

/-- The up-fraction of the known and covered time, in percent, or -1 when no state is known. -/
def computeUptimePct (events : List UptimeEvent) (engineCover : List (Int × Int))
    (since now : Int) :
    ℚ :=
  let since := if since ≤ 0 then 0 else since
  if now ≤ since then -1
  else
    let cover := if engineCover.isEmpty then [(since, now)] else engineCover
    let total := (cover.map fun iv => upKnown events (max iv.1 since) (min iv.2 now)).sum
    if total.2 = 0 then -1 else total.1 / total.2 * 100

abbrev Chronological (events : List UptimeEvent) : Prop :=
  events.Pairwise fun e e' => e.t ≤ e'.t

theorem LoadEvents.chronological (h : LoadEvents journal kind tunnelID events) :
    Chronological events := by
  obtain ⟨rows, -, hsorted, rfl⟩ := h
  exact hsorted.map _ fun _ _ h => h

theorem LoadEvents.mem_iff (h : LoadEvents journal kind tunnelID events) :
    e ∈ events ↔ ∃ r ∈ eventsOf journal kind tunnelID, r.t = e.t ∧ r.up = e.up := by
  obtain ⟨rows, hperm, -, rfl⟩ := h
  simp only [List.mem_map, hperm.mem_iff]
  refine exists_congr fun r => and_congr_right fun _ => ?_
  cases e
  simp only [UptimeEvent.mk.injEq]

theorem stateFrom_append (hes : ∀ e ∈ es, e.t ≤ t) :
    stateFrom state t (es ++ fs) = stateFrom (stateFrom state t es) t fs := by
  induction es generalizing state with
  | nil => rfl
  | cons e es ih =>
    obtain ⟨he, hes⟩ := List.forall_mem_cons.1 hes
    simp only [List.cons_append, stateFrom, if_pos he, ih hes]

theorem stateFrom_later (hes : ∀ e ∈ es, t < e.t) : stateFrom state t es = state := by
  cases es with
  | nil => rfl
  | cons e es => exact if_neg (not_le.2 (hes e List.mem_cons_self))

theorem stateFrom_some (h : Chronological es) (hs : stateFrom state t es = some up) :
    state = some up ∧ (∀ e ∈ es, t < e.t) ∨
      ∃ e ∈ es, e.t ≤ t ∧ e.up = up ∧ ∀ e' ∈ es, e'.t ≤ t → e'.t ≤ e.t := by
  induction es generalizing state with
  | nil => exact .inl ⟨hs, fun e he => absurd he List.not_mem_nil⟩
  | cons e es ih =>
    obtain ⟨hle, hes⟩ := List.pairwise_cons.1 h
    simp only [stateFrom] at hs
    split at hs
    · rename_i he
      obtain ⟨hup, hlater⟩ | ⟨f, hf, hft, hup, hmax⟩ := ih hes hs
      · refine .inr ⟨e, List.mem_cons_self, he, Option.some.inj hup, fun e' he' ht => ?_⟩
        obtain rfl | he' := List.mem_cons.1 he'
        · exact le_rfl
        · exact absurd ht (not_le.2 (hlater e' he'))
      · refine .inr ⟨f, List.mem_cons_of_mem _ hf, hft, hup, fun e' he' ht => ?_⟩
        obtain rfl | he' := List.mem_cons.1 he'
        · exact hle f hf
        · exact hmax e' he' ht
    · rename_i he
      refine .inl ⟨hs, fun e' he' => ?_⟩
      have he := not_le.1 he
      obtain rfl | he' := List.mem_cons.1 he'
      · exact he
      · exact he.trans_le (hle e' he')

theorem stateAt_some (h : Chronological events) (hs : stateAt events t = some up) :
    ∃ e ∈ events, e.t ≤ t ∧ e.up = up ∧ ∀ e' ∈ events, e'.t ≤ t → e'.t ≤ e.t := by
  obtain ⟨hnone, -⟩ | he := stateFrom_some h hs
  · cases hnone
  · exact he

theorem stateFrom_isSome (state : Option Bool) (hstate : state.isSome = true) :
    (stateFrom state t es).isSome = true := by
  induction es generalizing state with
  | nil => exact hstate
  | cons e es ih =>
    simp only [stateFrom]
    split
    · exact ih _ rfl
    · exact hstate

theorem stateAt_none (h : Chronological events) :
    stateAt events t = none ↔ ∀ e ∈ events, t < e.t := by
  constructor
  · intro hs
    cases events with
    | nil => exact fun e he => absurd he List.not_mem_nil
    | cons e es =>
      obtain ⟨hle, -⟩ := List.pairwise_cons.1 h
      simp only [stateAt, stateFrom] at hs
      split at hs
      · have hsome : (stateFrom (some e.up) t es).isSome = true := stateFrom_isSome _ rfl
        rw [hs] at hsome
        cases hsome
      · rename_i he
        intro e' he'
        obtain rfl | he' := List.mem_cons.1 he'
        · exact not_le.1 he
        · exact (not_le.1 he).trans_le (hle e' he')
  · exact stateFrom_later

theorem stateFrom_split (h : Chronological es) (hat : a ≤ t) :
    stateFrom state t es = stateFrom (stateFrom state a es) t (es.filter fun e => a < e.t) := by
  induction es generalizing state with
  | nil => rfl
  | cons e es ih =>
    obtain ⟨hle, hes⟩ := List.pairwise_cons.1 h
    by_cases he : e.t ≤ a
    · rw [List.filter_cons_of_neg (by simpa only [decide_eq_true_eq, not_lt] using he)]
      simp only [stateFrom, if_pos he, if_pos (he.trans hat)]
      exact ih hes
    · have hall : ∀ e' ∈ e :: es, a < e'.t := by
        intro e' he'
        obtain rfl | he' := List.mem_cons.1 he'
        · exact not_le.1 he
        · exact (not_le.1 he).trans_le (hle e' he')
      rw [stateFrom_later hall, List.filter_eq_self.2 fun e' he' => decide_eq_true (hall e' he')]

/-- The instants of `[a, b)` at which the state is up, and those at which it is known. -/
noncomputable def timeIn (state : Int → Option Bool) (a b : Int) : Int × Int :=
  (((Finset.Ico a b).filter fun t => state t = some true).card,
    ((Finset.Ico a b).filter fun t => (state t).isSome = true).card)

theorem timeIn_congr (h : ∀ t, a ≤ t → t < b → f t = g t) : timeIn f a b = timeIn g a b := by
  have hmem : ∀ t ∈ Finset.Ico a b, f t = g t := fun t ht =>
    h t (Finset.mem_Ico.1 ht).1 (Finset.mem_Ico.1 ht).2
  have hup : ∀ t ∈ Finset.Ico a b, (f t = some true ↔ g t = some true) := fun t ht => by
    rw [hmem t ht]
  have hknown : ∀ t ∈ Finset.Ico a b, ((f t).isSome = true ↔ (g t).isSome = true) := fun t ht => by
    rw [hmem t ht]
  rw [timeIn, Finset.filter_congr hup, Finset.filter_congr hknown]
  rfl

theorem timeIn_const (hab : a ≤ b) (state : Option Bool) :
    timeIn (fun _ => state) a b = segment state (b - a) := by
  have hlen : ((b - a).toNat : Int) = b - a := Int.toNat_of_nonneg (sub_nonneg.2 hab)
  cases state with
  | none => simp [timeIn, segment]
  | some up => cases up <;> simp [timeIn, segment, hlen]

theorem timeIn_split (hac : a ≤ c) (hcb : c ≤ b) :
    timeIn state a b = timeIn state a c + timeIn state c b := by
  have hd : Disjoint (Finset.Ico a c) (Finset.Ico c b) := Finset.Ico_disjoint_Ico_consecutive a c b
  have hcard (p : Int → Prop) [DecidablePred p] :
      (((Finset.Ico a b).filter p).card : Int) =
        ((Finset.Ico a c).filter p).card + ((Finset.Ico c b).filter p).card := by
    rw [← Finset.Ico_union_Ico_eq_Ico hac hcb, Finset.filter_union,
      Finset.card_union_of_disjoint (Finset.disjoint_filter_filter hd), Nat.cast_add]
  exact Prod.ext (hcard _) (hcard _)

theorem upKnownFrom_eq (h : Chronological es) (hc : ∀ e ∈ es, a < e.t → cursor ≤ e.t)
    (hcb : cursor ≤ b) :
    upKnownFrom a b cursor state es =
      timeIn (fun t => stateFrom state t (es.filter fun e => a < e.t)) cursor b := by
  induction es generalizing cursor state with
  | nil => exact (timeIn_const hcb state).symm
  | cons e es ih =>
    obtain ⟨hle, hes⟩ := List.pairwise_cons.1 h
    obtain ⟨hce, hces⟩ := List.forall_mem_cons.1 hc
    simp only [upKnownFrom]
    by_cases ha : e.t ≤ a
    · rw [if_pos (.inl ha), ih hes hces hcb,
        List.filter_cons_of_neg (by simpa only [decide_eq_true_eq, not_lt] using ha)]
    · have hae := not_le.1 ha
      have hfilter : (e :: es).filter (fun e => a < e.t) = e :: es.filter fun e => a < e.t :=
        List.filter_cons_of_pos (by simpa only [decide_eq_true_eq] using hae)
      rw [hfilter]
      by_cases hb : b ≤ e.t
      · rw [if_pos (.inr hb), ih hes hces hcb]
        refine timeIn_congr fun t _ ht => ?_
        have hte := ht.trans_le hb
        rw [stateFrom_later fun e' he' => hte.trans_le (hle e' (List.mem_of_mem_filter he'))]
        exact (if_neg (not_le.2 hte)).symm
      · have heb := not_le.1 hb
        rw [if_neg (not_or.2 ⟨ha, hb⟩), timeIn_split (hce hae) heb.le]
        congr 1
        · rw [← timeIn_const (hce hae)]
          exact timeIn_congr fun t _ ht => (if_neg (not_le.2 ht)).symm
        · rw [ih hes (fun e' he' _ => hle e' he') heb.le]
          exact timeIn_congr fun t ht _ => (if_pos ht).symm

theorem upKnown_eq_timeIn (h : Chronological events) (a b : Int) :
    upKnown events a b = timeIn (stateAt events) a b := by
  unfold upKnown
  split
  · rename_i hba
    simp only [timeIn, Finset.Ico_eq_empty (not_lt.2 hba), Finset.filter_empty, Finset.card_empty,
      Nat.cast_zero]
  · rename_i hab
    have hab := not_le.1 hab
    rw [upKnownFrom_eq h (fun e _ he => he.le) hab.le]
    exact timeIn_congr fun t ht _ => (stateFrom_split h ht).symm

theorem upKnown_congr (he : Chronological es) (hf : Chronological fs)
    (h : ∀ t, c ≤ t → stateAt es t = stateAt fs t) (hc : c ≤ a) (b : Int) :
    upKnown es a b = upKnown fs a b := by
  rw [upKnown_eq_timeIn he, upKnown_eq_timeIn hf]
  exact timeIn_congr fun t ht _ => h t (hc.trans ht)

theorem computeUptimePct_congr (he : Chronological es) (hf : Chronological fs)
    (h : ∀ t, c ≤ t → stateAt es t = stateAt fs t) (hc : c ≤ since)
    (cover : List (Int × Int)) (now : Int) :
    computeUptimePct es cover since now = computeUptimePct fs cover since now := by
  have hsince : c ≤ (if since ≤ 0 then 0 else since) := by
    split
    · rename_i h0
      exact hc.trans h0
    · exact hc
  have hterm (iv : Int × Int) :
      upKnown es (max iv.1 (if since ≤ 0 then 0 else since)) (min iv.2 now) =
        upKnown fs (max iv.1 (if since ≤ 0 then 0 else since)) (min iv.2 now) :=
    upKnown_congr he hf h (hsince.trans (le_max_right _ _)) _
  simp only [computeUptimePct, hterm]

end ProxyForward

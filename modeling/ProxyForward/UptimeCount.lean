import ProxyForward.Uptime

namespace ProxyForward
set_option autoImplicit true

/-- The instant lies in one of the intervals. -/
def InRun (runs : List (Int × Int)) (t : Int) : Prop :=
  ∃ iv ∈ runs, iv.1 ≤ t ∧ t < iv.2

theorem inRun_cons : InRun (iv :: runs) t ↔ (iv.1 ≤ t ∧ t < iv.2) ∨ InRun runs t := by
  simp only [InRun, List.mem_cons, or_and_right, exists_or, exists_eq_left]

/-- The instant lies in an engine run, or there is none. -/
def Covered (engine : List UptimeEvent) (now t : Int) : Prop :=
  engineCoverage engine now = [] ∨ InRun (engineCoverage engine now) t

/-- The open run together with those to come: the instants at which the state is up. -/
def RunsShow (now t : Int) (es : List UptimeEvent) : Prop :=
  ∀ open' state, (0 ≤ open' ↔ state = some true) → (0 ≤ open' → ∀ e ∈ es, open' ≤ e.t) →
    (InRun (engineCoverageFrom now open' es) t ↔
      open' ≤ t ∧ stateFrom state t (es.filter fun e => 0 ≤ e.t) = some true)

theorem RunsShow.early {e : UptimeEvent} (ih : RunsShow now t es) (ht : 0 ≤ t) (h0 : ¬0 ≤ e.t) :
    RunsShow now t (e :: es) := by
  intro open' state hstate hopen
  have hfilter : (e :: es).filter (fun e => 0 ≤ e.t) = es.filter fun e => 0 ≤ e.t :=
    List.filter_cons_of_neg (by simpa only [decide_eq_true_eq] using h0)
  have ho : ¬0 ≤ open' := fun ho => h0 (ho.trans (hopen ho e List.mem_cons_self))
  have hdown : ¬state = some true := fun hs => ho (hstate.2 hs)
  rw [hfilter, engineCoverageFrom, if_pos (not_le.1 ho), if_neg ho]
  split
  · rw [ih _ _ ⟨fun h => absurd h h0, fun h => absurd h hdown⟩ fun h => absurd h h0]
    exact and_congr_left fun _ =>
      ⟨fun _ => (not_le.1 ho).le.trans ht, fun _ => (not_le.1 h0).le.trans ht⟩
  · exact ih _ _ hstate fun h => absurd h ho

theorem stateFrom_before {e : UptimeEvent} {es : List UptimeEvent} (hle : ∀ e' ∈ es, e.t ≤ e'.t)
    (hlt : t < e.t) (s : Option Bool) :
    stateFrom s t (es.filter fun e => 0 ≤ e.t) = s :=
  stateFrom_later fun e' he' => hlt.trans_le (hle e' (List.mem_of_mem_filter he'))

theorem RunsShow.up {e : UptimeEvent} (ih : RunsShow now t es) (hle : ∀ e' ∈ es, e.t ≤ e'.t)
    (ht : 0 ≤ t) (h0 : 0 ≤ e.t) (hup : e.up = true) : RunsShow now t (e :: es) := by
  intro open' state hstate hopen
  have hfilter : (e :: es).filter (fun e => 0 ≤ e.t) = e :: es.filter fun e => 0 ≤ e.t :=
    List.filter_cons_of_pos (by simpa only [decide_eq_true_eq] using h0)
  rw [hfilter, stateFrom, engineCoverageFrom, if_pos hup, hup]
  by_cases ho : open' < 0
  · rw [if_pos ho, ih _ _ ⟨fun _ => rfl, fun _ => h0⟩ fun _ => hle]
    have hdown : ¬state = some true := fun hs => absurd (hstate.2 hs) (not_le.2 ho)
    by_cases het : e.t ≤ t
    · rw [if_pos het]
      exact and_congr_left fun _ => ⟨fun _ => ho.le.trans ht, fun _ => het⟩
    · rw [if_neg het]
      exact ⟨fun hr => absurd hr.1 het, fun hr => absurd hr.2 hdown⟩
  · have hs := hstate.1 (not_lt.1 ho)
    rw [if_neg ho, ih _ _ hstate fun h0 e' he' => hopen h0 e' (List.mem_cons_of_mem _ he'), hs]
    split
    · rfl
    · rename_i het
      rw [stateFrom_before hle (not_le.1 het)]

theorem RunsShow.down {e : UptimeEvent} (ih : RunsShow now t es) (hle : ∀ e' ∈ es, e.t ≤ e'.t)
    (ht : 0 ≤ t) (h0 : 0 ≤ e.t) (hup : ¬e.up = true) : RunsShow now t (e :: es) := by
  intro open' state hstate hopen
  have hfilter : (e :: es).filter (fun e => 0 ≤ e.t) = e :: es.filter fun e => 0 ≤ e.t :=
    List.filter_cons_of_pos (by simpa only [decide_eq_true_eq] using h0)
  have hfalse : e.up = false := Bool.eq_false_iff.2 hup
  have hclosed : (0 : Int) ≤ -1 ↔ some e.up = some true := by
    rw [hfalse]
    decide
  rw [hfilter, stateFrom, engineCoverageFrom, if_neg hup]
  by_cases ho : 0 ≤ open'
  · have hoe := hopen ho e List.mem_cons_self
    have hmin : (-1 : Int) ≤ t := (by decide : (-1 : Int) ≤ 0).trans ht
    rw [if_pos ho, inRun_cons, ih _ _ hclosed fun h0 => absurd h0 (by decide), hstate.1 ho]
    by_cases het : e.t ≤ t
    · rw [if_pos het]
      exact ⟨fun hr => hr.elim (fun hr => absurd hr.2 (not_lt.2 het))
        fun hr => ⟨hoe.trans het, hr.2⟩, fun hr => .inr ⟨hmin, hr.2⟩⟩
    · rw [if_neg het, stateFrom_before hle (not_le.1 het), hfalse]
      exact ⟨fun hr => hr.elim (fun hr => ⟨hr.1, rfl⟩) fun hr => absurd hr.2 (by decide),
        fun hr => .inl ⟨hr.1, not_le.1 het⟩⟩
  · have hdown : ¬state = some true := fun hs => ho (hstate.2 hs)
    have hopen' : 0 ≤ open' ↔ some e.up = some true :=
      ⟨fun h => absurd h ho, fun h => absurd (hclosed.2 h) (by decide)⟩
    rw [if_neg ho, ih _ _ hopen' fun h => absurd h ho]
    by_cases het : e.t ≤ t
    · rw [if_pos het]
    · rw [if_neg het, stateFrom_before hle (not_le.1 het), hfalse]
      exact ⟨fun hr => absurd hr.2 (by decide), fun hr => absurd hr.2 hdown⟩

section Milliseconds

variable {p q : Int → Prop} {a b c : Int}

end Milliseconds

end ProxyForward

import ProxyForward.ConnectCycle

namespace ProxyForward.Reconnect
open Ladder Runs
set_option autoImplicit true

/-- The attempts of a cycle that have failed, with their times. -/
abbrev Tries := List (Transport × Int)

def Tries.attempts (tries : Tries) : Attempts := tries.map fun x => (x.1, .failed x.2)

theorem Tries.times (tries : Tries) :
    (tries.attempts.flatMap fun x => x.2.times) = tries.map Prod.snd := by
  induction tries with
  | nil => rfl
  | cons x tries ih =>
    rw [List.map_cons, ← ih]
    rfl

theorem Tries.none_stops (tries : Tries) : (tries.attempts.any fun x => x.2.stops) = false := by
  rw [List.any_eq_false]
  intro x hx
  obtain ⟨y, -, rfl⟩ := List.mem_map.1 hx
  exact Bool.false_ne_true

/-- What has failed fails, and the next attempt comes to `last`. -/
def outcomes (tries : Tries) (last : Outcome) (x : Transport) : Outcome :=
  match tries.lookup x with
  | some t => .failed t
  | none => last

/-- A run of whole cycles is inside one: it has begun at `start`, the tries have failed, and the
rest of the ladder is still there. No time is later than `latest`. -/
def Inside (a : Run) (cooldown : Cooldown) (tr : Transport) (rest failedBefore : List Transport)
    (latest : Int) : Prop :=
  ∃ (start : Int) (tries : Tries), a.phase = .connecting ∧ a.cooldown = cooldown ∧
    failedBefore = tries.map Prod.fst ∧
      ladderOrder a.cooldown start = failedBefore ++ tr :: rest ∧
        (a.clock :: start :: tries.map Prod.snd).Pairwise (· ≤ ·) ∧
          ∀ t ∈ a.clock :: start :: tries.map Prod.snd, t ≤ latest

/-- The run of whole cycles is where the loop is. -/
def Tracks (a : Run) (s : Reconnect) : Prop :=
  match s.phase with
  | .idle => a.phase = .connecting ∧ a.cooldown = s.cooldown ∧ a.clock ≤ s.clock
  | .waiting => a.phase = .waiting ∧ a.cooldown = s.cooldown ∧ a.clock ≤ s.clock
  | .trying tr rest failedBefore => Inside a s.cooldown tr rest failedBefore s.clock
  | .serving tr failedBefore _ _ =>
    ∃ rest t, t ≤ s.clock ∧ Inside a s.cooldown tr rest failedBefore t
  | .gaveUp _ | .stopped => a.phase = .stopped

theorem lookup_tries {tries : Tries} (h : (tries.map Prod.fst).Nodup) (hx : x ∈ tries) :
    tries.lookup x.1 = some x.2 := by
  induction tries with
  | nil => cases hx
  | cons y tries ih =>
    obtain ⟨hnot, hrest⟩ := List.nodup_cons.1 h
    obtain rfl | hmem := List.mem_cons.1 hx
    · exact List.lookup_cons_self
    · have hne : x.1 ≠ y.1 := fun heq => hnot (heq ▸ List.mem_map_of_mem hmem)
      rw [List.lookup_cons, beq_false_of_ne hne]
      exact ih hrest hmem

theorem lookup_untried {tries : Tries} (h : tr ∉ tries.map Prod.fst) : tries.lookup tr = none := by
  induction tries with
  | nil => rfl
  | cons y tries ih =>
    rw [List.map_cons, List.mem_cons, not_or] at h
    rw [List.lookup_cons, beq_false_of_ne h.1]
    exact ih h.2

theorem walk_failed {out : Transport → Outcome} {tries : Tries}
    (h : ∀ x ∈ tries, out x.1 = .failed x.2) (cd : Cooldown) (fb trs : List Transport) :
    runSessionAuto out cd fb (tries.map Prod.fst ++ trs) =
      (tries.attempts ++ (runSessionAuto out cd (fb ++ tries.map Prod.fst) trs).1,
        (runSessionAuto out cd (fb ++ tries.map Prod.fst) trs).2) := by
  induction tries generalizing fb with
  | nil => rw [List.map_nil, List.append_nil]; rfl
  | cons x tries ih =>
    obtain ⟨hx, hrest⟩ := List.forall_mem_cons.1 h
    rw [List.map_cons, List.cons_append, runSessionAuto, hx]
    simp only
    rw [ih hrest (fb ++ [x.1]), List.append_assoc, List.singleton_append]
    rfl

theorem foldr_max_le {ts : List Int} (h : ∀ t ∈ ts, t ≤ bound) (hb : b ≤ bound) :
    ts.foldr max b ≤ bound := by
  induction ts with
  | nil => exact hb
  | cons t ts ih =>
    obtain ⟨ht, hts⟩ := List.forall_mem_cons.1 h
    exact max_le ht (ih hts)

/-- The cooldowns that the end of a cycle leaves. -/
def left (cd : Cooldown) (tr : Transport) (failedBefore : List Transport) : Outcome → Cooldown
  | .connected _ ended _ => clearCooldown (coolTransports cd failedBefore ended) tr
  | .failed _ | .fatal _ | .cancelled _ => cd

theorem Inside.cycle (h : Inside a cd tr rest failedBefore latest) (last : Outcome) (now : Int)
    (hlast : (latest :: last.times).Pairwise (· ≤ ·)) (hnow : ∀ t ∈ latest :: last.times, t ≤ now)
    (hend : ∀ t, last = .failed t → rest = []) :
    ∃ start out a', a.step (.cycle start out) = some a' ∧ a'.clock ≤ now ∧
      a'.cooldown = left cd tr failedBefore last ∧
        a'.phase = if last.stops then .stopped else .waiting := by
  obtain ⟨start, tries, hphase, rfl, rfl, horder, hsorted, hle⟩ := h
  have hnodup : (tries.map Prod.fst ++ tr :: rest).Nodup :=
    horder ▸ (ladderOrder_sublist a.cooldown start).nodup (by decide)
  obtain ⟨htries, -, hdisjoint⟩ := List.nodup_append.1 hnodup
  have htr : tr ∉ tries.map Prod.fst := fun hin => hdisjoint tr hin tr List.mem_cons_self rfl
  have hfailed : ∀ x ∈ tries, outcomes tries last x.1 = .failed x.2 := by
    intro x hx
    rw [outcomes, lookup_tries htries hx]
  have hnext : outcomes tries last tr = last := by rw [outcomes, lookup_untried htr]
  have hwalk : runSessionAuto (outcomes tries last) a.cooldown [] (ladderOrder a.cooldown start) =
      (tries.attempts ++ [(tr, last)], left a.cooldown tr (tries.map Prod.fst) last) := by
    rw [horder, walk_failed hfailed, List.nil_append, runSessionAuto, hnext]
    cases last with
    | failed t =>
      rw [hend t rfl]
      rfl
    | fatal t => rfl
    | cancelled t => rfl
    | connected t ended fatal => rfl
  have htimes : ((tries.attempts ++ [(tr, last)]).flatMap fun x => x.2.times) =
      tries.map Prod.snd ++ last.times := by
    rw [List.flatMap_append, Tries.times, List.flatMap_singleton]
  have hfst : a.attempts start (outcomes tries last) = tries.attempts ++ [(tr, last)] := by
    rw [Run.attempts, hwalk]
  have hsortedAll : (a.clock :: start :: (tries.map Prod.snd ++ last.times)).Pairwise (· ≤ ·) := by
    rw [← List.cons_append, ← List.cons_append, List.pairwise_append]
    obtain ⟨hlate, htimesSorted⟩ := List.pairwise_cons.1 hlast
    exact ⟨hsorted, htimesSorted, fun x hx y hy => (hle x hx).trans (hlate y hy)⟩
  obtain ⟨hlatest, hlastNow⟩ := List.forall_mem_cons.1 hnow
  refine ⟨start, outcomes tries last, a.afterCycle start (outcomes tries last), ?_, ?_, ?_, ?_⟩
  · rw [Run.step, hfst, htimes, if_pos ⟨hphase, hsortedAll⟩]
  · simp only [Run.afterCycle, hwalk, htimes]
    apply foldr_max_le
    · intro t ht
      rw [← List.cons_append, List.mem_append] at ht
      obtain ht | ht := ht
      · exact (hle t (List.mem_cons_of_mem _ ht)).trans hlatest
      · exact hlastNow t ht
    · exact (hle _ List.mem_cons_self).trans hlatest
  · simp only [Run.afterCycle, hwalk]
  · simp only [Run.afterCycle, hwalk, List.any_append, Tries.none_stops, List.any_cons,
      List.any_nil, Bool.false_or, Bool.or_false]

theorem Inside.later (h : Inside a cd tr rest failedBefore latest) (hle : latest ≤ latest') :
    Inside a cd tr rest failedBefore latest' := by
  obtain ⟨start, tries, hphase, hcd, hfailed, horder, hsorted, hall⟩ := h
  exact ⟨start, tries, hphase, hcd, hfailed, horder, hsorted, fun t ht => (hall t ht).trans hle⟩

theorem Inside.next (h : Inside a cd tr (x :: rest) failedBefore latest) :
    Inside a cd x rest (failedBefore ++ [tr]) latest := by
  obtain ⟨start, tries, hphase, hcd, rfl, horder, hsorted, hall⟩ := h
  refine ⟨start, tries ++ [(tr, latest)], hphase, hcd, ?_, ?_, ?_, ?_⟩
  · rw [List.map_append, List.map_singleton]
  · rw [horder, List.append_assoc, List.singleton_append]
  · rw [List.map_append, List.map_singleton, ← List.cons_append, ← List.cons_append,
      List.pairwise_append]
    refine ⟨hsorted, List.pairwise_singleton _ _, fun x hx y hy => ?_⟩
    rw [List.mem_singleton.1 hy]
    exact hall x hx
  · rw [List.map_append, List.map_singleton, ← List.cons_append, ← List.cons_append]
    intro t ht
    obtain ht | ht := List.mem_append.1 ht
    · exact hall t ht
    · exact (List.mem_singleton.1 ht).le

theorem Inside.first (hphase : a.phase = .connecting) (hclock : a.clock ≤ now)
    (horder : ladderOrder a.cooldown now = tr :: rest) : Inside a a.cooldown tr rest [] now := by
  refine ⟨now, [], hphase, rfl, rfl, horder, List.pairwise_pair.2 hclock, ?_⟩
  simp [hclock]

theorem Inside.cancelled (h : Inside a cd tr rest failedBefore now) :
    ∃ labels b, Reaches Run.step a labels b ∧ b.phase = .stopped := by
  obtain ⟨start, out, b, hstep, -, -, hphase⟩ := h.cycle (.cancelled now) now
    (List.pairwise_pair.2 le_rfl) (by simp [Outcome.times]) nofun
  exact ⟨[.cycle start out], b, .cons hstep (.nil b), hphase⟩

theorem ladderOrder_ne_nil (cd : Cooldown) (now : Int) : ladderOrder cd now ≠ [] := by
  unfold ladderOrder
  simp only
  split
  · decide
  · assumption

theorem Tracks.cancel {s : Reconnect} (h : Tracks a s) (hgave : ∀ err, s.phase ≠ .gaveUp err)
    (hstopped : s.phase ≠ .stopped) :
    ∃ labels b, Reaches Run.step a labels b ∧ b.phase = .stopped := by
  unfold Tracks at h
  cases hphase : s.phase with
  | idle =>
    rw [hphase] at h
    obtain ⟨hconnecting, hcd, hclock⟩ := h
    obtain ⟨tr, rest, horder⟩ := List.exists_cons_of_ne_nil (ladderOrder_ne_nil a.cooldown s.clock)
    exact (Inside.first hconnecting hclock horder).cancelled
  | waiting =>
    rw [hphase] at h
    exact ⟨[.cancel], _, .cons (if_pos h.1) (.nil _), rfl⟩
  | trying tr rest failedBefore =>
    rw [hphase] at h
    exact Inside.cancelled h
  | serving tr failedBefore caps sess =>
    rw [hphase] at h
    obtain ⟨rest, t, ht, hin⟩ := h
    obtain ⟨start, out, b, hstep, -, -, hend⟩ :=
      hin.cycle (.connected t s.clock true) s.clock
        (by simp [Outcome.times, ht]) (by simp [Outcome.times, ht]) nofun
    exact ⟨[.cycle start out], b, .cons hstep (.nil b), hend⟩
  | gaveUp err => exact absurd hphase (hgave err)
  | stopped => exact absurd hphase hstopped

theorem Tracks.failed {s : Reconnect} {err : LinkError} {rest failedBefore : List Transport}
    (h : Inside a s.cooldown tr rest failedBefore s.clock) (n : Nat) :
    ∃ labels b, Reaches Run.step a labels b ∧
      Tracks b ({ s with told := n }.failed tr rest failedBefore err) := by
  unfold Reconnect.failed
  by_cases hfatal : err.isFatal = true
  · obtain ⟨start, out, b, hstep, -, -, hphase⟩ := h.cycle (.fatal s.clock) s.clock
      (List.pairwise_pair.2 le_rfl) (by simp [Outcome.times]) nofun
    refine ⟨[.cycle start out], b, .cons hstep (.nil b), ?_⟩
    simp only [if_pos hfatal]
    exact hphase
  · cases rest with
    | nil =>
      obtain ⟨start, out, b, hstep, hclock, hcd, hphase⟩ := h.cycle (.failed s.clock) s.clock
        (List.pairwise_pair.2 le_rfl) (by simp [Outcome.times]) (fun _ _ => rfl)
      refine ⟨[.cycle start out], b, .cons hstep (.nil b), ?_⟩
      simp only [if_neg hfatal]
      exact ⟨hphase, hcd, hclock⟩
    | cons next rest =>
      refine ⟨[], a, .nil a, ?_⟩
      simp only [if_neg hfatal]
      exact h.next

theorem Tracks.step {d : Dialer} {s t : Reconnect} {l : LadderStep} (h : Tracks a s)
    (hauto : d.transport = none) (hs : s.step d l = some t) :
    ∃ labels b, Reaches Run.step a labels b ∧ Tracks b t := by
  unfold Reconnect.step at hs
  unfold Tracks at h
  cases l with
  | tick dt =>
    simp only at hs
    split at hs
    · rename_i hd
      cases hs
      have hlater : s.clock ≤ s.clock + dt := le_add_of_nonneg_right hd
      refine ⟨[], a, .nil a, ?_⟩
      unfold Tracks
      cases hphase : s.phase with
      | idle =>
        rw [hphase] at h
        exact ⟨h.1, h.2.1, h.2.2.trans hlater⟩
      | waiting =>
        rw [hphase] at h
        exact ⟨h.1, h.2.1, h.2.2.trans hlater⟩
      | trying tr rest failedBefore =>
        rw [hphase] at h
        exact Inside.later h hlater
      | serving tr failedBefore caps sess =>
        rw [hphase] at h
        obtain ⟨rest, t, ht, hin⟩ := h
        exact ⟨rest, t, ht.trans hlater, hin⟩
      | gaveUp err =>
        rw [hphase] at h
        exact h
      | stopped =>
        rw [hphase] at h
        exact h
    · cases hs
  | begin =>
    simp only at hs
    split at hs
    · rename_i tr rest hphase horder
      cases hs
      rw [hphase] at h
      obtain ⟨hconnecting, hcd, hclock⟩ := h
      unfold order at horder
      rw [hauto] at horder
      rw [← hcd] at horder
      have hin := Inside.first hconnecting hclock horder
      rw [hcd] at hin
      exact ⟨[], a, .nil a, hin⟩
    · cases hs
  | attempt x =>
    simp only at hs
    split at hs
    · rename_i tr rest failedBefore hphase
      rw [hphase] at h
      cases hconnect : d.connect tr x with
      | ok p =>
        rw [hconnect] at hs
        cases hs
        exact ⟨[], a, .nil a, rest, s.clock, le_rfl, h⟩
      | error err =>
        rw [hconnect] at hs
        cases hs
        exact Tracks.failed h _
    · cases hs
  | ends =>
    simp only at hs
    split at hs
    · rename_i tr failedBefore caps sess hphase
      cases hs
      rw [hphase] at h
      obtain ⟨rest, t, ht, hin⟩ := h
      obtain ⟨start, out, b, hstep, hclock, hcd, hwaiting⟩ :=
        hin.cycle (.connected t s.clock false) s.clock
          (by simp [Outcome.times, ht]) (by simp [Outcome.times, ht]) nofun
      refine ⟨[.cycle start out], b, .cons hstep (.nil b), ?_⟩
      unfold Reconnect.ended
      rw [if_pos hauto]
      exact ⟨hwaiting, hcd, hclock⟩
    · cases hs
  | wake netChanged =>
    simp only at hs
    split at hs
    · rename_i hphase
      rw [hphase] at h
      obtain ⟨hwaiting, hcd, hclock⟩ := h
      split at hs
      · cases hs
        refine ⟨[.tick, .changed s.clock], _,
          .cons rfl (.cons (if_pos ⟨hwaiting, rfl, hclock⟩) (.nil _)), rfl, rfl, le_rfl⟩
      · cases hs
        exact ⟨[.timer s.clock], _, .cons (if_pos ⟨hwaiting, hclock⟩) (.nil _), rfl, hcd, le_rfl⟩
    · cases hs
  | cancel =>
    simp only at hs
    split at hs
    · cases hs
    · cases hs
    · rename_i hgave hstopped
      cases hs
      exact Tracks.cancel h hgave hstopped

/-- The loop, attempt by attempt, does what the run of whole cycles does: its cooldowns are the same
between cycles, and each of its cycles is one that the run can take. -/
theorem refines_cycles {d : Dialer} {clock : Int} {s : Reconnect} (hauto : d.transport = none)
    (hr : Reaches (step d) (start clock) ls s) :
    ∃ labels a, Reaches Run.step (.fresh clock) labels a ∧ Tracks a s := by
  have hstart : Tracks (.fresh clock) (start clock) := ⟨rfl, rfl, le_rfl⟩
  exact hr.followed (fun a s l t h hs => Tracks.step h hauto hs) hstart

theorem refines_udpBlocked : ∃ s labels a, Reaches (step tokenDialer) (start 0) udpBlocked s ∧
    Reaches Run.step (.fresh 0) labels a ∧ Tracks a s := by
  obtain ⟨s, -, -, hr, -⟩ := udpBlocked_reaches
  obtain ⟨labels, a, ha, htracks⟩ := refines_cycles rfl hr
  exact ⟨s, labels, a, hr, ha, htracks⟩

end ProxyForward.Reconnect

import ProxyForward.LegInvariant

namespace ProxyForward
set_option autoImplicit true

/-- The player's `openFlow` has not returned yet. -/
def Flow.opening (f : Flow) : Bool :=
  match f.phase with
  | .registered | .waiting | .woken | .returning _ | .returned _ => true
  | .splicing _ | .ending _ | .finished => false

/-- The keys that `Range` found at its start, and those it has visited. -/
def Draining.reached : Draining → List String
  | .ranging todo visited => todo ++ visited
  | .live | .cancelled | .drained => []

namespace DataLegs

/-- Once the eviction of a session is through, every connection delivered to one of its players
whose set-up is through is closed. -/
def Drained (s : DataLegs) : Prop :=
  ∀ n f k, s.flows n = some f → f.conn = some k → s.draining f.sess = .drained →
    f.opening = false → ∃ d, s.conns k = some d ∧ d.closed = true

/-- A leg is recorded before the eviction's `Range` is through, what is recorded when it ends was
there when it started or came in its way, and no connection is delivered to a player whose
`open_data` write fails. -/
def TracksInTime (s : DataLegs) (l : LegStep) : Prop :=
  s.WritesClean l ∧
  match l with
  | .player n .record => ∀ f ∈ s.flows n, f.leg?.isSome = true → s.draining f.sess ≠ .drained
  | .rangeEnd sess => ∀ id ∈ (s.dataConns sess).keys, id ∈ (s.draining sess).reached
  | _ => True

def Closed (s : DataLegs) (k : Nat) : Prop :=
  ∃ d, s.conns k = some d ∧ d.phase = .finished ∧ d.closed = true

variable {s t : DataLegs} {f f' : Flow} {d : DataConn} {sess : AgentSession}

theorem Closed.closeConn (h : s.Closed k) (j : Nat) : (s.closeConn j).Closed k := by
  obtain ⟨d, hd, hover, hc⟩ := h
  unfold DataLegs.closeConn
  split
  · exact ⟨d, hd, hover, hc⟩
  · rename_i e he
    by_cases hk : k = j
    · subst j
      obtain rfl := Option.some.inj (hd.symm.trans he)
      exact ⟨_, Function.update_self _ _ _, hover, rfl⟩
    · exact ⟨d, (Function.update_of_ne hk _ _).trans hd, hover, hc⟩

theorem Closed.setConn (h : s.Closed k) (hj : ∀ e, s.conns j = some e → e.phase ≠ .finished) :
    (s.setConn j d).Closed k := by
  obtain ⟨e, he, hover, hc⟩ := h
  have hk : k ≠ j := by
    rintro rfl
    exact hj e he hover
  exact ⟨e, (Function.update_of_ne hk _ _).trans he, hover, hc⟩

theorem Closed.step (h : s.Closed k) (hs : s.step l = some t) : t.Closed k := by
  have hsame {u v : DataLegs} (hu : u.Closed k) (hc : v.conns = u.conns) : v.Closed k := by
    obtain ⟨d, hd, hrest⟩ := hu
    exact ⟨d, hc ▸ hd, hrest⟩
  obtain ⟨n, f, a, -, -, hs⟩ | ⟨j, d, a, -, hd, hs⟩ | hapart := apart_of_step hs
  · obtain hc | ⟨j, hc⟩ := (moved_of_playerStep hs).conns
    · exact hsame h hc
    · exact hsame (h.closeConn j) hc
  · obtain ⟨hunder, ⟨d', hc⟩, -⟩ := dialed_of_dialStep hs
    refine hsame (h.setConn (fun e he => ?_)) hc
    obtain rfl := Option.some.inj (hd.symm.trans he)
    exact hunder
  · obtain hc | ⟨j, d, hj, hc⟩ | ⟨j, hc⟩ := hapart.conns
    · exact hsame h hc
    · refine hsame (h.setConn (fun e he => ?_)) hc
      cases hj.symm.trans he
    · exact hsame (h.closeConn j) hc

theorem tracked_before (hs : s.step l = some t) (hf : t.flows n = some f')
    (hk : f'.tracked? = some k) :
    ∃ f, s.flows n = some f ∧ f.sess = f'.sess ∧
      (f.tracked? = some k ∨ l = .player n .record ∧ f.leg? = some k) := by
  obtain ⟨m, g, a, rfl, hg, hs⟩ | ⟨j, d, a, -, -, hs⟩ | hapart := apart_of_step hs
  · obtain ⟨⟨g', hflows, hsess, -, htracked⟩, -⟩ := moved_of_playerStep hs
    rw [hflows, Function.update_apply] at hf
    split at hf
    · subst m
      obtain rfl := Option.some.inj hf
      refine ⟨g, hg, hsess.symm, (htracked k hk).imp_right fun ⟨ha, hleg⟩ => ?_⟩
      exact ⟨ha ▸ rfl, hleg⟩
    · exact ⟨f', hf, rfl, .inl hk⟩
  · obtain hflows | ⟨m, g, -, -, hg, hflows⟩ := (dialed_of_dialStep hs).flows
    · exact ⟨f', hflows ▸ hf, rfl, .inl hk⟩
    · rw [hflows, Function.update_apply] at hf
      split at hf
      · subst m
        obtain rfl := Option.some.inj hf
        exact ⟨g, hg, rfl, .inl hk⟩
      · exact ⟨f', hf, rfl, .inl hk⟩
  · obtain hf | hnone := hapart.fresh n f' hf
    · exact ⟨f', hf, rfl, .inl hk⟩
    · cases hnone.symm.trans hk

theorem drained_before (hs : s.step l = some t) (hd : t.draining sess = .drained) :
    s.draining sess = .drained ∨ l = .rangeEnd sess := by
  obtain ⟨n, f, a, -, -, hs⟩ | ⟨k, d, a, -, -, hs⟩ | hapart := apart_of_step hs
  · exact .inl ((moved_of_playerStep hs).draining ▸ hd)
  · exact .inl ((dialed_of_dialStep hs).draining ▸ hd)
  · exact hapart.draining sess hd

theorem settled_after (h : s.Inv) (hs : s.step l = some t) (hf : s.flows n = some f)
    (hset : f.opening = false) :
    ∃ f', t.flows n = some f' ∧ f'.sess = f.sess ∧ f'.opening = false ∧
      ∀ k, f'.tracked? = some k → f.tracked? = some k := by
  have hsame (hn : t.flows n = s.flows n) : ∃ f', t.flows n = some f' ∧ f'.sess = f.sess ∧
      f'.opening = false ∧ ∀ k, f'.tracked? = some k → f.tracked? = some k :=
    ⟨f, hn.trans hf, rfl, hset, fun _ => id⟩
  obtain ⟨m, g, a, -, hg, hs⟩ | ⟨j, d, a, -, -, hs⟩ | hapart := apart_of_step hs
  · by_cases hm : n = m
    · subst m
      obtain rfl := Option.some.inj (hf.symm.trans hg)
      cases a <;> simp only [DataLegs.playerStep] at hs <;> split at hs <;> try cases hs
      all_goals rename_i hph
      all_goals try simp only [Flow.opening, hph, Bool.true_eq_false] at hset
      · rename_i k
        refine ⟨{ f with phase := .ending k }, Function.update_self _ _ _, rfl, rfl, fun j hj => ?_⟩
        simpa only [Flow.tracked?, hph] using hj
      · refine ⟨{ f with phase := .finished }, Function.update_self _ _ _, rfl, rfl, fun j hj => ?_⟩
        cases hj
    · obtain ⟨⟨g', hflows, -⟩, -⟩ := moved_of_playerStep hs
      exact hsame (by rw [hflows, Function.update_of_ne hm])
  · obtain hflows | ⟨m, g, -, -, hg, hflows⟩ := (dialed_of_dialStep hs).flows
    · exact hsame (congrFun hflows n)
    · by_cases hm : n = m
      · subst m
        obtain rfl := Option.some.inj (hf.symm.trans hg)
        exact ⟨{ f with conn := some j, done := true }, by rw [hflows, Function.update_self], rfl,
          hset, fun _ => id⟩
      · exact hsame (by rw [hflows, Function.update_of_ne hm])
  · exact hsame (hapart.flows n (h.fresh n f hf))

theorem visited_before {id : String} (hs : s.step l = some t)
    (hd : t.draining sess = .ranging todo visited)
    (hid : id ∈ visited) :
    (∃ visited, s.draining sess = .ranging todo visited ∧ id ∈ visited) ∨
      ∃ k, (s.dataConns sess).lookup id = some k ∧ t.conns = (s.closeConn k).conns ∧
        t.flows = s.flows := by
  obtain ⟨n, f, a, -, -, hs⟩ | ⟨j, d, a, -, -, hs⟩ | hapart := apart_of_step hs
  · exact .inl ⟨visited, (moved_of_playerStep hs).draining ▸ hd, hid⟩
  · exact .inl ⟨visited, (dialed_of_dialStep hs).draining ▸ hd, hid⟩
  · obtain h | rfl | ⟨id', rest, k, rfl, h, hk, hconns, hflows⟩ := hapart.ranging _ _ _ hd
    · exact .inl ⟨visited, h, hid⟩
    · cases hid
    · obtain rfl | hid := List.mem_cons.1 hid
      · exact .inr ⟨k, hk, hconns, hflows⟩
      · exact .inl ⟨rest, h, hid⟩

/-- What `Range` has visited, and what a drained session still tracks, is closed. -/
structure DrainInv (s : DataLegs) : Prop extends s.Inv where
  closed : ∀ sess todo visited, s.draining sess = .ranging todo visited → ∀ id ∈ visited,
    ∃ n f, id = connID n ∧ s.flows n = some f ∧ f.opening = false ∧
      ∀ k, f.tracked? = some k → s.Closed k
  swept : ∀ n f k, s.flows n = some f → f.tracked? = some k → s.draining f.sess = .drained →
    s.Closed k

theorem DrainInv.closedStep (h : s.DrainInv) (hs : s.step l = some t)
    (hd : t.draining sess = .ranging todo visited) {id : String} (hid : id ∈ visited) :
    ∃ n f, id = connID n ∧ t.flows n = some f ∧ f.opening = false ∧
      ∀ k, f.tracked? = some k → t.Closed k := by
  obtain ⟨old, hold, hid⟩ | ⟨k, hk, hconns, hflows⟩ := visited_before hs hd hid
  · obtain ⟨n, f, rfl, hf, hset, hclosed⟩ := h.closed _ _ _ hold _ hid
    obtain ⟨f', hf', -, hset', htracked⟩ := settled_after h.toInv hs hf hset
    exact ⟨n, f', rfl, hf', hset', fun k hk => (hclosed k (htracked k hk)).step hs⟩
  · -- the key just visited: its connection was through and is now closed
    obtain ⟨n, f, rfl, hf, rfl⟩ := h.keys _ _ _ hk
    have htr : f.tracked? = some k := (h.flow n f hf).tracked.symm.trans hk
    refine ⟨n, f, rfl, hflows ▸ hf, ?_, fun j hj => ?_⟩
    · cases hph : f.phase <;> simp only [Flow.tracked?, Flow.opening, hph, reduceCtorEq] at htr ⊢
    · obtain rfl := Option.some.inj (htr.symm.trans hj)
      obtain ⟨m, g, hg, -, hgk, -⟩ := h.toInv.tracked hk
      obtain ⟨e, he, hover, -⟩ := (h.flow m g hg).own (hgk ▸ rfl)
      rw [hgk] at he
      exact ⟨{ e with closed := true },
        by rw [hconns, closeConn_conns he, Function.update_self], hover, rfl⟩

theorem DrainInv.closedAtEnd (h : s.DrainInv) (hC : s.TracksInTime (.rangeEnd f.sess))
    (hs : s.step (.rangeEnd f.sess) = some t) (hf : s.flows n = some f)
    (hk : f.tracked? = some k) : s.Closed k := by
  have hkey : connID n ∈ (s.dataConns f.sess).keys := by
    refine AList.mem_keys.1 (AList.lookup_isSome.1 ?_)
    rw [(h.flow n f hf).tracked, hk]
    rfl
  have hreached := hC.2 _ hkey
  simp only [DataLegs.step] at hs
  split at hs
  · rename_i todo visited hd
    split at hs
    · rename_i hall
      rw [hd] at hreached
      have hvisited : connID n ∈ visited := by
        obtain hin | hin := List.mem_append.1 hreached
        · exact (hall _ hin).resolve_right (not_not_intro (AList.mem_keys.2 hkey))
        · exact hin
      obtain ⟨m, g, hm, hg, -, hclosed⟩ := h.closed _ _ _ hd _ hvisited
      obtain rfl := connID_injective hm
      obtain rfl := Option.some.inj (hf.symm.trans hg)
      exact hclosed k hk
    · cases hs
  · cases hs

theorem DrainInv.step (h : s.DrainInv) (hC : s.TracksInTime l) (hs : s.step l = some t) :
    t.DrainInv := by
  refine ⟨h.toInv.step hC.1 hs, fun sess todo visited hd id hid => h.closedStep hs hd hid,
    fun n f' k hf' hk hd => ?_⟩
  obtain ⟨f, hf, hsess, hfrom⟩ := tracked_before hs hf' hk
  rw [← hsess] at hd
  obtain hk | ⟨rfl, hleg⟩ := hfrom
  · obtain hd | rfl := drained_before hs hd
    · exact (h.swept n f k hf hk hd).step hs
    · exact (h.closedAtEnd hC hs hf hk).step hs
  · have hlive := hC.2 f hf (hleg ▸ rfl)
    obtain hd | hd := drained_before hs hd
    · exact absurd hd hlive
    · cases hd

theorem DrainInv.drained (h : s.DrainInv) : s.Drained := by
  intro n f k hf hfk hd hset
  have hold := h.flow n f hf
  have hclosed : f.tracked? = some k → ∃ d, s.conns k = some d ∧ d.closed = true := by
    intro hk
    obtain ⟨d, hdk, -, hc⟩ := h.swept n f k hf hk hd
    exact ⟨d, hdk, hc⟩
  cases hph : f.phase with
  | registered | waiting | woken | returning | returned =>
    simp only [Flow.opening, hph] at hset
    cases hset
  | splicing j | ending j =>
    have hj : f.conn = some j := hold.taken j (by simp only [Flow.leg?, hph])
    refine hclosed ?_
    rw [← hfk, hj]
    simp only [Flow.tracked?, hph]
  | finished =>
    obtain ⟨e, he, -, -, -, -, hend⟩ := hold.own (hfk ▸ rfl)
    rw [hfk] at he
    exact ⟨e, he, hend (.inr hph)⟩

instance (s : DataLegs) (l : LegStep) : Decidable (s.WritesClean l) :=
  match l with
  | .player n (.writeOpenData false) =>
    inferInstanceAs (Decidable (∀ f ∈ s.flows n, f.conn = none))
  | .dial k .deliver => inferInstanceAs (Decidable (∀ d ∈ s.conns k, ∀ n ∈ d.phase.target?,
      ∀ f ∈ s.flows n, f.done = true ∨ f.awaiting = true))
  | .player _ (.writeOpenData true) | .player _ .takeReady | .player _ .wake
  | .player _ .takeLocked | .player _ .delete | .player _ .record | .player _ .closeLeg
  | .player _ .releaseFlow | .dial _ .load | .dial _ .close | .openDataConn _ | .hello _ _ _
  | .cancel _ | .rangeStart _ | .visit _ _ | .rangeEnd _ => .isTrue trivial

instance (s : DataLegs) (l : LegStep) : Decidable (s.TracksInTime l) :=
  match l with
  | .player n .record => inferInstanceAs (Decidable (_ ∧
      ∀ f ∈ s.flows n, f.leg?.isSome = true → s.draining f.sess ≠ .drained))
  | .rangeEnd sess => inferInstanceAs (Decidable (_ ∧
      ∀ id ∈ (s.dataConns sess).keys, id ∈ (s.draining sess).reached))
  | .player _ (.writeOpenData _) | .player _ .takeReady | .player _ .wake
  | .player _ .takeLocked | .player _ .delete | .player _ .closeLeg
  | .player _ .releaseFlow | .dial _ _ | .openDataConn _ | .hello _ _ _
  | .cancel _ | .rangeStart _ | .visit _ _ => inferInstanceAs (Decidable (_ ∧ True))

end DataLegs

/-- Along every run, for any players and evictions: if legs are recorded in time, every data
connection delivered for a session whose eviction is through is closed once its player is set up. -/
theorem evicted_legs_closed (steps : List LegStep)
    (h : Runs.Along DataLegs.step DataLegs.TracksInTime DataLegs.start steps) :
    Runs.Always DataLegs.step DataLegs.Drained DataLegs.start steps :=
  Runs.always_of_invariant (fun _ _ _ hi hC hs => DataLegs.DrainInv.step hi hC hs)
    (fun _ hi => hi.drained)
    ⟨DataLegs.inv_start, nofun, fun _ _ _ h => absurd h (Option.not_mem_none _)⟩ h

/-- A player whose agent has dialed back, with its leg about to be recorded. -/
def acquired (sess : AgentSession) : List LegStep :=
  [.openDataConn sess, .player 1 (.writeOpenData true), .hello 0 sess.agentID "1", .dial 0 .load,
    .dial 0 .deliver, .player 1 .takeReady, .player 1 .delete]

/-- A leg that is recorded before the eviction is closed by it. -/
theorem evicted_legs_closed_in_time :
    let sess := AgentSession.plain 1 "a"
    Runs.Always DataLegs.step DataLegs.Drained DataLegs.start (acquired sess ++
      [.player 1 .record, .cancel sess, .rangeStart sess, .visit sess "1", .rangeEnd sess]) :=
  evicted_legs_closed _ (by decide)

/-- A leg that is recorded after the eviction's `Range` stays open. -/
theorem recorded_leg_stays_open :
    let sess := AgentSession.plain 1 "a"
    ¬Runs.Always DataLegs.step DataLegs.Drained DataLegs.start (acquired sess ++
      [.cancel sess, .rangeStart sess, .rangeEnd sess, .player 1 .record]) := by
  intro sess h
  let last := Runs.final DataLegs.step DataLegs.start (acquired sess ++
    [.cancel sess, .rangeStart sess, .rangeEnd sess, .player 1 .record])
  obtain ⟨t, ht⟩ : ∃ t, last = some t := Option.isSome_iff_exists.1 (by decide)
  have hconn : ∀ t ∈ last, t.conns 0 = some ⟨"a", "1", .finished, false⟩ := by decide
  have hflow : ∀ t ∈ last, t.flows 1 = some ⟨sess, .splicing 0, some 0, true⟩ := by decide
  have hdrained : ∀ t ∈ last, t.draining sess = .drained := by decide
  obtain ⟨d, hd, hclosed⟩ := h.final (Runs.reaches_of_final ht) 1 _ 0 (hflow t ht) rfl
    (hdrained t ht) rfl
  obtain rfl := Option.some.inj ((hconn t ht).symm.trans hd)
  exact Bool.false_ne_true hclosed

end ProxyForward

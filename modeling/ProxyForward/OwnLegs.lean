import ProxyForward.LegInvariant

namespace ProxyForward
set_option autoImplicit true

/-- The player has the connection, or will take it. -/
def Flow.holds (f : Flow) (k : Nat) : Prop :=
  f.leg? = some k ∨ f.awaiting = true ∧ f.conn = some k

namespace DataLegs

/-- Players are spliced only to data connections of their own agent that named their id, each to one
player, and every other data connection that is through is closed. -/
structure OwnLegs (s : DataLegs) : Prop where
  own : ∀ n f k, s.flows n = some f → f.conn = some k →
    ∃ d, s.conns k = some d ∧ d.agentID = f.sess.agentID ∧ d.connID = connID n
  taken : ∀ n f k, s.flows n = some f → f.leg? = some k → f.conn = some k
  once : ∀ n m f f' k, s.flows n = some f → s.flows m = some f' → f.conn = some k →
    f'.conn = some k → n = m
  closed : ∀ k d, s.conns k = some d → d.phase = .finished →
    d.closed = true ∨ ∃ n f, s.flows n = some f ∧ f.holds k

/-- Nobody but its own player and its own agent's dial-back to its id changes a pending player or
its entry. -/
def Unmeddled (s : DataLegs) (l : LegStep) : Prop :=
  ∀ t, s.step l = some t → ∀ n f, s.flows n = some f →
    t.flows n = some f ∧ t.pendingData.lookup (connID n) = s.pendingData.lookup (connID n) ∨
    (∃ a, l = .player n a) ∨
    ∃ k d, l = .dial k .deliver ∧ s.conns k = some d ∧ d.agentID = f.sess.agentID ∧
      d.connID = connID n

variable {s t : DataLegs} {f : Flow} {d : DataConn}

theorem Inv.conn_of_holds (h : s.Inv) (hf : s.flows n = some f) (hk : f.holds k) :
    f.conn = some k := by
  obtain hleg | ⟨-, hconn⟩ := hk
  · exact (h.flow n f hf).taken k hleg
  · exact hconn

theorem Inv.holds_or_closed (h : s.Inv) (hf : s.flows n = some f) (hfk : f.conn = some k)
    (hd : s.conns k = some d) : f.holds k ∨ d.closed = true := by
  have hold := h.flow n f hf
  have hleg (hl : f.leg? = f.conn) : f.holds k := .inl (hl.trans hfk)
  have hnone (hp : f.phase = .returning none ∨ f.phase = .returned none) : False := by
    cases hfk.symm.trans (hold.kept hp)
  cases hph : f.phase with
  | registered | waiting | woken => exact .inl (.inr ⟨by simp only [Flow.awaiting, hph], hfk⟩)
  | returning leg =>
    cases leg with
    | none => exact (hnone (.inl hph)).elim
    | some j =>
      have hl : f.leg? = some j := by simp only [Flow.leg?, hph]
      exact .inl (hleg (hl.trans (hold.taken j hl).symm))
  | returned leg =>
    cases leg with
    | none => exact (hnone (.inr hph)).elim
    | some j =>
      have hl : f.leg? = some j := by simp only [Flow.leg?, hph]
      exact .inl (hleg (hl.trans (hold.taken j hl).symm))
  | splicing j | ending j =>
    have hl : f.leg? = some j := by simp only [Flow.leg?, hph]
    exact .inl (hleg (hl.trans (hold.taken j hl).symm))
  | finished =>
    obtain ⟨e, he, -, -, -, -, hend⟩ := hold.own (hfk ▸ rfl)
    rw [hfk] at he
    obtain rfl := Option.some.inj (hd.symm.trans he)
    exact .inr (hend (.inr hph))

theorem Inv.ownLegs (h : s.Inv) : s.OwnLegs := by
  refine ⟨fun n f k hf hfk => ?_, fun n f k hf => (h.flow n f hf).taken k,
    fun n m f f' k hf hf' hk hk' => h.once hf hf' hk hk', fun k d hd hover => ?_⟩
  · obtain ⟨e, he, -, hag, hid, -⟩ := (h.flow n f hf).own (hfk ▸ rfl)
    rw [hfk] at he
    exact ⟨e, he, hag, hid⟩
  · have hc := h.conn k d hd
    simp only [ConnInv, hover] at hc
    obtain hclosed | ⟨n, f, hf, hfk⟩ := hc
    · exact .inl hclosed
    · obtain hh | hclosed := h.holds_or_closed hf hfk hd
      · exact .inr ⟨n, f, hf, hh⟩
      · exact .inl hclosed

theorem Inv.writeOpenData_leaks (h : s.Inv) (hf : s.flows n = some f)
    (hs : s.playerStep n f (.writeOpenData false) = some t) (ht : t.OwnLegs) : f.conn = none := by
  simp only [DataLegs.playerStep, Bool.false_eq_true, if_false] at hs
  split at hs
  · rename_i hph
    obtain rfl := Option.some.inj hs
    cases hfc : f.conn with
    | none => rfl
    | some k =>
      obtain ⟨e, he, hover, -, -, hopen, -⟩ := (h.flow n f hf).own (hfc ▸ rfl)
      rw [hfc] at he
      obtain hclosed | ⟨m, g, hg, hh⟩ := ht.closed k e he hover
      · have ha : f.awaiting = true := by simp only [Flow.awaiting, hph]
        cases (hopen ha).symm.trans hclosed
      · simp only [setFlow, Function.update_apply] at hg
        split at hg
        · obtain rfl := Option.some.inj hg
          obtain hleg | ⟨hwait, -⟩ := hh
          · cases hleg
          · cases hwait
        · obtain rfl := h.once hf hg hfc (h.conn_of_holds hg hh)
          exact absurd rfl ‹_›
  · cases hs

theorem Inv.deliver_leaks (h : s.Inv) (hd : s.conns k = some d) (hph : d.phase = .matched n)
    (hf : s.flows n = some f) (ht : (s.deliver k n d f).OwnLegs) :
    f.done = true ∨ f.awaiting = true := by
  by_cases hdone : f.done = true
  · exact .inl hdone
  refine .inr ?_
  have hc := h.conn k d hd
  simp only [ConnInv, hph] at hc
  simp only [DataLegs.deliver, if_neg hdone] at ht
  let f₁ : Flow := { f with conn := some k, done := true }
  have hflows (m : Nat) : ((s.setConn k { d with phase := .finished }).setFlow n f₁).flows m =
      if m = n then some f₁ else s.flows m := Function.update_apply _ _ _ _
  obtain hclosed | ⟨m, g, hg, hh⟩ := ht.closed k { d with phase := .finished }
    (Function.update_self _ _ _) rfl
  · cases hc.1.symm.trans hclosed
  · rw [hflows] at hg
    split at hg
    · obtain rfl := Option.some.inj hg
      obtain hleg | ⟨hwait, -⟩ := hh
      · have hfk := (h.flow n f hf).taken k hleg
        exact absurd ((h.flow n f hf).done (hfk ▸ rfl)) hdone
      · exact hwait
    · refine absurd (h.conn_of_holds hg hh) (h.undelivered (fun e he hover => ?_) hg)
      obtain rfl := Option.some.inj (hd.symm.trans he)
      cases hph.symm.trans hover

theorem Inv.writesClean (h : s.Inv) (hs : s.step l = some t) (ht : t.OwnLegs) :
    s.WritesClean l := by
  cases l with
  | player n a =>
    obtain ⟨f, hf, hs⟩ := Option.bind_eq_some_iff.1 hs
    cases a with
    | writeOpenData ok =>
      cases ok with
      | true => trivial
      | false =>
        intro g hg
        obtain rfl := Option.some.inj (hf.symm.trans hg)
        exact h.writeOpenData_leaks hf hs ht
    | takeReady | wake | takeLocked | delete | record | closeLeg | releaseFlow => trivial
  | dial k a =>
    obtain ⟨d, hd, hs⟩ := Option.bind_eq_some_iff.1 hs
    cases a with
    | deliver =>
      simp only [DataLegs.dialStep, Option.bind_eq_some_iff, Option.map_eq_some_iff] at hs
      obtain ⟨n, hn, f, hf, rfl⟩ := hs
      intro e he m hm g hg
      obtain rfl := Option.some.inj (hd.symm.trans he)
      obtain rfl := Option.some.inj (hn.symm.trans hm)
      obtain rfl := Option.some.inj (hf.symm.trans hg)
      exact h.deliver_leaks hd (DialPhase.matched_of_target? hn) hf ht
    | load | close => trivial
  | openDataConn | hello | cancel | rangeStart | visit | rangeEnd => trivial

theorem Inv.unmeddled (h : s.Inv) (l : LegStep) : s.Unmeddled l := by
  intro t hs n f hf
  obtain ⟨m, g, a, rfl, hg, hs⟩ | ⟨k, d, a, rfl, hd, hs⟩ | hapart := apart_of_step hs
  · by_cases hne : n = m
    · subst m
      exact .inr (.inl ⟨a, rfl⟩)
    · obtain ⟨⟨g', hflows, -⟩, -, hpending, -⟩ := moved_of_playerStep hs
      refine .inl ⟨?_, hpending _ fun he => hne (connID_injective he)⟩
      rw [hflows, Function.update_of_ne hne]
      exact hf
  · obtain ⟨-, -, hflows, hpending, -⟩ := dialed_of_dialStep hs
    obtain hflows | ⟨m, g, rfl, hph, hg, hflows⟩ := hflows
    · exact .inl ⟨hflows ▸ hf, hpending ▸ rfl⟩
    · by_cases hne : n = m
      · subst m
        obtain rfl := Option.some.inj (hf.symm.trans hg)
        have hc := h.conn k d hd
        simp only [ConnInv, hph] at hc
        obtain ⟨-, hid, g', hg', hag⟩ := hc
        obtain rfl := Option.some.inj (hf.symm.trans hg')
        exact .inr (.inr ⟨k, d, rfl, hd, hag.symm, hid⟩)
      · refine .inl ⟨?_, hpending ▸ rfl⟩
        rw [hflows, Function.update_of_ne hne]
        exact hf
  · have hn := h.fresh n f hf
    exact .inl ⟨(hapart.flows n hn).trans hf, hapart.pending n hn⟩

end DataLegs

/-- Along every run, for any players, agents and hellos: players are spliced only to their own
agent's dial-back to their id, each to one, every other data connection is closed, and foreign
hellos change nothing, exactly when no connection is delivered to a player whose `open_data` write
fails. -/
theorem data_legs_own_iff (steps : List LegStep) :
    Runs.Always DataLegs.step DataLegs.OwnLegs DataLegs.start steps ∧
        Runs.Along DataLegs.step DataLegs.Unmeddled DataLegs.start steps ↔
      Runs.Along DataLegs.step DataLegs.WritesClean DataLegs.start steps := by
  have hiff : Runs.Always DataLegs.step DataLegs.OwnLegs DataLegs.start steps ↔
      Runs.Along DataLegs.step DataLegs.WritesClean DataLegs.start steps :=
    Runs.always_iff_along (fun _ h => DataLegs.Inv.ownLegs h)
      (fun _ _ _ h hs => ⟨fun hC => DataLegs.Inv.step h hC hs, h.writesClean hs⟩) DataLegs.inv_start
  refine ⟨fun h => hiff.1 h.1, fun h => ⟨hiff.2 h, ?_⟩⟩
  exact Runs.along_of_invariant (fun s l t hi hC hs => ⟨DataLegs.Inv.step hi hC hs, hi.unmeddled l⟩)
    DataLegs.inv_start h

/-- The write of `open_data` fails after the dial-back has found the entry: the connection is
delivered, and nobody takes or closes it. -/
theorem delivered_leg_leaks :
    ¬(Runs.Always DataLegs.step DataLegs.OwnLegs DataLegs.start
        [.openDataConn (AgentSession.plain 1 "a"), .hello 0 "a" "1", .dial 0 .load,
          .player 1 (.writeOpenData false), .dial 0 .deliver, .player 1 .delete,
          .player 1 .record] ∧
      Runs.Along DataLegs.step DataLegs.Unmeddled DataLegs.start
        [.openDataConn (AgentSession.plain 1 "a"), .hello 0 "a" "1", .dial 0 .load,
          .player 1 (.writeOpenData false), .dial 0 .deliver, .player 1 .delete,
          .player 1 .record]) := by
  rintro ⟨h, -⟩
  let last := Runs.final DataLegs.step DataLegs.start
    [.openDataConn (AgentSession.plain 1 "a"), .hello 0 "a" "1", .dial 0 .load,
      .player 1 (.writeOpenData false), .dial 0 .deliver, .player 1 .delete, .player 1 .record]
  obtain ⟨t, ht⟩ : ∃ t, last = some t := Option.isSome_iff_exists.1 (by decide)
  have hconn : ∀ t ∈ last, t.conns 0 = some ⟨"a", "1", .finished, false⟩ := by decide
  have hflow : ∀ t ∈ last,
      t.flows 1 = some ⟨AgentSession.plain 1 "a", .finished, some 0, true⟩ := by
    decide
  have hown := h.final (Runs.reaches_of_final ht)
  obtain hclosed | ⟨n, f, hf, hh⟩ := hown.closed 0 _ (hconn t ht) rfl
  · exact Bool.false_ne_true hclosed
  · have hfk : f.conn = some 0 := by
      obtain hleg | ⟨-, hfk⟩ := hh
      · exact hown.taken n f 0 hf hleg
      · exact hfk
    obtain rfl := hown.once n 1 f _ 0 hf (hflow t ht) hfk rfl
    obtain rfl := Option.some.inj (hf.symm.trans (hflow t ht))
    obtain hleg | ⟨hwait, -⟩ := hh
    · cases hleg
    · cases hwait

end ProxyForward

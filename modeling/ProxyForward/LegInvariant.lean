import ProxyForward.DataLegs

namespace ProxyForward
set_option autoImplicit true

namespace DataLegs

/-- No connection is delivered to a player whose `open_data` write fails, before or after. -/
def WritesClean (s : DataLegs) : LegStep → Prop
  | .player n (.writeOpenData false) => ∀ f ∈ s.flows n, f.conn = none
  | .dial k .deliver => ∀ d ∈ s.conns k, ∀ n ∈ d.phase.target?, ∀ f ∈ s.flows n,
    f.done = true ∨ f.awaiting = true
  | _ => True

/-- What holds of a player, of the connection delivered to it, and of its tracked entry. -/
structure FlowInv (n : Nat) (f : Flow) (d : Option DataConn) (tracked : Option Nat) : Prop where
  done : f.conn.isSome = true → f.done = true
  taken : ∀ k, f.leg? = some k → f.conn = some k
  kept : f.phase = .returning none ∨ f.phase = .returned none → f.conn = none
  own : f.conn.isSome = true → ∃ e ∈ d, e.phase = .finished ∧ e.agentID = f.sess.agentID ∧
    e.connID = connID n ∧ (f.awaiting = true → e.closed = false) ∧
    ((∃ k, f.phase = .ending k) ∨ f.phase = .finished → e.closed = true)
  tracked : tracked = f.tracked?

/-- What holds of a data connection: open until it is through, matched only to its own agent's
player, then closed or delivered. -/
def ConnInv (flows : Nat → Option Flow) (k : Nat) (d : DataConn) : Prop :=
  match d.phase with
  | .arrived => d.closed = false
  | .matched n => d.closed = false ∧ d.connID = connID n ∧
    ∃ f, flows n = some f ∧ f.sess.agentID = d.agentID
  | .refused => True
  | .finished => d.closed = true ∨ ∃ n f, flows n = some f ∧ f.conn = some k

structure Inv (s : DataLegs) : Prop where
  fresh : ∀ n f, s.flows n = some f → n ≤ s.connSeq
  flow : ∀ n f, s.flows n = some f →
    FlowInv n f (f.conn.bind s.conns) ((s.dataConns f.sess).lookup (connID n))
  conn : ∀ k d, s.conns k = some d → ConnInv s.flows k d
  pending : ∀ c n, s.pendingData.lookup c = some n → c = connID n ∧ ∃ f, s.flows n = some f
  keys : ∀ sess id k, (s.dataConns sess).lookup id = some k →
    ∃ n f, id = connID n ∧ s.flows n = some f ∧ f.sess = sess

theorem inv_start : start.Inv where
  fresh := fun _ _ h => absurd h (Option.not_mem_none _)
  flow := fun _ _ h => absurd h (Option.not_mem_none _)
  conn := fun _ _ h => absurd h (Option.not_mem_none _)
  pending := fun _ _ h => absurd h (Option.not_mem_none _)
  keys := fun _ _ _ h => absurd h (Option.not_mem_none _)

variable {s t : DataLegs} {f f' : Flow} {d d' : DataConn}

theorem Inv.once (h : s.Inv) (hn : s.flows n = some f) (hm : s.flows m = some f')
    (hk : f.conn = some k) (hk' : f'.conn = some k) : n = m := by
  obtain ⟨e, he, -, -, hid, -⟩ := (h.flow n f hn).own (hk ▸ rfl)
  obtain ⟨e', he', -, -, hid', -⟩ := (h.flow m f' hm).own (hk' ▸ rfl)
  rw [hk] at he
  rw [hk'] at he'
  obtain rfl : e = e' := Option.some.inj (he.symm.trans he')
  exact connID_injective (hid.symm.trans hid')

theorem ConnInv.mono {flows flows' : Nat → Option Flow} (hc : ConnInv flows k d)
    (hmono : ∀ m g, flows m = some g →
      ∃ g', flows' m = some g' ∧ g'.sess = g.sess ∧ (g.conn = some k → g'.conn = some k)) :
    ConnInv flows' k d := by
  unfold ConnInv at hc ⊢
  cases hph : d.phase with
  | arrived | refused =>
    rw [hph] at hc
    exact hc
  | matched m =>
    rw [hph] at hc
    obtain ⟨hopen, hid, g, hg, hag⟩ := hc
    obtain ⟨g', hg', hs', -⟩ := hmono m g hg
    exact ⟨hopen, hid, g', hg', hs' ▸ hag⟩
  | finished =>
    rw [hph] at hc
    obtain hclosed | ⟨m, g, hg, hgc⟩ := hc
    · exact .inl hclosed
    · obtain ⟨g', hg', -, hc'⟩ := hmono m g hg
      exact .inr ⟨m, g', hg', hc' hgc⟩

theorem Inv.movePlayer (h : s.Inv) (f' : Flow) (hf : s.flows n = some f) (hsess : f'.sess = f.sess)
    (hconn : f'.conn = f.conn) {pending : GoMap Nat} {dataConns : AgentSession → GoMap Nat}
    (hp : ∀ c m, pending.lookup c = some m → s.pendingData.lookup c = some m)
    (hdc : ∀ sess id, sess ≠ f.sess ∨ id ≠ connID n →
      (dataConns sess).lookup id = (s.dataConns sess).lookup id)
    (hinv : FlowInv n f' (f.conn.bind s.conns) ((dataConns f.sess).lookup (connID n))) :
    Inv { s.setFlow n f' with pendingData := pending, dataConns := dataConns } := by
  have hold {m : Nat} {g : Flow} (hm : (s.setFlow n f').flows m = some g) :
      m = n ∧ g = f' ∨ m ≠ n ∧ s.flows m = some g := by
    simp only [setFlow, Function.update_apply] at hm
    split at hm
    · exact .inl ⟨‹_›, (Option.some.inj hm).symm⟩
    · exact .inr ⟨‹_›, hm⟩
  have hnew {m : Nat} {g : Flow} (hm : s.flows m = some g) :
      ∃ g', (s.setFlow n f').flows m = some g' ∧ g'.sess = g.sess ∧ g'.conn = g.conn := by
    simp only [setFlow, Function.update_apply]
    split
    · subst m
      obtain rfl := Option.some.inj (hf.symm.trans hm)
      exact ⟨f', rfl, hsess, hconn⟩
    · exact ⟨g, hm, rfl, rfl⟩
  constructor
  · intro m g hm
    obtain ⟨rfl, -⟩ | ⟨-, hm⟩ := hold hm
    · exact h.fresh m f hf
    · exact h.fresh m g hm
  · intro m g hm
    obtain ⟨rfl, rfl⟩ | ⟨hne, hm⟩ := hold hm
    · simp only [hsess, hconn]
      exact hinv
    · have hsame := hdc g.sess (connID m) (.inr fun he => hne (connID_injective he))
      simp only [hsame]
      exact h.flow m g hm
  · intro k d hk
    refine (h.conn k d hk).mono fun m g hg => ?_
    obtain ⟨g', hg', hs', hc'⟩ := hnew hg
    exact ⟨g', hg', hs', fun hgk => hc'.trans hgk⟩
  · intro c m hc
    obtain ⟨hcm, g, hg⟩ := h.pending c m (hp c m hc)
    obtain ⟨g', hg', -, -⟩ := hnew hg
    exact ⟨hcm, g', hg'⟩
  · intro sess id k hk
    by_cases hown : sess = f.sess ∧ id = connID n
    · obtain ⟨g', hg', hs', -⟩ := hnew hf
      exact ⟨n, g', hown.2, hg', hs'.trans hown.1.symm⟩
    · rw [hdc sess id (by rwa [not_and_or] at hown)] at hk
      obtain ⟨m, g, hid, hg, hs⟩ := h.keys sess id k hk
      obtain ⟨g', hg', hs', -⟩ := hnew hg
      exact ⟨m, g', hid, hg', hs'.trans hs⟩

theorem Inv.undelivered (h : s.Inv) (hk : ∀ e, s.conns k = some e → e.phase ≠ .finished)
    (hf : s.flows n = some f) : f.conn ≠ some k := by
  intro hc
  obtain ⟨e, he, hover, -⟩ := (h.flow n f hf).own (hc ▸ rfl)
  rw [hc] at he
  exact hk e he hover

theorem phase_of_awaiting (h : f.awaiting = true) :
    f.phase = .registered ∨ f.phase = .waiting ∨ f.phase = .woken := by
  unfold Flow.awaiting at h
  split at h <;> rename_i hph
  · exact .inl hph
  · exact .inr (.inl hph)
  · exact .inr (.inr hph)
  · cases h

theorem leg?_of_awaiting (h : f.awaiting = true) : f.leg? = none := by
  obtain hp | hp | hp := phase_of_awaiting h <;> simp only [Flow.leg?, hp]

theorem Inv.moveConn (h : s.Inv) (hk : ∀ e, s.conns k = some e → e.phase ≠ .finished)
    (hc : ConnInv s.flows k d) : (s.setConn k d).Inv := by
  refine ⟨h.fresh, fun n f hf => ?_, fun j e he => ?_, h.pending, h.keys⟩
  · have hsame : f.conn.bind (s.setConn k d).conns = f.conn.bind s.conns := by
      cases hfc : f.conn with
      | none => rfl
      | some j =>
        have hne : j ≠ k := fun he => h.undelivered hk hf (he ▸ hfc)
        exact Function.update_of_ne hne _ _
    rw [hsame]
    exact h.flow n f hf
  · simp only [setConn, Function.update_apply] at he
    split at he
    · subst j
      obtain rfl := Option.some.inj he
      exact hc
    · exact h.conn j e he

theorem Inv.closeConn (h : s.Inv) (hf : s.flows n = some f) (hfk : f.conn = some k)
    (ha : f.awaiting = false) : (s.closeConn k).Inv := by
  obtain ⟨d, hd, hover, -⟩ := (h.flow n f hf).own (hfk ▸ rfl)
  rw [hfk] at hd
  have hconns := closeConn_conns hd
  rw [closeConn_eq, hconns]
  refine ⟨h.fresh, fun m g hg => ?_, fun j e he => ?_, h.pending, h.keys⟩
  · have hinv := h.flow m g hg
    by_cases hgk : g.conn = some k
    · obtain rfl := h.once hf hg hfk hgk
      obtain rfl := Option.some.inj (hf.symm.trans hg)
      refine ⟨hinv.done, hinv.taken, hinv.kept, fun hsome => ?_, hinv.tracked⟩
      obtain ⟨e, he, hphase, hag, hid, -, -⟩ := hinv.own hsome
      rw [hgk] at he
      obtain rfl := Option.some.inj (hd.symm.trans he)
      refine ⟨{ d with closed := true }, ?_, hphase, hag, hid, fun hawait => ?_, fun _ => rfl⟩
      · rw [hgk]
        exact Function.update_self _ _ _
      · rw [ha] at hawait
        cases hawait
    · have hsame : g.conn.bind (Function.update s.conns k (some { d with closed := true })) =
          g.conn.bind s.conns := by
        cases hgc : g.conn with
        | none => rfl
        | some j =>
          have hne : j ≠ k := fun he => hgk (he ▸ hgc)
          exact Function.update_of_ne hne _ _
      simp only [hsame]
      exact hinv
  · simp only [Function.update_apply] at he
    split at he
    · obtain rfl := Option.some.inj he
      simp only [ConnInv, hover]
      exact .inl trivial
    · exact h.conn j e he

theorem FlowInv.delivered {tracked : Option Nat} {e : Option DataConn}
    (h : FlowInv n f e tracked) (ha : f.awaiting = true) (hag : d.agentID = f.sess.agentID)
    (hid : d.connID = connID n) (hopen : d.closed = false) :
    FlowInv n { f with conn := some k, done := true } (some { d with phase := .finished })
      tracked := by
  refine ⟨fun _ => rfl, fun j hj => ?_, fun hret => ?_, fun _ => ?_, h.tracked⟩
  · cases (leg?_of_awaiting ha).symm.trans hj
  · obtain hp | hp | hp := phase_of_awaiting ha <;>
      obtain hret | hret := hret <;> cases hp.symm.trans hret
  · refine ⟨{ d with phase := .finished }, rfl, rfl, hag, hid, fun _ => hopen, fun hend => ?_⟩
    obtain hp | hp | hp := phase_of_awaiting ha <;>
      obtain ⟨j, hend⟩ | hend := hend <;> cases hp.symm.trans hend

theorem Inv.deliver (h : s.Inv) (hd : s.conns k = some d) (hph : d.phase = .matched n)
    (hf : s.flows n = some f) (hC : f.done = true ∨ f.awaiting = true) :
    (s.deliver k n d f).Inv := by
  have hk : ∀ e, s.conns k = some e → e.phase ≠ .finished := by
    intro e he hover
    obtain rfl := Option.some.inj (hd.symm.trans he)
    rw [hph] at hover
    cases hover
  unfold DataLegs.deliver
  split
  · exact h.moveConn hk (by simp only [ConnInv])
  · rename_i hdone
    have hawait := hC.resolve_left hdone
    have hnone : f.conn = none := by
      cases hfc : f.conn with
      | none => rfl
      | some j => exact absurd ((h.flow n f hf).done (hfc ▸ rfl)) hdone
    have hc := h.conn k d hd
    simp only [ConnInv, hph] at hc
    obtain ⟨hopen, hid, g, hg, hag⟩ := hc
    obtain rfl := Option.some.inj (hf.symm.trans hg)
    let f₁ : Flow := { f with conn := some k, done := true }
    let d₁ : DataConn := { d with phase := .finished }
    have hflows (m : Nat) : ((s.setConn k d₁).setFlow n f₁).flows m =
        if m = n then some f₁ else s.flows m := Function.update_apply _ _ _ _
    have hconns (j : Nat) : ((s.setConn k d₁).setFlow n f₁).conns j =
        if j = k then some d₁ else s.conns j := Function.update_apply _ _ _ _
    have hexists (m : Nat) (g : Flow) (hm : s.flows m = some g) :
        ∃ g', ((s.setConn k d₁).setFlow n f₁).flows m = some g' ∧ g'.sess = g.sess ∧
          ∀ j, g.conn = some j → g'.conn = some j := by
      by_cases hmn : m = n
      · subst m
        obtain rfl := Option.some.inj (hf.symm.trans hm)
        refine ⟨f₁, (hflows n).trans (if_pos rfl), rfl, fun j hj => ?_⟩
        cases hnone.symm.trans hj
      · exact ⟨g, (hflows m).trans ((if_neg hmn).trans hm), rfl, fun _ hj => hj⟩
    have hfirst : FlowInv n f₁ (f₁.conn.bind ((s.setConn k d₁).setFlow n f₁).conns)
        ((s.dataConns f.sess).lookup (connID n)) := by
      rw [show f₁.conn.bind ((s.setConn k d₁).setFlow n f₁).conns = some d₁ from
        (hconns k).trans (if_pos rfl)]
      exact (h.flow n f hf).delivered hawait hag.symm hid hopen
    constructor
    · intro m g hm
      rw [hflows] at hm
      split at hm
      · subst m
        exact h.fresh n f hf
      · exact h.fresh m g hm
    · intro m g hm
      rw [hflows] at hm
      split at hm
      · subst m
        obtain rfl := Option.some.inj hm
        exact hfirst
      · have hsame : g.conn.bind ((s.setConn k d₁).setFlow n f₁).conns = g.conn.bind s.conns := by
          cases hgc : g.conn with
          | none => rfl
          | some j =>
            have hne : j ≠ k := fun he => h.undelivered hk hm (he ▸ hgc)
            exact (hconns j).trans (if_neg hne)
        rw [hsame]
        exact h.flow m g hm
    · intro j e he
      rw [hconns] at he
      split at he
      · subst j
        obtain rfl := Option.some.inj he
        exact .inr ⟨n, f₁, (hflows n).trans (if_pos rfl), rfl⟩
      · refine (h.conn j e he).mono fun m g hm => ?_
        obtain ⟨g', hg', hs', hj'⟩ := hexists m g hm
        exact ⟨g', hg', hs', hj' j⟩
    · intro c m hc
      obtain ⟨hcm, g, hg⟩ := h.pending c m hc
      obtain ⟨g', hg', -⟩ := hexists m g hg
      exact ⟨hcm, g', hg'⟩
    · intro sess id j hj
      obtain ⟨m, g, hid', hg, hs⟩ := h.keys sess id j hj
      obtain ⟨g', hg', hs', -⟩ := hexists m g hg
      exact ⟨m, g', hid', hg', hs'.trans hs⟩

theorem FlowInv.move {tracked tracked' : Option Nat} {d : Option DataConn}
    (h : FlowInv n f d tracked) (f' : Flow) (hsess : f'.sess = f.sess) (hconn : f'.conn = f.conn)
    (hdone : f.done = true → f'.done = true) (htaken : ∀ k, f'.leg? = some k → f.conn = some k)
    (hkept : f'.phase = .returning none ∨ f'.phase = .returned none → f.conn = none)
    (hawait : f'.awaiting = true → f.awaiting = true)
    (hend : (∃ k, f'.phase = .ending k) ∨ f'.phase = .finished → ∀ e ∈ d, f.conn.isSome = true →
      e.closed = true)
    (htracked : tracked' = f'.tracked?) : FlowInv n f' d tracked' := by
  refine ⟨fun hs => ?_, fun k hk => ?_, fun hp => ?_, fun hs => ?_, htracked⟩
  · rw [hconn] at hs
    exact hdone (h.done hs)
  · exact hconn.trans (htaken k hk)
  · exact hconn.trans (hkept hp)
  · rw [hconn] at hs
    obtain ⟨e, he, hover, hag, hid, hopen, -⟩ := h.own hs
    exact ⟨e, he, hover, hsess ▸ hag, hid, fun ha => hopen (hawait ha), fun hp => hend hp e he hs⟩

theorem Inv.moveOpening (h : s.Inv) (hf : s.flows n = some f) (ha : f.awaiting = true)
    (f' : Flow) (hsess : f'.sess = f.sess) (hconn : f'.conn = f.conn)
    (hdone : f.done = true → f'.done = true)
    (hphase : f'.awaiting = true ∨ f'.phase = .returning f.conn) : (s.setFlow n f').Inv := by
  have hold := h.flow n f hf
  have htr : (s.dataConns f.sess).lookup (connID n) = none := by
    rw [hold.tracked]
    obtain hp | hp | hp := phase_of_awaiting ha <;> simp only [Flow.tracked?, hp]
  have hnew : f'.tracked? = none ∧ (∀ k, f'.leg? = some k → f.conn = some k) ∧
      (f'.phase = .returning none ∨ f'.phase = .returned none → f.conn = none) ∧
      ¬((∃ k, f'.phase = .ending k) ∨ f'.phase = .finished) := by
    obtain hawait | hret := hphase
    · obtain hp | hp | hp := phase_of_awaiting hawait <;>
        simp only [Flow.tracked?, Flow.leg?, hp, reduceCtorEq, or_self, exists_false,
          not_false_eq_true, false_implies, implies_true, and_self]
    · simp only [Flow.tracked?, Flow.leg?, hret, FlowPhase.returning.injEq, reduceCtorEq, or_false,
        exists_false, or_self, not_false_eq_true, imp_self, implies_true, and_self]
  obtain ⟨htracked, htaken, hkept, hend⟩ := hnew
  exact h.movePlayer f' hf hsess hconn (fun _ _ hc => hc) (fun _ _ _ => rfl)
    (hold.move f' hsess hconn hdone htaken hkept (fun _ => ha) (fun he => absurd he hend)
      (htr.trans htracked.symm))

theorem Inv.delete (h : s.Inv) (hf : s.flows n = some f) (hph : f.phase = .returning leg) :
    Inv { s.setFlow n { f with phase := .returned leg } with
      pendingData := s.pendingData.erase (connID n) } := by
  have hold := h.flow n f hf
  have htr : f.tracked? = none := by simp only [Flow.tracked?, hph]
  refine h.movePlayer { f with phase := .returned leg } hf rfl rfl (fun c m hc => ?_)
    (fun _ _ _ => rfl) (hold.move _ rfl rfl id (fun k hk => ?_) (fun hr => ?_) (fun ha => ?_)
      (fun he => ?_) (hold.tracked.trans htr))
  · rw [lookup_erase_eq] at hc
    split at hc
    · cases hc
    · exact hc
  · exact hold.taken k (by simpa only [Flow.leg?, hph] using hk)
  · obtain hr | hr := hr <;> cases hr
    exact hold.kept (.inl hph)
  · cases ha
  · obtain ⟨k, he⟩ | he := he <;> cases he

theorem Inv.giveUp (h : s.Inv) (hf : s.flows n = some f) (hph : f.phase = .returned none) :
    (s.setFlow n { f with phase := .finished }).Inv := by
  have hold := h.flow n f hf
  have htr : f.tracked? = none := by simp only [Flow.tracked?, hph]
  have hnone := hold.kept (.inr hph)
  refine h.movePlayer { f with phase := .finished } hf rfl rfl (fun _ _ hc => hc) (fun _ _ _ => rfl)
    (hold.move _ rfl rfl id (fun k hk => ?_) (fun hr => ?_) (fun ha => ?_) (fun _ e _ hs => ?_)
      (hold.tracked.trans htr))
  · cases hk
  · obtain hr | hr := hr <;> cases hr
  · cases ha
  · rw [hnone] at hs
    cases hs

theorem Inv.record (h : s.Inv) (hf : s.flows n = some f) (hph : f.phase = .returned (some k)) :
    ((s.setFlow n { f with phase := .splicing k }).track f.sess
      ((s.dataConns f.sess).insert (connID n) k)).Inv := by
  have hold := h.flow n f hf
  refine h.movePlayer { f with phase := .splicing k } hf rfl rfl (fun _ _ hc => hc)
    (fun sess id hne => ?_) (hold.move _ rfl rfl id (fun j hj => ?_) (fun hr => ?_) (fun ha => ?_)
      (fun he => ?_) ?_)
  · rw [Function.update_apply]
    split
    · rename_i hs
      rw [lookup_insert_eq, if_neg (hne.resolve_left (not_not.2 hs)), hs]
    · rfl
  · exact hold.taken j (by simpa only [Flow.leg?, hph] using hj)
  · obtain hr | hr := hr <;> cases hr
  · cases ha
  · obtain ⟨j, he⟩ | he := he <;> cases he
  · rw [Function.update_self, lookup_insert_eq, if_pos rfl]
    rfl

theorem Inv.releaseFlow (h : s.Inv) (hf : s.flows n = some f) (hph : f.phase = .ending k) :
    ((s.setFlow n { f with phase := .finished }).track f.sess
      ((s.dataConns f.sess).erase (connID n))).Inv := by
  have hold := h.flow n f hf
  refine h.movePlayer { f with phase := .finished } hf rfl rfl (fun _ _ hc => hc)
    (fun sess id hne => ?_) (hold.move _ rfl rfl id (fun j hj => ?_) (fun hr => ?_) (fun ha => ?_)
      (fun _ e he hs => ?_) ?_)
  · rw [Function.update_apply]
    split
    · rename_i hs
      rw [lookup_erase_eq, if_neg (hne.resolve_left (not_not.2 hs)), hs]
    · rfl
  · cases hj
  · obtain hr | hr := hr <;> cases hr
  · cases ha
  · obtain ⟨e', he', -, -, -, -, hend⟩ := hold.own hs
    obtain rfl := Option.some.inj (he.symm.trans he')
    exact hend (.inl ⟨k, hph⟩)
  · rw [Function.update_self, lookup_erase_eq, if_pos rfl]
    rfl

theorem Inv.closeLeg (h : s.Inv) (hf : s.flows n = some f) (hph : f.phase = .splicing k) :
    ((s.closeConn k).setFlow n { f with phase := .ending k }).Inv := by
  have hold := h.flow n f hf
  have hfk : f.conn = some k := hold.taken k (by simp only [Flow.leg?, hph])
  have hclosed := h.closeConn hf hfk (by simp only [Flow.awaiting, hph])
  have hf' : (s.closeConn k).flows n = some f := by
    rw [closeConn_eq]
    exact hf
  obtain ⟨d, hd, -⟩ := hold.own (hfk ▸ rfl)
  rw [hfk] at hd
  have hnow := hclosed.flow n f hf'
  refine hclosed.movePlayer { f with phase := .ending k } hf' rfl rfl (fun _ _ hc => hc)
    (fun _ _ _ => rfl) (hnow.move _ rfl rfl id (fun j hj => ?_) (fun hr => ?_) (fun ha => ?_)
      (fun _ e he _ => ?_) ?_)
  · exact hold.taken j (by simpa only [Flow.leg?, hph] using hj)
  · obtain hr | hr := hr <;> cases hr
  · cases ha
  · rw [hfk, closeConn_conns hd] at he
    have hnew : Function.update s.conns k (some { d with closed := true }) k = some e := he
    rw [Function.update_self] at hnew
    cases hnew
    rfl
  · rw [hnow.tracked]
    simp only [Flow.tracked?, hph]

theorem Inv.playerStep (h : s.Inv) (hf : s.flows n = some f) (hC : s.WritesClean (.player n a))
    (hs : s.playerStep n f a = some t) : t.Inv := by
  have hold := h.flow n f hf
  cases a with
  | writeOpenData ok =>
    simp only [DataLegs.playerStep] at hs
    split at hs
    · rename_i hph
      obtain rfl := Option.some.inj hs
      refine h.moveOpening hf (by simp only [Flow.awaiting, hph]) _ rfl rfl id ?_
      cases ok with
      | true => exact .inl rfl
      | false => exact .inr (by rw [hC f hf]; rfl)
    · cases hs
  | takeReady =>
    simp only [DataLegs.playerStep] at hs
    split at hs
    · rename_i hph
      obtain rfl := Option.some.inj hs
      exact h.moveOpening hf (by simp only [Flow.awaiting, hph]) _ rfl rfl id (.inr rfl)
    · cases hs
  | wake =>
    simp only [DataLegs.playerStep] at hs
    split at hs
    · rename_i hph
      obtain rfl := Option.some.inj hs
      exact h.moveOpening hf (by simp only [Flow.awaiting, hph]) _ rfl rfl id (.inl rfl)
    · cases hs
  | takeLocked =>
    simp only [DataLegs.playerStep] at hs
    split at hs
    · rename_i hph
      have ha : f.awaiting = true := by simp only [Flow.awaiting, hph]
      split at hs <;> obtain rfl := Option.some.inj hs
      · exact h.moveOpening hf ha _ rfl rfl id (.inr rfl)
      · rename_i hdone
        have hnone : f.conn = none := by
          cases hfc : f.conn with
          | none => rfl
          | some j => exact absurd (hold.done (hfc ▸ rfl)) hdone
        exact h.moveOpening hf ha _ rfl rfl (fun _ => rfl) (.inr (by rw [hnone]))
    · cases hs
  | delete =>
    simp only [DataLegs.playerStep] at hs
    split at hs
    · obtain rfl := Option.some.inj hs
      exact h.delete hf ‹_›
    · cases hs
  | record =>
    simp only [DataLegs.playerStep] at hs
    split at hs
    · obtain rfl := Option.some.inj hs
      exact h.giveUp hf ‹_›
    · obtain rfl := Option.some.inj hs
      exact h.record hf ‹_›
    · cases hs
  | closeLeg =>
    simp only [DataLegs.playerStep] at hs
    split at hs
    · obtain rfl := Option.some.inj hs
      exact h.closeLeg hf ‹_›
    · cases hs
  | releaseFlow =>
    simp only [DataLegs.playerStep] at hs
    split at hs
    · obtain rfl := Option.some.inj hs
      exact h.releaseFlow hf ‹_›
    · cases hs

theorem Inv.dialStep (h : s.Inv) (hd : s.conns k = some d) (hC : s.WritesClean (.dial k a))
    (hs : s.dialStep k d a = some t) : t.Inv := by
  have hunder {p : DialPhase} (hp : d.phase = p) (hne : p ≠ .finished) :
      ∀ e, s.conns k = some e → e.phase ≠ .finished := by
    intro e he
    obtain rfl := Option.some.inj (hd.symm.trans he)
    exact hp ▸ hne
  cases a with
  | load =>
    simp only [DataLegs.dialStep] at hs
    split at hs
    · rename_i hph
      obtain rfl := Option.some.inj hs
      have hopen := h.conn k d hd
      simp only [ConnInv, hph] at hopen
      refine h.moveConn (hunder hph (by decide)) ?_
      unfold handleDataConn
      split
      · trivial
      · split
        · trivial
        · rename_i n hn
          obtain ⟨hid, g, hg⟩ := h.pending _ n hn
          rw [hg]
          dsimp only
          split
          · trivial
          · rename_i hag
            exact ⟨hopen, hid, g, hg, not_not.1 hag⟩
    · cases hs
  | deliver =>
    simp only [DataLegs.dialStep, Option.bind_eq_some_iff, Option.map_eq_some_iff] at hs
    obtain ⟨n, hn, f, hf, rfl⟩ := hs
    exact h.deliver hd (DialPhase.matched_of_target? hn) hf (hC d hd n hn f hf)
  | close =>
    simp only [DataLegs.dialStep] at hs
    split at hs
    · rename_i hph
      obtain rfl := Option.some.inj hs
      exact h.moveConn (hunder hph (by decide)) (.inl rfl)
    · cases hs

theorem Inv.drain (h : s.Inv) (sess : AgentSession) (p : Draining) : (s.drain sess p).Inv :=
  ⟨h.fresh, h.flow, h.conn, h.pending, h.keys⟩

theorem Inv.tracked {id : String} (h : s.Inv) (hk : (s.dataConns sess).lookup id = some k) :
    ∃ n f, s.flows n = some f ∧ f.sess = sess ∧ f.conn = some k ∧ f.tracked? = some k ∧
      f.awaiting = false := by
  obtain ⟨n, f, rfl, hf, rfl⟩ := h.keys _ _ _ hk
  have hold := h.flow n f hf
  have htr : f.tracked? = some k := hold.tracked.symm.trans hk
  refine ⟨n, f, hf, rfl, hold.taken k ?_, htr, ?_⟩ <;>
    simp only [Flow.tracked?, Flow.leg?, Flow.awaiting] at htr ⊢
  · split at htr <;> rename_i hph
    · rw [hph]
      exact htr
    · rw [hph]
      exact htr
    · cases htr
  · split at htr <;> rename_i hph
    · rw [hph]
    · rw [hph]
    · cases htr

theorem Inv.openDataConn (h : s.Inv) (hs : s.step (.openDataConn sess) = some t) : t.Inv := by
  obtain rfl := Option.some.inj hs
  have hnew (m : Nat) (g : Flow) (hm : s.flows m = some g) : m ≠ s.connSeq + 1 := by
    have := h.fresh m g hm
    omega
  have hflows (m : Nat) : (s.setFlow (s.connSeq + 1) ⟨sess, .registered, none, false⟩).flows m =
      if m = s.connSeq + 1 then some ⟨sess, .registered, none, false⟩ else s.flows m :=
    Function.update_apply _ _ _ _
  have hkept (m : Nat) (g : Flow) (hm : s.flows m = some g) :
      (s.setFlow (s.connSeq + 1) ⟨sess, .registered, none, false⟩).flows m = some g :=
    (hflows m).trans ((if_neg (hnew m g hm)).trans hm)
  constructor
  · intro m g hm
    simp only [hflows] at hm
    split at hm
    · exact (Nat.le_of_eq ‹_›)
    · exact Nat.le_succ_of_le (h.fresh m g hm)
  · intro m g hm
    simp only [hflows] at hm
    split at hm
    · subst m
      obtain rfl := Option.some.inj hm
      refine ⟨fun hs => ?_, fun _ hk => ?_, fun _ => rfl, fun hs => ?_, ?_⟩
      · cases hs
      · cases hk
      · cases hs
      · cases hl : (s.dataConns sess).lookup (connID (s.connSeq + 1)) with
        | none => exact hl
        | some k =>
          obtain ⟨n, g, hid, hg, -⟩ := h.keys _ _ _ hl
          exact absurd (connID_injective hid).symm (hnew n g hg)
    · exact h.flow m g hm
  · intro k d hd
    exact (h.conn k d hd).mono fun m g hm => ⟨g, hkept m g hm, rfl, id⟩
  · intro c m hc
    simp only [lookup_insert_eq] at hc
    split at hc
    · obtain rfl := Option.some.inj hc
      exact ⟨‹_›, _, (hflows _).trans (if_pos rfl)⟩
    · obtain ⟨hcm, g, hg⟩ := h.pending c m hc
      exact ⟨hcm, g, hkept m g hg⟩
  · intro sess' id k hk
    obtain ⟨n, g, hid, hg, hs⟩ := h.keys sess' id k hk
    exact ⟨n, g, hid, hkept n g hg, hs⟩

theorem Inv.step (h : s.Inv) (hC : s.WritesClean l) (hs : s.step l = some t) : t.Inv := by
  cases l with
  | openDataConn sess => exact h.openDataConn hs
  | player n a =>
    obtain ⟨f, hf, hs⟩ := Option.bind_eq_some_iff.1 hs
    exact h.playerStep hf hC hs
  | hello k agentID id =>
    simp only [DataLegs.step] at hs
    split at hs
    · rename_i hk
      obtain rfl := Option.some.inj hs
      refine h.moveConn (fun e he => ?_) rfl
      cases hk.symm.trans he
    · cases hs
  | dial k a =>
    obtain ⟨d, hd, hs⟩ := Option.bind_eq_some_iff.1 hs
    exact h.dialStep hd hC hs
  | cancel sess =>
    simp only [DataLegs.step] at hs
    split at hs <;> cases hs
    exact h.drain sess _
  | rangeStart sess =>
    simp only [DataLegs.step] at hs
    split at hs <;> cases hs
    exact h.drain sess _
  | visit sess id =>
    simp only [DataLegs.step] at hs
    split at hs
    · split at hs
      · cases hs
      · obtain ⟨k, hk, rfl⟩ := Option.map_eq_some_iff.1 hs
        obtain ⟨n, f, hf, -, hfk, -, ha⟩ := h.tracked hk
        exact (h.closeConn hf hfk ha).drain sess _
    · cases hs
  | rangeEnd sess =>
    simp only [DataLegs.step] at hs
    split at hs
    · split at hs <;> cases hs
      exact h.drain sess _
    · cases hs

end DataLegs

end ProxyForward

import Mathlib.Data.List.AList
import ProxyForward.AgentSampling
import ProxyForward.CursorLog
import ProxyForward.Runs

namespace ProxyForward.LinkQuality
open CursorLog
set_option autoImplicit true

/-- How many finalized heartbeats the loss ratio averages over. -/
def DefaultWindow : Nat := 32

/-- The EWMA weight of the interarrival jitter. -/
def jitterGain : Rat := 1 / 16

/-- The pings under way with the times they went out, and the ring of the last outcomes, which has
room for `window` of them. -/
structure Tracker where
  jitter : Rat
  prevRTT : Int
  jitterInit : Bool
  outstanding : AList fun _ : Nat => Int
  results : List Bool
  ridx : Nat
  window : Nat

/-- The window in effect. -/
def windowOf (window : Int) : Nat := if window ≤ 0 then DefaultWindow else window.toNat

/-- The index starts past the ring: grow until it is full. -/
def New (window : Int) : Tracker where
  jitter := 0
  prevRTT := 0
  jitterInit := false
  outstanding := ∅
  results := []
  ridx := windowOf window
  window := windowOf window

namespace Tracker

def pushResult (q : Tracker) (received : Bool) : Tracker :=
  if q.results.length < q.window then { q with results := q.results ++ [received] }
  else
    let ridx := if q.window ≤ q.ridx then 0 else q.ridx
    { q with results := q.results.set ridx received, ridx := ridx + 1 }

def OnSent (q : Tracker) (seq : Nat) (t : Int) : Tracker :=
  { q with outstanding := q.outstanding.insert seq t }

/-- The running estimate of the jitter after one more round trip. -/
def sampleJitter (q : Tracker) (rtt : Int) : Tracker :=
  { q with
    jitter := if q.jitterInit then q.jitter + (|rtt - q.prevRTT| - q.jitter) * jitterGain
      else q.jitter
    jitterInit := true
    prevRTT := rtt }

/-- A ping that is not outstanding has been swept, or answered before. -/
def OnPong (q : Tracker) (seq : Nat) (rtt : Int) : Tracker :=
  match q.outstanding.lookup seq with
  | none => q
  | some _ =>
    ({ q with outstanding := q.outstanding.erase seq }.pushResult true).sampleJitter rtt

/-- The loop body of `Sweep`. -/
def sweep (now timeout : Int) (q : Tracker) (seq : Nat) : Tracker :=
  match q.outstanding.lookup seq with
  | none => q
  | some sent =>
    if timeout ≤ now - sent then
      { q with outstanding := q.outstanding.erase seq }.pushResult false
    else q

/-- The loop visits the outstanding pings in the order the map gives them. -/
def Sweep (q : Tracker) (now timeout : Int) (visit : List Nat) : Tracker :=
  visit.foldl (sweep now timeout) q

/-- What the samplers see of the tracker. -/
def outcomes (q : Tracker) : ProxyForward.Tracker := ⟨q.results⟩

def LossPct (q : Tracker) : Rat := q.outcomes.LossPct

/-- A ping that a sweep would find too old. -/
def expired (q : Tracker) (now timeout : Int) (seq : Nat) : Bool :=
  (q.outstanding.lookup seq).any fun sent => timeout ≤ now - sent

end Tracker

/-- What the ping loop and the control reader do. -/
inductive Event where
  | OnSent (seq : Nat) (t : Int)
  | OnPong (seq : Nat) (rtt : Int)
  | Sweep (now timeout : Int) (visit : List Nat)
  deriving DecidableEq, Repr

/-- The tracker, and the pings it finalized in order with their outcomes. -/
structure Watched where
  tracker : Tracker
  finalized : List (Nat × Bool)

namespace Watched

def new (window : Int) : Watched := ⟨New window, []⟩

/-- A sweep visits each outstanding ping once, in any order. -/
def step (s : Watched) : Event → Option Watched
  | .OnSent seq t => some { s with tracker := s.tracker.OnSent seq t }
  | .OnPong seq rtt => some
      { tracker := s.tracker.OnPong seq rtt
        finalized := s.finalized ++
          if (s.tracker.outstanding.lookup seq).isSome then [(seq, true)] else [] }
  | .Sweep now timeout visit =>
    if visit.Perm s.tracker.outstanding.keys then some
      { tracker := s.tracker.Sweep now timeout visit
        finalized := s.finalized ++ (visit.filter (s.tracker.expired now timeout)).map (·, false) }
    else none

end Watched

/-- What becomes of one ping. -/
inductive Ping where
  | unsent
  | outstanding (sent : Int)
  | final (received : Bool)
  deriving DecidableEq, Repr

/-- The ping goes out; its pong comes, or a sweep that is late enough. -/
def Ping.next (seq : Nat) : Ping → Event → Ping
  | .unsent, .OnSent seq' t => if seq' = seq then .outstanding t else .unsent
  | .outstanding sent, .OnPong seq' _ => if seq' = seq then .final true else .outstanding sent
  | .outstanding sent, .Sweep now timeout _ =>
    if timeout ≤ now - sent then .final false else .outstanding sent
  | p, _ => p

/-- The fate of the ping in a run: what came first after it was sent. -/
def fate (seq : Nat) (events : List Event) : Ping := events.foldl (Ping.next seq) .unsent

/-- The sequence numbers that go out. -/
def sentSeqs (events : List Event) : List Nat :=
  events.filterMap fun
    | .OnSent seq _ => some seq
    | _ => none

/-- The lost ones among the last outcomes, in percent, or -1 when there are none. -/
def lossOf (window : Nat) (outs : List Bool) : Rat :=
  let n : Nat := min outs.length window
  if outs.length = 0 then -1 else 100 * ((newest window outs).filter (!·)).length / n

theorem fate_concat (seq : Nat) (events : List Event) (e : Event) :
    fate seq (events ++ [e]) = (fate seq events).next seq e := by
  rw [fate, List.foldl_append]
  rfl

theorem fate_unsent (h : seq ∉ sentSeqs events) : fate seq events = .unsent := by
  induction events using List.reverseRecOn with
  | nil => rfl
  | append_singleton events e ih =>
    rw [sentSeqs, List.filterMap_append, List.mem_append, not_or] at h
    rw [fate_concat, ih h.1]
    cases e with
    | OnSent seq' t =>
      refine if_neg fun heq => h.2 ?_
      rw [heq]
      exact List.mem_singleton_self _
    | OnPong seq' rtt => rfl
    | Sweep now timeout visit => rfl

namespace Tracker

/-- Where the next result goes once the ring is full. -/
def head (q : Tracker) : Nat := if q.window ≤ q.ridx then 0 else q.ridx

/-- The ring after some outcomes: it holds the newest of them, and the index stays at the sentinel
until the ring is full. -/
structure Holds (q : Tracker) (outs : List Bool) : Prop where
  room : 0 < q.window
  ring : unrolled q.results q.head = newest q.window outs
  sentinel : q.results.length < q.window → q.ridx = q.window

theorem Holds.length {q : Tracker} (h : q.Holds outs) :
    q.results.length = min outs.length q.window := by
  have hlen := congrArg List.length h.ring
  rw [length_newest, unrolled, List.length_append, List.length_drop, List.length_take] at hlen
  omega

theorem Holds.pushResult {q : Tracker} (h : q.Holds outs) (received : Bool) :
    (q.pushResult received).Holds (outs ++ [received]) := by
  have hroom := h.room
  have hlen := h.length
  unfold Tracker.pushResult
  by_cases hgrow : q.results.length < q.window
  · -- the ring grows, and is unrolled as it is
    have hhead : q.head = 0 := if_pos (Nat.le_of_eq (h.sentinel hgrow).symm)
    have hring := h.ring
    rw [hhead, unrolled, List.drop_zero, List.take_zero, List.append_nil,
      newest_of_le (by omega)] at hring
    have hall : newest q.window (outs ++ [received]) = outs ++ [received] :=
      newest_of_le (by rw [List.length_append, List.length_singleton]; omega)
    rw [if_pos hgrow]
    refine ⟨hroom, ?_, fun _ => h.sentinel hgrow⟩
    have hhead' : head { q with results := q.results ++ [received] } = 0 := hhead
    rw [hhead', hall, ← hring, unrolled, List.drop_zero, List.take_zero, List.append_nil]
  · have hfull : q.results.length = q.window := by omega
    have hhead : q.head < q.results.length := by
      unfold head
      split <;> omega
    have hnext : head { q with results := q.results.set q.head received, ridx := q.head + 1 } =
        (q.head + 1) % q.results.length := by
      rw [hfull]
      by_cases hwrap : q.window ≤ q.head + 1
      · have hzero : (q.head + 1) % q.window = 0 := by
          rw [show q.head + 1 = q.window by omega, Nat.mod_self]
        rw [hzero]
        exact if_pos hwrap
      · rw [Nat.mod_eq_of_lt (by omega)]
        exact if_neg hwrap
    rw [if_neg hgrow]
    refine ⟨hroom, ?_, fun hlt => ?_⟩
    · rw [newest_full hroom (by omega), ← h.ring, ← unrolled_set hhead, ← hnext]
      rfl
    · rw [List.length_set] at hlt
      exact absurd hlt hgrow

@[simp] theorem pushResult_outstanding (q : Tracker) (received : Bool) :
    (q.pushResult received).outstanding = q.outstanding := by
  unfold pushResult
  split <;> rfl

@[simp] theorem pushResult_window (q : Tracker) (received : Bool) :
    (q.pushResult received).window = q.window := by
  unfold pushResult
  split <;> rfl

theorem Holds.frame {q q' : Tracker} (h : q.Holds outs) (hresults : q'.results = q.results)
    (hridx : q'.ridx = q.ridx) (hwindow : q'.window = q.window) : q'.Holds outs := by
  obtain ⟨room, ring, sentinel⟩ := h
  refine ⟨by rwa [hwindow], ?_, ?_⟩
  · rw [head, hresults, hridx, hwindow]
    exact ring
  · rw [hresults, hridx, hwindow]
    exact sentinel

theorem sweep_lookup (q : Tracker) (now timeout : Int) (seq k : Nat) :
    (sweep now timeout q seq).outstanding.lookup k =
      if k = seq ∧ q.expired now timeout seq then none else q.outstanding.lookup k := by
  unfold sweep expired
  cases hseq : q.outstanding.lookup seq with
  | none => exact (if_neg fun h => Bool.false_ne_true h.2).symm
  | some sent =>
    simp only [Option.any_some, decide_eq_true_eq]
    by_cases hold : timeout ≤ now - sent
    · rw [if_pos hold, pushResult_outstanding]
      by_cases hk : k = seq
      · rw [if_pos ⟨hk, hold⟩, hk, AList.lookup_erase]
      · rw [if_neg fun h => hk h.1, AList.lookup_erase_ne hk]
    · rw [if_neg hold, if_neg fun h => hold h.2]

theorem Holds.sweep {q : Tracker} (h : q.Holds outs) (now timeout : Int) (seq : Nat) :
    (Tracker.sweep now timeout q seq).Holds
      (outs ++ if q.expired now timeout seq then [false] else []) := by
  unfold Tracker.sweep expired
  cases q.outstanding.lookup seq with
  | none => exact (List.append_nil outs).symm ▸ h
  | some sent =>
    simp only [Option.any_some, decide_eq_true_eq]
    split
    · have hmap : ({ q with outstanding := q.outstanding.erase seq } : Tracker).Holds outs :=
        h.frame rfl rfl rfl
      exact hmap.pushResult false
    · exact (List.append_nil outs).symm ▸ h

theorem sweep_window (q : Tracker) (now timeout : Int) (seq : Nat) :
    (sweep now timeout q seq).window = q.window := by
  unfold sweep
  split
  · rfl
  · split
    · exact pushResult_window _ _
    · rfl

theorem sweep_expired (q : Tracker) (now timeout : Int) (seq k : Nat)
    (h : ¬(k = seq ∧ q.expired now timeout seq = true)) :
    (sweep now timeout q seq).expired now timeout k = q.expired now timeout k := by
  rw [expired, sweep_lookup, if_neg h, ← expired]

theorem Sweep_lookup (q : Tracker) (now timeout : Int) (visit : List Nat) (k : Nat) :
    (q.Sweep now timeout visit).outstanding.lookup k =
      if k ∈ visit ∧ q.expired now timeout k then none else q.outstanding.lookup k := by
  induction visit generalizing q with
  | nil => exact (if_neg fun h => List.not_mem_nil h.1).symm
  | cons seq visit ih =>
    rw [Sweep, List.foldl_cons, ← Sweep, ih, sweep_lookup]
    by_cases hgone : k = seq ∧ q.expired now timeout seq = true
    · rw [if_pos hgone, ite_self]
      obtain ⟨rfl, hold⟩ := hgone
      exact (if_pos ⟨List.mem_cons_self, hold⟩).symm
    · rw [sweep_expired q now timeout seq k hgone, if_neg hgone]
      refine if_congr ?_ rfl rfl
      rw [List.mem_cons]
      constructor
      · rintro ⟨hk, hold⟩
        exact ⟨.inr hk, hold⟩
      · rintro ⟨rfl | hk, hold⟩
        · exact absurd ⟨rfl, hold⟩ hgone
        · exact ⟨hk, hold⟩

theorem Holds.Sweep {q : Tracker} (h : q.Holds outs) (now timeout : Int) {visit : List Nat}
    (hvisit : visit.Nodup) : (q.Sweep now timeout visit).Holds
      (outs ++ (visit.filter (q.expired now timeout)).map fun _ => false) := by
  induction visit generalizing q outs with
  | nil => exact (List.append_nil outs).symm ▸ h
  | cons seq visit ih =>
    obtain ⟨hseq, hvisit⟩ := List.nodup_cons.1 hvisit
    have hrest := ih (h.sweep now timeout seq) hvisit
    have hexp : visit.filter ((Tracker.sweep now timeout q seq).expired now timeout) =
        visit.filter (q.expired now timeout) :=
      List.filter_congr fun k hk =>
        sweep_expired q now timeout seq k fun h => hseq (h.1 ▸ hk)
    rw [hexp, List.append_assoc] at hrest
    rw [List.filter_cons]
    split
    · rename_i hold
      rw [if_pos hold] at hrest
      exact hrest
    · rename_i hold
      rw [if_neg hold] at hrest
      exact hrest

theorem Sweep_window (q : Tracker) (now timeout : Int) (visit : List Nat) :
    (q.Sweep now timeout visit).window = q.window := by
  induction visit generalizing q with
  | nil => rfl
  | cons seq visit ih =>
    rw [Sweep, List.foldl_cons, ← Sweep, ih, sweep_window]

theorem OnPong_some {q : Tracker} (h : q.outstanding.lookup seq = some sent) (rtt : Int) :
    q.OnPong seq rtt =
      ({ q with outstanding := q.outstanding.erase seq }.pushResult true).sampleJitter rtt := by
  rw [OnPong, h]

theorem OnPong_none {q : Tracker} (h : q.outstanding.lookup seq = none) (rtt : Int) :
    q.OnPong seq rtt = q := by
  rw [OnPong, h]

end Tracker

/-- What the tracker and the log of finalized pings have to do with the fates of the pings. -/
structure Traced (window : Nat) (events : List Event) (s : Watched) : Prop where
  window : s.tracker.window = window
  ring : s.tracker.Holds (s.finalized.map (·.2))
  outstanding : ∀ k t, s.tracker.outstanding.lookup k = some t ↔ fate k events = .outstanding t
  finals : ∀ k received, (k, received) ∈ s.finalized ↔ fate k events = .final received
  once : (s.finalized.map (·.1)).Nodup

theorem traced_new (window : Int) : Traced (windowOf window) [] (.new window) where
  window := rfl
  ring := by
    refine ⟨?_, ?_, fun _ => rfl⟩
    · change 0 < windowOf window
      unfold windowOf DefaultWindow
      split <;> omega
    · rw [Watched.new, New]
      simp only [unrolled, List.drop_nil, List.take_nil, newest, List.map_nil, List.append_nil]
  outstanding k t := by
    refine iff_of_false (fun h => ?_) (fun h => ?_)
    · cases h
    · cases h
  finals k received := by
    refine iff_of_false List.not_mem_nil fun h => ?_
    cases h
  once := List.nodup_nil

theorem Traced.finalize (h : Traced w events s) {e : Event} {q : Tracker} {news : List (Nat × Bool)}
    (hwindow : q.window = s.tracker.window)
    (hring : q.Holds ((s.finalized ++ news).map (·.2)))
    (hnodup : (news.map (·.1)).Nodup)
    (hgone : ∀ k received, (k, received) ∈ news →
      ∃ t, s.tracker.outstanding.lookup k = some t ∧ (Ping.outstanding t).next k e = .final
        received)
    (hkept : ∀ k t, s.tracker.outstanding.lookup k = some t → k ∉ news.map (·.1) →
      (Ping.outstanding t).next k e = .outstanding t)
    (hlookup : ∀ k, q.outstanding.lookup k =
      if k ∈ news.map (·.1) then none else s.tracker.outstanding.lookup k)
    (hsent : ∀ k, Ping.unsent.next k e = .unsent) :
    Traced w (events ++ [e]) ⟨q, s.finalized ++ news⟩ := by
  have hmem {k : Nat} {received : Bool} (hk : (k, received) ∈ news) : k ∈ news.map (·.1) :=
    List.mem_map_of_mem hk
  have hold {k : Nat} (hk : k ∈ news.map (·.1)) :
      ∃ received t, (k, received) ∈ news ∧ fate k events = .outstanding t ∧
        (Ping.outstanding t).next k e = .final received := by
    obtain ⟨⟨k, received⟩, hnew, rfl⟩ := List.mem_map.1 hk
    obtain ⟨t, ht, hnext⟩ := hgone k received hnew
    exact ⟨received, t, hnew, (h.outstanding k t).1 ht, hnext⟩
  refine ⟨hwindow.trans h.window, hring, fun k t => ?_, fun k received => ?_, ?_⟩
  · rw [hlookup, fate_concat]
    by_cases hk : k ∈ news.map (·.1)
    · obtain ⟨received, t', -, hfate, hnext⟩ := hold hk
      rw [if_pos hk, hfate, hnext]
      exact iff_of_false (Option.some_ne_none t).symm Ping.noConfusion
    · rw [if_neg hk, h.outstanding]
      cases hfate : fate k events with
      | unsent => rw [hsent]
      | outstanding t' => rw [hkept k t' ((h.outstanding k t').2 hfate) hk]
      | final received => exact Iff.rfl
  · rw [List.mem_append, h.finals, fate_concat]
    by_cases hk : k ∈ news.map (·.1)
    · obtain ⟨received', t, hk', hfate, hnext⟩ := hold hk
      rw [hfate, hnext]
      constructor
      · rintro (hfinal | hk'')
        · cases hfinal
        · obtain ⟨t', ht', hnext'⟩ := hgone k received hk''
          rw [(h.outstanding k t').1 ht'] at hfate
          cases hfate
          exact hnext.symm.trans hnext'
      · intro heq
        cases heq
        exact .inr hk'
    · have hnone : (k, received) ∉ news := fun hk' => hk (hmem hk')
      rw [or_iff_left hnone]
      cases hfate : fate k events with
      | unsent => rw [hsent]
      | outstanding t => rw [hkept k t ((h.outstanding k t).2 hfate) hk]
      | final received => exact Iff.rfl
  · rw [List.map_append, List.nodup_append']
    refine ⟨h.once, hnodup, fun k hk hk' => ?_⟩
    obtain ⟨⟨k, received⟩, hold', rfl⟩ := List.mem_map.1 hk
    obtain ⟨received', t, -, hfate, -⟩ := hold hk'
    rw [(h.finals k received).1 hold'] at hfate
    cases hfate

theorem Traced.sent (h : Traced w events s) (hfresh : seq ∉ sentSeqs events) (t : Int) :
    Traced w (events ++ [.OnSent seq t]) ⟨s.tracker.OnSent seq t, s.finalized⟩ := by
  refine ⟨h.window, h.ring.frame rfl rfl rfl, fun k t' => ?_, fun k received => ?_, h.once⟩
  · rw [fate_concat, Tracker.OnSent]
    by_cases hk : k = seq
    · subst hk
      rw [AList.lookup_insert, fate_unsent hfresh, Ping.next, if_pos rfl, Option.some.injEq,
        Ping.outstanding.injEq]
    · rw [AList.lookup_insert_ne hk, h.outstanding]
      cases fate k events with
      | unsent => rw [Ping.next, if_neg (Ne.symm hk)]
      | outstanding sent => exact Iff.rfl
      | final received => exact Iff.rfl
  · rw [fate_concat, h.finals]
    by_cases hk : k = seq
    · subst hk
      rw [fate_unsent hfresh, Ping.next, if_pos rfl]
      exact iff_of_false Ping.noConfusion Ping.noConfusion
    · cases fate k events with
      | unsent => rw [Ping.next, if_neg (Ne.symm hk)]
      | outstanding sent => exact Iff.rfl
      | final received => exact Iff.rfl

theorem Traced.pong (h : Traced w events s) (hs : s.step (.OnPong seq rtt) = some t) :
    Traced w (events ++ [.OnPong seq rtt]) t := by
  cases hs
  cases hseq : s.tracker.outstanding.lookup seq with
  | none =>
    rw [s.tracker.OnPong_none hseq]
    refine h.finalize rfl ?_ List.nodup_nil ?_ ?_ ?_ fun k => rfl
    · rw [Option.isSome_none, if_neg Bool.false_ne_true, List.append_nil]
      exact h.ring
    · exact fun k received hk => absurd hk List.not_mem_nil
    · intro k sent hk _
      refine if_neg fun heq => ?_
      rw [heq, hk] at hseq
      cases hseq
    · exact fun k => (if_neg List.not_mem_nil).symm
  | some sent =>
    rw [Tracker.OnPong_some hseq]
    refine h.finalize ?_ ?_ (List.nodup_singleton _) ?_ ?_ ?_ fun k => rfl
    · exact Tracker.pushResult_window _ _
    · rw [List.map_append]
      have hmap : ({ s.tracker with outstanding := s.tracker.outstanding.erase seq } :
          Tracker).Holds (s.finalized.map (·.2)) := h.ring.frame rfl rfl rfl
      exact (hmap.pushResult true).frame rfl rfl rfl
    · intro k received hk
      cases List.mem_singleton.1 hk
      exact ⟨sent, hseq, if_pos rfl⟩
    · exact fun k sent' _ hk => if_neg fun heq => hk (List.mem_singleton.2 heq.symm)
    · intro k
      change (AList.lookup k (Tracker.pushResult _ true).outstanding) =
        if k ∈ [seq] then none else _
      rw [Tracker.pushResult_outstanding]
      by_cases hk : k = seq
      · rw [hk, AList.lookup_erase, if_pos (List.mem_singleton_self _)]
      · rw [AList.lookup_erase_ne hk, if_neg fun hmem => hk (List.mem_singleton.1 hmem)]

theorem Traced.sweep (h : Traced w events s) (hs : s.step (.Sweep now timeout visit) = some t) :
    Traced w (events ++ [.Sweep now timeout visit]) t := by
  simp only [Watched.step] at hs
  split at hs
  · rename_i hperm
    cases hs
    have hnodup : visit.Nodup := hperm.nodup_iff.2 s.tracker.outstanding.keys_nodup
    have hkeys : ((visit.filter (s.tracker.expired now timeout)).map (·, false)).map (·.1) =
        visit.filter (s.tracker.expired now timeout) := by
      rw [List.map_map]
      exact List.map_id _
    have hvisit {k : Nat} {sent : Int} (hk : s.tracker.outstanding.lookup k = some sent) :
        k ∈ visit := by
      refine hperm.mem_iff.2 (AList.mem_keys.1 (AList.lookup_isSome.1 ?_))
      rw [hk]
      rfl
    refine h.finalize ?_ ?_ ?_ ?_ ?_ ?_ fun k => rfl
    · exact Tracker.Sweep_window _ _ _ _
    · rw [List.map_append, List.map_map]
      exact h.ring.Sweep now timeout hnodup
    · rw [hkeys]
      exact hnodup.filter _
    · intro k received hk
      obtain ⟨k, hmem, heq⟩ := List.mem_map.1 hk
      cases heq
      obtain ⟨-, hold⟩ := List.mem_filter.1 hmem
      obtain ⟨sent, hsent, hlate⟩ := (Option.any_eq_true _ _).1 hold
      exact ⟨sent, hsent, if_pos (of_decide_eq_true hlate)⟩
    · intro k sent hk hnot
      rw [hkeys, List.mem_filter] at hnot
      refine if_neg fun hlate => hnot ⟨hvisit hk, ?_⟩
      exact (Option.any_eq_true _ _).2 ⟨sent, hk, decide_eq_true hlate⟩
    · intro k
      rw [Tracker.Sweep_lookup, hkeys]
      exact if_congr List.mem_filter.symm rfl rfl
  · cases hs

theorem Traced.step (h : Traced w events s) (hs : s.step e = some t)
    (hfresh : (sentSeqs (events ++ [e])).Nodup) : Traced w (events ++ [e]) t := by
  cases e with
  | OnSent seq sent =>
    cases hs
    refine h.sent (fun hmem => ?_) sent
    rw [sentSeqs, List.filterMap_append] at hfresh
    exact List.disjoint_of_nodup_append hfresh hmem (List.mem_singleton_self _)
  | OnPong seq rtt => exact h.pong hs
  | Sweep now timeout visit => exact h.sweep hs

theorem Traced.run (h : Traced w events s) (hr : Runs.Reaches Watched.step s more t)
    (hfresh : (sentSeqs (events ++ more)).Nodup) : Traced w (events ++ more) t := by
  induction hr generalizing events with
  | nil =>
    rw [List.append_nil]
    exact h
  | @cons s e s' more t hs _ ih =>
    rw [List.append_cons] at hfresh ⊢
    refine ih (h.step hs ?_) hfresh
    rw [sentSeqs, List.filterMap_append] at hfresh
    exact (List.nodup_append.1 hfresh).1

theorem Tracker.Holds.lossPct {q : Tracker} (h : q.Holds outs) :
    q.LossPct = lossOf q.window outs := by
  have hroom := h.room
  have hperm : q.results.Perm (newest q.window outs) := by
    rw [← h.ring, unrolled]
    refine List.Perm.trans ?_ List.perm_append_comm
    rw [List.take_append_drop]
  have hlost := (hperm.filter (!·)).length_eq
  rw [LossPct, ProxyForward.Tracker.LossPct, outcomes, lossOf]
  simp only [hlost, h.length]
  exact if_congr (by omega) rfl rfl

/-- Every ping is finalized once at most, by its pong or by the first sweep that finds it too old,
and the loss is that of the last pings finalized, as many as the window has room for. -/
theorem loss_over_window (window : Int) (hd : (sentSeqs events).Nodup)
    (hr : Runs.Reaches Watched.step (.new window) events s) :
    (s.finalized.map (·.1)).Nodup ∧
    (∀ seq received, (seq, received) ∈ s.finalized ↔ fate seq events = .final received) ∧
    s.tracker.LossPct = lossOf (windowOf window) (s.finalized.map (·.2)) := by
  have htraced := (traced_new window).run hr hd
  have hloss := htraced.ring.lossPct
  rw [htraced.window] at hloss
  exact ⟨htraced.once, htraced.finals, hloss⟩

/-- A late pong after a sweep, a duplicate and an unknown one change nothing. -/
theorem loss_over_window_swept :
    let events := [.OnSent 1 0, .OnSent 2 5, .OnPong 2 3, .OnPong 2 3, .Sweep 12 10 [1],
      .OnPong 1 12, .OnPong 7 1]
    (sentSeqs events).Nodup ∧ ∃ s, Runs.Reaches Watched.step (.new 1) events s ∧
      (s.finalized.map (·.1)).Nodup ∧
      (∀ seq received, (seq, received) ∈ s.finalized ↔ fate seq events = .final received) ∧
      s.tracker.LossPct = lossOf (windowOf 1) (s.finalized.map (·.2)) := by
  intro events
  obtain ⟨s, hs⟩ : ∃ s, Runs.final Watched.step (.new 1) events = some s := ⟨_, rfl⟩
  have hr := Runs.reaches_of_final hs
  exact ⟨by decide, s, hr, loss_over_window 1 (by decide) hr⟩

end ProxyForward.LinkQuality

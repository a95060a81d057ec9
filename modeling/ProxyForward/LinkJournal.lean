import Mathlib.Data.Finset.Card
import ProxyForward.Runs
import ProxyForward.Uptime

namespace ProxyForward
set_option autoImplicit true

/-- An admitted agent session, as far as the link status shows it. `ptr` is the session object. -/
structure LinkSession where
  ptr : Nat
  agentID : String
  connectedAt : Int
  deriving DecidableEq, Repr

/-- The sole connected session, or none when there are zero or several. -/
def soleSession : List LinkSession → Option LinkSession
  | [s] => some s
  | _ => none

def agentLinkUpSinceMs (ss : List LinkSession) : Int :=
  match soleSession ss with
  | some s => s.connectedAt
  | none => 0

def connectedAgentID (ss : List LinkSession) : String :=
  match soleSession ss with
  | some s => s.agentID
  | none => ""

/-- What the sampler asks at a tick: the agent's own link, or the sessions of a gateway. -/
inductive LinkSource
  | agent (agentID : String) (linkUpSinceMs : Int)
  | gateway (sessions : List LinkSession)
  deriving DecidableEq, Repr

def LinkSource.upSince : LinkSource → Int
  | .agent _ upSince => upSince
  | .gateway ss => agentLinkUpSinceMs ss

def LinkSource.linkAgentID : LinkSource → String
  | .agent agentID _ => agentID
  | .gateway ss => connectedAgentID ss

/-- What `runSampler` keeps of the link between its ticks, and what it has recorded. -/
structure LinkSampler where
  prevUpSince : Int
  linkAgentID : String
  linkSessions : Nat
  journal : List EventRow
  deriving DecidableEq, Repr

def LinkSampler.record (s : LinkSampler) (now : Int) (up : Bool) : LinkSampler :=
  { s with journal := recordEventAt s.journal now eventLink s.linkAgentID "" up }

def LinkSampler.sessionStarted (s : LinkSampler) (agentID : String) : LinkSampler :=
  { s with linkAgentID := agentID, linkSessions := s.linkSessions + 1 }

def LinkSampler.sessionEnded (s : LinkSampler) (now : Int) : LinkSampler :=
  if s.prevUpSince ≠ 0 then s.record now false else s

def LinkSampler.tick (s : LinkSampler) (now : Int) (src : LinkSource) : LinkSampler :=
  let upSince := src.upSince
  let s' :=
    if upSince ≠ s.prevUpSince then
      let s' := s.sessionEnded now
      if upSince ≠ 0 then (s'.sessionStarted src.linkAgentID).record now true else s'
    else s
  { s' with prevUpSince := upSince }

/-- What the last link row of an agent says; an agent without one is down. -/
def linkUp (journal : List EventRow) (agentID : String) : Bool :=
  ((journal.filter fun r => r.kind = eventLink ∧ r.agentID = agentID).getLast?.map EventRow.up).getD
    false

/-- A gateway and its sampler. `observed` are the sessions at the last tick and `seen` those of all
ticks. -/
structure LinkRun where
  live : List LinkSession
  next : Nat
  sampler : LinkSampler
  observed : List LinkSession
  seen : Finset LinkSession

/-- The gateway keeps one session for each agent id; a new one takes the place of the old. -/
inductive LinkStep
  | connect (agentID : String) (connectedAt : Int)
  | disconnect (ptr : Nat)
  | tick (now : Int)
  deriving DecidableEq, Repr

namespace LinkRun

def start : LinkRun := ⟨[], 0, ⟨0, "", 0, []⟩, [], ∅⟩

def step (s : LinkRun) : LinkStep → Option LinkRun
  | .connect agentID connectedAt => some { s with
      live := ⟨s.next, agentID, connectedAt⟩ :: s.live.filter fun x => x.agentID ≠ agentID
      next := s.next + 1 }
  | .disconnect ptr => some { s with live := s.live.filter fun x => x.ptr ≠ ptr }
  | .tick now => some { s with
      sampler := s.sampler.tick now (.gateway s.live)
      observed := s.live
      seen := s.live.toFinset ∪ s.seen }

/-- The journal's last word on each agent and the session counter tell what the ticks have seen. -/
def Faithful (s : LinkRun) : Prop :=
  (∀ agentID, linkUp s.sampler.journal agentID = true ↔ ∃ x ∈ s.observed, x.agentID = agentID) ∧
    s.sampler.linkSessions = s.seen.card

/-- At a tick there is at most one session; it does not carry the connect time 0, nor that of
another session that the previous tick saw. -/
def OneLink (s : LinkRun) : LinkStep → Prop
  | .tick _ => s.live.length ≤ 1 ∧
      ∀ x ∈ s.live, x.connectedAt ≠ 0 ∧ ∀ y ∈ s.observed, y ≠ x → y.connectedAt ≠ x.connectedAt
  | .connect .. | .disconnect _ => True

end LinkRun

theorem linkUp_record (s : LinkSampler) (now : Int) (up : Bool) (agentID : String) :
    linkUp (s.record now up).journal agentID =
      if agentID = s.linkAgentID then up else linkUp s.journal agentID := by
  unfold linkUp LinkSampler.record recordEventAt
  rw [List.filter_append]
  split
  · rename_i h
    subst h
    simp
  · rename_i h
    simp [Ne.symm h]

theorem tick_same {s : LinkSampler} (src : LinkSource) (h : src.upSince = s.prevUpSince)
    (now : Int) :
    s.tick now src = s := by
  simp only [LinkSampler.tick, h, ne_eq, not_true_eq_false, if_false]

theorem linkUp_sessionEnded (s : LinkSampler) (now : Int) (agentID : String) :
    linkUp (s.sessionEnded now).journal agentID =
      if s.prevUpSince ≠ 0 ∧ agentID = s.linkAgentID then false else linkUp s.journal agentID := by
  unfold LinkSampler.sessionEnded
  by_cases hp : s.prevUpSince = 0
  · simp only [hp, ne_eq, not_true_eq_false, false_and, if_false]
  · simp only [hp, ne_eq, not_false_eq_true, true_and, if_true, linkUp_record]

theorem sessionEnded_linkSessions (s : LinkSampler) (now : Int) :
    (s.sessionEnded now).linkSessions = s.linkSessions := by
  unfold LinkSampler.sessionEnded
  split <;> rfl

theorem linkUp_tick {s : LinkSampler} (src : LinkSource) (h : src.upSince ≠ s.prevUpSince)
    (now : Int) (agentID : String) :
    linkUp (s.tick now src).journal agentID =
      if src.upSince ≠ 0 ∧ agentID = src.linkAgentID then true
      else if s.prevUpSince ≠ 0 ∧ agentID = s.linkAgentID then false
      else linkUp s.journal agentID := by
  rw [← linkUp_sessionEnded s now agentID]
  simp only [LinkSampler.tick, if_pos h]
  by_cases hu : src.upSince = 0
  · simp only [hu, ne_eq, not_true_eq_false, false_and, if_false]
  · simp only [hu, ne_eq, not_false_eq_true, true_and, if_true, linkUp_record]
    rfl

theorem tick_changed {s : LinkSampler} (src : LinkSource) (h : src.upSince ≠ s.prevUpSince)
    (now : Int) :
    (src.upSince ≠ 0 → (s.tick now src).linkAgentID = src.linkAgentID) ∧
      (s.tick now src).linkSessions =
        if src.upSince ≠ 0 then s.linkSessions + 1 else s.linkSessions := by
  simp only [LinkSampler.tick, if_pos h]
  by_cases hu : src.upSince = 0
  · simp only [hu, ne_eq, not_true_eq_false, if_false, false_implies, true_and]
    exact sessionEnded_linkSessions s now
  · simp only [hu, ne_eq, not_false_eq_true, if_true]
    exact ⟨fun _ => rfl, congrArg (· + 1) (sessionEnded_linkSessions s now)⟩

namespace LinkRun

/-- What the sampler holds about the last tick, as long as each tick saw one session at most. -/
structure Inv (s : LinkRun) : Prop where
  faithful : s.Faithful
  fresh : ∀ x, x ∈ s.live ∨ x ∈ s.seen → x.ptr < s.next
  returns : ∀ x ∈ s.live, x ∈ s.seen → x ∈ s.observed
  observed : s.observed = [] ∧ s.sampler.prevUpSince = 0 ∨
    ∃ x, s.observed = [x] ∧ x ∈ s.seen ∧ x.connectedAt ≠ 0 ∧
      s.sampler.prevUpSince = x.connectedAt ∧ s.sampler.linkAgentID = x.agentID

variable {s t : LinkRun} {x y : LinkSession}

/-- What a tick makes of the sampler. -/
structure Ticked (s : LinkRun) (u : LinkSampler) : Prop where
  prev : u.prevUpSince = agentLinkUpSinceMs s.live
  same : agentLinkUpSinceMs s.live = s.sampler.prevUpSince → u = s.sampler
  up : agentLinkUpSinceMs s.live ≠ s.sampler.prevUpSince → ∀ agentID,
    linkUp u.journal agentID = true ↔
      agentLinkUpSinceMs s.live ≠ 0 ∧ connectedAgentID s.live = agentID
  agent : agentLinkUpSinceMs s.live ≠ s.sampler.prevUpSince → agentLinkUpSinceMs s.live ≠ 0 →
    u.linkAgentID = connectedAgentID s.live
  counted : agentLinkUpSinceMs s.live ≠ s.sampler.prevUpSince →
    u.linkSessions =
      if agentLinkUpSinceMs s.live ≠ 0 then s.sampler.linkSessions + 1 else s.sampler.linkSessions

theorem linkUp_changed (h : s.Inv) (hne : agentLinkUpSinceMs s.live ≠ s.sampler.prevUpSince)
    (now : Int)
    (agentID : String) :
    linkUp (s.sampler.tick now (.gateway s.live)).journal agentID = true ↔
      agentLinkUpSinceMs s.live ≠ 0 ∧ connectedAgentID s.live = agentID := by
  have hrest : ¬(s.sampler.prevUpSince ≠ 0 ∧ agentID = s.sampler.linkAgentID) →
      ¬linkUp s.sampler.journal agentID = true := by
    intro hno hup
    obtain ⟨y, hy, rfl⟩ := (h.faithful.1 agentID).1 hup
    obtain ⟨hnil, -⟩ | ⟨x, hx, -, hpos, hprev, hagent⟩ := h.observed
    · rw [hnil] at hy
      exact List.not_mem_nil hy
    · rw [hx, List.mem_singleton] at hy
      subst hy
      exact hno ⟨hprev ▸ hpos, hagent.symm⟩
  have htick : linkUp (s.sampler.tick now (.gateway s.live)).journal agentID =
      if agentLinkUpSinceMs s.live ≠ 0 ∧ agentID = connectedAgentID s.live then true
      else if s.sampler.prevUpSince ≠ 0 ∧ agentID = s.sampler.linkAgentID then false
      else linkUp s.sampler.journal agentID :=
    linkUp_tick (.gateway s.live) hne now agentID
  rw [htick]
  by_cases hup : agentLinkUpSinceMs s.live ≠ 0 ∧ agentID = connectedAgentID s.live
  · exact iff_of_true (if_pos hup) ⟨hup.1, hup.2.symm⟩
  · refine iff_of_false (fun hu => ?_) fun hu => hup ⟨hu.1, hu.2.symm⟩
    rw [if_neg hup] at hu
    by_cases hno : s.sampler.prevUpSince ≠ 0 ∧ agentID = s.sampler.linkAgentID
    · rw [if_pos hno] at hu
      cases hu
    · rw [if_neg hno] at hu
      exact hrest hno hu

theorem Inv.ticked (h : s.Inv) (now : Int) : s.Ticked (s.sampler.tick now (.gateway s.live)) where
  prev := rfl
  same hsame := tick_same (.gateway s.live) hsame now
  up hne := linkUp_changed h hne now
  agent hne := (tick_changed (.gateway s.live) hne now).1
  counted hne := (tick_changed (.gateway s.live) hne now).2

theorem not_seen (h : s.Inv) (hy : y ∈ s.live) (hne : y ∉ s.observed) : y ∉ s.seen :=
  fun hseen => hne (h.returns y hy hseen)

theorem Inv.connect (h : s.Inv) (hs : s.step (.connect agentID connectedAt) = some t) : t.Inv := by
  cases hs
  refine ⟨h.faithful, fun x hx => ?_, fun x hx hseen => ?_, h.observed⟩
  · obtain hx | hx := hx
    · obtain rfl | hx := List.mem_cons.1 hx
      · exact Nat.lt_succ_self _
      · exact Nat.lt_succ_of_lt (h.fresh x (.inl (List.mem_of_mem_filter hx)))
    · exact Nat.lt_succ_of_lt (h.fresh x (.inr hx))
  · obtain rfl | hx := List.mem_cons.1 hx
    · exact absurd (h.fresh _ (.inr hseen)) (lt_irrefl _)
    · exact h.returns x (List.mem_of_mem_filter hx) hseen

theorem Inv.disconnect (h : s.Inv) (hs : s.step (.disconnect ptr) = some t) : t.Inv := by
  cases hs
  refine ⟨h.faithful, fun x hx => h.fresh x (hx.imp_left List.mem_of_mem_filter), fun x hx => ?_,
    h.observed⟩
  exact h.returns x (List.mem_of_mem_filter hx)

theorem soleSession_cases (ss : List LinkSession) :
    (∃ x, ss = [x] ∧ agentLinkUpSinceMs ss = x.connectedAt ∧ connectedAgentID ss = x.agentID) ∨
      agentLinkUpSinceMs ss = 0 ∧ (ss.length ≤ 1 → ss = []) := by
  match ss with
  | [] => exact .inr ⟨rfl, fun _ => rfl⟩
  | [x] => exact .inl ⟨x, rfl, rfl, rfl⟩
  | x :: y :: ss => exact .inr ⟨rfl, fun h => absurd h (by simp)⟩

theorem observed_of_same (h : s.Inv) (hone : s.OneLink (.tick now))
    (hsame : agentLinkUpSinceMs s.live = s.sampler.prevUpSince) : s.live = s.observed := by
  obtain ⟨hle, hlive⟩ := hone
  obtain ⟨x, hx, hup, -⟩ | ⟨hzero, hnil⟩ := soleSession_cases s.live
  · obtain ⟨hpos, hother⟩ := hlive x (hx ▸ List.mem_cons_self)
    obtain ⟨-, hprev⟩ | ⟨y, hy, -, -, hprev, -⟩ := h.observed
    · exact absurd (hup.symm.trans (hsame.trans hprev)) hpos
    · have hyx : y = x := by
        by_contra hne
        exact hother y (hy ▸ List.mem_cons_self) hne (hprev.symm.trans (hsame.symm.trans hup))
      rw [hx, hy, hyx]
  · obtain ⟨hobs, -⟩ | ⟨y, -, -, hpos, hprev, -⟩ := h.observed
    · rw [hnil hle, hobs]
    · exact absurd (hprev.symm.trans (hsame.symm.trans hzero)) hpos

theorem seen_of_observed (h : s.Inv) (hx : x ∈ s.observed) : x ∈ s.seen := by
  obtain ⟨hnil, -⟩ | ⟨y, hy, hseen, -⟩ := h.observed
  · rw [hnil] at hx
    exact absurd hx List.not_mem_nil
  · rw [hy, List.mem_singleton] at hx
    exact hx ▸ hseen

theorem not_seen_of_changed (h : s.Inv) (hx : s.live = [x])
    (hup : agentLinkUpSinceMs s.live = x.connectedAt)
    (hne : agentLinkUpSinceMs s.live ≠ s.sampler.prevUpSince) : x ∉ s.seen := by
  refine not_seen h (hx ▸ List.mem_cons_self) fun hobs => hne ?_
  obtain ⟨hnil, -⟩ | ⟨y, hy, -, -, hprev, -⟩ := h.observed
  · rw [hnil] at hobs
    exact absurd hobs List.not_mem_nil
  · rw [hy, List.mem_singleton] at hobs
    rw [hup, hprev, hobs]

theorem Inv.tick (h : s.Inv) (hs : s.step (.tick now) = some t) (hone : s.OneLink (.tick now)) :
    t.Inv := by
  have hticked := h.ticked now
  cases hs
  generalize s.sampler.tick now (.gateway s.live) = u at hticked ⊢
  obtain ⟨hprev, hsame, hup, hagent, hcount⟩ := hticked
  have hfresh : ∀ x, x ∈ s.live ∨ x ∈ s.live.toFinset ∪ s.seen → x.ptr < s.next := by
    intro x hx
    simp only [Finset.mem_union, List.mem_toFinset] at hx
    exact h.fresh x (hx.elim .inl id)
  by_cases hchange : agentLinkUpSinceMs s.live = s.sampler.prevUpSince
  · obtain rfl := hsame hchange
    have hobs := observed_of_same h hone hchange
    have hseen : s.live.toFinset ∪ s.seen = s.seen := by
      refine Finset.union_eq_right.2 fun x hx => ?_
      exact seen_of_observed h (hobs ▸ List.mem_toFinset.1 hx)
    rw [hseen] at hfresh ⊢
    rw [hobs]
    refine ⟨h.faithful, hobs ▸ hfresh, fun _ hx _ => hx, h.observed⟩
  · obtain ⟨hle, hlive⟩ := hone
    obtain ⟨x, hx, hupx, hid⟩ | ⟨hzero, hnil⟩ := soleSession_cases s.live
    · obtain ⟨hpos, -⟩ := hlive x (hx ▸ List.mem_cons_self)
      have hpos' : agentLinkUpSinceMs s.live ≠ 0 := hupx ▸ hpos
      have hseen : s.live.toFinset ∪ s.seen = insert x s.seen := by
        rw [hx, List.toFinset_cons, List.toFinset_nil, insert_empty_eq, Finset.singleton_union]
      refine ⟨⟨fun agentID => (hup hchange agentID).trans ?_, ?_⟩, hfresh, fun _ hz _ => hz, ?_⟩
      · rw [hid]
        constructor
        · rintro ⟨-, ha⟩
          exact ⟨x, hx ▸ List.mem_cons_self, ha⟩
        · rintro ⟨z, hz, ha⟩
          obtain rfl := List.mem_singleton.1 (hx ▸ hz)
          exact ⟨hpos', ha⟩
      · rw [hcount hchange, if_pos hpos', hseen, h.faithful.2,
          Finset.card_insert_of_notMem (not_seen_of_changed h hx hupx hchange)]
      · exact .inr ⟨x, hx, hseen ▸ Finset.mem_insert_self x _, hpos, hprev.trans hupx,
          (hagent hchange hpos').trans hid⟩
    · have hnil := hnil hle
      have hseen : s.live.toFinset ∪ s.seen = s.seen := by
        rw [hnil, List.toFinset_nil, Finset.empty_union]
      refine ⟨⟨fun agentID => (hup hchange agentID).trans ?_, ?_⟩, hfresh, fun _ hz _ => hz,
        .inl ⟨hnil, hprev.trans hzero⟩⟩
      · refine iff_of_false (fun hu => hu.1 hzero) ?_
        rintro ⟨z, hz, -⟩
        exact List.not_mem_nil (hnil ▸ hz)
      · rw [hcount hchange, if_neg (not_not.2 hzero), hseen, h.faithful.2]

theorem oneLink_of_same (h : s.Inv) (hsame : agentLinkUpSinceMs s.live = s.sampler.prevUpSince)
    (hcard : s.sampler.linkSessions = (s.live.toFinset ∪ s.seen).card) : s.OneLink (.tick now) := by
  have hsub : ∀ x ∈ s.live, x ∈ s.observed := by
    rw [h.faithful.2] at hcard
    have heq := Finset.eq_of_subset_of_card_le Finset.subset_union_right hcard.ge
    exact fun x hx => h.returns x hx (heq ▸ Finset.mem_union_left _ (List.mem_toFinset.2 hx))
  obtain ⟨hnil, -⟩ | ⟨y, hy, -, hpos, hprev, -⟩ := h.observed
  · have hlive : s.live = [] := by
      refine List.eq_nil_iff_forall_not_mem.2 fun x hx => ?_
      exact List.not_mem_nil (hnil ▸ hsub x hx)
    refine ⟨by rw [hlive]; exact Nat.zero_le 1, fun x hx => ?_⟩
    exact absurd (hlive ▸ hx) List.not_mem_nil
  · obtain ⟨x, hx, -, -⟩ | ⟨hzero, -⟩ := soleSession_cases s.live
    · obtain rfl : x = y := List.mem_singleton.1 (hy ▸ hsub x (hx ▸ List.mem_cons_self))
      refine ⟨by rw [hx]; exact le_rfl, fun z hz => ?_⟩
      obtain rfl := List.mem_singleton.1 (hx ▸ hz)
      refine ⟨hpos, fun w hw hne => ?_⟩
      exact absurd (List.mem_singleton.1 (hy ▸ hw)) hne
    · exact absurd (hprev.symm.trans (hsame.symm.trans hzero)) hpos

theorem oneLink_of_changed (h : s.Inv) (hne : agentLinkUpSinceMs s.live ≠ s.sampler.prevUpSince)
    (hup : ∀ x ∈ s.live, agentLinkUpSinceMs s.live ≠ 0 ∧ connectedAgentID s.live = x.agentID) :
    s.OneLink (.tick now) := by
  obtain ⟨x, hx, hupx, -⟩ | ⟨hzero, -⟩ := soleSession_cases s.live
  · refine ⟨by rw [hx]; exact le_rfl, fun z hz => ?_⟩
    obtain ⟨hpos, -⟩ := hup z hz
    obtain rfl := List.mem_singleton.1 (hx ▸ hz)
    refine ⟨hupx ▸ hpos, fun y hy _ hyc => hne ?_⟩
    obtain ⟨hnil, -⟩ | ⟨w, hw, -, -, hprev, -⟩ := h.observed
    · exact absurd (hnil ▸ hy) List.not_mem_nil
    · obtain rfl := List.mem_singleton.1 (hw ▸ hy)
      rw [hupx, hprev, hyc]
  · have hlive : s.live = [] :=
      List.eq_nil_iff_forall_not_mem.2 fun x hx => (hup x hx).1 hzero
    refine ⟨by rw [hlive]; exact Nat.zero_le 1, fun x hx => ?_⟩
    exact absurd (hlive ▸ hx) List.not_mem_nil

theorem oneLink_of_faithful (h : s.Inv) (hs : s.step (.tick now) = some t) (ht : t.Faithful) :
    s.OneLink (.tick now) := by
  have hticked := h.ticked now
  cases hs
  obtain ⟨hup, hcard⟩ := ht
  by_cases hchange : agentLinkUpSinceMs s.live = s.sampler.prevUpSince
  · have hsame := hticked.same hchange
    refine oneLink_of_same h hchange ?_
    rw [← hcard]
    exact congrArg LinkSampler.linkSessions hsame.symm
  · exact oneLink_of_changed h hchange fun x hx =>
      (hticked.up hchange x.agentID).1 ((hup x.agentID).2 ⟨x, hx, rfl⟩)

/-- In every run of a gateway, the link journal and the session counter are faithful after every
tick exactly when every tick has at most one session to see, and can tell it from the last one. -/
theorem linkJournal_faithful_iff (ls : List LinkStep) :
    Runs.Always step Faithful start ls ↔ Runs.Along step OneLink start ls := by
  refine Runs.always_iff_along (I := Inv) (fun s h => h.faithful) (fun s l t h hs => ?_) ?_
  · cases l with
    | connect agentID connectedAt => exact ⟨fun _ => h.connect hs, fun _ => trivial⟩
    | disconnect ptr => exact ⟨fun _ => h.disconnect hs, fun _ => trivial⟩
    | tick now => exact ⟨h.tick hs, oneLink_of_faithful h hs⟩
  · refine ⟨⟨fun agentID => ?_, rfl⟩, fun x hx => ?_, fun x hx => ?_, .inl ⟨rfl, rfl⟩⟩
    · exact iff_of_false Bool.noConfusion fun ⟨x, hx, _⟩ => List.not_mem_nil hx
    · exact hx.elim (fun h => absurd h List.not_mem_nil) fun h => absurd h (Finset.notMem_empty x)
    · exact absurd hx List.not_mem_nil

/-- When a second agent connects, the first one is put down while its session is live. -/
theorem linkJournal_unfaithful : ¬∀ ls t, Runs.Reaches step start ls t → t.Faithful := by
  intro h
  let ls : List LinkStep := [.connect "a" 1, .tick 2, .connect "b" 3, .tick 4]
  obtain ⟨t, ht⟩ : ∃ t, Runs.final step start ls = some t :=
    Option.isSome_iff_exists.1 (by decide)
  have hfacts : ∀ t ∈ Runs.final step start ls,
      linkUp t.sampler.journal "a" = false ∧ ∃ x ∈ t.observed, x.agentID = "a" := by
    decide
  obtain ⟨hdown, hlive⟩ := hfacts t ht
  have hup := ((h ls t (Runs.reaches_of_final ht)).1 "a").2 hlive
  exact Bool.noConfusion (hdown.symm.trans hup)

end LinkRun

end ProxyForward

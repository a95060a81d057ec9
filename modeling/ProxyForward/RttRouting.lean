import ProxyForward.DataLegs

namespace ProxyForward
set_option autoImplicit true

structure ConnStat where
  connID : String
  rttMs : Rat
  deriving DecidableEq, Repr

def maxConnStatsPerFrame : Nat := 200

/-- The frames of a batch, none longer than the limit. -/
def inFrames : Nat → List ConnStat → List (List ConnStat)
  | 0, _ => []
  | _ + 1, [] => []
  | n + 1, batch =>
    batch.take maxConnStatsPerFrame :: inFrames n (batch.drop maxConnStatsPerFrame)

def framesOf (batch : List ConnStat) : List (List ConnStat) := inFrames batch.length batch

/-- A player's connection at the gateway, with all that was measured on it; the newest comes last.
The n-th connection has the id n. -/
structure GwConn where
  sess : Nat
  rtt : Option Rat
  measured : List Rat
  deriving DecidableEq, Repr

/-- A connection's entry at an agent, and the place of the connection at the gateway. -/
structure AgentEntry where
  agent : Nat
  conn : Nat
  connKey : String
  rtt : Option Rat
  live : Bool
  deriving DecidableEq, Repr

/-- Which agent a session is with, and whether that agent takes the reports. -/
structure RttEnv where
  agentOf : Nat → Nat
  reports : Nat → Bool

/-- For each session: what its sampler has measured, the frames on their way, what the agent has of
the frame in hand, and what it has routed. -/
structure RttState where
  conns : List GwConn
  batch : Nat → List ConnStat
  stopped : Nat → Bool
  wire : Nat → List (List ConnStat)
  inbox : Nat → List ConnStat
  routed : Nat → List ConnStat
  entries : List AgentEntry

inductive RttStep
  | accept (sess : Nat)
  | openEntry (i : Nat)
  | measure (i : Nat) (ms : Rat)
  | flush (sess n : Nat)
  | receive (sess : Nat)
  | route (sess : Nat) (pick : Option Nat)
  | close (j : Nat)
  deriving DecidableEq, Repr

theorem flatten_inFrames {batch : List ConnStat} (h : batch.length ≤ n) :
    (inFrames n batch).flatten = batch := by
  induction n generalizing batch with
  | zero => exact (List.length_eq_zero_iff.1 (Nat.le_zero.1 h)).symm
  | succ n ih =>
    cases batch with
    | nil => rfl
    | cons st batch =>
      have hrest : ((st :: batch).drop maxConnStatsPerFrame).length ≤ n := by
        have hmax : maxConnStatsPerFrame = 200 := rfl
        rw [List.length_drop]
        omega
      rw [inFrames, List.flatten_cons, ih hrest, List.take_append_drop]
      exact nofun

theorem inFrames_bounded (n : Nat) (batch : List ConnStat) :
    ∀ frame ∈ inFrames n batch, frame ≠ [] ∧ frame.length ≤ maxConnStatsPerFrame := by
  induction n generalizing batch with
  | zero => exact nofun
  | succ n ih =>
    cases batch with
    | nil => exact nofun
    | cons st batch =>
      intro frame hframe
      rcases List.mem_cons.1 hframe with rfl | hframe
      · exact ⟨nofun, List.length_take_le ..⟩
      · exact ih _ frame hframe

namespace RttState

def start : RttState := ⟨[], fun _ => [], fun _ => false, fun _ => [], fun _ => [], fun _ => [], []⟩

/-- `EntryByConnKey` may return the entry: it is live and has the key. -/
def Matches (env : RttEnv) (sess : Nat) (key : String) (e : AgentEntry) : Prop :=
  key ≠ "" ∧ e.live = true ∧ e.agent = env.agentOf sess ∧ e.connKey = key

instance (env : RttEnv) (sess : Nat) (key : String) (e : AgentEntry) :
    Decidable (Matches env sess key e) :=
  inferInstanceAs (Decidable (_ ∧ _ ∧ _ ∧ _))

def setRTT (s : RttState) (j : Nat) (ms : Rat) : List AgentEntry :=
  s.entries.modify j fun e => { e with rtt := some ms }

/-- `measure` stands for one connection of the sampler's round. A flush of fewer frames than there
are comes with an error, and the sampler returns. -/
def step (env : RttEnv) (s : RttState) : RttStep → Option RttState
  | .accept sess => some { s with conns := s.conns ++ [⟨sess, none, []⟩] }
  | .openEntry i =>
    match s.conns[i]? with
    | none => none
    | some c =>
      if s.entries.any (·.conn = i) then none
      else some { s with
        entries := s.entries ++ [⟨env.agentOf c.sess, i, connID (i + 1), none, true⟩] }
  | .measure i ms =>
    match s.conns[i]? with
    | none => none
    | some c =>
      if s.stopped c.sess then none
      else some { s with
        conns := s.conns.set i { c with rtt := some ms, measured := c.measured ++ [ms] }
        batch := if env.reports c.sess then
            Function.update s.batch c.sess (s.batch c.sess ++ [⟨connID (i + 1), ms⟩])
          else s.batch }
  | .flush sess n =>
    if s.stopped sess then none
    else
      let frames := framesOf (s.batch sess)
      some { s with
        wire := Function.update s.wire sess (s.wire sess ++ frames.take n)
        batch := Function.update s.batch sess (frames.drop n).flatten
        stopped := Function.update s.stopped sess (decide (n < frames.length)) }
  | .receive sess =>
    match s.inbox sess, s.wire sess with
    | [], frame :: frames => some { s with
        inbox := Function.update s.inbox sess frame
        wire := Function.update s.wire sess frames }
    | _, _ => none
  | .route sess pick =>
    match s.inbox sess with
    | [] => none
    | st :: rest =>
      let s' := { s with
        inbox := Function.update s.inbox sess rest
        routed := Function.update s.routed sess (s.routed sess ++ [st]) }
      match pick with
      | none => if ∃ e ∈ s.entries, Matches env sess st.connID e then none else some s'
      | some j =>
        match s.entries[j]? with
        | none => none
        | some e =>
          if Matches env sess st.connID e then some { s' with entries := s.setRTT j st.rttMs }
          else none
  | .close j => some { s with entries := s.entries.modify j fun e => { e with live := false } }

/-- All that the sampler of a session has measured for the agent, the newest last. -/
def stats (s : RttState) (sess : Nat) : List ConnStat :=
  s.routed sess ++ s.inbox sess ++ (s.wire sess).flatten ++ s.batch sess

/-- An agent's entry has a time that was measured on its own connection, and once nothing is on its
way, the one that the gateway's entry has. -/
structure Attributed (env : RttEnv) (s : RttState) : Prop where
  own : ∀ e ∈ s.entries, ∃ c, s.conns[e.conn]? = some c ∧ e.agent = env.agentOf c.sess ∧
    ∀ ms ∈ e.rtt, ms ∈ c.measured
  settled : ∀ e ∈ s.entries, e.live = true → e.rtt ≠ none → ∀ c, s.conns[e.conn]? = some c →
    s.stats c.sess = s.routed c.sess → e.rtt = c.rtt
  framed : ∀ sess, ∀ frame ∈ s.wire sess, frame ≠ [] ∧ frame.length ≤ maxConnStatsPerFrame

/-- The times of one connection among measurements. -/
def timesOf (i : Nat) (stats : List ConnStat) : List Rat :=
  (stats.filter fun st => st.connID = connID (i + 1)).map (·.rttMs)

theorem timesOf_append (i : Nat) (l l' : List ConnStat) :
    timesOf i (l ++ l') = timesOf i l ++ timesOf i l' := by
  rw [timesOf, List.filter_append, List.map_append]
  rfl

theorem timesOf_same (i : Nat) (ms : Rat) : timesOf i [⟨connID (i + 1), ms⟩] = [ms] := by
  simp [timesOf]

theorem timesOf_other (hne : i ≠ j) (ms : Rat) : timesOf i [⟨connID (j + 1), ms⟩] = [] := by
  have hid : connID (j + 1) ≠ connID (i + 1) := by
    intro heq
    exact hne (Nat.succ.inj (connID_injective heq)).symm
  simp [timesOf, hid]

theorem connID_ne_empty (n : Nat) : connID (n + 1) ≠ "" := by
  intro h
  have hread := congrArg (fun s : String => Nat.ofDigitChars 10 s.toList 0) h
  simp only [connID, Nat.toString_eq_repr, Nat.toList_repr, Nat.ofDigitChars_ten_toDigits] at hread
  exact Nat.succ_ne_zero n hread

structure Inv (env : RttEnv) (s : RttState) : Prop where
  entry : ∀ e ∈ s.entries, e.connKey = connID (e.conn + 1) ∧
    ∃ c, s.conns[e.conn]? = some c ∧ e.agent = env.agentOf c.sess
  once : (s.entries.map (·.conn)).Nodup
  known : ∀ sess, ∀ st ∈ s.stats sess, ∃ i c, s.conns[i]? = some c ∧ c.sess = sess ∧
    st.connID = connID (i + 1)
  flow : ∀ i c, s.conns[i]? = some c → c.rtt = c.measured.getLast? ∧
    (env.reports c.sess = true → c.measured = timesOf i (s.stats c.sess))
  silent : ∀ sess, env.reports sess = false → s.stats sess = []
  shown : ∀ e ∈ s.entries, ∀ c, s.conns[e.conn]? = some c →
    (∀ ms ∈ e.rtt, ms ∈ timesOf e.conn (s.routed c.sess)) ∧
    (e.live = true → e.rtt ≠ none → e.rtt = (timesOf e.conn (s.routed c.sess)).getLast?)
  framed : ∀ sess, ∀ frame ∈ s.wire sess, frame ≠ [] ∧ frame.length ≤ maxConnStatsPerFrame

variable {env : RttEnv} {s t : RttState}

theorem Inv.start (env : RttEnv) : start.Inv env :=
  ⟨nofun, List.nodup_nil, nofun, nofun, fun _ _ => rfl, nofun, nofun⟩

theorem Inv.attributed (h : s.Inv env) : s.Attributed env where
  own e he := by
    obtain ⟨-, c, hc, hagent⟩ := h.entry e he
    refine ⟨c, hc, hagent, fun ms hms => ?_⟩
    have hrouted := (h.shown e he c hc).1 ms hms
    cases hreports : env.reports c.sess with
    | true =>
      rw [(h.flow _ _ hc).2 hreports, stats, timesOf_append, timesOf_append, timesOf_append]
      simp only [List.mem_append, hrouted, true_or]
    | false =>
      have hnone := h.silent _ hreports
      simp only [stats, List.append_eq_nil_iff] at hnone
      rw [hnone.1.1.1] at hrouted
      exact absurd hrouted List.not_mem_nil
  settled e he hlive hsome c hc hquiet := by
    have hlast := (h.shown e he c hc).2 hlive hsome
    cases hreports : env.reports c.sess with
    | true =>
      obtain ⟨hrtt, hmeasured⟩ := h.flow _ _ hc
      rw [hlast, hrtt, hmeasured hreports, hquiet]
    | false =>
      have hnone := hquiet.symm.trans (h.silent _ hreports)
      rw [hnone] at hlast
      exact absurd hlast hsome
  framed := h.framed

theorem Inv.moved (h : s.Inv env) (hconns : t.conns = s.conns) (hentries : t.entries = s.entries)
    (hrouted : t.routed = s.routed) (hstats : ∀ sess, t.stats sess = s.stats sess)
    (hframed : ∀ sess, ∀ frame ∈ t.wire sess, frame ≠ [] ∧ frame.length ≤ maxConnStatsPerFrame) :
    t.Inv env where
  entry := by
    rw [hentries, hconns]
    exact h.entry
  once := hentries ▸ h.once
  known sess := by
    rw [hstats, hconns]
    exact h.known sess
  flow i c hc := by
    rw [hstats]
    exact h.flow i c (hconns ▸ hc)
  silent sess hsess := (hstats sess).trans (h.silent sess hsess)
  shown := by
    rw [hentries, hconns, hrouted]
    exact h.shown
  framed := hframed

theorem Inv.flush (h : s.Inv env) (hs : s.step env (.flush sess n) = some t) : t.Inv env := by
  obtain ⟨-, hs⟩ := Option.ite_none_left_eq_some.1 hs
  obtain rfl := Option.some.inj hs
  refine h.moved rfl rfl rfl (fun sess' => ?_) fun sess' => ?_
  · by_cases hsess : sess' = sess
    · subst hsess
      have hall : ((framesOf (s.batch sess')).take n).flatten ++
          ((framesOf (s.batch sess')).drop n).flatten = s.batch sess' := by
        rw [← List.flatten_append, List.take_append_drop]
        exact flatten_inFrames le_rfl
      simp only [stats, Function.update_self, List.flatten_append, List.append_assoc, hall]
    · simp only [stats, Function.update_of_ne hsess]
  · by_cases hsess : sess' = sess
    · subst hsess
      simp only [Function.update_self]
      intro frame hframe
      rcases List.mem_append.1 hframe with hframe | hframe
      · exact h.framed _ frame hframe
      · exact inFrames_bounded _ _ frame (List.mem_of_mem_take hframe)
    · simp only [Function.update_of_ne hsess]
      exact h.framed sess'

theorem Inv.receive (h : s.Inv env) (hs : s.step env (.receive sess) = some t) : t.Inv env := by
  simp only [step] at hs
  split at hs
  · rename_i frame frames hinbox hwire
    obtain rfl := Option.some.inj hs
    refine h.moved rfl rfl rfl (fun sess' => ?_) fun sess' => ?_
    · by_cases hsess : sess' = sess
      · subst hsess
        simp only [stats, Function.update_self, hinbox, hwire, List.flatten_cons, List.append_nil,
          List.append_assoc]
      · simp only [stats, Function.update_of_ne hsess]
    · by_cases hsess : sess' = sess
      · subst hsess
        simp only [Function.update_self]
        exact fun frame hframe => h.framed sess' frame (hwire ▸ List.mem_cons_of_mem _ hframe)
      · simp only [Function.update_of_ne hsess]
        exact h.framed sess'
  · cases hs

theorem conns_append (conns : List GwConn) (c : GwConn) (h : (conns ++ [c])[i]? = some c') :
    conns[i]? = some c' ∨ i = conns.length ∧ c' = c := by
  by_cases hi : i < conns.length
  · exact .inl (List.getElem?_append_left hi ▸ h)
  · rw [List.getElem?_append_right (not_lt.1 hi), List.getElem?_singleton] at h
    split at h
    · exact .inr ⟨by omega, (Option.some.inj h).symm⟩
    · cases h

theorem getElem?_append_some {l : List α} {i : Nat} (h : l[i]? = some a) (l' : List α) :
    (l ++ l')[i]? = some a := by
  obtain ⟨hi, -⟩ := List.getElem?_eq_some_iff.1 h
  exact (List.getElem?_append_left hi).trans h

theorem Inv.none_beyond (h : s.Inv env) (hi : s.conns.length ≤ i) (sess : Nat) :
    timesOf i (s.stats sess) = [] := by
  refine List.map_eq_nil_iff.2 (List.filter_eq_nil_iff.2 fun st hst => ?_)
  obtain ⟨j, c, hc, -, hid⟩ := h.known sess st hst
  obtain ⟨hj, -⟩ := List.getElem?_eq_some_iff.1 hc
  rw [hid, decide_eq_true_eq]
  intro heq
  have := connID_injective heq
  omega

theorem Inv.accept (h : s.Inv env) (hs : s.step env (.accept sess) = some t) : t.Inv env := by
  obtain rfl := Option.some.inj hs
  refine ⟨fun e he => ?_, h.once, fun sess' st hst => ?_, fun i c hc => ?_, h.silent,
    fun e he c hc => ?_, h.framed⟩
  · obtain ⟨hkey, c, hc, hagent⟩ := h.entry e he
    exact ⟨hkey, c, getElem?_append_some hc _, hagent⟩
  · obtain ⟨i, c, hc, hrest⟩ := h.known sess' st hst
    exact ⟨i, c, getElem?_append_some hc _, hrest⟩
  · rcases conns_append _ _ hc with hc | ⟨rfl, rfl⟩
    · exact h.flow i c hc
    · exact ⟨rfl, fun _ => (h.none_beyond le_rfl _).symm⟩
  · rcases conns_append _ _ hc with hc | ⟨hi, -⟩
    · exact h.shown e he c hc
    · obtain ⟨-, c', hc', -⟩ := h.entry e he
      obtain ⟨hlt, -⟩ := List.getElem?_eq_some_iff.1 hc'
      omega

theorem Inv.openEntry (h : s.Inv env) (hs : s.step env (.openEntry i) = some t) : t.Inv env := by
  simp only [step] at hs
  split at hs
  · cases hs
  · rename_i c hc
    obtain ⟨hfresh, hs⟩ := Option.ite_none_left_eq_some.1 hs
    obtain rfl := Option.some.inj hs
    refine ⟨fun e he => ?_, ?_, h.known, h.flow, h.silent, fun e he c' hc' => ?_, h.framed⟩
    · rcases List.mem_append.1 he with he | he
      · exact h.entry e he
      · obtain rfl := List.mem_singleton.1 he
        exact ⟨rfl, c, hc, rfl⟩
    · rw [List.map_append, List.map_singleton, List.nodup_append]
      refine ⟨h.once, List.nodup_singleton _, ?_⟩
      intro j hj k hk heq
      obtain rfl := List.mem_singleton.1 hk
      obtain ⟨e, he, rfl⟩ := List.mem_map.1 hj
      exact hfresh (List.any_eq_true.2 ⟨e, he, decide_eq_true heq⟩)
    · rcases List.mem_append.1 he with he | he
      · exact h.shown e he c' hc'
      · obtain rfl := List.mem_singleton.1 he
        exact ⟨nofun, fun _ hsome => absurd rfl hsome⟩

theorem mem_modify {l : List AgentEntry} (h : e ∈ l.modify j f) :
    ∃ (k : Nat) (e' : AgentEntry), l[k]? = some e' ∧ e = if j = k then f e' else e' := by
  obtain ⟨k, hk⟩ := List.mem_iff_getElem?.1 h
  rw [List.getElem?_modify] at hk
  obtain ⟨e', he', rfl⟩ := Option.map_eq_some_iff.1 hk
  exact ⟨k, e', he', rfl⟩

theorem map_conn_modify (l : List AgentEntry) (j : Nat) {f : AgentEntry → AgentEntry}
    (hf : ∀ e, (f e).conn = e.conn) : (l.modify j f).map (·.conn) = l.map (·.conn) := by
  refine List.ext_getElem? fun k => ?_
  rw [List.getElem?_map, List.getElem?_modify, List.getElem?_map]
  cases l[k]? with
  | none => rfl
  | some e =>
    by_cases hk : j = k
    · simp [hk, hf]
    · simp [hk]

theorem Inv.close (h : s.Inv env) (hs : s.step env (.close j) = some t) : t.Inv env := by
  obtain rfl := Option.some.inj hs
  refine ⟨fun e he => ?_, ?_, h.known, h.flow, h.silent, fun e he c hc => ?_, h.framed⟩
  · obtain ⟨k, e', hk, rfl⟩ := mem_modify he
    have hentry := h.entry e' (List.mem_of_getElem? hk)
    split <;> exact hentry
  · have hmap := map_conn_modify s.entries j (f := fun e => { e with live := false }) fun _ => rfl
    exact hmap ▸ h.once
  · obtain ⟨k, e', hk, rfl⟩ := mem_modify he
    have hshown := h.shown e' (List.mem_of_getElem? hk)
    by_cases hj : j = k
    · rw [if_pos hj] at hc ⊢
      exact ⟨(hshown c hc).1, nofun⟩
    · rw [if_neg hj] at hc ⊢
      exact hshown c hc

theorem set_sess {conns : List GwConn} {c c' : GwConn} (hc : conns[i]? = some c)
    (hsess : c'.sess = c.sess) (k : Nat) :
    ((conns.set i c')[k]?).map (·.sess) = (conns[k]?).map (·.sess) := by
  by_cases hk : i = k
  · subst hk
    obtain ⟨hi, -⟩ := List.getElem?_eq_some_iff.1 hc
    rw [List.getElem?_set_self hi, hc, Option.map_some, Option.map_some, hsess]
  · rw [List.getElem?_set_ne hk]

theorem of_map_sess {o o' : Option GwConn} (h : o'.map (·.sess) = o.map (·.sess))
    (ho : o = some c) : ∃ c', o' = some c' ∧ c'.sess = c.sess := by
  rw [ho, Option.map_some] at h
  exact Option.map_eq_some_iff.1 h

theorem Inv.measure (h : s.Inv env) (hs : s.step env (.measure i ms) = some t) : t.Inv env := by
  simp only [step] at hs
  split at hs
  · cases hs
  · rename_i c hc
    obtain ⟨-, hs⟩ := Option.ite_none_left_eq_some.1 hs
    obtain rfl := Option.some.inj hs
    obtain ⟨hi, -⟩ := List.getElem?_eq_some_iff.1 hc
    generalize ht : ({ s with
      conns := s.conns.set i { c with rtt := some ms, measured := c.measured ++ [ms] }
      batch := if env.reports c.sess then
          Function.update s.batch c.sess (s.batch c.sess ++ [⟨connID (i + 1), ms⟩])
        else s.batch } : RttState) = t
    have hconns : t.conns = s.conns.set i
        { c with rtt := some ms, measured := c.measured ++ [ms] } := ht ▸ rfl
    have hstats (sess : Nat) : t.stats sess = s.stats sess ++
        if env.reports c.sess = true ∧ sess = c.sess then [⟨connID (i + 1), ms⟩] else [] := by
      subst ht
      by_cases hreports : env.reports c.sess = true
      · by_cases hsess : sess = c.sess
        · subst hsess
          simp only [stats, hreports, if_true, Function.update_self, and_self, List.append_assoc]
        · simp only [stats, hreports, if_true, Function.update_of_ne hsess, hsess, and_false,
            if_false, List.append_nil]
      · simp only [stats, hreports, if_false, false_and, List.append_nil, Bool.false_eq_true]
    have hsess (k : Nat) : (t.conns[k]?).map (·.sess) = (s.conns[k]?).map (·.sess) := by
      rw [hconns]
      refine set_sess hc ?_ k
      rfl
    have hrest : t.entries = s.entries ∧ t.routed = s.routed ∧ t.wire = s.wire := by
      subst ht
      exact ⟨rfl, rfl, rfl⟩
    obtain ⟨hentries, hrouted, hwire⟩ := hrest
    refine ⟨fun e he => ?_, hentries ▸ h.once, fun sess st hst => ?_, fun k d hd => ?_,
      fun sess hsilent => ?_, fun e he d hd => ?_, hwire ▸ h.framed⟩
    · obtain ⟨hkey, d, hd, hagent⟩ := h.entry e (hentries ▸ he)
      obtain ⟨d', hd', hsame⟩ := of_map_sess (hsess e.conn) hd
      exact ⟨hkey, d', hd', hsame ▸ hagent⟩
    · rw [hstats] at hst
      rcases List.mem_append.1 hst with hst | hst
      · obtain ⟨k, d, hd, hk, hid⟩ := h.known sess st hst
        obtain ⟨d', hd', hsame⟩ := of_map_sess (hsess k) hd
        exact ⟨k, d', hd', hsame.trans hk, hid⟩
      · split at hst
        · rename_i hnew
          obtain rfl := List.mem_singleton.1 hst
          obtain ⟨d', hd', hsame⟩ := of_map_sess (hsess i) hc
          exact ⟨i, d', hd', hsame.trans hnew.2.symm, rfl⟩
        · cases hst
    · by_cases hk : i = k
      · subst hk
        rw [hconns, List.getElem?_set_self hi] at hd
        obtain rfl := Option.some.inj hd
        refine ⟨List.getLast?_concat.symm, fun hreports => ?_⟩
        rw [hstats, if_pos ⟨hreports, rfl⟩, timesOf_append, timesOf_same,
          ← (h.flow i c hc).2 hreports]
      · rw [hconns, List.getElem?_set_ne hk] at hd
        obtain ⟨hrtt, hmeasured⟩ := h.flow k d hd
        refine ⟨hrtt, fun hreports => ?_⟩
        rw [hstats, timesOf_append, ← hmeasured hreports]
        split
        · rw [timesOf_other (Ne.symm hk), List.append_nil]
        · exact (List.append_nil _).symm
    · rw [hstats, h.silent sess hsilent, List.nil_append]
      refine if_neg fun hnew => ?_
      rw [hnew.2, hnew.1] at hsilent
      cases hsilent
    · obtain ⟨d', hd', hsame⟩ := of_map_sess (hsess e.conn).symm hd
      rw [hrouted, ← hsame]
      exact h.shown e (hentries ▸ he) d' hd'

theorem Inv.shown_other (h : s.Inv env) (he : e ∈ s.entries) (hc : s.conns[e.conn]? = some c)
    (hne : e.conn ≠ i) (ms : Rat) :
    (∀ x ∈ e.rtt, x ∈ timesOf e.conn (Function.update s.routed sess
      (s.routed sess ++ [⟨connID (i + 1), ms⟩]) c.sess)) ∧
    (e.live = true → e.rtt ≠ none → e.rtt = (timesOf e.conn (Function.update s.routed sess
      (s.routed sess ++ [⟨connID (i + 1), ms⟩]) c.sess)).getLast?) := by
  have hsame : timesOf e.conn (Function.update s.routed sess
      (s.routed sess ++ [⟨connID (i + 1), ms⟩]) c.sess) = timesOf e.conn (s.routed c.sess) := by
    by_cases hsess : c.sess = sess
    · subst hsess
      rw [Function.update_self, timesOf_append, timesOf_other hne, List.append_nil]
    · rw [Function.update_of_ne hsess]
  rw [hsame]
  exact h.shown e he c hc

theorem Inv.route (h : s.Inv env) (hs : s.step env (.route sess pick) = some t) : t.Inv env := by
  simp only [step] at hs
  split at hs
  · cases hs
  · rename_i st rest hinbox
    have hstats (entries : List AgentEntry) (sess' : Nat) : stats { s with
        inbox := Function.update s.inbox sess rest
        routed := Function.update s.routed sess (s.routed sess ++ [st])
        entries } sess' = s.stats sess' := by
      by_cases hsess : sess' = sess
      · subst hsess
        simp only [stats, Function.update_self, hinbox, List.append_assoc, List.singleton_append]
      · simp only [stats, Function.update_of_ne hsess]
    have hst : st ∈ s.stats sess := by
      simp only [stats, hinbox, List.mem_append, List.mem_cons, true_or, or_true]
    obtain ⟨i, c, hc, rfl, hid⟩ := h.known sess st hst
    obtain ⟨id, ms⟩ := st
    obtain rfl : id = connID (i + 1) := hid
    split at hs
    · obtain ⟨hnobody, hs⟩ := Option.ite_none_left_eq_some.1 hs
      obtain rfl := Option.some.inj hs
      refine ⟨h.entry, h.once, fun sess' => ?_, fun k d hd => ?_, fun sess' => ?_,
        fun e he d hd => ?_, h.framed⟩
      · rw [hstats]
        exact h.known sess'
      · rw [hstats]
        exact h.flow k d hd
      · rw [hstats]
        exact h.silent sess'
      · by_cases hi : e.conn = i
        · obtain ⟨hkey, d', hd', hagent⟩ := h.entry e he
          obtain rfl := Option.some.inj (hc.symm.trans (hi ▸ hd'))
          obtain rfl := Option.some.inj (hd'.symm.trans hd)
          refine ⟨fun x hx => ?_, fun hlive => ?_⟩
          · change x ∈ timesOf e.conn (Function.update s.routed c.sess _ c.sess)
            rw [Function.update_self, timesOf_append]
            exact List.mem_append_left _ ((h.shown e he _ hd').1 x hx)
          · exact absurd ⟨e, he, connID_ne_empty i, hlive, hagent, hi ▸ hkey⟩ hnobody
        · exact h.shown_other he hd hi ms
    · rename_i j
      split at hs
      · cases hs
      · rename_i e₀ he₀
        obtain ⟨⟨-, hlive, -, hkey⟩, hs⟩ := Option.ite_none_right_eq_some.1 hs
        obtain rfl := Option.some.inj hs
        have hmem := List.mem_of_getElem? he₀
        have hconn : e₀.conn = i :=
          Nat.succ.inj (connID_injective ((h.entry e₀ hmem).1.symm.trans hkey))
        have hmap : (s.setRTT j ms).map (·.conn) = s.entries.map (·.conn) :=
          map_conn_modify s.entries j fun _ => rfl
        refine ⟨fun e he => ?_, hmap ▸ h.once, fun sess' => ?_, fun k d hd => ?_, fun sess' => ?_,
          fun e he d hd => ?_, h.framed⟩
        · obtain ⟨k, e', hk, rfl⟩ := mem_modify he
          have hentry := h.entry e' (List.mem_of_getElem? hk)
          split <;> exact hentry
        · rw [hstats]
          exact h.known sess'
        · rw [hstats]
          exact h.flow k d hd
        · rw [hstats]
          exact h.silent sess'
        · obtain ⟨k, e', hk, rfl⟩ := mem_modify he
          by_cases hj : j = k
          · obtain rfl := hj
            obtain rfl := Option.some.inj (he₀.symm.trans hk)
            rw [if_pos rfl] at hd ⊢
            obtain rfl := Option.some.inj (hc.symm.trans (hconn ▸ hd))
            change (∀ x ∈ some ms, x ∈ timesOf e₀.conn (Function.update s.routed c.sess _ c.sess)) ∧
              (_ → _ → some ms = (timesOf e₀.conn
                (Function.update s.routed c.sess _ c.sess)).getLast?)
            rw [Function.update_self, timesOf_append, hconn, timesOf_same]
            refine ⟨fun x hx => ?_, fun _ _ => List.getLast?_concat.symm⟩
            obtain rfl := Option.some.inj hx
            exact List.mem_append_right _ List.mem_cons_self
          · rw [if_neg hj] at hd ⊢
            refine h.shown_other (List.mem_of_getElem? hk) hd (fun hi => hj ?_) ms
            -- no two entries are of one connection
            obtain ⟨hjlt, hj'⟩ := List.getElem?_eq_some_iff.1 he₀
            obtain ⟨hklt, hk'⟩ := List.getElem?_eq_some_iff.1 hk
            have hjmap : j < (s.entries.map (·.conn)).length := by rwa [List.length_map]
            have hkmap : k < (s.entries.map (·.conn)).length := by rwa [List.length_map]
            have hsame : (s.entries.map (·.conn))[j] = (s.entries.map (·.conn))[k] := by
              simp only [List.getElem_map, hj', hk', hconn, hi]
            exact h.once.getElem_inj_iff.1 hsame

theorem Inv.step (h : s.Inv env) (hs : s.step env l = some t) : t.Inv env := by
  cases l with
  | accept sess => exact h.accept hs
  | openEntry i => exact h.openEntry hs
  | measure i ms => exact h.measure hs
  | flush sess n => exact h.flush hs
  | receive sess => exact h.receive hs
  | route sess pick => exact h.route hs
  | close j => exact h.close hs

/-- In every run of one gateway, with whatever sessions and agents. -/
theorem attributed_of_reaches (hr : Runs.Reaches (step env) start ls s) : s.Attributed env :=
  (hr.invariant (fun _ _ _ h hs => Inv.step h hs) (Inv.start env)).attributed

/-- Two players of one agent; only the second's time comes through. -/
def twoPlayers : List RttStep :=
  [.accept 0, .accept 0, .openEntry 1, .openEntry 0, .measure 0 40, .measure 1 23, .flush 0 1,
    .close 1, .receive 0, .route 0 none, .route 0 (some 0)]

theorem attributed_two_players : ∃ s, Runs.Reaches (step ⟨id, fun _ => true⟩) start twoPlayers s ∧
    s.entries.map (·.rtt) = [some 23, none] ∧ s.Attributed ⟨id, fun _ => true⟩ := by
  have hrun : (Runs.final (step ⟨id, fun _ => true⟩) start twoPlayers).map
      (fun s => s.entries.map (·.rtt)) = some [some 23, none] := by
    decide +kernel
  obtain ⟨s, hs, hrtt⟩ := Option.map_eq_some_iff.1 hrun
  have hreaches := Runs.reaches_of_final hs
  exact ⟨s, hreaches, hrtt, attributed_of_reaches hreaches⟩

end RttState

end ProxyForward

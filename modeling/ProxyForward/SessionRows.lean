import ProxyForward.SessionSamples

namespace ProxyForward.SessionLog
set_option autoImplicit true
open Runs

/-- The write of a session's row. -/
def Act.opens : Act → Bool
  | .opened _ => true
  | .player _ _ | .closed _ _ _ | .rtt _ _ _ | .traffic _ _ _ => false

/-- The writes of a connection's session row. -/
def openings (c : Nat) (ops : List Op) : List Op := (ofConn c ops).filter fun op => op.act.opens

theorem openings_append (c : Nat) (ops more : List Op) :
    openings c (ops ++ more) = openings c ops ++ openings c more := by
  rw [openings, ofConn_append, List.filter_append]
  rfl

theorem mem_openings : op ∈ openings c ops ↔ op ∈ ops ∧ op.conn = c ∧ op.act.opens = true := by
  simp only [openings, ofConn, List.mem_filter, decide_eq_true_eq, and_assoc]

theorem openings_other (h : ∀ op ∈ ops, op.conn ≠ c) : openings c ops = [] := by
  rw [openings, ofConn_other h, List.filter_nil]

theorem openings_own (c i : Nat) (acts : List Act) :
    openings c (acts.map fun act => ⟨c, i, act⟩) =
      (acts.filter Act.opens).map fun act => ⟨c, i, act⟩ := by
  rw [openings, ofConn_own, List.filter_map]
  rfl

theorem Conn.step_opens (h : Conn.step k e = some (k', acts)) :
    (acts.filter Act.opens = [] ∧ (k'.stage = .stored ↔ k.stage = .stored)) ∨
      (k.stage = .stored ∧ k'.stage ≠ .stored ∧ ∃ startedMs, acts = [.opened startedMs]) := by
  cases e with
  | opened startedMs =>
    simp only [Conn.step] at h
    split at h <;> cases h
    refine .inr ⟨‹_›, fun hstage => ?_, startedMs, rfl⟩
    cases hstage
  | player name protocol =>
    cases h
    exact .inl ⟨rfl, Iff.rfl⟩
  | rtt now rttMs =>
    simp only [Conn.step] at h
    split at h <;> cases h
    · exact .inl ⟨rfl, Iff.rfl⟩
    · refine .inl ⟨?_, Iff.rfl⟩
      unfold LiveSession.recordRTT
      simp only
      split <;> rfl
  | traffic now bytesIn bytesOut =>
    cases h
    refine .inl ⟨?_, Iff.rfl⟩
    obtain ⟨din, dout, hacts⟩ : ∃ din dout : Int, (k.ls.sampleLive now bytesIn bytesOut).2 =
        if din = 0 ∧ dout = 0 then [] else [.traffic now din dout] := ⟨_, _, rfl⟩
    rw [hacts]
    split <;> rfl
  | close =>
    simp only [Conn.step] at h
    split at h <;> cases h
    rename_i hstage
    refine .inl ⟨?_, by simp only [hstage, reduceCtorEq]⟩
    split <;> rfl
  | closed endedMs bytesIn bytesOut =>
    simp only [Conn.step] at h
    split at h <;> cases h
    rename_i hstage
    exact .inl ⟨rfl, by simp only [hstage, reduceCtorEq]⟩

namespace DB

theorem update_mem (db : DB) (i : Nat) (f : SessionRow → SessionRow) (hrow : row ∈ db.sessions) :
    (if row.id = i then f row else row) ∈ (db.update i f).sessions :=
  List.mem_map_of_mem (f := fun row : SessionRow => if row.id = i then f row else row) hrow

theorem land_keeps (db : DB) (op : Op) (hrow : row ∈ db.sessions) :
    ∃ row' ∈ (db.land op).sessions, row'.id = row.id ∧ row'.conn = row.conn ∧
      row'.startedMs = row.startedMs := by
  have hupdate (f : SessionRow → SessionRow)
      (hf : ∀ row, (f row).id = row.id ∧ (f row).conn = row.conn ∧
        (f row).startedMs = row.startedMs) :
      ∃ row' ∈ (db.update op.id f).sessions, row'.id = row.id ∧ row'.conn = row.conn ∧
        row'.startedMs = row.startedMs := by
    refine ⟨_, db.update_mem op.id f hrow, ?_⟩
    split
    · exact hf row
    · exact ⟨rfl, rfl, rfl⟩
  unfold land
  split
  · split
    · exact ⟨row, hrow, rfl, rfl, rfl⟩
    · exact ⟨row, List.mem_append_left _ hrow, rfl, rfl, rfl⟩
  · exact hupdate _ fun row => ⟨rfl, rfl, rfl⟩
  · exact hupdate _ fun row => ⟨rfl, rfl, rfl⟩
  · exact hupdate _ fun row => ⟨rfl, rfl, rfl⟩
  · exact ⟨row, hrow, rfl, rfl, rfl⟩

/-- A session row after a write: it was there with its start, and is only ended by its session's
last write; or it is the write's. -/
theorem land_from (db : DB) (op : Op) (hrow : row' ∈ (db.land op).sessions) :
    (∃ row ∈ db.sessions, row.id = row'.id ∧ row.conn = row'.conn ∧
      row.startedMs = row'.startedMs ∧
      (row'.endedMs = row.endedMs ∨
        row.id = op.id ∧ ∃ endedMs bytesIn bytesOut, op.act = .closed endedMs bytesIn bytesOut)) ∨
    op = ⟨row'.conn, row'.id, .opened row'.startedMs⟩ ∧ row'.endedMs = none := by
  have hupdate (f : SessionRow → SessionRow) (hrow : row' ∈ (db.update op.id f).sessions)
      (hf : ∀ row, (f row).id = row.id ∧ (f row).conn = row.conn ∧
        (f row).startedMs = row.startedMs) :
      ∃ row ∈ db.sessions, row.id = row'.id ∧ row.conn = row'.conn ∧
        row.startedMs = row'.startedMs ∧
        (row'.endedMs = row.endedMs ∨ row.id = op.id ∧ row'.endedMs = (f row).endedMs) := by
    obtain ⟨row, hin, rfl⟩ := List.mem_map.mp hrow
    refine ⟨row, hin, ?_⟩
    split
    · obtain ⟨hid, hconn, hstart⟩ := hf row
      exact ⟨hid.symm, hconn.symm, hstart.symm, .inr ⟨‹_›, rfl⟩⟩
    · exact ⟨rfl, rfl, rfl, .inl rfl⟩
  have hsame (f : SessionRow → SessionRow) (hrow : row' ∈ (db.update op.id f).sessions)
      (hf : ∀ row, (f row).id = row.id ∧ (f row).conn = row.conn ∧
        (f row).startedMs = row.startedMs) (hend : ∀ row, (f row).endedMs = row.endedMs) :
      ∃ row ∈ db.sessions, row.id = row'.id ∧ row.conn = row'.conn ∧
        row.startedMs = row'.startedMs ∧
        (row'.endedMs = row.endedMs ∨ row.id = op.id ∧
          ∃ endedMs bytesIn bytesOut, op.act = .closed endedMs bytesIn bytesOut) := by
    obtain ⟨row, hin, hid, hconn, hstart, hended⟩ := hupdate f hrow hf
    refine ⟨row, hin, hid, hconn, hstart, .inl ?_⟩
    exact hended.elim id fun h => h.2.trans (hend row)
  unfold land at hrow
  split at hrow
  next startedMs hact =>
    split at hrow
    · exact .inl ⟨row', hrow, rfl, rfl, rfl, .inl rfl⟩
    · rcases List.mem_append.mp hrow with hold | hnew
      · exact .inl ⟨row', hold, rfl, rfl, rfl, .inl rfl⟩
      · obtain rfl := List.mem_singleton.mp hnew
        obtain ⟨conn, i, act⟩ := op
        cases hact
        exact .inr ⟨rfl, rfl⟩
  · exact .inl (hsame _ hrow (fun row => ⟨rfl, rfl, rfl⟩) fun row => rfl)
  next endedMs bytesIn bytesOut hact =>
    obtain ⟨row, hin, hid, hconn, hstart, hended⟩ := hupdate _ hrow fun row => ⟨rfl, rfl, rfl⟩
    exact .inl ⟨row, hin, hid, hconn, hstart, hended.imp_right fun h => ⟨h.1, _, _, _, hact⟩⟩
  · exact .inl (hsame _ hrow (fun row => ⟨rfl, rfl, rfl⟩) fun row => rfl)
  · exact .inl ⟨row', hrow, rfl, rfl, rfl, .inl rfl⟩

end DB

namespace Recorder

/-- After a session's last write landed, a prune whose cutoff is past its start ran. -/
def Expired (s : Recorder) (c i : Nat) (startedMs : Int) : Prop :=
  ∃ p ∈ s.prunes, startedMs < p.1 ∧
    ∃ endedMs bytesIn bytesOut, ⟨c, i, .closed endedMs bytesIn bytesOut⟩ ∈ p.2

/-- What session rows there are. -/
structure Rows (s : Recorder) : Prop where
  openings : ∀ (c : Nat) (k : Conn), s.conns[c]? = some k →
    (k.stage = .stored ∧ openings c s.sent = []) ∨
      (k.stage ≠ .stored ∧ ∃ startedMs, openings c s.sent = [⟨c, k.ls.id, .opened startedMs⟩])
  opened : ∀ row ∈ s.db.sessions, ⟨row.conn, row.id, .opened row.startedMs⟩ ∈ s.landed
  ended : ∀ row ∈ s.db.sessions, row.endedMs ≠ none →
    ∃ endedMs bytesIn bytesOut, ⟨row.conn, row.id, .closed endedMs bytesIn bytesOut⟩ ∈ s.landed
  kept : ∀ c i startedMs, s.Intact c → ⟨c, i, .opened startedMs⟩ ∈ s.landed →
    s.Expired c i startedMs ∨
      ∃ row ∈ s.db.sessions, row.id = i ∧ row.conn = c ∧ row.startedMs = startedMs

theorem rows_fresh : fresh.Rows where
  openings _ _ h := nomatch h
  opened _ h := absurd h List.not_mem_nil
  ended _ h := absurd h List.not_mem_nil
  kept _ _ _ _ h := absurd h List.not_mem_nil

theorem Rows.prune {s t : Recorder} (h : s.Rows) (ht : s.step (.prune cutoff) = some t) :
    t.Rows := by
  cases ht
  refine ⟨h.openings, fun row hrow => h.opened row (s.db.prune_rows hrow),
    fun row hrow => h.ended row (s.db.prune_rows hrow), fun c i startedMs hc hop => ?_⟩
  rcases h.kept c i startedMs hc hop with ⟨p, hp, hpast⟩ | ⟨row, hrow, rfl, rfl, rfl⟩
  · exact .inl ⟨p, List.mem_append_left _ hp, hpast⟩
  · by_cases hold : row.startedMs < cutoff ∧ row.endedMs ≠ none
    · refine .inl ⟨(cutoff, s.landed), List.mem_append_right _ List.mem_cons_self, hold.1, ?_⟩
      exact h.ended row hrow hold.2
    · refine .inr ⟨row, List.mem_filter.mpr ⟨hrow, ?_⟩, rfl, rfl, rfl⟩
      simpa using not_and_or.mp hold

theorem Rows.register {s t : Recorder} (h : s.Rows) (htold : s.Told)
    (ht : s.step .register = some t) : t.Rows := by
  simp only [step] at ht
  split at ht <;> cases ht
  refine ⟨fun c k hk => ?_, h.opened, h.ended, h.kept⟩
  rcases Nat.lt_or_ge c s.conns.length with hlt | hge
  · rw [List.getElem?_append_left hlt] at hk
    exact h.openings c k hk
  · rw [List.getElem?_append_right hge, List.getElem?_singleton] at hk
    split at hk <;> cases hk
    exact .inl ⟨rfl, openings_other fun op hop =>
      Nat.ne_of_lt (Nat.lt_of_lt_of_le (htold.conn op hop) hge)⟩

theorem Rows.call {s t : Recorder} (h : s.Rows) (ht : s.step (.call c e) = some t) : t.Rows := by
  obtain ⟨k, k', acts, hk, hstep, rfl⟩ := call_eq ht
  have hconns : s.conns[c]? = some k := by
    unfold current at hk
    split at hk
    · exact hk
    · cases hk
  obtain ⟨hlt, -⟩ := List.getElem?_eq_some_iff.mp hconns
  refine ⟨fun c' k₁ hk₁ => ?_, h.opened, h.ended, h.kept⟩
  rw [openings_append]
  by_cases heq : c' = c
  · subst heq
    rw [List.getElem?_set_self hlt] at hk₁
    obtain rfl := Option.some.inj hk₁
    rw [openings_own, (Conn.step_keeps hstep).1]
    rcases Conn.step_opens hstep with ⟨hnone, hstage⟩ | ⟨hstage, hstage', startedMs, rfl⟩
    · rw [hnone, List.map_nil, List.append_nil]
      exact (h.openings c' k hconns).imp (.imp_left hstage.mpr)
        (.imp_left fun hne heq => hne (hstage.mp heq))
    · have hnone : SessionLog.openings c' s.sent = [] :=
        (h.openings c' k hconns).elim And.right fun hlater => absurd hstage hlater.1
      rw [hnone]
      exact .inr ⟨hstage', startedMs, rfl⟩
  · rw [List.getElem?_set_ne (Ne.symm heq)] at hk₁
    have hnone : SessionLog.openings c' (acts.map fun act => ⟨c, k.ls.id, act⟩) = [] := by
      refine openings_other fun op hop => ?_
      obtain ⟨act, -, rfl⟩ := List.mem_map.mp hop
      exact Ne.symm heq
    rw [hnone, List.append_nil]
    exact h.openings c' k₁ hk₁

theorem Rows.free {s : Recorder} (h : s.Rows) (htold : s.Told) (hids : s.Ids)
    (hq : s.queue = op :: rest) (hopens : op.act.opens = true) (hc : s.Intact op.conn) :
    op.id ∉ s.db.sessions.map SessionRow.id := by
  intro hin
  obtain ⟨row, hrow, hid⟩ := List.mem_map.mp hin
  have hop : op ∈ s.queue := by rw [hq]; exact List.mem_cons_self
  have hconn := hids.holder hop hrow hid
  have hbefore : ⟨row.conn, row.id, .opened row.startedMs⟩ ∈
      SessionLog.openings op.conn s.landed := mem_openings.mpr ⟨h.opened row hrow, hconn, rfl⟩
  -- The row's opening and the operation are two of the connection's one.
  have hsent : SessionLog.openings op.conn s.sent =
      SessionLog.openings op.conn s.landed ++ SessionLog.openings op.conn s.queue := by
    unfold SessionLog.openings
    rw [htold.order op.conn hc, List.filter_append]
  have hmine : op ∈ SessionLog.openings op.conn s.queue := mem_openings.mpr ⟨hop, rfl, hopens⟩
  have htwo : 2 ≤ (SessionLog.openings op.conn s.sent).length := by
    rw [hsent, List.length_append]
    have := List.length_pos_of_mem hbefore
    have := List.length_pos_of_mem hmine
    omega
  obtain ⟨k, hk, -⟩ := hids.owner hop
  rcases h.openings op.conn k hk with ⟨-, hnone⟩ | ⟨-, startedMs, hone⟩
  · rw [hnone] at htwo
    exact absurd htwo (by decide)
  · rw [hone] at htwo
    exact absurd htwo (Nat.not_succ_le_self 1)

theorem Rows.land {s t : Recorder} (h : s.Rows) (htold : s.Told) (hids : s.Ids)
    (ht : s.step .land = some t) : t.Rows := by
  obtain ⟨op, rest, -, hq, rfl⟩ := land_eq ht
  have hop : op ∈ s.queue := by rw [hq]; exact List.mem_cons_self
  refine ⟨h.openings, fun row' hrow' => ?_, fun row' hrow' hend => ?_,
    fun c i startedMs hc hin => ?_⟩
  · rcases s.db.land_from op hrow' with ⟨row, hin, hid, hconn, hstart, -⟩ | ⟨rfl, -⟩
    · rw [← hid, ← hconn, ← hstart]
      exact List.mem_append_left _ (h.opened row hin)
    · exact List.mem_append_right _ List.mem_cons_self
  · rcases s.db.land_from op hrow' with ⟨row, hin, hid, hconn, -, hsame | hclosed⟩ | ⟨-, hnone⟩
    · obtain ⟨endedMs, bytesIn, bytesOut, hlanded⟩ := h.ended row hin (hsame ▸ hend)
      rw [← hid, ← hconn]
      exact ⟨endedMs, bytesIn, bytesOut, List.mem_append_left _ hlanded⟩
    · obtain ⟨hrowid, endedMs, bytesIn, bytesOut, hact⟩ := hclosed
      refine ⟨endedMs, bytesIn, bytesOut, List.mem_append_right _ (List.mem_singleton.mpr ?_)⟩
      rw [← hid, ← hconn, hids.holder hop hin hrowid, hrowid, ← hact]
    · exact absurd hnone hend
  · have hexpired : s.Expired c i startedMs → Expired { s with
        db := s.db.land op, queue := rest, landed := s.landed ++ [op] } c i startedMs := id
    rcases List.mem_append.mp hin with hold | hnew
    · refine (h.kept c i startedMs hc hold).imp hexpired ?_
      rintro ⟨row, hrow, rfl, rfl, rfl⟩
      exact s.db.land_keeps op hrow
    · obtain rfl := List.mem_singleton.mp hnew
      have hfree := h.free htold hids hq rfl hc
      refine .inr ⟨⟨i, c, startedMs, none, 0, 0, none, none⟩, ?_, rfl, rfl, rfl⟩
      simp only [DB.land]
      rw [if_neg hfree]
      exact List.mem_append_right _ List.mem_cons_self

theorem Rows.step {s t : Recorder} (h : s.Rows) (htold : s.Told) (hids : s.Ids)
    (ht : s.step l = some t) : t.Rows := by
  cases l with
  | restart =>
    cases ht
    exact ⟨h.openings, h.opened, h.ended, fun c i startedMs hc =>
      h.kept c i startedMs fun op hop => hc op (List.mem_append_left _ hop)⟩
  | newRecorder =>
    simp only [Recorder.step] at ht
    split at ht <;> cases ht
    exact ⟨h.openings, h.opened, h.ended, h.kept⟩
  | prune cutoff => exact h.prune ht
  | register => exact h.register htold ht
  | call c e => exact h.call ht
  | lose i =>
    obtain ⟨op, -, rfl⟩ := lose_eq ht
    exact ⟨h.openings, h.opened, h.ended, fun c i startedMs hc =>
      h.kept c i startedMs fun op hop => hc op (List.mem_append_left _ hop)⟩
  | land => exact h.land htold hids ht

/-- A session row has the samples of its connection, all of them written. -/
structure Holds (s : Recorder) (k : Conn) (row : SessionRow) : Prop where
  rows : ((s.db.rtt.filter fun sample => sample.sessionID = row.id).map fun sample =>
    sample.stats.n).sum = k.samples.length
  none : k.samples = [] → row.rtt = none
  all : k.samples ≠ [] → ∃ stats, row.rtt = some stats ∧ stats.Summarizes k.values

/-- A connection that is closed with nothing lost has queued its session row once. That row is
there, unless a prune past its start ran after its last write, and it has all samples. -/
def Summed (s : Recorder) : Prop :=
  ∀ (c : Nat) (k : Conn), s.conns[c]? = some k → k.stage = .closed → k.Orderly →
    (∀ op ∈ s.lost ++ s.queue, op.conn ≠ c) →
      ∃ startedMs, SessionLog.openings c s.sent = [⟨c, k.ls.id, .opened startedMs⟩] ∧
        (s.Expired c k.ls.id startedMs ∨ ∃ row ∈ s.db.sessions, row.conn = c) ∧
          ∀ row ∈ s.db.sessions, row.conn = c →
            row.id = k.ls.id ∧ row.startedMs = startedMs ∧ s.Holds k row

theorem Told.holds {s : Recorder} (h : s.Told) (hids : s.Ids) (hk : s.conns[c]? = some k)
    (hstage : k.stage = .closed) (horder : k.Orderly) (hops : ∀ op ∈ s.lost ++ s.queue, op.conn ≠ c)
    (hrow : row ∈ s.db.sessions) (hconn : row.conn = c) : s.Holds k row := by
  have hc : s.Intact c := fun op hop => hops op (List.mem_append_left _ hop)
  obtain ⟨fs, hscript, htally⟩ := h.tally c k hk horder
  have hlanded : flushes c s.landed = fs := by
    have hsplit := h.order c hc
    rw [ofConn_other fun op hop => hops op (List.mem_append_right _ hop), List.append_nil] at hsplit
    rw [← flushes_keys k fs hscript]
    exact congrArg (fun ops => (ops.filterMap fun op => op.act.key).filterMap id) hsplit.symm
  obtain ⟨hrows, hall⟩ := h.told c k hk horder hc row hrow hconn
  rw [hlanded] at hrows hall
  have hpending : k.pending = 0 := by simp only [Conn.pending, hstage]
  -- The rows under the session are those of the connection.
  have hunder : (s.db.rtt.filter fun sample => sample.sessionID = row.id) = s.rttRows c := by
    refine List.filter_congr ?_
    intro sample hsample
    refine decide_eq_decide.mpr ⟨?_, ?_⟩
    · exact fun hid => (hids.ownSamples row hrow).2 sample hsample hid |>.trans hconn
    · intro hsampleconn
      have hin : sample ∈ s.rttRows c :=
        List.mem_filter.mpr ⟨hsample, decide_eq_true hsampleconn⟩
      rw [hrows] at hin
      obtain ⟨f, -, rfl⟩ := List.mem_map.mp hin
      rfl
  refine ⟨?_, ?_, ?_⟩
  · have htotal := htally.total
    rw [hpending] at htotal
    rw [hunder, hrows, toRows, List.map_map]
    exact htotal
  · intro hnil
    rw [hall, htally.empty hnil]
    rfl
  · intro hne
    obtain ⟨f, hlast, hsum⟩ := htally.last hpending hne
    rw [hall, hlast]
    exact ⟨f.all, rfl, hsum⟩

theorem Rows.summed {s : Recorder} (h : s.Rows) (htold : s.Told) (hids : s.Ids) : s.Summed := by
  intro c k hk hstage horder hops
  have hc : s.Intact c := fun op hop => hops op (List.mem_append_left _ hop)
  obtain ⟨startedMs, hone⟩ : ∃ startedMs,
      SessionLog.openings c s.sent = [⟨c, k.ls.id, .opened startedMs⟩] := by
    rcases h.openings c k hk with ⟨hstored, -⟩ | ⟨-, hone⟩
    · cases hstage.symm.trans hstored
    · exact hone
  have hlanded : SessionLog.openings c s.landed = [⟨c, k.ls.id, .opened startedMs⟩] := by
    have hsplit := htold.order c hc
    rw [ofConn_other fun op hop => hops op (List.mem_append_right _ hop), List.append_nil] at hsplit
    rw [← hone, SessionLog.openings, SessionLog.openings, hsplit]
  refine ⟨startedMs, hone, ?_, fun row hrow hconn => ?_⟩
  · have hop : ⟨c, k.ls.id, .opened startedMs⟩ ∈ s.landed :=
      (mem_openings.mp (hlanded ▸ List.mem_cons_self)).1
    exact (h.kept c _ _ hc hop).imp_right fun ⟨row, hrow, _, hconn, _⟩ => ⟨row, hrow, hconn⟩
  · have hop : ⟨row.conn, row.id, .opened row.startedMs⟩ ∈ SessionLog.openings c s.landed :=
      mem_openings.mpr ⟨h.opened row hrow, hconn, rfl⟩
    rw [hlanded, List.mem_singleton, Op.mk.injEq, Act.opened.injEq] at hop
    exact ⟨hop.2.1, hop.2.2, htold.holds hids hk hstage horder hops hrow hconn⟩

/-- In every run, no session holds another connection's samples, and one that is closed with nothing
lost is there with all of its own until it expires. -/
theorem sessions_keep_samples (ls : List Label) :
    Always step (fun s => s.OwnSamples ∧ s.Summed) fresh ls := by
  have hstep : ∀ s l t, s.Ids ∧ s.Told ∧ s.Rows → True → step s l = some t →
      t.Ids ∧ t.Told ∧ t.Rows := by
    intro s l t ⟨hids, htold, hrows⟩ _ ht
    exact ⟨hids.step ht, htold.step hids ht, hrows.step htold hids ht⟩
  have hall : ∀ s : Recorder, s.Ids ∧ s.Told ∧ s.Rows → s.OwnSamples ∧ s.Summed := by
    intro s ⟨hids, htold, hrows⟩
    exact ⟨hids.ownSamples, hrows.summed htold hids⟩
  exact always_of_invariant hstep hall ⟨ids_fresh, told_fresh, rows_fresh⟩
    (along_of_forall (fun _ _ => trivial) _)

/-- A session with one sample, all of it written, and after a restart a prune that is past it. -/
def expiring : List Label :=
  [.prune 0, .newRecorder, .register, .call 0 (.opened 1000), .call 0 (.rtt 2000 5),
    .call 0 .close, .call 0 (.closed 3000 10 20), .land, .land, .land, .restart, .prune 5000]

/-- A minute of samples that is written, and swept, before the session's row is queued. -/
def early : List Label :=
  [.prune 0, .newRecorder, .register, .call 0 (.rtt 60000 5), .call 0 (.rtt 120000 7), .land,
    .prune 0, .call 0 (.opened 1000), .call 0 .close, .call 0 (.closed 130000 10 20), .land, .land,
    .land]

/-- Two closed connections that lost nothing: the rows of one are gone with its session, those of
the other do not count the sample that came before its session's row. -/
theorem written_samples_swept :
    (∃ s k, Reaches step fresh expiring s ∧ s.lost ++ s.queue = [] ∧ s.conns = [k] ∧
      k.stage = .closed ∧ k.samples = [(.opened, 2000, 5)] ∧ s.db.rtt = [] ∧
        s.db.sessions = []) ∧
    ∃ s k, Reaches step fresh early s ∧ s.lost ++ s.queue = [] ∧ s.conns = [k] ∧
      k.stage = .closed ∧ k.samples = [(.stored, 60000, 5), (.stored, 120000, 7)] ∧
        s.db.rtt.map (fun row => (row.t, row.stats.n)) = [(120000, 1)] ∧
          s.db.sessions.map SessionRow.conn = [0] :=
  ⟨⟨_, _, reaches_of_final rfl, rfl, rfl, rfl, rfl, rfl, rfl⟩,
    ⟨_, _, reaches_of_final rfl, rfl, rfl, rfl, rfl, rfl, rfl⟩⟩

end Recorder

end ProxyForward.SessionLog

import Mathlib.Algebra.BigOperators.Group.List.Basic
import Mathlib.Data.List.Induction
import ProxyForward.SessionLog

namespace ProxyForward.SessionLog
set_option autoImplicit true

/-- What happens on a connection between its opening and its close: bytes of its two directions, a
`SampleLive` with its millisecond, and the reports of its player and its RTT. -/
inductive Turn where
  | bytes (din dout : Nat)
  | sample (now : Int)
  | player (name : String) (protocol : Int)
  | rtt (now : Int) (rttMs : Rat)
  deriving DecidableEq, Repr

/-- A connection with its counters. -/
structure Line where
  conn : Conn
  bytesIn : Int
  bytesOut : Int

namespace Line

def step (s : Line) : Turn → Option (Line × List Act)
  | .bytes din dout =>
    some ({ s with bytesIn := s.bytesIn + din, bytesOut := s.bytesOut + dout }, [])
  | .sample now =>
    (s.conn.step (.traffic now s.bytesIn s.bytesOut)).map fun (conn, acts) =>
    ({ s with conn }, acts)
  | .player name protocol =>
    (s.conn.step (.player name protocol)).map fun (conn, acts) => ({ s with conn }, acts)
  | .rtt now rttMs =>
    (s.conn.step (.rtt now rttMs)).map fun (conn, acts) => ({ s with conn }, acts)

def run (s : Line) : List Turn → Option (Line × List Act)
  | [] => some (s, [])
  | turn :: turns => do
    let (s, acts) ← s.step turn
    let (s, acts') ← s.run turns
    some (s, acts ++ acts')

/-- The writes of a session from its opening to its close, which has the final counters. -/
def life (id : Nat) (startedMs : Int) (turns : List Turn) (endedMs : Int) : Option (List Act) := do
  let (conn, opened) ← (⟨.fresh id, .stored, []⟩ : Conn).step (.opened startedMs)
  let (s, acts) ← run ⟨conn, 0, 0⟩ turns
  let (conn, flushed) ← s.conn.step .close
  let (_, closed) ← conn.step (.closed endedMs s.bytesIn s.bytesOut)
  some (opened ++ (acts ++ (flushed ++ closed)))

end Line

/-- The bytes up to each sample since the one before, `acc` being those of the first so far, and the
bytes after the last sample. -/
def pieces (acc : List (Nat × Nat)) : List Turn → List (Int × List (Nat × Nat)) × List (Nat × Nat)
  | [] => ([], acc)
  | .bytes din dout :: turns => pieces (acc ++ [(din, dout)]) turns
  | .sample now :: turns => ((now, acc) :: (pieces [] turns).1, (pieces [] turns).2)
  | _ :: turns => pieces acc turns

def allBytes (turns : List Turn) : List (Nat × Nat) :=
  turns.filterMap fun turn => match turn with
    | .bytes din dout => some (din, dout)
    | _ => none

def sampleTimes (turns : List Turn) : List Int :=
  turns.filterMap fun turn => match turn with
    | .sample now => some now
    | _ => none

def sumIn (bs : List (Nat × Nat)) : Int := ((bs.map Prod.fst).sum : Nat)

def sumOut (bs : List (Nat × Nat)) : Int := ((bs.map Prod.snd).sum : Nat)

/-- The row of a piece that has bytes. -/
def pieceRow (piece : Int × List (Nat × Nat)) : Option (Int × Int × Int) :=
  if sumIn piece.2 = 0 ∧ sumOut piece.2 = 0 then none
  else some (piece.1, sumIn piece.2, sumOut piece.2)

namespace DB

/-- The rows of one session. -/
def own (db : DB) (id : Nat) : DB where
  sessions := db.sessions.filter fun row => row.id = id
  traffic := db.traffic.filter fun row => row.sessionID = id
  rtt := db.rtt.filter fun row => row.sessionID = id

/-- A session's traffic by time. -/
def replay (db : DB) (id : Nat) : List (Int × Int × Int) :=
  (db.own id).traffic.map fun row => (row.t, row.inb, row.outb)

/-- The traffic of a session sums to the totals of its one row. -/
def AddsUp (db : DB) (id : Nat) : Prop :=
  ∃ row, (db.own id).sessions = [row] ∧
    ((db.replay id).map fun r => r.2.1).sum = row.bytesIn ∧
    ((db.replay id).map fun r => r.2.2).sum = row.bytesOut

/-- The session's traffic rows are the pieces between the samples, each byte in one piece or after
the last sample. -/
def NoByteTwice (db : DB) (id : Nat) (turns : List Turn) : Prop :=
  db.replay id = (pieces [] turns).1.filterMap pieceRow ∧
    ((pieces [] turns).1.map Prod.snd).flatten ++ (pieces [] turns).2 = allBytes turns

end DB

/-- No byte comes after the last sample. -/
def AllSampled (turns : List Turn) : Prop :=
  ∀ pre post, turns = pre ++ post → (∀ now, .sample now ∉ post) →
    ∀ din dout, .bytes din dout ∈ post → din = 0 ∧ dout = 0

theorem pieces_flatten (acc : List (Nat × Nat)) (turns : List Turn) :
    ((pieces acc turns).1.map Prod.snd).flatten ++ (pieces acc turns).2 = acc ++
    allBytes turns := by
  induction turns generalizing acc with
  | nil => exact (List.append_nil acc).symm
  | cons turn turns ih =>
    cases turn with
    | bytes din dout =>
      have hbytes : allBytes (.bytes din dout :: turns) = (din, dout) :: allBytes turns := rfl
      rw [pieces, ih, hbytes, List.append_assoc, List.singleton_append]
    | sample now =>
      have hbytes : allBytes (.sample now :: turns) = allBytes turns := rfl
      rw [pieces, hbytes, List.map_cons, List.flatten_cons, List.append_assoc, ih, List.nil_append]
    | player name protocol => exact ih acc
    | rtt now rttMs => exact ih acc

theorem sumIn_append (bs cs : List (Nat × Nat)) : sumIn (bs ++ cs) = sumIn bs + sumIn cs := by
  simp only [sumIn, List.map_append, List.sum_append, Nat.cast_add]

theorem sumOut_append (bs cs : List (Nat × Nat)) : sumOut (bs ++ cs) = sumOut bs + sumOut cs := by
  simp only [sumOut, List.map_append, List.sum_append, Nat.cast_add]

theorem sumIn_nonneg (bs : List (Nat × Nat)) : 0 ≤ sumIn bs := Int.natCast_nonneg _

theorem sumOut_nonneg (bs : List (Nat × Nat)) : 0 ≤ sumOut bs := Int.natCast_nonneg _

def Act.trafficRow : Act → Option (Int × Int × Int)
  | .traffic t inb outb => some (t, inb, outb)
  | _ => none

namespace Line

/-- A connection that is open and whose counters are ahead of its last sample by the bytes `acc`. -/
structure Ahead (s : Line) (acc : List (Nat × Nat)) : Prop where
  opened : s.conn.stage = .opened
  bytesIn : s.bytesIn = s.conn.ls.lastIn + sumIn acc
  bytesOut : s.bytesOut = s.conn.ls.lastOut + sumOut acc

theorem sampleLive_ahead {s : Line} (h : s.Ahead acc) (now : Int) :
    (s.conn.ls.sampleLive now s.bytesIn s.bytesOut).2.filterMap Act.trafficRow =
      (pieceRow (now, acc)).toList := by
  have hin : s.bytesIn - s.conn.ls.lastIn = sumIn acc := by
    rw [h.bytesIn]
    omega
  have hout : s.bytesOut - s.conn.ls.lastOut = sumOut acc := by
    rw [h.bytesOut]
    omega
  have hin' : ¬sumIn acc < 0 := Int.not_lt.2 (sumIn_nonneg acc)
  have hout' : ¬sumOut acc < 0 := Int.not_lt.2 (sumOut_nonneg acc)
  unfold LiveSession.sampleLive pieceRow
  simp only [hin, hout, if_neg hin', if_neg hout']
  split
  · rfl
  · rfl

theorem trafficRow_recordRTT (ls : LiveSession) (now : Int) (rttMs : Rat) :
    (ls.recordRTT now rttMs).2.filterMap Act.trafficRow = [] := by
  unfold LiveSession.recordRTT
  dsimp only
  split
  · rfl
  · rfl

theorem lastIn_recordRTT (ls : LiveSession) (now : Int) (rttMs : Rat) :
    (ls.recordRTT now rttMs).1.lastIn = ls.lastIn ∧
      (ls.recordRTT now rttMs).1.lastOut = ls.lastOut := by
  simp only [LiveSession.recordRTT, LiveSession.addAll, LiveSession.addBucket, LiveSession.bucketAt]
  split
  · exact ⟨rfl, rfl⟩
  · exact ⟨rfl, rfl⟩

/-- The bytes that are ahead of the last sample after a turn. -/
def aheadAfter (acc : List (Nat × Nat)) : Turn → List (Nat × Nat)
  | .bytes din dout => acc ++ [(din, dout)]
  | .sample _ => []
  | _ => acc

theorem step_ahead {s : Line} (h : s.Ahead acc) (turn : Turn) :
    ∃ s' acts, s.step turn = some (s', acts) ∧ s'.Ahead (aheadAfter acc turn) ∧
      s'.bytesIn = s.bytesIn + sumIn (allBytes [turn]) ∧
      s'.bytesOut = s.bytesOut + sumOut (allBytes [turn]) ∧
      acts.filterMap Act.trafficRow = (pieces acc [turn]).1.filterMap pieceRow := by
  obtain ⟨hopened, hin, hout⟩ := h
  have hzeroIn : sumIn (allBytes []) = 0 := rfl
  have hzeroOut : sumOut (allBytes []) = 0 := rfl
  cases turn with
  | bytes din dout =>
    refine ⟨_, _, rfl, ⟨hopened, ?_, ?_⟩, ?_, ?_, rfl⟩
    · dsimp only
      rw [hin, aheadAfter, sumIn_append]
      simp [sumIn, add_assoc]
    · dsimp only
      rw [hout, aheadAfter, sumOut_append]
      simp [sumOut, add_assoc]
    · simp [sumIn, allBytes]
    · simp [sumOut, allBytes]
  | sample now =>
    refine ⟨_, _, rfl, ⟨hopened, (add_zero _).symm, (add_zero _).symm⟩, (add_zero _).symm,
      (add_zero _).symm, ?_⟩
    have hrow := sampleLive_ahead ⟨hopened, hin, hout⟩ now
    rw [hrow]
    unfold pieces
    rw [List.filterMap_cons]
    cases pieceRow (now, acc) <;> rfl
  | player name protocol =>
    exact ⟨_, _, rfl, ⟨hopened, hin, hout⟩, (add_zero _).symm, (add_zero _).symm, rfl⟩
  | rtt now rttMs =>
    by_cases hneg : rttMs < 0
    · refine ⟨s, [], ?_, ⟨hopened, hin, hout⟩, (add_zero _).symm, (add_zero _).symm, rfl⟩
      simp only [step, Conn.step, if_pos hneg, Option.map_some]
    · obtain ⟨hlastIn, hlastOut⟩ := lastIn_recordRTT s.conn.ls now rttMs
      have hstep : s.step (.rtt now rttMs) = some (⟨{ s.conn with
          ls := (s.conn.ls.recordRTT now rttMs).1
          samples := s.conn.samples ++ [(s.conn.stage, now, rttMs)] }, s.bytesIn, s.bytesOut⟩,
          (s.conn.ls.recordRTT now rttMs).2) := by
        simp only [step, Conn.step, if_neg hneg, Option.map_some]
      refine ⟨_, _, hstep, ⟨hopened, ?_, ?_⟩, (add_zero _).symm, (add_zero _).symm,
        trafficRow_recordRTT s.conn.ls now rttMs⟩
      · exact hin.trans (congrArg (· + sumIn acc) hlastIn.symm)
      · exact hout.trans (congrArg (· + sumOut acc) hlastOut.symm)

theorem pieces_cons (acc : List (Nat × Nat)) (turn : Turn) (turns : List Turn) :
    (pieces acc (turn :: turns)).1 =
        (pieces acc [turn]).1 ++ (pieces (aheadAfter acc turn) turns).1 ∧
      (pieces acc (turn :: turns)).2 = (pieces (aheadAfter acc turn) turns).2 := by
  cases turn with
  | bytes din dout => exact ⟨rfl, rfl⟩
  | sample now => exact ⟨rfl, rfl⟩
  | player name protocol => exact ⟨rfl, rfl⟩
  | rtt now rttMs => exact ⟨rfl, rfl⟩

theorem allBytes_cons (turn : Turn) (turns : List Turn) :
    allBytes (turn :: turns) = allBytes [turn] ++ allBytes turns :=
  List.filterMap_append (l := [turn])

theorem run_ahead {s : Line} (h : s.Ahead acc) (turns : List Turn) :
    ∃ s' acts, s.run turns = some (s', acts) ∧ s'.conn.stage = .opened ∧
      s'.bytesIn = s.bytesIn + sumIn (allBytes turns) ∧
      s'.bytesOut = s.bytesOut + sumOut (allBytes turns) ∧
      acts.filterMap Act.trafficRow = (pieces acc turns).1.filterMap pieceRow := by
  induction turns generalizing s acc with
  | nil => exact ⟨s, [], rfl, h.opened, (add_zero _).symm, (add_zero _).symm, rfl⟩
  | cons turn turns ih =>
    obtain ⟨t, acts, hstep, ht, htIn, htOut, hacts⟩ := step_ahead h turn
    obtain ⟨u, acts', hrun, hu, huIn, huOut, hacts'⟩ := ih ht
    refine ⟨u, acts ++ acts', ?_, hu, ?_, ?_, ?_⟩
    · simp only [run, hstep, hrun, Option.bind_eq_bind, Option.bind_some]
    · rw [huIn, htIn, allBytes_cons turn turns, sumIn_append, add_assoc]
    · rw [huOut, htOut, allBytes_cons turn turns, sumOut_append, add_assoc]
    · rw [List.filterMap_append, hacts, hacts', (pieces_cons acc turn turns).1,
        List.filterMap_append]

theorem life_acts (id : Nat) (startedMs : Int) (turns : List Turn) (endedMs : Int) :
    ∃ acts, life id startedMs turns endedMs = some (.opened startedMs :: (acts ++
        [.closed endedMs (sumIn (allBytes turns)) (sumOut (allBytes turns))])) ∧
      acts.filterMap Act.trafficRow = (pieces [] turns).1.filterMap pieceRow := by
  have hstart : Ahead ⟨⟨.fresh id, .opened, []⟩, 0, 0⟩ [] := ⟨rfl, rfl, rfl⟩
  obtain ⟨s, acts, hrun, hstage, hin, hout, hacts⟩ := run_ahead hstart turns
  have hopen : (⟨.fresh id, .stored, []⟩ : Conn).step (.opened startedMs) =
      some (⟨.fresh id, .opened, []⟩, [.opened startedMs]) := rfl
  have hclose : s.conn.step .close = some ({ s.conn with stage := .closing },
      if 0 < s.conn.ls.bucketN then [s.conn.ls.flushRTTBucket] else []) := by
    simp only [Conn.step, if_pos hstage]
  have hclosed : ({ s.conn with stage := .closing } : Conn).step
      (.closed endedMs s.bytesIn s.bytesOut) = some ({ s.conn with stage := .closed },
        [.closed endedMs (sumIn (allBytes turns)) (sumOut (allBytes turns))]) := by
    rw [hin, hout]
    simp only [Conn.step, if_true, zero_add]
  refine ⟨acts ++ if 0 < s.conn.ls.bucketN then [s.conn.ls.flushRTTBucket] else [], ?_, ?_⟩
  · simp only [life, hopen, hrun, hclose, hclosed, Option.bind_eq_bind, Option.bind_some,
      List.singleton_append, List.append_assoc]
  · have hflush : (if 0 < s.conn.ls.bucketN then [s.conn.ls.flushRTTBucket] else []).filterMap
        Act.trafficRow = [] := by
      split
      · rfl
      · rfl
    rw [List.filterMap_append, hflush, List.append_nil, hacts]

end Line

namespace DB

theorem own_update (db : DB) (hid : ∀ row, (f row).id = row.id) (i id : Nat) :
    (db.update i f).own id = (db.own id).update i f := by
  have hkeep : ((fun row : SessionRow => decide (row.id = id)) ∘
      fun row => if row.id = i then f row else row) = fun row => decide (row.id = id) := by
    funext row
    simp only [Function.comp_apply]
    split
    · rw [hid]
    · rfl
  simp only [own, update, List.filter_map, hkeep]

theorem update_own_other (db : DB) {i id : Nat} (hne : i ≠ id) :
    (db.own id).update i f = db.own id := by
  have hsame : ∀ row ∈ (db.own id).sessions, (if row.id = i then f row else row) = row := by
    intro row hrow
    have hid : row.id = id := of_decide_eq_true (List.mem_filter.1 hrow).2
    exact if_neg fun h => hne (h.symm.trans hid)
  rw [update, List.map_congr_left hsame, List.map_id']

theorem filter_replaced {α : Type} (session : α → Nat) (time : α → Int) (rows : List α) {row : α}
    {i : Nat} (hrow : session row = i) (t : Int) (id : Nat) :
    (rows.filter (fun r => !(session r = i && time r = t)) ++ [row]).filter
        (fun r => session r = id) =
      if i = id then (rows.filter fun r => session r = id).filter
        (fun r => !(session r = i && time r = t)) ++ [row]
      else rows.filter fun r => session r = id := by
  rw [List.filter_append, List.filter_filter]
  by_cases hid : i = id
  · subst hid
    have hcomm : (fun r => decide (session r = i) && !(session r = i && time r = t)) =
        fun r => !(decide (session r = i) && decide (time r = t)) && decide (session r = i) :=
      funext fun r => Bool.and_comm ..
    rw [if_pos rfl, List.filter_filter, hcomm, List.filter_singleton, hrow, decide_eq_true rfl]
    rfl
  · have hkeep : (fun r => decide (session r = id) && !(session r = i && time r = t)) =
        fun r => decide (session r = id) := by
      funext r
      by_cases hr : session r = id
      · have hne : session r ≠ i := fun h => hid (h.symm.trans hr)
        simp [hr, Ne.symm hid]
      · simp [hr]
    rw [if_neg hid, hkeep, List.filter_singleton, hrow, decide_eq_false hid]
    exact List.append_nil _

theorem own_land (db : DB) (op : Op) (id : Nat) :
    (db.land op).own id = if op.id = id then (db.own id).land op else db.own id := by
  obtain ⟨conn, i, act⟩ := op
  have hupdate (db : DB) {f : SessionRow → SessionRow} (hid : ∀ row, (f row).id = row.id) :
      (db.update i f).own id = if i = id then (db.own id).update i f else db.own id := by
    rw [own_update db hid]
    split
    · rfl
    · rename_i hne
      exact update_own_other db hne
  cases act with
  | opened startedMs =>
    by_cases hid : i = id
    · subst hid
      have hmem : i ∈ (db.own i).sessions.map SessionRow.id ↔
        i ∈ db.sessions.map SessionRow.id := by
        simp [own]
      rw [if_pos rfl]
      unfold land
      dsimp only
      by_cases hin : i ∈ db.sessions.map SessionRow.id
      · rw [if_pos hin, if_pos (hmem.2 hin)]
      · rw [if_neg hin, if_neg (mt hmem.1 hin)]
        simp [own]
    · rw [if_neg hid]
      unfold land
      dsimp only
      split
      · rfl
      · simp [own, hid]
  | player name protocol => exact hupdate db fun _ => rfl
  | closed endedMs bytesIn bytesOut => exact hupdate db fun _ => rfl
  | rtt t bucket all =>
    have hrow : RttRow.sessionID ⟨i, conn, t, bucket⟩ = i := rfl
    have hrows := filter_replaced RttRow.sessionID RttRow.t db.rtt hrow t id
    have hland (db : DB) : db.land ⟨conn, i, .rtt t bucket all⟩ =
        update { db with
          rtt := db.rtt.filter (fun row => !(row.sessionID = i && row.t = t)) ++
            [⟨i, conn, t, bucket⟩] } i fun row => { row with rtt := some all } := rfl
    rw [hland, hland, hupdate _ (by intro row; rfl)]
    by_cases hid : i = id
    · rw [if_pos hid] at hrows ⊢
      rw [if_pos hid]
      simp only [own, hrows]
    · rw [if_neg hid] at hrows ⊢
      rw [if_neg hid]
      simp only [own, hrows]
  | traffic t inb outb =>
    have hrow : TrafficRow.sessionID ⟨i, conn, t, inb, outb⟩ = i := rfl
    have hrows := filter_replaced TrafficRow.sessionID TrafficRow.t db.traffic hrow t id
    change own { db with traffic := _ } id = _
    simp only [own, hrows]
    by_cases hid : i = id
    · rw [if_pos hid, if_pos hid]
      rfl
    · rw [if_neg hid, if_neg hid]

theorem own_foldl (db : DB) (ops : List Op) (id : Nat) :
    (ops.foldl land db).own id = (ops.filter fun op => op.id = id).foldl land (db.own id) := by
  induction ops generalizing db with
  | nil => rfl
  | cons op ops ih =>
    rw [List.foldl_cons, ih, own_land]
    by_cases hid : op.id = id
    · rw [if_pos hid, List.filter_cons_of_pos (by simpa using hid), List.foldl_cons]
    · rw [if_neg hid, List.filter_cons_of_neg (by simpa using hid)]

/-- The rows of a session whose row is there. -/
def IsSession (db : DB) (id : Nat) : Prop := ∃ row, db.sessions = [row] ∧ row.id = id

theorem IsSession.land (h : IsSession db i) (op : Op) (hid : op.id = i) :
    IsSession (db.land op) i := by
  obtain ⟨row, hrow, hi⟩ := h
  subst hid
  have hupdate (db : DB) {f : SessionRow → SessionRow} (hf : ∀ row, (f row).id = row.id)
      (h : db.sessions = [row]) : IsSession (db.update op.id f) op.id := by
    refine ⟨f row, ?_, (hf row).trans hi⟩
    rw [update, h, List.map_singleton, if_pos hi]
  unfold DB.land
  cases op.act with
  | opened startedMs =>
    have hmem : op.id ∈ db.sessions.map SessionRow.id := by
      rw [hrow, ← hi]
      exact List.mem_singleton_self _
    exact ⟨row, by simpa only [if_pos hmem] using hrow, hi⟩
  | player name protocol => exact hupdate db (fun _ => rfl) hrow
  | closed endedMs bytesIn bytesOut => exact hupdate db (fun _ => rfl) hrow
  | rtt t bucket all => exact hupdate _ (fun _ => rfl) hrow
  | traffic t inb outb => exact ⟨row, hrow, hi⟩

theorem IsSession.foldl (h : IsSession db i) (ops : List Op) (hid : ∀ op ∈ ops, op.id = i) :
    IsSession (ops.foldl DB.land db) i := by
  induction ops generalizing db with
  | nil => exact h
  | cons op ops ih =>
    exact ih (h.land op (hid op List.mem_cons_self)) fun op hop =>
      hid op (List.mem_cons_of_mem _ hop)

theorem land_traffic (db : DB) (op : Op) :
    (op.act.trafficRow = none ∧ (db.land op).traffic = db.traffic) ∨
      ∃ t inb outb, op.act = .traffic t inb outb ∧ (db.land op).traffic =
        (db.traffic.filter fun row => !(row.sessionID = op.id && row.t = t)) ++
          [⟨op.id, op.conn, t, inb, outb⟩] := by
  unfold land
  cases op.act with
  | opened startedMs =>
    left
    refine ⟨rfl, ?_⟩
    dsimp only
    split <;> rfl
  | player name protocol => exact .inl ⟨rfl, rfl⟩
  | closed endedMs bytesIn bytesOut => exact .inl ⟨rfl, rfl⟩
  | rtt t bucket all => exact .inl ⟨rfl, rfl⟩
  | traffic t inb outb => exact .inr ⟨t, inb, outb, rfl, rfl⟩

theorem foldl_traffic (db : DB) (hnone : db.traffic = []) (ops : List Op)
    (hrise : ((ops.filterMap fun op => op.act.trafficRow).map Prod.fst).Pairwise (· < ·)) :
    (ops.foldl land db).traffic.map (fun row => (row.t, row.inb, row.outb)) =
      ops.filterMap fun op => op.act.trafficRow := by
  induction ops using List.reverseRecOn with
  | nil => rw [List.foldl_nil, hnone]; rfl
  | append_singleton ops op ih =>
    rw [List.filterMap_append, List.map_append] at hrise
    obtain ⟨hrise, -, hlast⟩ := List.pairwise_append.1 hrise
    have hrows := ih hrise
    rw [List.foldl_concat, List.filterMap_append]
    obtain ⟨hnot, hland⟩ | ⟨t, inb, outb, hact, hland⟩ := (ops.foldl land db).land_traffic op
    · rw [hland, hrows, List.filterMap_cons, hnot]
      exact (List.append_nil _).symm
    · have hkeep : ((ops.foldl land db).traffic.filter fun row =>
          !(row.sessionID = op.id && row.t = t)) = (ops.foldl land db).traffic := by
        apply List.filter_eq_self.2
        intro row hrow
        have hkey : row.t ∈ (ops.filterMap fun op => op.act.trafficRow).map Prod.fst := by
          rw [← hrows, List.map_map]
          exact List.mem_map_of_mem hrow
        have hlt : row.t < t := by
          apply hlast _ hkey
          rw [List.filterMap_cons, hact]
          exact List.mem_singleton_self _
        simp [hlt.ne]
      rw [hland, hkeep, List.map_append, hrows, List.filterMap_cons, hact]
      rfl

end DB

theorem sampleTimes_pieces (acc : List (Nat × Nat)) (turns : List Turn) :
    (pieces acc turns).1.map Prod.fst = sampleTimes turns := by
  induction turns generalizing acc with
  | nil => rfl
  | cons turn turns ih =>
    cases turn with
    | bytes din dout => exact ih _
    | sample now => exact congrArg (now :: ·) (ih [])
    | player name protocol => exact ih acc
    | rtt now rttMs => exact ih acc

theorem rise_pieceRows (ps : List (Int × List (Nat × Nat)))
    (hrise : (ps.map Prod.fst).Pairwise (· < ·)) :
    ((ps.filterMap pieceRow).map Prod.fst).Pairwise (· < ·) := by
  rw [List.pairwise_map] at hrise ⊢
  rw [List.pairwise_filterMap]
  apply hrise.imp
  intro piece piece' hlt row hrow row' hrow'
  simp only [pieceRow, Option.ite_none_left_eq_some, Option.some.injEq] at hrow hrow'
  obtain ⟨-, rfl⟩ := hrow
  obtain ⟨-, rfl⟩ := hrow'
  exact hlt

theorem sum_pieceRows (ps : List (Int × List (Nat × Nat))) :
    ((ps.filterMap pieceRow).map fun r => r.2.1).sum = sumIn (ps.map Prod.snd).flatten ∧
      ((ps.filterMap pieceRow).map fun r => r.2.2).sum = sumOut (ps.map Prod.snd).flatten := by
  induction ps with
  | nil => exact ⟨rfl, rfl⟩
  | cons piece ps ih =>
    obtain ⟨hin, hout⟩ := ih
    rw [List.map_cons, List.flatten_cons, sumIn_append, sumOut_append, List.filterMap_cons]
    by_cases hzero : sumIn piece.2 = 0 ∧ sumOut piece.2 = 0
    · rw [pieceRow, if_pos hzero, hzero.1, hzero.2, zero_add, zero_add]
      exact ⟨hin, hout⟩
    · rw [pieceRow, if_neg hzero, ← hin, ← hout]
      exact ⟨rfl, rfl⟩

theorem mem_allBytes : (din, dout) ∈ allBytes turns ↔ .bytes din dout ∈ turns := by
  unfold allBytes
  rw [List.mem_filterMap]
  constructor
  · rintro ⟨turn, hturn, h⟩
    cases turn with
    | bytes din dout =>
      cases h
      exact hturn
    | sample now => cases h
    | player name protocol => cases h
    | rtt now rttMs => cases h
  · intro h
    exact ⟨_, h, rfl⟩

theorem pieces_unsampled (acc : List (Nat × Nat)) (hnone : ∀ now, Turn.sample now ∉ turns) :
    (pieces acc turns).2 = acc ++ allBytes turns := by
  have hflat := pieces_flatten acc turns
  have htimes := sampleTimes_pieces acc turns
  have hno : sampleTimes turns = [] := by
    unfold sampleTimes
    rw [List.filterMap_eq_nil_iff]
    intro turn hturn
    cases turn with
    | sample now => exact absurd hturn (hnone now)
    | bytes din dout => rfl
    | player name protocol => rfl
    | rtt now rttMs => rfl
  rw [hno, List.map_eq_nil_iff] at htimes
  rw [htimes] at hflat
  exact hflat

theorem pieces_tail (acc : List (Nat × Nat)) (turns : List Turn) :
    (∀ now, Turn.sample now ∉ turns) ∨ ∃ pre post, turns = pre ++ post ∧
      (∀ now, Turn.sample now ∉ post) ∧ (pieces acc turns).2 = allBytes post := by
  induction turns generalizing acc with
  | nil => exact .inl fun now => List.not_mem_nil
  | cons turn turns ih =>
    rw [(Line.pieces_cons acc turn turns).2]
    obtain hnone | ⟨pre, post, rfl, hpost, htail⟩ := ih (Line.aheadAfter acc turn)
    · by_cases hturn : ∃ now, turn = .sample now
      · obtain ⟨now, rfl⟩ := hturn
        exact .inr ⟨[.sample now], turns, rfl, hnone, pieces_unsampled [] hnone⟩
      · left
        intro now hmem
        obtain heq | hmem := List.mem_cons.1 hmem
        · exact hturn ⟨now, heq.symm⟩
        · exact hnone now hmem
    · exact .inr ⟨turn :: pre, post, rfl, hpost, htail⟩

theorem mem_pieces_tail (acc : List (Nat × Nat)) (pre : List Turn)
    (hnone : ∀ now, Turn.sample now ∉ post) (hb : .bytes din dout ∈ post) :
    (din, dout) ∈ (pieces acc (pre ++ post)).2 := by
  induction pre generalizing acc with
  | nil =>
    rw [List.nil_append, pieces_unsampled acc hnone]
    exact List.mem_append_right _ (mem_allBytes.2 hb)
  | cons turn pre ih =>
    rw [List.cons_append, (Line.pieces_cons acc turn (pre ++ post)).2]
    exact ih _

theorem sum_eq_zero_iff (bs : List (Nat × Nat)) :
    sumIn bs = 0 ∧ sumOut bs = 0 ↔ ∀ b ∈ bs, b.1 = 0 ∧ b.2 = 0 := by
  simp only [sumIn, sumOut, Nat.cast_eq_zero, List.sum_eq_zero_iff_forall_eq_nat, List.mem_map,
    forall_exists_index, and_imp, forall_apply_eq_imp_iff₂]
  exact forall₂_and.symm

theorem allSampled_iff (turns : List Turn) : AllSampled turns ↔
    sumIn (pieces [] turns).2 = 0 ∧ sumOut (pieces [] turns).2 = 0 := by
  rw [sum_eq_zero_iff]
  constructor
  · intro h b hb
    obtain hnone | ⟨pre, post, rfl, hpost, htail⟩ := pieces_tail [] turns
    · rw [pieces_unsampled [] hnone, List.nil_append] at hb
      exact h [] turns rfl hnone b.1 b.2 (mem_allBytes.1 hb)
    · rw [htail] at hb
      exact h pre post rfl hpost b.1 b.2 (mem_allBytes.1 hb)
  · rintro h pre post rfl hpost din dout hb
    exact h (din, dout) (mem_pieces_tail [] pre hpost hb)

theorem landed_life {db : DB} {ops : List Op} {id : Nat} (hsession : id ∉ db.ids)
    (htraffic : ∀ row ∈ db.traffic, row.sessionID ≠ id)
    (hown : (ops.filter fun op => op.id = id).map Op.act =
      .opened startedMs :: (acts ++ [.closed endedMs bytesIn bytesOut]))
    (hrise : ((acts.filterMap Act.trafficRow).map Prod.fst).Pairwise (· < ·)) :
    (ops.foldl DB.land db).replay id = acts.filterMap Act.trafficRow ∧
      ∃ row, ((ops.foldl DB.land db).own id).sessions = [row] ∧ row.bytesIn = bytesIn ∧
        row.bytesOut = bytesOut := by
  have hfilter : ∀ op ∈ ops.filter fun op => op.id = id, op.id = id :=
    fun op hop => of_decide_eq_true (List.mem_filter.1 hop).2
  have hsessions : (db.own id).sessions = [] := by
    apply List.filter_eq_nil_iff.2
    intro row hrow hid
    exact hsession (List.mem_map.2 ⟨row, hrow, of_decide_eq_true hid⟩)
  have hempty : (db.own id).traffic = [] := by
    apply List.filter_eq_nil_iff.2
    intro row hrow hid
    exact htraffic row hrow (of_decide_eq_true hid)
  have hrows : (ops.filter fun op => op.id = id).filterMap (fun op => op.act.trafficRow) =
      acts.filterMap Act.trafficRow := by
    have hcomp := List.filterMap_map (l := ops.filter fun op => op.id = id) (f := Op.act)
      (g := Act.trafficRow)
    rw [hown] at hcomp
    refine hcomp.symm.trans ?_
    rw [List.filterMap_cons, List.filterMap_append]
    exact List.append_nil _
  unfold DB.replay
  rw [DB.own_foldl]
  constructor
  · rw [DB.foldl_traffic _ hempty _ (hrows ▸ hrise), hrows]
  · obtain ⟨first, rest, hops, hfirst, hrest⟩ := List.map_eq_cons_iff.1 hown
    obtain ⟨mid, last, hmid, -, hlast⟩ := List.map_eq_append_iff.1 hrest
    obtain ⟨close, none, rfl, hclose, hnil⟩ := List.map_eq_cons_iff.1 hlast
    rw [List.map_eq_nil_iff] at hnil
    subst hnil hmid
    rw [hops] at hfilter ⊢
    rw [List.foldl_cons, List.foldl_concat]
    have hopened : ((db.own id).land first).IsSession id := by
      have hid := hfilter first List.mem_cons_self
      unfold DB.land
      rw [hfirst, hsessions]
      exact ⟨_, rfl, hid⟩
    obtain ⟨row, hrow, hid⟩ := hopened.foldl mid fun op hop =>
      hfilter op (List.mem_cons_of_mem _ (List.mem_append_left _ hop))
    have hlid : close.id = id :=
      hfilter close (List.mem_cons_of_mem _ (List.mem_append_right _ (List.mem_singleton_self _)))
    refine ⟨{ row with endedMs := some endedMs, bytesIn, bytesOut }, ?_, rfl, rfl⟩
    have hland (db : DB) : db.land close = db.update close.id fun row =>
        { row with endedMs := some endedMs, bytesIn, bytesOut } := by
      rw [DB.land, hclose]
    rw [hland, DB.update, hrow, List.map_singleton, if_pos (hid.trans hlid.symm)]

/-- With all its writes landed, a session's traffic has no byte twice, and sums to its totals
exactly when no byte came after the last sample. -/
theorem replay_adds_up_iff (id : Nat) (startedMs : Int) (turns : List Turn) (endedMs : Int)
    (hrise : (sampleTimes turns).Pairwise (· < ·)) :
    ∃ acts, Line.life id startedMs turns endedMs = some acts ∧
      ∀ (db : DB) (ops : List Op), id ∉ db.ids → (∀ row ∈ db.traffic, row.sessionID ≠ id) →
        (ops.filter fun op => op.id = id).map Op.act = acts →
          (ops.foldl DB.land db).NoByteTwice id turns ∧
            ((ops.foldl DB.land db).AddsUp id ↔ AllSampled turns) := by
  obtain ⟨acts, hlife, hacts⟩ := Line.life_acts id startedMs turns endedMs
  refine ⟨_, hlife, ?_⟩
  intro db ops hsession htraffic hown
  have hrows : ((acts.filterMap Act.trafficRow).map Prod.fst).Pairwise (· < ·) := by
    rw [hacts]
    apply rise_pieceRows
    rw [sampleTimes_pieces]
    exact hrise
  obtain ⟨hreplay, row, hrow, hin, hout⟩ := landed_life hsession htraffic hown hrows
  rw [hacts] at hreplay
  have hflat := pieces_flatten [] turns
  refine ⟨⟨hreplay, hflat⟩, ?_⟩
  rw [List.nil_append] at hflat
  obtain ⟨hsumIn, hsumOut⟩ := sum_pieceRows (pieces [] turns).1
  rw [allSampled_iff, DB.AddsUp, hreplay, hsumIn, hsumOut]
  rw [← hflat, sumIn_append] at hin
  rw [← hflat, sumOut_append] at hout
  constructor
  · rintro ⟨row', hrow', hin', hout'⟩
    cases hrow.symm.trans hrow'
    omega
  · rintro ⟨hzeroIn, hzeroOut⟩
    exact ⟨row, hrow, by omega, by omega⟩

theorem replay_adds_up_sampled : ∃ acts, Line.life 1 1000 [.bytes 5 7, .sample 16000] 20000 =
    some acts ∧ ∀ (db : DB) (ops : List Op), 1 ∉ db.ids → (∀ row ∈ db.traffic, row.sessionID ≠ 1) →
      (ops.filter fun op => op.id = 1).map Op.act = acts →
        (ops.foldl DB.land db).NoByteTwice 1 [.bytes 5 7, .sample 16000] ∧
          ((ops.foldl DB.land db).AddsUp 1 ↔ AllSampled [.bytes 5 7, .sample 16000]) :=
  replay_adds_up_iff 1 1000 [.bytes 5 7, .sample 16000] 20000 (List.pairwise_singleton _ _)

/-- The bytes after the last sample are in no row of the traffic. -/
theorem tail_of_session_missing :
    ¬∀ (id : Nat) (startedMs : Int) (turns : List Turn) (endedMs : Int),
    (sampleTimes turns).Pairwise (· < ·) →
      ∀ acts, Line.life id startedMs turns endedMs = some acts →
        ∀ (db : DB) (ops : List Op), id ∉ db.ids → (∀ row ∈ db.traffic, row.sessionID ≠ id) →
          (ops.filter fun op => op.id = id).map Op.act = acts →
            (ops.foldl DB.land db).AddsUp id := by
  intro h
  have hadds := h 1 1000 [.bytes 5 7, .sample 16000, .bytes 100 0] 20000
    (List.pairwise_singleton _ _)
    [.opened 1000, .traffic 16000 5 7, .closed 20000 105 7] rfl ⟨[], [], []⟩
    [⟨0, 1, .opened 1000⟩, ⟨0, 1, .traffic 16000 5 7⟩, ⟨0, 1, .closed 20000 105 7⟩]
    List.not_mem_nil nofun rfl
  obtain ⟨row, hrow, hin, -⟩ := hadds
  cases hrow
  exact absurd hin (by decide)

end ProxyForward.SessionLog

import Mathlib.Algebra.Order.Field.Rat
import Mathlib.Data.List.Basic
import ProxyForward.Runs

namespace ProxyForward.SessionLog
set_option autoImplicit true
open Runs

/-- The `rtt_*` columns of a session, or a minute's row. -/
structure RttStats where
  avg : Rat
  mn : Rat
  mx : Rat
  n : Nat
  deriving DecidableEq, Repr

/-- A queued write. -/
inductive Act where
  | opened (startedMs : Int)
  | player (name : String) (protocol : Int)
  | closed (endedMs bytesIn bytesOut : Int)
  | rtt (t : Int) (bucket all : RttStats)
  | traffic (t inb outb : Int)
  deriving DecidableEq, Repr

/-- A write with the session id it names. `conn` is the connection it is for, which the database
does not know. -/
structure Op where
  conn : Nat
  id : Nat
  act : Act
  deriving DecidableEq, Repr

structure SessionRow where
  id : Nat
  conn : Nat
  startedMs : Int
  endedMs : Option Int
  bytesIn : Int
  bytesOut : Int
  player : Option (String × Int)
  rtt : Option RttStats
  deriving DecidableEq, Repr

structure TrafficRow where
  sessionID : Nat
  conn : Nat
  t : Int
  inb : Int
  outb : Int
  deriving DecidableEq, Repr

structure RttRow where
  sessionID : Nat
  conn : Nat
  t : Int
  stats : RttStats
  deriving DecidableEq, Repr

structure DB where
  sessions : List SessionRow
  traffic : List TrafficRow
  rtt : List RttRow
  deriving DecidableEq, Repr

namespace DB

/-- `UPDATE sessions ... WHERE id = ?`. -/
def update (db : DB) (id : Nat) (f : SessionRow → SessionRow) : DB :=
  { db with sessions := db.sessions.map fun row => if row.id = id then f row else row }

/-- The write of an operation. An insert of an id that is there fails. -/
def land (db : DB) (op : Op) : DB :=
  match op.act with
  | .opened startedMs =>
    if op.id ∈ db.sessions.map SessionRow.id then db
    else
      { db with
        sessions := db.sessions ++ [⟨op.id, op.conn, startedMs, none, 0, 0, none, none⟩] }
  | .player name protocol => db.update op.id fun row => { row with player := some (name, protocol) }
  | .closed endedMs bytesIn bytesOut =>
    db.update op.id fun row => { row with endedMs := some endedMs, bytesIn, bytesOut }
  | .rtt t bucket all =>
    let rows := db.rtt.filter fun row => !(row.sessionID = op.id && row.t = t)
    update { db with rtt := rows ++ [⟨op.id, op.conn, t, bucket⟩] } op.id fun row =>
      { row with rtt := some all }
  | .traffic t inb outb =>
    let rows := db.traffic.filter fun row => !(row.sessionID = op.id && row.t = t)
    { db with traffic := rows ++ [⟨op.id, op.conn, t, inb, outb⟩] }

/-- The prune's steps on sessions, and the orphan sweeps after it. -/
def prune (db : DB) (cutoff : Int) : DB :=
  let sessions := db.sessions.filter fun row => !(row.startedMs < cutoff && row.endedMs.isSome)
  { sessions
    traffic := db.traffic.filter fun row => row.sessionID ∈ sessions.map SessionRow.id
    rtt := db.rtt.filter fun row => row.sessionID ∈ sessions.map SessionRow.id }

/-- `COALESCE(MAX(id), 0)`. -/
def maxID (db : DB) : Nat := (db.sessions.map SessionRow.id).foldr max 0

end DB

structure LiveSession where
  id : Nat
  lastIn : Int
  lastOut : Int
  bucketMinute : Int
  bucketSum : Rat
  bucketMin : Rat
  bucketMax : Rat
  bucketN : Nat
  allSum : Rat
  allMin : Rat
  allMax : Rat
  allN : Nat
  deriving DecidableEq, Repr

namespace LiveSession

def fresh (id : Nat) : LiveSession := ⟨id, 0, 0, 0, 0, 0, 0, 0, 0, 0, 0, 0⟩

/-- The write of `flushRTTBucketLocked`. -/
def flushRTTBucket (ls : LiveSession) : Act :=
  .rtt ls.bucketMinute ⟨ls.bucketSum / ls.bucketN, ls.bucketMin, ls.bucketMax, ls.bucketN⟩
    ⟨ls.allSum / ls.allN, ls.allMin, ls.allMax, ls.allN⟩

/-- The bucket of a sample's minute, a new one unless it is open. -/
def bucketAt (ls : LiveSession) (minute : Int) (rttMs : Rat) : LiveSession :=
  if ls.bucketMinute ≠ minute then
    { ls with
      bucketMinute := minute
      bucketSum := 0
      bucketN := 0
      bucketMin := rttMs
      bucketMax := rttMs }
  else ls

def addBucket (ls : LiveSession) (rttMs : Rat) : LiveSession :=
  { ls with
    bucketSum := ls.bucketSum + rttMs
    bucketN := ls.bucketN + 1
    bucketMin := if rttMs < ls.bucketMin then rttMs else ls.bucketMin
    bucketMax := if ls.bucketMax < rttMs then rttMs else ls.bucketMax }

def addAll (ls : LiveSession) (rttMs : Rat) : LiveSession :=
  let allMin := if ls.allN = 0 then rttMs else ls.allMin
  let allMax := if ls.allN = 0 then rttMs else ls.allMax
  { ls with
    allSum := ls.allSum + rttMs
    allN := ls.allN + 1
    allMin := if rttMs < allMin then rttMs else allMin
    allMax := if allMax < rttMs then rttMs else allMax }

/-- The locked part of `RecordRTT`, with the writes it queues. -/
def recordRTT (ls : LiveSession) (now : Int) (rttMs : Rat) : LiveSession × List Act :=
  let minute := now - now.tmod 60000
  (((ls.bucketAt minute rttMs).addBucket rttMs).addAll rttMs,
    if ls.bucketMinute ≠ minute ∧ 0 < ls.bucketN then [ls.flushRTTBucket] else [])

/-- One connection of `SampleLive`. -/
def sampleLive (ls : LiveSession) (now bytesIn bytesOut : Int) : LiveSession × List Act :=
  let din := if bytesIn - ls.lastIn < 0 then 0 else bytesIn - ls.lastIn
  let dout := if bytesOut - ls.lastOut < 0 then 0 else bytesOut - ls.lastOut
  ({ ls with lastIn := bytesIn, lastOut := bytesOut },
    if din = 0 ∧ dout = 0 then [] else [.traffic now din dout])

end LiveSession

/-- How far the calls that open and close a connection are: `SessionOpened` has stored the session,
has queued its row; `SessionClosed` has deleted the session and flushed, has queued. -/
inductive Stage where
  | stored
  | opened
  | closing
  | closed
  deriving DecidableEq, Repr

/-- A connection's live session, which a call may still hold after it is deleted, and the RTT
samples it got, each with the stage then. -/
structure Conn where
  ls : LiveSession
  stage : Stage
  samples : List (Stage × Int × Rat)
  deriving DecidableEq, Repr

/-- What a call that holds a connection's live session does next. -/
inductive Event where
  | opened (startedMs : Int)
  | player (name : String) (protocol : Int)
  | rtt (now : Int) (rttMs : Rat)
  | traffic (now bytesIn bytesOut : Int)
  | close
  | closed (endedMs bytesIn bytesOut : Int)
  deriving DecidableEq, Repr

/-- The connection after an event, and the writes queued. -/
def Conn.step (k : Conn) : Event → Option (Conn × List Act)
  | .opened startedMs =>
    if k.stage = .stored then some ({ k with stage := .opened }, [.opened startedMs]) else none
  | .player name protocol => some (k, [.player name protocol])
  | .rtt now rttMs =>
    if rttMs < 0 then some (k, [])
    else some ({ k with
      ls := (k.ls.recordRTT now rttMs).1
      samples := k.samples ++ [(k.stage, now, rttMs)] }, (k.ls.recordRTT now rttMs).2)
  | .traffic now bytesIn bytesOut =>
    some ({ k with ls := (k.ls.sampleLive now bytesIn bytesOut).1 },
      (k.ls.sampleLive now bytesIn bytesOut).2)
  | .close =>
    if k.stage = .opened then
      some ({ k with stage := .closing }, if 0 < k.ls.bucketN then [k.ls.flushRTTBucket] else [])
    else none
  | .closed endedMs bytesIn bytesOut =>
    if k.stage = .closing then
      some ({ k with stage := .closed }, [.closed endedMs bytesIn bytesOut])
    else none

/-- The database and the recorder of one process after another. -/
structure Recorder where
  db : DB
  /-- All connections so far; those from `first` on are of the process that runs. -/
  conns : List Conn
  first : Nat
  /-- The id that `NewRecorder` read, if it has. -/
  base : Option Nat
  nextID : Nat
  /-- The writer has pruned and lands operations. -/
  writing : Bool
  queue : List Op
  /-- The operations queued, landed and lost so far. -/
  sent : List Op
  landed : List Op
  lost : List Op
  /-- The cutoffs of the prunes so far, each with the operations landed before it. -/
  prunes : List (Int × List Op)

inductive Label where
  /-- The process ends, with what is queued, and another starts. -/
  | restart
  | newRecorder
  /-- The writer's prune, at its start or later. -/
  | prune (cutoff : Int)
  /-- `SessionOpened` up to the store of the live session. -/
  | register
  | call (c : Nat) (e : Event)
  /-- An operation of the queue is lost. -/
  | lose (i : Nat)
  | land

namespace Recorder

def fresh : Recorder := ⟨⟨[], [], []⟩, [], 0, none, 0, false, [], [], [], [], []⟩

/-- The connection, if it is of the process that runs. -/
def current (s : Recorder) (c : Nat) : Option Conn := if s.first ≤ c then s.conns[c]? else none

def step (s : Recorder) : Label → Option Recorder
  | .restart =>
    some { s with
      first := s.conns.length
      base := none
      nextID := 0
      writing := false
      queue := []
      lost := s.lost ++ s.queue }
  | .newRecorder =>
    if s.base = none then some { s with base := some s.db.maxID, nextID := s.db.maxID } else none
  | .prune cutoff =>
    some { s with
      db := s.db.prune cutoff
      writing := true
      prunes := s.prunes ++ [(cutoff, s.landed)] }
  | .register =>
    if s.base = none then none
    else some { s with
      nextID := s.nextID + 1
      conns := s.conns ++ [⟨.fresh (s.nextID + 1), .stored, []⟩] }
  | .call c e => do
    let k ← s.current c
    let (k', acts) ← k.step e
    let ops := acts.map fun act => ⟨c, k.ls.id, act⟩
    some { s with conns := s.conns.set c k', queue := s.queue ++ ops, sent := s.sent ++ ops }
  | .lose i => do
    let op ← s.queue[i]?
    some { s with queue := s.queue.eraseIdx i, lost := s.lost ++ [op] }
  | .land =>
    match s.writing, s.queue with
    | true, op :: rest =>
      some { s with db := s.db.land op, queue := rest, landed := s.landed ++ [op] }
    | _, _ => none

end Recorder

namespace DB

def ids (db : DB) : List Nat := db.sessions.map SessionRow.id

/-- The session ids of the sample rows of both tables, each with the connection it is for. -/
def samples (db : DB) : List (Nat × Nat) :=
  db.traffic.map (fun row => (row.sessionID, row.conn)) ++
    db.rtt.map fun row => (row.sessionID, row.conn)

theorem update_ids (db : DB) (hid : ∀ row, (f row).id = row.id) :
    (db.update i f).ids = db.ids := by
  simp only [ids, update, List.map_map]
  apply List.map_congr_left
  intro row hrow
  simp only [Function.comp_apply]
  split
  · exact hid row
  · rfl

theorem update_rows (db : DB) (hid : ∀ row, (f row).id = row.id)
    (hconn : ∀ row, (f row).conn = row.conn) (hrow : row' ∈ (db.update i f).sessions) :
    ∃ row ∈ db.sessions, row.id = row'.id ∧ row.conn = row'.conn := by
  obtain ⟨row, hin, rfl⟩ := List.mem_map.mp hrow
  refine ⟨row, hin, ?_⟩
  split
  · exact ⟨(hid row).symm, (hconn row).symm⟩
  · exact ⟨rfl, rfl⟩

theorem land_ids (db : DB) (op : Op) (h : i ∈ db.ids) : i ∈ (db.land op).ids := by
  unfold land
  split
  · split
    · exact h
    · simp only [ids, List.map_append]
      exact List.mem_append_left _ h
  · rwa [update_ids _ (by intro row; rfl)]
  · rwa [update_ids _ (by intro row; rfl)]
  · rwa [update_ids _ (by intro row; rfl)]
  · exact h

/-- A session row after an operation was there for the same connection, or is the operation's and
its id was free. -/
theorem land_rows (db : DB) (op : Op) (hrow : row' ∈ (db.land op).sessions) :
    (∃ row ∈ db.sessions, row.id = row'.id ∧ row.conn = row'.conn) ∨
      (row'.id = op.id ∧ row'.conn = op.conn ∧ op.id ∉ db.ids) := by
  unfold land at hrow
  split at hrow
  · split at hrow
    · exact Or.inl ⟨row', hrow, rfl, rfl⟩
    · rename_i hfree
      rcases List.mem_append.mp hrow with hold | hnew
      · exact Or.inl ⟨row', hold, rfl, rfl⟩
      · rw [List.mem_singleton] at hnew
        subst hnew
        exact Or.inr ⟨rfl, rfl, hfree⟩
  · exact Or.inl (update_rows db (by intro row; rfl) (by intro row; rfl) hrow)
  · exact Or.inl (update_rows db (by intro row; rfl) (by intro row; rfl) hrow)
  · exact Or.inl (update_rows db (by intro row; rfl) (by intro row; rfl) hrow)
  · exact Or.inl ⟨row', hrow, rfl, rfl⟩

theorem land_samples (db : DB) (op : Op) (hp : p ∈ (db.land op).samples) :
    p ∈ db.samples ∨ p = (op.id, op.conn) := by
  have hsub : ∀ {α : Type} (f : α → Nat × Nat) (rows : List α) (q : α → Bool) (row : α),
      p ∈ (rows.filter q ++ [row]).map f → p ∈ rows.map f ∨ p = f row := by
    intro α f rows q row hp
    rw [List.map_append, List.map_singleton] at hp
    rcases List.mem_append.mp hp with hold | hnew
    · exact Or.inl ((List.filter_sublist.map f).subset hold)
    · exact Or.inr (List.mem_singleton.mp hnew)
  unfold land at hp
  split at hp
  · split at hp
    · exact Or.inl hp
    · exact Or.inl hp
  · exact Or.inl hp
  · exact Or.inl hp
  · rcases List.mem_append.mp hp with htraffic | hrtt
    · exact Or.inl (List.mem_append_left _ htraffic)
    · exact (hsub _ _ _ _ hrtt).imp_left (List.mem_append_right _)
  · rcases List.mem_append.mp hp with htraffic | hrtt
    · exact (hsub _ _ _ _ htraffic).imp_left (List.mem_append_left _)
    · exact Or.inl (List.mem_append_right _ hrtt)

theorem prune_rows (db : DB) (hrow : row ∈ (db.prune cutoff).sessions) : row ∈ db.sessions :=
  List.mem_of_mem_filter hrow

theorem prune_samples (db : DB) (hp : p ∈ (db.prune cutoff).samples) :
    p ∈ db.samples ∧ p.1 ∈ (db.prune cutoff).ids := by
  rcases List.mem_append.mp hp with htraffic | hrtt
  · obtain ⟨row, hrow, rfl⟩ := List.mem_map.mp htraffic
    obtain ⟨hin, hid⟩ := List.mem_filter.mp hrow
    exact ⟨List.mem_append_left _ (List.mem_map_of_mem hin), of_decide_eq_true hid⟩
  · obtain ⟨row, hrow, rfl⟩ := List.mem_map.mp hrtt
    obtain ⟨hin, hid⟩ := List.mem_filter.mp hrow
    exact ⟨List.mem_append_right _ (List.mem_map_of_mem hin), of_decide_eq_true hid⟩

theorem le_maxID (db : DB) (hrow : row ∈ db.sessions) : row.id ≤ db.maxID := by
  have hle : ∀ (l : List Nat) (n : Nat), n ∈ l → n ≤ l.foldr max 0 := by
    intro l
    induction l with
    | nil => exact fun n hn => absurd hn List.not_mem_nil
    | cons m l ih =>
      intro n hn
      rcases List.mem_cons.mp hn with rfl | hn
      · exact Nat.le_max_left ..
      · exact Nat.le_trans (ih n hn) (Nat.le_max_right ..)
  exact hle _ _ (List.mem_map_of_mem hrow)

end DB

theorem recordRTT_id (ls : LiveSession) (now : Int) (rttMs : Rat) :
    (ls.recordRTT now rttMs).1.id = ls.id := by
  simp only [LiveSession.recordRTT, LiveSession.addAll, LiveSession.addBucket, LiveSession.bucketAt]
  split <;> rfl

theorem Conn.step_keeps (h : Conn.step k e = some (k', acts)) :
    k'.ls.id = k.ls.id ∧ k.samples <+: k'.samples := by
  cases e with
  | opened startedMs =>
    simp only [Conn.step] at h
    split at h <;> cases h
    exact ⟨rfl, List.prefix_refl _⟩
  | player name protocol =>
    cases h
    exact ⟨rfl, List.prefix_refl _⟩
  | rtt now rttMs =>
    simp only [Conn.step] at h
    split at h <;> cases h
    · exact ⟨rfl, List.prefix_refl _⟩
    · exact ⟨recordRTT_id .., List.prefix_append ..⟩
  | traffic now bytesIn bytesOut =>
    cases h
    exact ⟨rfl, List.prefix_refl _⟩
  | close =>
    simp only [Conn.step] at h
    split at h <;> cases h
    exact ⟨rfl, List.prefix_refl _⟩
  | closed endedMs bytesIn bytesOut =>
    simp only [Conn.step] at h
    split at h <;> cases h
    exact ⟨rfl, List.prefix_refl _⟩

namespace Recorder

/-- The connection is of the process that runs and has the id. -/
def Mine (s : Recorder) (c id : Nat) : Prop := ∃ k, s.current c = some k ∧ k.ls.id = id

structure Ids (s : Recorder) : Prop where
  idle : s.base = none → s.conns.length ≤ s.first ∧ s.queue = []
  above : ∀ b, s.base = some b → b ≤ s.nextID ∧
    ∀ c id, s.Mine c id → b < id ∧ id ≤ s.nextID
  inj : ∀ c c' id, s.Mine c id → s.Mine c' id → c = c'
  queue : ∀ op ∈ s.queue, s.Mine op.conn op.id
  rows : ∀ b, s.base = some b → ∀ row ∈ s.db.sessions, row.id ≤ b ∨ s.Mine row.conn row.id
  /-- After the prune, a sample row is of this process or its session is there. -/
  swept : s.writing = true → ∀ p ∈ s.db.samples, s.Mine p.2 p.1 ∨ p.1 ∈ s.db.ids
  own : ∀ row ∈ s.db.sessions, ∀ p ∈ s.db.samples, p.1 = row.id → p.2 = row.conn

theorem ids_fresh : fresh.Ids where
  idle _ := ⟨Nat.le_refl _, rfl⟩
  above _ h := nomatch h
  inj c c' id h := by
    obtain ⟨k, hk, -⟩ := h
    cases hk
  queue _ h := absurd h List.not_mem_nil
  rows _ h := nomatch h
  swept h := nomatch h
  own _ h := absurd h List.not_mem_nil

theorem Mine.mono {s t : Recorder} (h : s.Mine c i)
    (hkeep : ∀ k, s.current c = some k → ∃ k', t.current c = some k' ∧ k'.ls.id = k.ls.id) :
    t.Mine c i := by
  obtain ⟨k, hk, hid⟩ := h
  obtain ⟨k', hk', hid'⟩ := hkeep k hk
  exact ⟨k', hk', hid'.trans hid⟩

theorem not_mine_of_idle {s : Recorder} (h : s.conns.length ≤ s.first) : ¬ s.Mine c i := by
  rintro ⟨k, hk, -⟩
  unfold current at hk
  split at hk
  next hfirst =>
    rw [List.getElem?_eq_none (Nat.le_trans h hfirst)] at hk
    cases hk
  next => cases hk

theorem Ids.restart {s t : Recorder} (h : s.Ids) (ht : s.step .restart = some t) : t.Ids := by
  cases ht
  have hnone : ∀ c i, ¬ Mine { s with
      first := s.conns.length, base := none, nextID := 0, writing := false, queue := [],
      lost := s.lost ++ s.queue } c i := fun c i => not_mine_of_idle (Nat.le_refl _)
  exact ⟨fun _ => ⟨Nat.le_refl _, rfl⟩, fun _ hb => (nomatch hb),
    fun c c' i hc => absurd hc (hnone c i), fun _ hop => absurd hop List.not_mem_nil,
    fun _ hb => (nomatch hb), fun hw => (nomatch hw), h.own⟩

theorem Ids.newRecorder {s t : Recorder} (h : s.Ids) (ht : s.step .newRecorder = some t) :
    t.Ids := by
  simp only [step] at ht
  split at ht <;> cases ht
  next hbase =>
    obtain ⟨hidle, hqueue⟩ := h.idle hbase
    have hnone : ∀ c i, ¬ s.Mine c i := fun c i => not_mine_of_idle hidle
    refine ⟨fun hb => (nomatch hb), ?_, h.inj, h.queue, ?_, h.swept, h.own⟩
    · intro b hb
      cases hb
      exact ⟨Nat.le_refl _, fun c i hc => absurd hc (hnone c i)⟩
    · intro b hb row hrow
      cases hb
      exact Or.inl (s.db.le_maxID hrow)

theorem Ids.prune {s t : Recorder} (h : s.Ids) (ht : s.step (.prune cutoff) = some t) :
    t.Ids := by
  cases ht
  refine ⟨h.idle, h.above, h.inj, h.queue, ?_, ?_, ?_⟩
  · intro b hb row hrow
    exact h.rows b hb row (s.db.prune_rows hrow)
  · intro _ p hp
    exact Or.inr (s.db.prune_samples hp).2
  · intro row hrow p hp
    exact h.own row (s.db.prune_rows hrow) p (s.db.prune_samples hp).1

theorem current_register (s : Recorder) (k : Conn) (nextID : Nat) (hk : s.current c = some k') :
    current { s with nextID, conns := s.conns ++ [k] } c = some k' := by
  unfold current at hk ⊢
  split at hk
  next hfirst =>
    obtain ⟨hlt, -⟩ := List.getElem?_eq_some_iff.mp hk
    rw [if_pos hfirst, List.getElem?_append_left hlt]
    exact hk
  next => cases hk

theorem mine_register (s : Recorder) (k : Conn) (nextID : Nat)
    (h : Mine { s with nextID, conns := s.conns ++ [k] } c i) :
    s.Mine c i ∨ (c = s.conns.length ∧ i = k.ls.id) := by
  obtain ⟨k', hk', hid⟩ := h
  unfold current at hk'
  split at hk'
  next hfirst =>
    by_cases hlt : c < s.conns.length
    · rw [List.getElem?_append_left hlt] at hk'
      refine Or.inl ⟨k', ?_, hid⟩
      unfold current
      rw [if_pos hfirst]
      exact hk'
    · have heq : c = s.conns.length := by
        obtain ⟨hlen, -⟩ := List.getElem?_eq_some_iff.mp hk'
        rw [List.length_append, List.length_singleton] at hlen
        omega
      rw [heq, List.getElem?_concat_length] at hk'
      cases hk'
      exact Or.inr ⟨heq, hid.symm⟩
  next => cases hk'

theorem Ids.register {s t : Recorder} (h : s.Ids) (ht : s.step .register = some t) : t.Ids := by
  simp only [step] at ht
  split at ht <;> cases ht
  next hbase =>
    have hkeep : ∀ c i, s.Mine c i → Mine { s with
        nextID := s.nextID + 1
        conns := s.conns ++ [⟨.fresh (s.nextID + 1), .stored, []⟩] } c i := by
      intro c i hc
      exact hc.mono fun k hk => ⟨k, s.current_register _ _ hk, rfl⟩
    obtain ⟨b, hb⟩ := Option.ne_none_iff_exists'.mp hbase
    obtain ⟨hnext, hrange⟩ := h.above b hb
    refine ⟨fun hnone => absurd hnone hbase, ?_, ?_, ?_, ?_, ?_, h.own⟩
    · intro b' hb'
      obtain rfl := Option.some.inj (hb.symm.trans hb')
      refine ⟨Nat.le_succ_of_le hnext, ?_⟩
      intro c i hc
      rcases s.mine_register _ _ hc with hold | ⟨-, rfl⟩
      · exact ⟨(hrange c i hold).1, Nat.le_succ_of_le (hrange c i hold).2⟩
      · exact ⟨Nat.lt_succ_of_le hnext, Nat.le_refl _⟩
    · -- The new id is above those of the process's other connections.
      have hnew : ∀ c, ¬ s.Mine c (s.nextID + 1) := by
        intro c hc
        exact absurd (hrange c _ hc).2 (Nat.not_succ_le_self _)
      intro c c' i hc hc'
      rcases s.mine_register _ _ hc with hold | ⟨rfl, rfl⟩
      · rcases s.mine_register _ _ hc' with hold' | ⟨rfl, rfl⟩
        · exact h.inj c c' i hold hold'
        · exact absurd hold (hnew c)
      · rcases s.mine_register _ _ hc' with hold' | ⟨rfl, -⟩
        · exact absurd hold' (hnew c')
        · rfl
    · exact fun op hop => hkeep _ _ (h.queue op hop)
    · exact fun b' hb' row hrow => (h.rows b' hb' row hrow).imp_right (hkeep _ _)
    · exact fun hw p hp => (h.swept hw p hp).imp_left (hkeep _ _)

theorem mine_call {s : Recorder} (hk : s.current c = some k) (hid : k'.ls.id = k.ls.id)
    (queue sent : List Op) :
    Mine { s with conns := s.conns.set c k', queue, sent } c' i ↔ s.Mine c' i := by
  have hcurrent : current { s with conns := s.conns.set c k', queue, sent } c' =
      if c' = c then some k' else s.current c' := by
    unfold current at hk ⊢
    split at hk
    next hfirst =>
      obtain ⟨hlt, -⟩ := List.getElem?_eq_some_iff.mp hk
      by_cases heq : c' = c
      · subst heq
        rw [if_pos hfirst, if_pos rfl, List.getElem?_set_self hlt]
      · rw [if_neg heq, List.getElem?_set_ne (Ne.symm heq)]
    next => cases hk
  unfold Mine
  rw [hcurrent]
  by_cases heq : c' = c
  · subst heq
    rw [if_pos rfl, hk]
    constructor
    · rintro ⟨k'', hk'', rfl⟩
      exact ⟨k, rfl, by rw [← Option.some.inj hk'', hid]⟩
    · rintro ⟨k'', hk'', rfl⟩
      exact ⟨k', rfl, by rw [← Option.some.inj hk'', hid]⟩
  · rw [if_neg heq]

theorem call_eq {s t : Recorder} (ht : s.step (.call c e) = some t) :
    ∃ k k' acts, s.current c = some k ∧ k.step e = some (k', acts) ∧
      t = { s with
        conns := s.conns.set c k'
        queue := s.queue ++ acts.map fun act => ⟨c, k.ls.id, act⟩
        sent := s.sent ++ acts.map fun act => ⟨c, k.ls.id, act⟩ } := by
  simp only [step, Option.bind_eq_bind] at ht
  obtain ⟨k, hk, ht⟩ := Option.bind_eq_some_iff.mp ht
  obtain ⟨⟨k', acts⟩, hstep, ht⟩ := Option.bind_eq_some_iff.mp ht
  exact ⟨k, k', acts, hk, hstep, (Option.some.inj ht).symm⟩

theorem Ids.call {s t : Recorder} (h : s.Ids) (ht : s.step (.call c e) = some t) : t.Ids := by
  obtain ⟨k, k', acts, hk, hstep, rfl⟩ := call_eq ht
  have hmine : ∀ queue sent c' i,
      Mine { s with conns := s.conns.set c k', queue, sent } c' i ↔ s.Mine c' i :=
    fun queue sent c' i => mine_call hk (Conn.step_keeps hstep).1 queue sent
  have hbase : s.base ≠ none := by
    intro hnone
    exact not_mine_of_idle (h.idle hnone).1 ⟨k, hk, rfl⟩
  refine ⟨fun hnone => absurd hnone hbase, ?_, ?_, ?_, ?_, ?_, h.own⟩
  · intro b hb
    exact ⟨(h.above b hb).1, fun c' i hc' => (h.above b hb).2 c' i ((hmine _ _ _ _).mp hc')⟩
  · exact fun c₁ c₂ i h₁ h₂ => h.inj c₁ c₂ i ((hmine _ _ _ _).mp h₁) ((hmine _ _ _ _).mp h₂)
  · intro op hop
    rw [hmine]
    rcases List.mem_append.mp hop with hold | hnew
    · exact h.queue op hold
    · obtain ⟨act, -, rfl⟩ := List.mem_map.mp hnew
      exact ⟨k, hk, rfl⟩
  · exact fun b hb row hrow => (h.rows b hb row hrow).imp_right (hmine _ _ _ _).mpr
  · exact fun hw p hp => (h.swept hw p hp).imp_left (hmine _ _ _ _).mpr

theorem lose_eq {s t : Recorder} (ht : s.step (.lose i) = some t) :
    ∃ op, s.queue[i]? = some op ∧
      t = { s with queue := s.queue.eraseIdx i, lost := s.lost ++ [op] } := by
  simp only [step, Option.bind_eq_bind] at ht
  obtain ⟨op, hop, ht⟩ := Option.bind_eq_some_iff.mp ht
  exact ⟨op, hop, (Option.some.inj ht).symm⟩

theorem Ids.lose {s t : Recorder} (h : s.Ids) (ht : s.step (.lose i) = some t) : t.Ids := by
  obtain ⟨op, -, rfl⟩ := lose_eq ht
  refine ⟨?_, h.above, h.inj, ?_, h.rows, h.swept, h.own⟩
  · intro hnone
    obtain ⟨hidle, hqueue⟩ := h.idle hnone
    exact ⟨hidle, by simp only [hqueue, List.eraseIdx_nil]⟩
  · exact fun op hop => h.queue op (List.mem_of_mem_eraseIdx hop)

theorem land_eq {s t : Recorder} (ht : s.step .land = some t) :
    ∃ op rest, s.writing = true ∧ s.queue = op :: rest ∧
      t = { s with db := s.db.land op, queue := rest, landed := s.landed ++ [op] } := by
  simp only [step] at ht
  split at ht
  next op rest hw hq =>
    exact ⟨op, rest, hw, hq, (Option.some.inj ht).symm⟩
  · cases ht

theorem Ids.land {s t : Recorder} (h : s.Ids) (ht : s.step .land = some t) : t.Ids := by
  obtain ⟨op, rest, hw, hq, rfl⟩ := land_eq ht
  have hop : s.Mine op.conn op.id := h.queue op (by rw [hq]; exact List.mem_cons_self)
  have hbase : s.base ≠ none := by
    intro hnone
    exact not_mine_of_idle (h.idle hnone).1 hop
  obtain ⟨b, hb⟩ := Option.ne_none_iff_exists'.mp hbase
  -- A session row with the operation's id is of its connection.
  have hrow : ∀ row ∈ s.db.sessions, row.id = op.id → row.conn = op.conn := by
    intro row hrow hid
    rcases h.rows b hb row hrow with hold | hmine
    · exact absurd ((h.above b hb).2 _ _ hop).1 (by omega)
    · rw [hid] at hmine
      exact h.inj _ _ _ hmine hop
  refine ⟨fun hnone => absurd hnone hbase, h.above, h.inj, ?_, ?_, ?_, ?_⟩
  · exact fun op' hop' => h.queue op' (by rw [hq]; exact List.mem_cons_of_mem _ hop')
  · intro b' hb' row' hrow'
    rcases s.db.land_rows op hrow' with ⟨row, hin, hid, hconn⟩ | ⟨hid, hconn, -⟩
    · rw [← hid, ← hconn]
      exact h.rows b' hb' row hin
    · rw [hid, hconn]
      exact Or.inr hop
  · intro _ p hp
    rcases s.db.land_samples op hp with hold | rfl
    · exact (h.swept hw p hold).imp_right (s.db.land_ids op)
    · exact Or.inl hop
  · intro row' hrow' p hp hid'
    rcases s.db.land_rows op hrow' with ⟨row, hin, hid, hconn⟩ | ⟨hid, hconn, hfree⟩
    · rw [← hconn]
      rcases s.db.land_samples op hp with hold | rfl
      · exact h.own row hin p hold (hid'.trans hid.symm)
      · exact (hrow row hin (hid.trans hid'.symm)).symm
    · rw [hconn]
      rcases s.db.land_samples op hp with hold | rfl
      · -- The session is new, so the samples under its id are of this process.
        rcases h.swept hw p hold with hmine | hthere
        · rw [hid', hid] at hmine
          exact h.inj _ _ _ hmine hop
        · rw [hid', hid] at hthere
          exact absurd hthere hfree
      · rfl

theorem Ids.step {s t : Recorder} (h : s.Ids) (ht : s.step l = some t) : t.Ids := by
  cases l with
  | restart => exact h.restart ht
  | newRecorder => exact h.newRecorder ht
  | prune cutoff => exact h.prune ht
  | register => exact h.register ht
  | call c e => exact h.call ht
  | lose i => exact h.lose ht
  | land => exact h.land ht

/-- No sample row of a connection is under the session row of another. -/
def OwnSamples (s : Recorder) : Prop :=
  ∀ row ∈ s.db.sessions,
    (∀ sample ∈ s.db.traffic, sample.sessionID = row.id → sample.conn = row.conn) ∧
      ∀ sample ∈ s.db.rtt, sample.sessionID = row.id → sample.conn = row.conn

theorem Ids.ownSamples {s : Recorder} (h : s.Ids) : s.OwnSamples := by
  intro row hrow
  constructor
  · intro sample hsample hid
    exact h.own row hrow _ (List.mem_append_left _ (List.mem_map_of_mem hsample)) hid
  · intro sample hsample hid
    exact h.own row hrow _ (List.mem_append_right _ (List.mem_map_of_mem hsample)) hid

end Recorder

end ProxyForward.SessionLog

import Mathlib.Data.Int.Order.Basic
import Mathlib.Order.MinMax
import ProxyForward.SessionRollups

namespace ProxyForward.Analytics
set_option autoImplicit true

structure Span where
  firstSeen : Int
  lastSeen : Int
  deriving DecidableEq, Repr

def Span.join (s s' : Span) : Span := ⟨min s.firstSeen s'.firstSeen, max s.lastSeen s'.lastSeen⟩

structure PlayerRow where
  name : String
  offline : Bool
  span : Span
  lastCC : String
  profileCheckedMs : Int
  deriving DecidableEq, Repr

structure IPRow where
  span : Span
  sessions : Int
  deriving DecidableEq, Repr

def IPRow.join (r r' : IPRow) : IPRow := ⟨r.span.join r'.span, r.sessions + r'.sessions⟩

structure CacheRow where
  uuid : String
  resolvedMs : Int
  deriving DecidableEq, Repr

/-- One resolved observation. -/
structure Identity where
  uuid : String
  name : String
  nameLower : String
  ip : String
  offline : Bool
  seenMs : Int
  profileCheckedMs : Int
  deriving DecidableEq, Repr

/-- The present sighting. -/
def Identity.sighting (o : Identity) : Span := ⟨o.seenMs, o.seenMs⟩

@[ext]
structure DB where
  retentionDays : Int
  uuidCache : Table String CacheRow
  players : Table String PlayerRow
  playerNames : Table (String × String) Span
  playerIPs : Table (String × String) IPRow
  /-- The countries of the geo cache. -/
  geoCC : Table String String
  sessions : List SessionRow
  rollups : Rollups

def backfillWindowMs : Int := 6 * hourMillis

section

-- `strings.ToLower`
variable (toLower : String → String)

def OfflineUUID (nameLower : String) : String := "offline:" ++ toLower nameLower

/-- `MIN(started_ms), MAX(started_ms)`; no row, no range. -/
def startedRange (rows : List SessionRow) : Option (Int × Int) :=
  match (rows.map SessionRow.startedMs).min?, (rows.map SessionRow.startedMs).max? with
  | some lo, some hi => some (lo, hi)
  | _, _ => none

/-- SQLite's `NOCASE`, which folds the ASCII letters. -/
def nocaseEq (a b : String) : Bool := a.toLower = b.toLower

namespace DB

def cacheResolution (db : DB) (o : Identity) : DB :=
  { db with
    uuidCache := db.uuidCache.upsert o.nameLower ⟨if o.offline then "" else o.uuid, o.seenMs⟩
      fun _ row => row }

def reroll (db : DB) (range : Option (Int × Int)) (nowMs : Int) : DB :=
  match range with
  | none => db
  | some (lo, hi) =>
    { db with rollups := db.rollups.rerollSessionRollups db.retentionDays db.sessions lo hi nowMs }

/-- Moves an offline player's history and sessions to the real UUID, if the player is there. -/
def reconcileOffline (db : DB) (offlineUUID realUUID : String) : DB × Option (Int × Int) :=
  match db.players offlineUUID with
  | none => (db, none)
  | some _ =>
    ({ db with
        sessions := db.sessions.map fun s =>
          if s.playerUUID = some offlineUUID then { s with playerUUID := some realUUID } else s
        playerNames := (db.playerNames.insertFrom realUUID offlineUUID Span.join).deleteFrom
          offlineUUID
        playerIPs := (db.playerIPs.insertFrom realUUID offlineUUID IPRow.join).deleteFrom
          offlineUUID
        players := Function.update db.players offlineUUID none },
      startedRange (db.sessions.filter fun s => s.playerUUID = some offlineUUID))

def reconcile (db : DB) (o : Identity) : DB :=
  if o.offline then db
  else
    let off := OfflineUUID toLower o.nameLower
    if off = o.uuid then db
    else
      let (db, range) := db.reconcileOffline off o.uuid
      db.reroll range o.seenMs

def refreshPlayer (old new : PlayerRow) : PlayerRow :=
  { old with
    name := new.name
    span := old.span.join new.span
    profileCheckedMs := max old.profileCheckedMs new.profileCheckedMs }

def upsertPlayer (db : DB) (o : Identity) : DB :=
  { db with
    players := db.players.upsert o.uuid ⟨o.name, o.offline, o.sighting, "", o.profileCheckedMs⟩
      refreshPlayer }

def upsertName (db : DB) (o : Identity) : DB :=
  { db with playerNames := db.playerNames.upsert (o.uuid, o.name) o.sighting Span.join }

def upsertIP (db : DB) (o : Identity) : DB :=
  if o.ip = "" then db
  else
    { db with
      playerIPs := db.playerIPs.upsert (o.uuid, o.ip) ⟨o.sighting, 1⟩ fun old new =>
        ⟨old.span.join new.span, old.sessions + 1⟩
      players := Function.update db.players o.uuid ((db.players o.uuid).map fun row =>
        { row with lastCC := ((db.geoCC o.ip).filter (· ≠ "")).getD row.lastCC }) }

/-- A session that a resolved name claims. -/
def claims (o : Identity) (s : SessionRow) : Bool :=
  (match s.playerName with | some name => nocaseEq name o.name | none => false) &&
    (s.playerUUID = none || s.playerUUID = some "") && o.seenMs - backfillWindowMs ≤ s.startedMs

def backfill (db : DB) (o : Identity) : DB :=
  match startedRange (db.sessions.filter (claims o)) with
  | none => db
  | some range =>
    ({ db with sessions := db.sessions.map fun s =>
        if claims o s then { s with playerUUID := some o.uuid } else s }).reroll (some range)
          o.seenMs

/-- The player and its name and IP history. -/
def record (db : DB) (o : Identity) : DB := ((db.upsertPlayer o).upsertName o).upsertIP o

def ApplyIdentity (db : DB) (o : Identity) : DB :=
  (((db.cacheResolution o).reconcile toLower o).record o).backfill o

/-- A session keyed to the offline UUID goes to the real one, and one of another player stays. -/
def Moved (off : String) (o : Identity) (s s' : SessionRow) : Prop :=
  (s' = s ∨ s' = { s with playerUUID := some o.uuid }) ∧
    (s.playerUUID = some off → s'.playerUUID = some o.uuid) ∧
    ∀ u, s.playerUUID = some u → u ≠ off → u ≠ "" → s' = s

/-- What the identity `o` leaves of the tables: nothing is under the offline UUID `off`, and all of
it is under the real one, together with the sighting. -/
structure Reconciled (off : String) (o : Identity) (db db' : DB) : Prop where
  gone : db'.players off = none ∧ (∀ name, db'.playerNames (off, name) = none) ∧
    (∀ ip, db'.playerIPs (off, ip) = none) ∧ ∀ s ∈ db'.sessions, s.playerUUID ≠ some off
  sessions : List.Forall₂ (Moved off o) db.sessions db'.sessions
  names : ∀ name, db'.playerNames (o.uuid, name) =
    Option.merge Span.join
      (Option.merge Span.join (db.playerNames (o.uuid, name)) (db.playerNames (off, name)))
      (if name = o.name then some o.sighting else none)
  ips : ∀ ip, db'.playerIPs (o.uuid, ip) =
    Option.merge IPRow.join
      (Option.merge IPRow.join (db.playerIPs (o.uuid, ip)) (db.playerIPs (off, ip)))
      (if ip = o.ip ∧ ip ≠ "" then some ⟨o.sighting, 1⟩ else none)
  player : (db'.players o.uuid).map PlayerRow.span =
    Option.merge Span.join
      (Option.merge Span.join ((db.players o.uuid).map PlayerRow.span)
        ((db.players off).map PlayerRow.span))
      (some o.sighting)
  others : ∀ u, u ≠ o.uuid → u ≠ off → db'.players u = db.players u ∧
    (∀ name, db'.playerNames (u, name) = db.playerNames (u, name)) ∧
    ∀ ip, db'.playerIPs (u, ip) = db.playerIPs (u, ip)

/-- The tables with one session more at the identity's address. -/
def bumpIP (db : DB) (o : Identity) : DB :=
  { db with playerIPs := fun k => (db.playerIPs k).map fun row =>
      if k = (o.uuid, o.ip) ∧ o.ip ≠ "" then { row with sessions := row.sessions + 1 } else row }

/-- Identities reconcile without loss. -/
def ReconcilesWithoutLoss (db : DB) (o : Identity) : Prop :=
  Reconciled (OfflineUUID toLower o.nameLower) o db (db.ApplyIdentity toLower o) ∧
    (db.ApplyIdentity toLower o).ApplyIdentity toLower o = (db.ApplyIdentity toLower o).bumpIP o

/-- Nothing is recorded under a UUID whose player is not there. -/
def NoOrphans (db : DB) (off : String) : Prop :=
  (∀ s ∈ db.sessions, s.playerUUID ≠ some off) ∧ (∀ name, db.playerNames (off, name) = none) ∧
    ∀ ip, db.playerIPs (off, ip) = none

/-- The offline player's row, if there is one, was seen within the times of the real player's row
and the sighting. -/
def OfflineSpanned (db : DB) (off : String) (o : Identity) : Prop :=
  match db.players off with
  | none => NoOrphans db off
  | some row =>
    (o.seenMs ≤ row.span.firstSeen ∨
      ∃ real, db.players o.uuid = some real ∧ real.span.firstSeen ≤ row.span.firstSeen) ∧
    (row.span.lastSeen ≤ o.seenMs ∨
      ∃ real, db.players o.uuid = some real ∧ row.span.lastSeen ≤ real.span.lastSeen)

end DB

theorem startedRange_eq_none : startedRange rows = none ↔ rows = [] := by
  cases rows with
  | nil => exact iff_of_true rfl rfl
  | cons s rows => exact iff_of_false (by simp [startedRange]) (List.cons_ne_nil s rows)

theorem Span.join_self (s : Span) : s.join s = s := by
  simp only [Span.join, min_self, max_self]

theorem Span.join_join (s s' : Span) : (s.join s').join s' = s.join s' := by
  simp only [Span.join, min_assoc, min_self, max_assoc, max_self]

namespace DB

theorem record_cases (db : DB) (o : Identity) :
    ∃ players names ips,
      db.record o = { db with players, playerNames := names, playerIPs := ips } := by
  unfold record upsertIP
  split
  · exact ⟨_, _, _, rfl⟩
  · exact ⟨_, _, _, rfl⟩

theorem record_sessions (db : DB) (o : Identity) : (db.record o).sessions = db.sessions := by
  obtain ⟨players, names, ips, h⟩ := db.record_cases o
  rw [h]

/-- A session after the backfill. -/
def claimed (o : Identity) (s : SessionRow) : SessionRow :=
  if claims o s then { s with playerUUID := some o.uuid } else s

theorem backfill_none {db : DB} (h : startedRange (db.sessions.filter (claims o)) = none) :
    db.backfill o = db := by
  rw [backfill, h]

theorem backfill_some {db : DB} (h : startedRange (db.sessions.filter (claims o)) = some range) :
    db.backfill o =
      ({ db with sessions := db.sessions.map (claimed o) } : DB).reroll (some range) o.seenMs := by
  rw [backfill, h]
  rfl

theorem backfill_cases (db : DB) (o : Identity) :
    ∃ rollups, db.backfill o = { db with sessions := db.sessions.map (claimed o), rollups } := by
  cases hrange : startedRange (db.sessions.filter (claims o)) with
  | none =>
    have hnone : ∀ s ∈ db.sessions, claimed o s = s := by
      intro s hs
      have hnot := List.filter_eq_nil_iff.1 (startedRange_eq_none.1 hrange) s hs
      rw [claimed, if_neg hnot]
    refine ⟨db.rollups, ?_⟩
    rw [backfill_none hrange, List.map_congr_left hnone, List.map_id']
  | some range => exact ⟨_, backfill_some hrange⟩

theorem record_backfill (db : DB) (o : Identity) :
    (db.backfill o).record o = (db.record o).backfill o := by
  unfold backfill
  rw [record_sessions]
  cases startedRange (db.sessions.filter (claims o)) with
  | none => rfl
  | some range =>
    unfold record upsertIP
    split <;> rfl

theorem bumpIP_backfill (db : DB) (o : Identity) :
    (db.bumpIP o).backfill o = (db.backfill o).bumpIP o := by
  unfold backfill
  cases hrange : startedRange (db.sessions.filter (claims o)) with
  | none => simp only [bumpIP, hrange]
  | some range => simp only [bumpIP, hrange, reroll]

theorem claims_claimed (o : Identity) (s : SessionRow) :
    claims o (claimed o s) = (claims o s && o.uuid = "") := by
  unfold claimed
  cases hc : claims o s with
  | false => simpa using hc
  | true =>
    rw [if_pos rfl, Bool.true_and]
    unfold claims at hc ⊢
    rw [Bool.and_eq_true, Bool.and_eq_true] at hc
    obtain ⟨⟨hname, -⟩, hwindow⟩ := hc
    simp only [hname, hwindow, Bool.true_and, Bool.and_true, reduceCtorEq, decide_false,
      Bool.false_or, Option.some.injEq]

theorem claimed_claimed (o : Identity) (s : SessionRow) :
    claimed o (claimed o s) = claimed o s := by
  rw [claimed, claims_claimed, claimed]
  cases claims o s <;> simp

theorem filter_claims_claimed (o : Identity) (rows : List SessionRow) :
    (rows.map (claimed o)).filter (claims o) =
      if o.uuid = "" then (rows.filter (claims o)).map (claimed o) else [] := by
  have hcomp : claims o ∘ claimed o = fun s => claims o s && o.uuid = "" :=
    funext fun s => claims_claimed o s
  rw [List.filter_map, hcomp]
  by_cases hempty : o.uuid = ""
  · rw [if_pos hempty]
    simp [hempty]
  · rw [if_neg hempty]
    simp [hempty]

theorem startedRange_claimed (o : Identity) (rows : List SessionRow) :
    startedRange (rows.map (claimed o)) = startedRange rows := by
  have hcomp : SessionRow.startedMs ∘ claimed o = SessionRow.startedMs := by
    funext s
    simp only [Function.comp_apply, claimed]
    split <;> rfl
  simp only [startedRange, List.map_map, hcomp]

theorem backfill_idem (db : DB) (o : Identity) : (db.backfill o).backfill o = db.backfill o := by
  cases hrange : startedRange (db.sessions.filter (claims o)) with
  | none => rw [backfill_none hrange, backfill_none hrange]
  | some range =>
    rw [backfill_some hrange]
    have hfilter := filter_claims_claimed o db.sessions
    by_cases hempty : o.uuid = ""
    · rw [if_pos hempty] at hfilter
      have hmap : (db.sessions.map (claimed o)).map (claimed o) = db.sessions.map (claimed o) := by
        rw [List.map_map]
        exact List.map_congr_left fun s _ => claimed_claimed o s
      have hrange' :
          startedRange ((db.sessions.map (claimed o)).filter (claims o)) = some range := by
        rw [hfilter, startedRange_claimed, hrange]
      refine (backfill_some hrange').trans ?_
      simp only [reroll, hmap, reroll_idem]
    · rw [if_neg hempty] at hfilter
      exact backfill_none (startedRange_eq_none.2 hfilter)

/-- The player's row with the country of the latest address. -/
def wearCC (db : DB) (o : Identity) (row : PlayerRow) : PlayerRow :=
  if o.ip = "" then row
  else { row with lastCC := ((db.geoCC o.ip).filter (· ≠ "")).getD row.lastCC }

/-- The row of a player that the identity finds new. -/
def freshPlayer (o : Identity) : PlayerRow :=
    ⟨o.name, o.offline, o.sighting, "", o.profileCheckedMs⟩

theorem record_players (db : DB) (o : Identity) : (db.record o).players =
    Function.update db.players o.uuid
      ((Option.merge refreshPlayer (db.players o.uuid) (some (freshPlayer o))).map
        (db.wearCC o)) := by
  unfold record upsertIP
  split
  · rename_i hip
    have hwear : db.wearCC o = fun row => row := funext fun row => if_pos hip
    rw [hwear, Option.map_id']
    rfl
  · rename_i hip
    have hwear : db.wearCC o = fun row =>
        { row with lastCC := ((db.geoCC o.ip).filter (· ≠ "")).getD row.lastCC } :=
      funext fun row => if_neg hip
    simp only [hwear, upsertName, upsertPlayer, Table.upsert_self]
    exact Function.update_idem ..

theorem record_playerNames (db : DB) (o : Identity) :
    (db.record o).playerNames = db.playerNames.upsert (o.uuid, o.name) o.sighting Span.join := by
  simp only [record, upsertIP, upsertName, upsertPlayer]
  split <;> rfl

theorem record_playerIPs (db : DB) (o : Identity) : (db.record o).playerIPs =
    if o.ip = "" then db.playerIPs
    else db.playerIPs.upsert (o.uuid, o.ip) ⟨o.sighting, 1⟩ IPRow.join := by
  simp only [record, upsertIP, upsertName, upsertPlayer]
  split
  · rfl
  · simp only [Table.upsert]
    cases db.playerIPs (o.uuid, o.ip) <;> rfl

theorem refreshPlayer_wearCC (db : DB) (o : Identity)
    (h : refreshPlayer row (freshPlayer o) = row) :
    db.wearCC o (refreshPlayer (db.wearCC o row) (freshPlayer o)) = db.wearCC o row := by
  unfold wearCC
  split
  · exact h
  · have hrow := PlayerRow.mk.inj h
    simp only [refreshPlayer] at hrow ⊢
    rw [hrow.1, hrow.2.2.1, hrow.2.2.2.2]
    cases (db.geoCC o.ip).filter (· ≠ "") <;> rfl

theorem refreshPlayer_fresh (o : Identity) :
    refreshPlayer (freshPlayer o) (freshPlayer o) = freshPlayer o := by
  simp only [refreshPlayer, Span.join_self, max_self]

theorem refreshPlayer_refresh (o : Identity) (old : PlayerRow) :
    refreshPlayer (refreshPlayer old (freshPlayer o)) (freshPlayer o) = refreshPlayer old
      (freshPlayer o) := by
  simp only [refreshPlayer, Span.join_join, max_assoc, max_self]

theorem bumpIP_playerIPs (db : DB) (o : Identity) (k : String × String) :
    (db.bumpIP o).playerIPs k = (db.playerIPs k).map fun row =>
      if k = (o.uuid, o.ip) ∧ o.ip ≠ "" then { row with sessions := row.sessions + 1 } else row :=
  rfl

theorem record_record (db : DB) (o : Identity) :
    (db.record o).record o = (db.record o).bumpIP o := by
  have hframe (db : DB) : (db.record o).retentionDays = db.retentionDays ∧
      (db.record o).uuidCache = db.uuidCache ∧ (db.record o).geoCC = db.geoCC ∧
      (db.record o).rollups = db.rollups := by
    obtain ⟨players, names, ips, h⟩ := db.record_cases o
    rw [h]
    exact ⟨rfl, rfl, rfl, rfl⟩
  obtain ⟨hdays, hcache, hgeo, hrollups⟩ := hframe (db.record o)
  ext1
  · exact hdays
  · exact hcache
  · have hcc : (db.record o).wearCC o = db.wearCC o := by
      unfold wearCC
      rw [(hframe db).2.2.1]
    have hbump : ((db.record o).bumpIP o).players = (db.record o).players := rfl
    rw [hbump, record_players, record_players, hcc, Function.update_self, Function.update_idem]
    congr 1
    cases db.players o.uuid with
    | none => exact congrArg some (refreshPlayer_wearCC db o (refreshPlayer_fresh o))
    | some old => exact congrArg some (refreshPlayer_wearCC db o (refreshPlayer_refresh o old))
  · have hbump : ((db.record o).bumpIP o).playerNames = (db.record o).playerNames := rfl
    rw [hbump, record_playerNames, record_playerNames]
    exact (Table.upsert_upsert _ _ (Span.join_self _) fun old => Span.join_join old _)
  · funext k
    rw [bumpIP_playerIPs, record_playerIPs, record_playerIPs]
    by_cases hip : o.ip = ""
    · simp [hip]
    · by_cases hk : k = (o.uuid, o.ip)
      · subst hk
        simp only [if_neg hip, Table.upsert_self]
        cases db.playerIPs (o.uuid, o.ip) with
        | none => simp [IPRow.join, Span.join_self, hip]
        | some old => simp [IPRow.join, Span.join_join, hip]
      · simp [if_neg hip, Table.upsert_of_ne hk, hk]
  · exact hgeo
  · exact record_sessions _ o
  · exact hrollups

/-- An offline player's history has gone to the real UUID. -/
structure Merged (off : String) (o : Identity) (db m : DB) : Prop where
  players : m.players = Function.update db.players off none
  names : m.playerNames = (db.playerNames.insertFrom o.uuid off Span.join).deleteFrom off
  ips : m.playerIPs = (db.playerIPs.insertFrom o.uuid off IPRow.join).deleteFrom off
  sessions : m.sessions = db.sessions.map fun s =>
    if s.playerUUID = some off then { s with playerUUID := some o.uuid } else s

theorem reconcile_none (db : DB) (hoff : db.players (OfflineUUID toLower o.nameLower) = none) :
    reconcile toLower db o = db := by
  unfold reconcile
  split
  · rfl
  · simp only [reconcileOffline, hoff]
    split <;> rfl

theorem reconcile_some (db : DB) (honline : o.offline = false)
    (hne : o.uuid ≠ OfflineUUID toLower o.nameLower)
    (hoff : db.players (OfflineUUID toLower o.nameLower) = some row) :
    Merged (OfflineUUID toLower o.nameLower) o db (reconcile toLower db o) := by
  unfold reconcile
  rw [honline, if_neg Bool.false_ne_true, if_neg hne.symm]
  simp only [reconcileOffline, hoff]
  cases startedRange (db.sessions.filter fun s =>
    s.playerUUID = some (OfflineUUID toLower o.nameLower)) with
  | none => exact ⟨rfl, rfl, rfl, rfl⟩
  | some range => exact ⟨rfl, rfl, rfl, rfl⟩

theorem insertFrom_of_empty (t : Table (String × β) ρ) (merge : ρ → ρ → ρ)
    (h : ∀ b, t (src, b) = none) : (t.insertFrom dst src merge).deleteFrom src = t := by
  funext ⟨a, b⟩
  rw [Table.deleteFrom_insertFrom]
  split
  · rename_i ha
    rw [ha, h]
  · split
    · rename_i ha
      rw [h, Option.merge_none_right, ha]
    · rfl

theorem Merged.of_noOrphans (hoff : db.players off = none) (h : NoOrphans db off) :
    Merged off o db db := by
  obtain ⟨hsessions, hnames, hips⟩ := h
  refine ⟨?_, (insertFrom_of_empty _ _ hnames).symm, (insertFrom_of_empty _ _ hips).symm, ?_⟩
  · rw [← hoff, Function.update_eq_self]
  · have hsame : ∀ s ∈ db.sessions,
        (if s.playerUUID = some off then { s with playerUUID := some o.uuid } else s) = s :=
      fun s hs => if_neg (hsessions s hs)
    rw [List.map_congr_left hsame, List.map_id']

theorem record_backfill_players (db : DB) (o : Identity) :
    ((db.record o).backfill o).players = (db.record o).players ∧
    ((db.record o).backfill o).playerNames = (db.record o).playerNames ∧
    ((db.record o).backfill o).playerIPs = (db.record o).playerIPs ∧
    ((db.record o).backfill o).sessions = db.sessions.map (claimed o) := by
  obtain ⟨rollups, h⟩ := (db.record o).backfill_cases o
  rw [h, record_sessions]
  exact ⟨rfl, rfl, rfl, rfl⟩

theorem record_player_span (db : DB) (o : Identity) :
    ((db.record o).players o.uuid).map PlayerRow.span =
      Option.merge Span.join ((db.players o.uuid).map PlayerRow.span) (some o.sighting) := by
  have hwear (row : PlayerRow) : (db.wearCC o row).span = row.span := by
    unfold wearCC
    split <;> rfl
  rw [record_players, Function.update_self]
  cases db.players o.uuid with
  | none => exact congrArg some (hwear _)
  | some old => exact congrArg some (hwear _)

theorem span_absorbed (real : Option Span) (row s : Span) :
    Option.merge Span.join (Option.merge Span.join real (some row)) (some s) =
        Option.merge Span.join real (some s) ↔
      (s.firstSeen ≤ row.firstSeen ∨ ∃ r, real = some r ∧ r.firstSeen ≤ row.firstSeen) ∧
        (row.lastSeen ≤ s.lastSeen ∨ ∃ r, real = some r ∧ row.lastSeen ≤ r.lastSeen) := by
  cases real with
  | none =>
    simp only [Option.merge, Span.join, Option.some.injEq, reduceCtorEq, false_and, exists_false,
      or_false]
    obtain ⟨f, l⟩ := s
    simp
  | some r =>
    simp only [Option.merge, Span.join, Option.some.injEq, Span.mk.injEq, exists_eq_left']
    omega

theorem record_others (db : DB) (hu : u ≠ o.uuid) : (db.record o).players u = db.players u ∧
    (∀ name, (db.record o).playerNames (u, name) = db.playerNames (u, name)) ∧
    ∀ ip, (db.record o).playerIPs (u, ip) = db.playerIPs (u, ip) := by
  refine ⟨?_, fun name => ?_, fun ip => ?_⟩
  · rw [record_players, Function.update_of_ne hu]
  · rw [record_playerNames, Table.upsert_of_ne fun heq => hu (Prod.mk.inj heq).1]
  · rw [record_playerIPs]
    split
    · rfl
    · rw [Table.upsert_of_ne fun heq => hu (Prod.mk.inj heq).1]

theorem claimed_of_keyed (hu : s.playerUUID = some u) (hne : u ≠ "") : claimed o s = s := by
  have hnot : ¬claims o s = true := by
    simp [claims, hu, hne]
  rw [claimed, if_neg hnot]

theorem claimed_moved (off : String) (o : Identity) (s : SessionRow) :
    Moved off o s
      (claimed o (if s.playerUUID = some off then { s with playerUUID := some o.uuid }
        else s)) := by
  by_cases hkeyed : s.playerUUID = some off
  · rw [if_pos hkeyed]
    have hclaimed : claimed o { s with playerUUID := some o.uuid } =
      { s with playerUUID := some o.uuid } := by
      unfold claimed
      split <;> rfl
    rw [hclaimed]
    refine ⟨.inr rfl, fun _ => rfl, fun u hu hne _ => absurd ?_ hne⟩
    exact Option.some.inj (hu.symm.trans hkeyed)
  · rw [if_neg hkeyed]
    refine ⟨?_, fun h => absurd h hkeyed, fun u hu _ hne => ?_⟩
    · unfold claimed
      split
      · exact .inr rfl
      · exact .inl rfl
    · exact claimed_of_keyed hu hne

theorem Merged.reconciled {off : String} (h : Merged off o db m) (hne : o.uuid ≠ off)
    (hspan : Option.merge Span.join ((m.players o.uuid).map PlayerRow.span) (some o.sighting) =
      Option.merge Span.join
        (Option.merge Span.join ((db.players o.uuid).map PlayerRow.span)
          ((db.players off).map PlayerRow.span))
        (some o.sighting)) :
    Reconciled off o db ((m.record o).backfill o) := by
  obtain ⟨hplayers, hnames, hips, hsessions⟩ := m.record_backfill_players o
  have hmoved : List.Forall₂ (Moved off o) db.sessions ((m.record o).backfill o).sessions := by
    rw [hsessions, h.sessions, List.map_map, List.forall₂_map_right_iff]
    exact List.forall₂_same.2 fun s _ => claimed_moved off o s
  constructor
  · obtain ⟨hplayer, hname, hip⟩ := m.record_others hne.symm
    rw [hplayers, hnames, hips, hplayer, h.players, Function.update_self]
    refine ⟨rfl, fun name => ?_, fun ip => ?_, ?_⟩
    · rw [hname, h.names, Table.deleteFrom_insertFrom, if_pos rfl]
    · rw [hip, h.ips, Table.deleteFrom_insertFrom, if_pos rfl]
    · rw [hsessions, h.sessions, List.map_map]
      intro s hs hkeyed
      obtain ⟨s, -, rfl⟩ := List.mem_map.1 hs
      obtain ⟨hsame | hreal, hto, -⟩ := claimed_moved off o s
      · exact hne (Option.some.inj ((hto (hsame ▸ hkeyed)).symm.trans hkeyed))
      · exact hne (Option.some.inj ((congrArg SessionRow.playerUUID hreal).symm.trans hkeyed))
  · exact hmoved
  · intro name
    rw [hnames, record_playerNames, h.names, Table.upsert_moved _ hne]
  · intro ip
    rw [hips, record_playerIPs, h.ips]
    by_cases hempty : o.ip = ""
    · have hno : ¬(ip = o.ip ∧ ip ≠ "") := fun hip => hip.2 (hip.1.trans hempty)
      rw [if_pos hempty, if_neg hno, Option.merge_none_right, Table.deleteFrom_insertFrom,
        if_neg hne, if_pos rfl]
    · have hiff : ip = o.ip ↔ ip = o.ip ∧ ip ≠ "" :=
        ⟨fun hip => ⟨hip, fun he => hempty (hip.symm.trans he)⟩, And.left⟩
      rw [if_neg hempty, Table.upsert_moved _ hne, if_congr hiff rfl rfl]
  · rw [hplayers, record_player_span, hspan]
  · intro u hu hu'
    obtain ⟨hplayer, hname, hip⟩ := m.record_others hu
    rw [hplayers, hnames, hips, hplayer, h.players, Function.update_of_ne hu']
    refine ⟨rfl, fun name => ?_, fun ip => ?_⟩
    · rw [hname, h.names, Table.deleteFrom_insertFrom, if_neg hu', if_neg hu]
    · rw [hip, h.ips, Table.deleteFrom_insertFrom, if_neg hu', if_neg hu]

theorem offlineUUID_ne_empty (nameLower : String) : OfflineUUID toLower nameLower ≠ "" := by
  intro h
  have hlen := congrArg String.length h
  rw [OfflineUUID, String.length_append] at hlen
  have hpre : "offline:".length = 8 := rfl
  have hzero : "".length = 0 := rfl
  omega

theorem reconcile_uuidCache (db : DB) (o : Identity) :
    (reconcile toLower db o).uuidCache = db.uuidCache := by
  have hreroll (db : DB) (range : Option (Int × Int)) :
      (db.reroll range o.seenMs).uuidCache = db.uuidCache := by
    cases range <;> rfl
  unfold reconcile
  split
  · rfl
  · simp only
    split
    · rfl
    · rw [hreroll, reconcileOffline]
      cases db.players (OfflineUUID toLower o.nameLower) <;> rfl

theorem applyIdentity_uuidCache (db : DB) (o : Identity) :
    (db.ApplyIdentity toLower o).uuidCache = (db.cacheResolution o).uuidCache := by
  unfold ApplyIdentity
  obtain ⟨rollups, h⟩ := (((db.cacheResolution o).reconcile toLower o).record o).backfill_cases o
  obtain ⟨players, names, ips, h'⟩ := ((db.cacheResolution o).reconcile toLower o).record_cases o
  rw [h, h', reconcile_uuidCache]

theorem applyIdentity_twice {db : DB}
    (hgone : (db.ApplyIdentity toLower o).players (OfflineUUID toLower o.nameLower) = none) :
    (db.ApplyIdentity toLower o).ApplyIdentity toLower o =
    (db.ApplyIdentity toLower o).bumpIP o := by
  have hcached : (db.ApplyIdentity toLower o).cacheResolution o = db.ApplyIdentity toLower o := by
    have htwice : ((db.cacheResolution o).cacheResolution o).uuidCache =
      (db.cacheResolution o).uuidCache :=
      Table.upsert_upsert _ _ rfl fun _ => rfl
    unfold cacheResolution at htwice ⊢
    rw [applyIdentity_uuidCache]
    exact DB.ext rfl (htwice.trans (applyIdentity_uuidCache toLower db o).symm) rfl rfl rfl rfl rfl
      rfl
  rw [ApplyIdentity, hcached, reconcile_none toLower _ hgone, ApplyIdentity, record_backfill,
    backfill_idem, record_record, bumpIP_backfill]

theorem offlineSpanned_iff (hoff : db.players off = some row) :
    OfflineSpanned db off o ↔
      Option.merge Span.join
          (Option.merge Span.join ((db.players o.uuid).map PlayerRow.span) (some row.span))
          (some o.sighting) =
        Option.merge Span.join ((db.players o.uuid).map PlayerRow.span) (some o.sighting) := by
  rw [span_absorbed]
  simp only [OfflineSpanned, hoff, Option.map_eq_some_iff, exists_exists_and_eq_and,
    Identity.sighting]

theorem offlineSpanned_of_reconciled {db : DB} (honline : o.offline = false)
    (h : Reconciled (OfflineUUID toLower o.nameLower) o db (db.ApplyIdentity toLower o)) :
    o.uuid ≠ OfflineUUID toLower o.nameLower ∧
      OfflineSpanned db (OfflineUUID toLower o.nameLower) o := by
  have hgone := h.gone
  have hplayer := h.player
  unfold ApplyIdentity at hgone hplayer
  generalize hm : (db.cacheResolution o).reconcile toLower o = m at hgone hplayer
  obtain ⟨hplayers, hnames, hips, hsessions⟩ := m.record_backfill_players o
  rw [hplayers, hnames, hips, hsessions] at hgone
  rw [hplayers, record_player_span] at hplayer
  have hne : o.uuid ≠ OfflineUUID toLower o.nameLower := by
    intro heq
    have hspan := m.record_player_span o
    rw [heq, hgone.1] at hspan
    exact absurd (Option.merge_eq_none_iff.1 hspan.symm).2 (Option.some_ne_none _)
  refine ⟨hne, ?_⟩
  cases hoff : db.players (OfflineUUID toLower o.nameLower) with
  | none =>
    have hm' : db.cacheResolution o = m :=
      (reconcile_none toLower (db.cacheResolution o) hoff).symm.trans hm
    subst hm'
    obtain ⟨-, hname, hip⟩ := (db.cacheResolution o).record_others hne.symm
    simp only [OfflineSpanned, hoff]
    refine ⟨fun s hs hkeyed => ?_, fun name => ?_, fun ip => ?_⟩
    · have hclaimed : claimed o s = s := claimed_of_keyed hkeyed (offlineUUID_ne_empty toLower _)
      exact hgone.2.2.2 s (List.mem_map.2 ⟨s, hs, hclaimed⟩) hkeyed
    · exact (hname name).symm.trans (hgone.2.1 name)
    · exact (hip ip).symm.trans (hgone.2.2.1 ip)
  | some row =>
    have hmerged := reconcile_some toLower (db.cacheResolution o) honline hne hoff
    rw [hm] at hmerged
    rw [hmerged.players, Function.update_of_ne hne, hoff] at hplayer
    exact (offlineSpanned_iff hoff).2 hplayer.symm

theorem reconciled_of_offlineSpanned {db : DB} (honline : o.offline = false)
    (hne : o.uuid ≠ OfflineUUID toLower o.nameLower)
    (h : OfflineSpanned db (OfflineUUID toLower o.nameLower) o) :
    Reconciled (OfflineUUID toLower o.nameLower) o db (db.ApplyIdentity toLower o) := by
  cases hoff : db.players (OfflineUUID toLower o.nameLower) with
  | none =>
    simp only [OfflineSpanned, hoff] at h
    obtain ⟨hp, hn, hi, hs⟩ : Merged (OfflineUUID toLower o.nameLower) o db db :=
      .of_noOrphans hoff h
    have hm : reconcile toLower (db.cacheResolution o) o = db.cacheResolution o :=
      reconcile_none toLower _ hoff
    rw [ApplyIdentity, hm]
    refine Merged.reconciled ⟨hp, hn, hi, hs⟩ hne ?_
    rw [hoff, Option.map_none, Option.merge_none_right]
    rfl
  | some row =>
    obtain ⟨hp, hn, hi, hs⟩ := reconcile_some toLower (db.cacheResolution o) honline hne hoff
    refine Merged.reconciled ⟨hp, hn, hi, hs⟩ hne ?_
    rw [hp, Function.update_of_ne hne, hoff]
    exact ((offlineSpanned_iff hoff).1 h).symm

/-- Exactly where the offline player's row lies within the times of the real one and the sighting,
or is missing with all its history, an identity is reconciled without loss. -/
theorem reconcilesWithoutLoss_iff (db : DB) (o : Identity) (honline : o.offline = false) :
    ReconcilesWithoutLoss toLower db o ↔
      o.uuid ≠ OfflineUUID toLower o.nameLower ∧
        OfflineSpanned db (OfflineUUID toLower o.nameLower) o := by
  constructor
  · rintro ⟨h, -⟩
    exact offlineSpanned_of_reconciled toLower honline h
  · rintro ⟨hne, hspanned⟩
    have h := reconciled_of_offlineSpanned toLower honline hne hspanned
    exact ⟨h, applyIdentity_twice toLower h.gone.1⟩

/-- An offline player of this span, and no other history. -/
def offlineOnly (span : Span) : DB where
  retentionDays := 180
  uuidCache := fun _ => none
  players := fun uuid => if uuid = "offline:zed" then some ⟨"zed", true, span, "", 0⟩ else none
  playerNames := fun _ => none
  playerIPs := fun _ => none
  geoCC := fun _ => none
  sessions := []
  rollups := ⟨fun _ => none, fun _ => none⟩

def zed : Identity := ⟨"069a79f4", "Zed", "zed", "203.0.113.9", false, 1000, 1000⟩

theorem offlineOnly_zed (span : Span) :
    (offlineOnly span).players (OfflineUUID String.toLower zed.nameLower) =
      some ⟨"zed", true, span, "", 0⟩ :=
  if_pos (by decide +kernel)

theorem offlineOnly_spanned (span : Span) :
    OfflineSpanned (offlineOnly span) (OfflineUUID String.toLower zed.nameLower) zed ↔
      1000 ≤ span.firstSeen ∧ span.lastSeen ≤ 1000 := by
  have hreal : (offlineOnly span).players zed.uuid = none := rfl
  simp only [OfflineSpanned, offlineOnly_zed, hreal, reduceCtorEq, false_and, exists_false,
    or_false]
  rfl

theorem reconcilesWithoutLoss_sameTime :
    ReconcilesWithoutLoss String.toLower (offlineOnly ⟨1000, 1000⟩) zed :=
  (reconcilesWithoutLoss_iff String.toLower (offlineOnly ⟨1000, 1000⟩) zed rfl).2
    ⟨by decide +kernel, (offlineOnly_spanned _).2 (by decide)⟩

/-- An offline player seen before: its times are lost with the row. -/
theorem reconcile_loses_firstSeen :
    ¬ReconcilesWithoutLoss String.toLower (offlineOnly ⟨100, 200⟩) zed := by
  intro h
  obtain ⟨-, hspanned⟩ := offlineSpanned_of_reconciled String.toLower rfl h.1
  exact absurd ((offlineOnly_spanned _).1 hspanned).1 (by decide)

end DB

end

end ProxyForward.Analytics

import Mathlib.Data.List.Induction
import ProxyForward.PlayerNames

namespace ProxyForward.Analytics
set_option autoImplicit true

section

-- `strings.ToLower`
variable (toLower : String → String)

/-- The key of its own name when it is offline, and a real UUID otherwise. -/
def Identity.Keyed (o : Identity) : Prop :=
  o.nameLower = toLower o.name ∧
    if o.offline then o.uuid = OfflineUUID toLower o.nameLower
    else Players.RealUUID o.uuid ∧ o.uuid ≠ ""

/-- An identity as the resolver hands it over for storage. -/
structure Resolved extends Identity where
  keyed : toIdentity.Keyed toLower

/-- The final columns of a session. -/
structure Close where
  endedMs : Int
  bytesIn : Int
  bytesOut : Int
  deriving DecidableEq, Repr

/-- The tables, with the columns of the sessions that only a session's own writes name. -/
structure SessionTables extends DB where
  protocols : Table Int Int
  closes : Table Int Close

/-- A write about the sessions or their players. -/
inductive SessionWrite where
  | opened (id : Int) (agentID : String) (startedMs : Int) (geo : Option (String × String))
  | playerSeen (id : Int) (name : String) (protocol : Int)
  | closed (id : Int) (close : Close)
  | identity (o : Resolved toLower)
  | profileCheck (uuid name : String) (checkedMs : Int)

namespace SessionTables

def ids (t : SessionTables) : List Int := t.sessions.map SessionRow.id

/-- `INSERT INTO sessions`, which fails for an id that is there. A fresh lookup of the address goes
to the geo cache. -/
def SessionOpened (t : SessionTables) (id : Int) (agentID : String) (startedMs : Int)
    (geo : Option (String × String)) : SessionTables :=
  if id ∈ t.ids then t
  else
    { t with
      sessions := t.sessions ++ [⟨id, agentID, startedMs, none, none⟩]
      geoCC := match geo with
        | none => t.geoCC
        | some (ip, cc) => Function.update t.geoCC ip (some cc)
      protocols := Function.update t.protocols id none
      closes := Function.update t.closes id none }

def PlayerSeen (t : SessionTables) (id : Int) (name : String) (protocol : Int) : SessionTables :=
  { t with
    sessions := t.sessions.map fun s => if s.id = id then { s with playerName := some name } else s
    protocols := if id ∈ t.ids then Function.update t.protocols id (some protocol)
      else t.protocols }

def SessionClosed (t : SessionTables) (id : Int) (close : Close) : SessionTables :=
  { t with
    closes := if id ∈ t.ids then Function.update t.closes id (some close) else t.closes }

variable {toLower}

def write (t : SessionTables) : SessionWrite toLower → SessionTables
  | .opened id agentID startedMs geo => t.SessionOpened id agentID startedMs geo
  | .playerSeen id name protocol => t.PlayerSeen id name protocol
  | .closed id close => t.SessionClosed id close
  | .identity o => { t with toDB := t.ApplyIdentity toLower o.toIdentity }
  | .profileCheck uuid name checkedMs =>
    { t with toDB := Players.applyProfileCheck toLower t.toDB uuid name checkedMs }

def run (t : SessionTables) (ws : List (SessionWrite toLower)) : SessionTables := ws.foldl write t

/-- The tables before any session. -/
def cleared (t : SessionTables) : SessionTables := { t with sessions := [] }

/-- The session `id` has its UUID `u` from an identity that found it without one, under the
identity's name and started at most the window before: its own UUID, or the real one that its
offline identity has become. -/
def Attributed (t : SessionTables) (ws : List (SessionWrite toLower)) (id : Int) (u : String) :
    Prop :=
  ∃ pre o post, ws = pre ++ .identity o :: post ∧
    (∃ s ∈ (t.run pre).sessions, s.id = id ∧
      (∃ name, s.playerName = some name ∧ nocaseEq name o.name) ∧
      (s.playerUUID = none ∨ s.playerUUID = some "") ∧
      o.seenMs - s.startedMs ≤ backfillWindowMs) ∧
    (o.uuid = u ∨ o.offline = true ∧ ∃ o', .identity o' ∈ post ∧ o'.offline = false ∧
      OfflineUUID toLower o'.nameLower = o.uuid ∧ o'.uuid = u)

theorem run_concat (t : SessionTables) (ws : List (SessionWrite toLower))
    (w : SessionWrite toLower) : t.run (ws ++ [w]) = (t.run ws).write w := List.foldl_concat ..

theorem Attributed.append {id : Int} (h : Attributed t ws id u)
    (post : List (SessionWrite toLower)) : Attributed t (ws ++ post) id u := by
  obtain ⟨pre, o, between, rfl, hs, hu⟩ := h
  refine ⟨pre, o, between ++ post, ?_, hs, ?_⟩
  · rw [List.append_assoc, List.cons_append]
  · obtain hu | ⟨hoff, o', ho', h⟩ := hu
    · exact .inl hu
    · exact .inr ⟨hoff, o', List.mem_append_left _ ho', h⟩

/-- A session whose player an identity moves from the offline UUID to its own. -/
def rekeyed (off : String) (o : Identity) (s : SessionRow) : SessionRow :=
  if s.playerUUID = some off then { s with playerUUID := some o.uuid } else s

theorem applyIdentity_sessions (db : DB) (o : Identity) :
    (db.ApplyIdentity toLower o).sessions = db.sessions.map (DB.claimed o) ∨
      o.offline = false ∧ (db.ApplyIdentity toLower o).sessions =
        db.sessions.map fun s => DB.claimed o (rekeyed (OfflineUUID toLower o.nameLower) o s) := by
  have happly : (db.ApplyIdentity toLower o).sessions =
      ((db.cacheResolution o).reconcile toLower o).sessions.map (DB.claimed o) := by
    obtain ⟨-, -, -, h⟩ := ((db.cacheResolution o).reconcile toLower o).record_backfill_players o
    exact h
  rw [happly]
  have hkept (h : (db.cacheResolution o).reconcile toLower o = db.cacheResolution o) :
      ((db.cacheResolution o).reconcile toLower o).sessions.map (DB.claimed o) =
        db.sessions.map (DB.claimed o) := by
    rw [h]
    rfl
  by_cases hoffline : o.offline = true
  · left
    apply hkept
    rw [DB.reconcile, if_pos hoffline]
  · have honline : o.offline = false := Bool.eq_false_of_not_eq_true hoffline
    by_cases hne : o.uuid = OfflineUUID toLower o.nameLower
    · left
      apply hkept
      rw [DB.reconcile, if_neg hoffline]
      exact if_pos hne.symm
    · cases hplayer : db.players (OfflineUUID toLower o.nameLower) with
      | none =>
        left
        apply hkept
        exact DB.reconcile_none toLower (db.cacheResolution o) hplayer
      | some row =>
        right
        refine ⟨honline, ?_⟩
        rw [(DB.reconcile_some toLower (db.cacheResolution o) honline hne hplayer).sessions,
          List.map_map]
        rfl

/-- A write leaves a session's UUID, or gives it the identity's: by name, or for the offline one. -/
def Given (w : SessionWrite toLower) (s s' : SessionRow) : Prop :=
  s'.id = s.id ∧ (s'.playerUUID = s.playerUUID ∨ ∃ o, w = .identity o ∧
    s'.playerUUID = some o.uuid ∧ (DB.claims o.toIdentity s = true ∨
      o.offline = false ∧ s.playerUUID = some (OfflineUUID toLower o.nameLower)))

theorem given_claimed (o : Resolved toLower) (s : SessionRow) :
    Given (.identity o) s (DB.claimed o.toIdentity s) := by
  unfold DB.claimed
  split
  · rename_i hclaims
    exact ⟨rfl, .inr ⟨o, rfl, rfl, .inl hclaims⟩⟩
  · exact ⟨rfl, .inl rfl⟩

theorem claimed_keyed (o : Identity) (s : SessionRow) (h : s.playerUUID = some o.uuid) :
    (DB.claimed o s).id = s.id ∧ (DB.claimed o s).playerUUID = some o.uuid := by
  unfold DB.claimed
  split
  · exact ⟨rfl, rfl⟩
  · exact ⟨rfl, h⟩

theorem given_rekeyed (o : Resolved toLower) (honline : o.offline = false) (s : SessionRow) :
    Given (.identity o) s
      (DB.claimed o.toIdentity (rekeyed (OfflineUUID toLower o.nameLower) o.toIdentity s)) := by
  unfold rekeyed
  split
  · rename_i hoff
    obtain ⟨hid, huuid⟩ := claimed_keyed o.toIdentity { s with playerUUID := some o.uuid } rfl
    exact ⟨hid, .inr ⟨o, rfl, huuid, .inr ⟨honline, hoff⟩⟩⟩
  · exact given_claimed o s

theorem write_sessions (t : SessionTables) (w : SessionWrite toLower) :
    ∃ f rows, (t.write w).sessions = t.sessions.map f ++ rows ∧ (∀ s, Given w s (f s)) ∧
      (rows = [] ∨ ∃ s : SessionRow, rows = [s] ∧ s.id ∉ t.ids ∧ s.playerUUID = none) := by
  have hsame (s : SessionRow) : Given w s s := ⟨rfl, .inl rfl⟩
  cases w with
  | opened id agentID startedMs geo =>
    change ∃ f rows, (t.SessionOpened id agentID startedMs geo).sessions = _ ∧ _
    unfold SessionOpened
    split
    · exact ⟨fun s => s, [], by rw [List.map_id', List.append_nil], hsame, .inl rfl⟩
    · rename_i hid
      refine ⟨fun s => s, _, by rw [List.map_id'], hsame, .inr ⟨_, rfl, hid, rfl⟩⟩
  | playerSeen id name protocol =>
    refine ⟨_, [], (List.append_nil _).symm, fun s => ?_, .inl rfl⟩
    by_cases hid : s.id = id
    · rw [if_pos hid]
      exact ⟨rfl, .inl rfl⟩
    · rw [if_neg hid]
      exact hsame s
  | closed id close =>
    exact ⟨fun s => s, [], by rw [List.map_id', List.append_nil]; rfl, hsame, .inl rfl⟩
  | identity o =>
    obtain h | ⟨honline, h⟩ := applyIdentity_sessions t.toDB o.toIdentity
    · exact ⟨_, [], h.trans (List.append_nil _).symm, given_claimed o, .inl rfl⟩
    · exact ⟨_, [], h.trans (List.append_nil _).symm, given_rekeyed o honline, .inl rfl⟩
  | profileCheck uuid name checkedMs =>
    refine ⟨fun s => s, [], ?_, hsame, .inl rfl⟩
    rw [List.map_id', List.append_nil]
    simp only [write, Players.applyProfileCheck]
    split <;> rfl

theorem map_id_given {f : SessionRow → SessionRow} (h : ∀ s, Given w s (f s))
    (rows : List SessionRow) : (rows.map f).map SessionRow.id = rows.map SessionRow.id := by
  rw [List.map_map]
  exact List.map_congr_left fun s _ => (h s).1

theorem nodup_write (t : SessionTables) (w : SessionWrite toLower) (h : t.ids.Nodup) :
    (t.write w).ids.Nodup := by
  obtain ⟨f, rows, hsessions, hgiven, hrows⟩ := t.write_sessions w
  rw [ids, hsessions, List.map_append, map_id_given hgiven]
  obtain rfl | ⟨s, rfl, hid, -⟩ := hrows
  · rw [List.map_nil, List.append_nil]
    exact h
  · exact List.nodup_append.2 ⟨h, List.nodup_singleton _, fun a ha b hb => by
      rw [List.mem_singleton.1 hb]
      rintro rfl
      exact hid ha⟩

theorem nodup_run (t : SessionTables) (ws : List (SessionWrite toLower)) :
    (t.cleared.run ws).ids.Nodup := by
  induction ws using List.reverseRecOn with
  | nil => exact List.nodup_nil
  | append_singleton ws w ih =>
    rw [run_concat]
    exact nodup_write _ w ih

theorem offline_of_key (o : Resolved toLower) (h : o.uuid = OfflineUUID toLower n) :
    o.offline = true := by
  have hkeyed := o.keyed.2
  by_contra hoff
  rw [if_neg hoff] at hkeyed
  exact Players.Resolver.real_ne_offlineUUID hkeyed.1 n h

theorem attributed_of_claims (t : SessionTables) (o : Resolved toLower) {s : SessionRow}
    (hs : s ∈ (t.run ws).sessions) (h : DB.claims o.toIdentity s = true) :
    Attributed t (ws ++ [.identity o]) s.id o.uuid := by
  unfold DB.claims at h
  rw [Bool.and_eq_true, Bool.and_eq_true, decide_eq_true_eq, Bool.or_eq_true, decide_eq_true_eq,
    decide_eq_true_eq] at h
  obtain ⟨⟨hname, huuid⟩, hwindow⟩ := h
  refine ⟨ws, o, [], rfl, ⟨s, hs, rfl, ?_, huuid, by omega⟩, .inl rfl⟩
  cases hn : s.playerName with
  | none =>
    rw [hn] at hname
    cases hname
  | some name =>
    rw [hn] at hname
    exact ⟨name, rfl, hname⟩

theorem Attributed.rekey {id : Int} (o : Resolved toLower) (honline : o.offline = false)
    (h : Attributed t ws id (OfflineUUID toLower o.nameLower)) :
    Attributed t (ws ++ [.identity o]) id o.uuid := by
  obtain ⟨pre, o₁, post, rfl, hs, hu⟩ := h
  refine ⟨pre, o₁, post ++ [.identity o], ?_, hs, .inr ?_⟩
  · rw [List.append_assoc, List.cons_append]
  · obtain hu | ⟨-, o', -, honline', -, hu⟩ := hu
    · exact ⟨offline_of_key o₁ hu, o, List.mem_append_right _ (List.mem_singleton_self _), honline,
        hu.symm, rfl⟩
    · have hoffline' := offline_of_key o' hu
      exact absurd (honline'.symm.trans hoffline') Bool.false_ne_true

theorem attributed_run (t : SessionTables) (ws : List (SessionWrite toLower)) :
    ∀ s ∈ (t.cleared.run ws).sessions, ∀ u, s.playerUUID = some u →
      Attributed t.cleared ws s.id u := by
  induction ws using List.reverseRecOn with
  | nil =>
    intro s hs
    exact absurd hs List.not_mem_nil
  | append_singleton ws w ih =>
    intro s' hs' u hu
    rw [run_concat] at hs'
    obtain ⟨f, rows, hsessions, hgiven, hrows⟩ := (t.cleared.run ws).write_sessions w
    rw [hsessions] at hs'
    obtain hs' | hs' := List.mem_append.1 hs'
    · obtain ⟨s, hs, rfl⟩ := List.mem_map.1 hs'
      obtain ⟨hid, hsame | ⟨o, rfl, ho, hclaims | ⟨honline, hoff⟩⟩⟩ := hgiven s
      · rw [hid]
        exact (ih s hs u (hsame.symm.trans hu)).append [w]
      · cases ho.symm.trans hu
        rw [hid]
        exact attributed_of_claims _ o hs hclaims
      · cases ho.symm.trans hu
        rw [hid]
        exact (ih s hs _ hoff).rekey o honline
    · obtain rfl | ⟨s, rfl, -, hnone⟩ := hrows
      · exact absurd hs' List.not_mem_nil
      · rw [List.mem_singleton.1 hs', hnone] at hu
        cases hu

theorem Given.final (h : Given w s s') (hs : s.playerUUID = some u) (hreal : Players.RealUUID u)
    (hne : u ≠ "") : s'.playerUUID = some u := by
  obtain ⟨-, hsame | ⟨o, -, -, hclaims | ⟨-, hoff⟩⟩⟩ := h
  · exact hsame.trans hs
  · unfold DB.claims at hclaims
    simp [hs, hne] at hclaims
  · cases hs.symm.trans hoff
    exact absurd rfl (Players.Resolver.real_ne_offlineUUID hreal o.nameLower)

theorem run_final (t : SessionTables) (ws : List (SessionWrite toLower)) (hs : s ∈ t.sessions)
    (hu : s.playerUUID = some u) (hreal : Players.RealUUID u) (hne : u ≠ "") :
    ∃ s' ∈ (t.run ws).sessions, s'.id = s.id ∧ s'.playerUUID = some u := by
  induction ws generalizing t s with
  | nil => exact ⟨s, hs, rfl, hu⟩
  | cons w ws ih =>
    obtain ⟨f, rows, hsessions, hgiven, -⟩ := t.write_sessions w
    have hmem : f s ∈ (t.write w).sessions := by
      rw [hsessions]
      exact List.mem_append_left _ (List.mem_map_of_mem hs)
    obtain ⟨s', hs', hid, hu'⟩ := ih (t.write w) hmem ((hgiven s).final hu hreal hne)
    exact ⟨s', hs', hid.trans (hgiven s).1, hu'⟩

variable (toLower)

/-- A session's UUID comes from an identity of its name within the window, and a real one stays. -/
theorem attribution_final_and_by_name (t : SessionTables) (ws : List (SessionWrite toLower)) :
    (t.cleared.run ws).ids.Nodup ∧
      (∀ s ∈ (t.cleared.run ws).sessions, ∀ u, s.playerUUID = some u →
        Attributed t.cleared ws s.id u) ∧
      ∀ pre post, ws = pre ++ post → ∀ s ∈ (t.cleared.run pre).sessions, ∀ u,
        s.playerUUID = some u → Players.RealUUID u → u ≠ "" →
          ∃ s' ∈ (t.cleared.run ws).sessions, s'.id = s.id ∧ s'.playerUUID = some u := by
  refine ⟨nodup_run t ws, attributed_run t ws, ?_⟩
  rintro pre post rfl s hs u hu hreal hne
  have hrun : t.cleared.run (pre ++ post) = (t.cleared.run pre).run post := List.foldl_append
  rw [hrun]
  exact run_final (t.cleared.run pre) post hs hu hreal hne

end SessionTables

end

end ProxyForward.Analytics

namespace ProxyForward.Players.Resolver
set_option autoImplicit true
open Analytics Runs

section

variable (toLower dashUUID : String → String)

/-- The write of a keyed identity, or the check of a real player's profile. -/
def OpKeyed : Op → Prop
  | .identity o _ => o.Keyed toLower
  | .profileCheck uuid _ _ _ => RealUUID uuid ∧ uuid ≠ ""

/-- What makes the identities of a resolver keyed. -/
structure AllKeyed (s : Resolver) : Prop where
  cache : ∀ n row, s.db.uuidCache n = some row → row.uuid ≠ "" → RealUUID row.uuid
  written : ∀ op ∈ s.written, OpKeyed toLower op
  asked : ∀ uuid ∈ s.asked, RealUUID uuid ∧ uuid ≠ ""

variable {toLower dashUUID}

theorem AllKeyed.land {s : Resolver} (hk : AllKeyed toLower s) {uuid : String} {o : Observation}
    (h : (identityOf toLower uuid o offline network now).Keyed toLower) :
    AllKeyed toLower (s.land toLower uuid o offline network now) := by
  have hland := s.enqueues_land toLower uuid o offline network now
  refine ⟨?_, ?_, ?_⟩
  · rw [hland.db]
    exact hk.cache
  · rw [hland.written]
    intro op hm
    obtain hm | hm := List.mem_append.1 hm
    · rw [List.mem_singleton.1 (List.mem_reverse.1 hm)]
      exact h
    · exact hk.written op hm
  · rw [asked_land]
    exact hk.asked

theorem AllKeyed.applyOffline {s : Resolver} (hk : AllKeyed toLower s) (o : Observation)
    (network : Bool) (now : Int) : AllKeyed toLower (s.applyOffline toLower o network now) :=
  hk.land ⟨rfl, rfl⟩

theorem AllKeyed.maybeRefresh {s : Resolver} (hk : AllKeyed toLower s)
    (hreal : RealUUID uuid ∧ uuid ≠ "") (profileErr : Bool) (now : Int) :
    AllKeyed toLower (s.maybeRefresh uuid profileErr now) := by
  obtain ⟨checkedAt, h⟩ | h := s.maybeRefresh_cases uuid profileErr now
  · rw [h]
    exact ⟨hk.cache, hk.written, hk.asked⟩
  · rw [h]
    refine ⟨hk.cache, hk.written, ?_⟩
    intro uuid' hm
    simp only [Resolver.asked, List.mem_append, List.mem_singleton] at hm
    obtain (hm | hm) | hm := hm
    · exact hk.asked uuid' (List.mem_append_left _ hm)
    · rw [hm]
      exact hreal
    · exact hk.asked uuid' (List.mem_append_right _ hm)

theorem AllKeyed.sight {s : Resolver} (hk : AllKeyed toLower s) (o : Observation)
    (cacheErr profileErr : Bool) (now seen refresh : Int) :
    AllKeyed toLower (s.sight toLower o cacheErr profileErr now seen refresh) := by
  unfold Resolver.sight
  obtain h | ⟨h, -⟩ | ⟨row, hrow, ⟨hu, -, h⟩ | ⟨-, -, h⟩⟩ :=
    s.handleCached_cases (toLower o.name) cacheErr now
  · rw [h]
    exact ⟨hk.cache, hk.written, hk.asked⟩
  · rw [h]
    exact hk.applyOffline o false seen
  · rw [h]
    have hreal := hk.cache _ row hrow hu
    have hland : AllKeyed toLower (s.land toLower row.uuid o false false seen) :=
      hk.land ⟨rfl, hreal, hu⟩
    exact hland.maybeRefresh ⟨hreal, hu⟩ profileErr refresh
  · rw [h]
    exact hk.applyOffline o false seen

theorem found_real (hdash : ∀ id, dashUUID id ≠ "" → RealUUID (dashUUID id))
    (h : found toLower dashUUID entries lower = some (uuid, name)) : RealUUID uuid := by
  have hne := found_some h
  unfold found at h
  obtain ⟨e, -, hp⟩ := Option.map_eq_some_iff.1 h
  cases hp
  exact hdash e.1 hne

theorem AllKeyed.foldl_settle (hdash : ∀ id, dashUUID id ≠ "" → RealUUID (dashUUID id))
    (entries : List (String × String)) (visits : List (String × Int)) {s : Resolver}
    (hk : AllKeyed toLower s) :
    AllKeyed toLower (visits.foldl (settle toLower dashUUID entries) s) := by
  induction visits generalizing s with
  | nil => exact hk
  | cons visit visits ih =>
    apply ih
    unfold settle
    cases s.pending.lookup visit.1 with
    | none => exact hk
    | some o =>
      simp only
      cases hf : found toLower dashUUID entries visit.1 with
      | none => exact hk.applyOffline o true visit.2
      | some r => exact hk.land ⟨rfl, found_real hdash hf, found_some hf⟩

theorem AllKeyed.landed {s : Resolver} (hk : AllKeyed toLower s) (hq : s.queue = op :: ops) :
    AllKeyed toLower (s.landing toLower op ops) := by
  have hw : (s.landing toLower op ops).written = s.written := written_landing hq
  refine ⟨?_, hw ▸ hk.written, hk.asked⟩
  intro n row hrow hu
  have hop : OpKeyed toLower op := by
    apply hk.written
    rw [Resolver.written, hq, List.reverse_cons, List.append_assoc]
    exact List.mem_append_right _ List.mem_cons_self
  change (op.run toLower s.db).uuidCache n = some row at hrow
  rw [run_uuidCache] at hrow
  obtain hrow | ⟨-, hrow⟩ := Option.or_eq_some_iff.1 hrow
  · cases op with
    | identity o network =>
      simp only [Op.rowAt, Option.ite_none_right_eq_some, Option.some.injEq] at hrow
      obtain ⟨-, rfl⟩ := hrow
      dsimp only at hu ⊢
      cases hoffline : o.offline with
      | true =>
        rw [hoffline] at hu
        exact absurd rfl hu
      | false =>
        have hkeyed := hop.2
        rw [hoffline] at hkeyed
        exact hkeyed.1
    | profileCheck uuid name checkedMs time =>
      simp only [Op.rowAt, Option.ite_none_right_eq_some, Option.some.injEq] at hrow
      obtain ⟨-, rfl⟩ := hrow
      exact hop.1
  · exact hk.cache n row hrow hu

theorem allKeyed_of_reaches {enabled : Bool} {db : DB} {clock : Int}
    (hdash : ∀ id, dashUUID id ≠ "" → RealUUID (dashUUID id))
    (hr : Reaches (step toLower dashUUID) (start enabled db clock) ls s) :
    AllKeyed toLower s := by
  apply hr.invariant (I := AllKeyed toLower) _ ⟨nofun, nofun, nofun⟩
  intro s l t hk hs
  cases step_moved hs with
  | sight o cacheErr profileErr now seen refresh =>
    have h := hk.sight o cacheErr profileErr now seen refresh
    exact ⟨h.cache, h.written, h.asked⟩
  | dropped => exact ⟨hk.cache, hk.written, hk.asked⟩
  | settled entries visits clock =>
    have h := hk.foldl_settle hdash entries visits
    exact ⟨h.cache, h.written, h.asked⟩
  | landed hq => exact hk.landed hq
  | fetch hq hf clock =>
    refine ⟨hk.cache, hk.written, fun uuid hm => ?_⟩
    obtain hm | hm := (enqueues_fetch hq hf clock).asked uuid hm
    · exact hk.asked uuid hm
    · obtain ⟨o, network, hm, -⟩ := hm
      exact absurd hm List.not_mem_nil
  | answered clock =>
    exact ⟨hk.cache, hk.written, fun uuid hm => hk.asked uuid (mem_asked_idle hm)⟩
  | profile hf name now =>
    have h := enqueues_profile hf name [] now
    refine ⟨hk.cache, ?_, fun uuid hm => hk.asked uuid (mem_asked_idle hm)⟩
    intro op hm
    obtain hm | hm := mem_written_append.1 hm
    · exact hk.written op hm
    · rw [List.mem_singleton.1 hm]
      exact hk.asked _ (h.checks _ _ _ _ (List.mem_singleton_self _))
  | restart => exact ⟨hk.cache, hk.written, nofun⟩

/-- A keyed write, as the session tables take it. -/
def OpKeyed.handed : (op : Op) → OpKeyed toLower op → SessionWrite toLower
  | .identity o _, h => .identity ⟨o, h⟩
  | .profileCheck uuid name checkedMs _, _ => .profileCheck uuid name checkedMs

/-- The writes that have landed, oldest first. -/
def AllKeyed.handed {s : Resolver} (hk : AllKeyed toLower s) : List (SessionWrite toLower) :=
  s.landed.reverse.pmap OpKeyed.handed fun op hop =>
    hk.written op (List.mem_append_right _ (List.mem_reverse.1 hop))

theorem db_of_reaches {enabled : Bool} {db : DB} {clock : Int}
    (hr : Reaches (step toLower dashUUID) (start enabled db clock) ls s) :
    s.db = s.landed.reverse.foldl (fun db op => op.run toLower db) (start enabled db clock).db := by
  apply hr.invariant (I := fun s => s.db = s.landed.reverse.foldl (fun db op => op.run toLower db)
    (start enabled db clock).db) _ rfl
  intro s l s' hdb hs
  by_cases hl : l = .land
  · rw [hl] at hs
    obtain ⟨op, ops, -, rfl⟩ := step_landing hs
    change op.run toLower s.db = _
    rw [landing, List.reverse_cons, List.foldl_concat, ← hdb]
  · obtain ⟨ops, h, -⟩ := step_enqueues hs hl
    rw [h.db, h.landed]
    exact hdb

theorem run_pmap_handed (ops : List Op) (h : ∀ op ∈ ops, OpKeyed toLower op) (t : SessionTables) :
    (t.run (ops.pmap OpKeyed.handed h)).toDB =
      ops.foldl (fun db op => op.run toLower db) t.toDB := by
  induction ops generalizing t with
  | nil => rfl
  | cons op ops ih =>
    have hop : (t.write (OpKeyed.handed op (h op List.mem_cons_self))).toDB =
        op.run toLower t.toDB := by
      cases op <;> rfl
    rw [List.foldl_cons, ← hop]
    exact ih _ _

/-- In every run of the resolver the tables are what its writes, all of resolved identities, make of
the session tables. -/
theorem run_handed {enabled : Bool} {db : DB} {clock : Int}
    (hdash : ∀ id, dashUUID id ≠ "" → RealUUID (dashUUID id))
    (hr : Reaches (step toLower dashUUID) (start enabled db clock) ls s) (t : SessionTables)
    (ht : t.toDB = (start enabled db clock).db) :
    (t.run (allKeyed_of_reaches hdash hr).handed).toDB = s.db := by
  rw [AllKeyed.handed, run_pmap_handed, ht, db_of_reaches hr]

end

end ProxyForward.Players.Resolver

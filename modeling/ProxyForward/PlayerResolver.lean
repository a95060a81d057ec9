import ProxyForward.Identity
import ProxyForward.Runs

namespace ProxyForward.Players
set_option autoImplicit true
open Analytics Runs

/-- A sighting of a player. -/
structure Observation where
  name : String
  ip : String
  deriving DecidableEq, Repr

def batchSize : Nat := 10

/-- Thirty days, in milliseconds like all times here. -/
def positiveTTL : Int := 2592000000

def negativeTTL : Int := 86400000

def profileTTL : Int := 86400000

def checkedAtMax : Nat := 4096

def refreshQCap : Nat := 64

/-- A write on its way to the tables. Whether an identity came from a lookup, and when a fetch was
over, is not written. -/
inductive Op where
  | identity (o : Analytics.Identity) (network : Bool)
  | profileCheck (uuid name : String) (checkedMs time : Int)
  deriving DecidableEq, Repr

structure Resolver where
  enabled : Bool
  db : DB
  queue : List Op
  /-- By lowercased name, the latest sighting of each. -/
  pending : List (String × Observation)
  checkedAt : List (String × Int)
  refreshQ : List String
  /-- The profile that the refresh worker fetches, since when. -/
  fetching : Option (String × Int)
  clock : Int
  /-- The writes that have landed, newest first. -/
  landed : List Op

/-- What `handleCached` makes of a sighting. -/
inductive Handled where
  | offline
  | lookup
  | cachedUUID (uuid : String)
  | cachedMiss
  deriving DecidableEq, Repr

/-- The body that the session server answers with, a missing profile, or no answer. -/
inductive Fetched where
  | profile (name : String)
  | gone
  | failed
  deriving DecidableEq, Repr

/-- The sightings, with the readings of the clock for the age, the identity and the refresh; the
lookup of a batch with its entries or an error; the writer; and the refresh worker. -/
inductive Label where
  | sight (o : Observation) (cacheErr profileErr : Bool) (now seen refresh : Int)
  | resolve (response : Option (List (String × String))) (visits : List (String × Int))
  | land
  | fetch (now : Int)
  | fetched (r : Fetched) (now : Int)
  | restart

section

-- `strings.ToLower` and the check of an undashed id
variable (toLower : String → String) (dashUUID : String → String)

/-- `ApplyProfileCheck`; a missing profile has no name. -/
def applyProfileCheck (db : DB) (uuid name : String) (checkedMs : Int) : DB :=
  let stamp (row : PlayerRow) : PlayerRow := { row with profileCheckedMs := checkedMs }
  let db := { db with players := Function.update db.players uuid ((db.players uuid).map stamp) }
  if name = "" then db
  else
    { db with
      players := Function.update db.players uuid
        ((db.players uuid).map fun row => { row with name })
      playerNames := db.playerNames.upsert (uuid, name) ⟨checkedMs, checkedMs⟩ Span.join
      uuidCache := db.uuidCache.upsert (toLower name) ⟨uuid, checkedMs⟩ fun _ row => row }

def Op.run (db : DB) : Op → DB
  | .identity o _ => db.ApplyIdentity toLower o
  | .profileCheck uuid name checkedMs _ => applyProfileCheck toLower db uuid name checkedMs

namespace Resolver

def checked (s : Resolver) (uuid : String) : Option Int := s.checkedAt.lookup uuid

def setChecked (s : Resolver) (uuid : String) (t now : Int) : Resolver :=
  let checkedAt :=
    if checkedAtMax < s.checkedAt.length then
      s.checkedAt.filter fun e => now - profileTTL ≤ e.2
    else s.checkedAt
  { s with checkedAt := (uuid, t) :: checkedAt.filter fun e => e.1 ≠ uuid }

/-- The last profile check of a player, zero for none. -/
def profileCheckedMs (s : Resolver) (uuid : String) : Int :=
  ((s.db.players uuid).map PlayerRow.profileCheckedMs).getD 0

def maybeRefresh (s : Resolver) (uuid : String) (profileErr : Bool) (now : Int) : Resolver :=
  if s.enabled = false ∨ "offline:".isPrefixOf uuid then s
  else if ∃ t ∈ s.checked uuid, now - t < profileTTL then s
  else if profileErr then s
  else if now - s.profileCheckedMs uuid < profileTTL then
    s.setChecked uuid (s.profileCheckedMs uuid) now
  else if s.refreshQ.length < refreshQCap then { s with refreshQ := s.refreshQ ++ [uuid] }
  else s

def handleCached (s : Resolver) (nameLower : String) (cacheErr : Bool) (now : Int) : Handled :=
  if s.enabled = false then .offline
  else if cacheErr then .lookup
  else
    match s.db.uuidCache nameLower with
    | none => .lookup
    | some e =>
      let age := now - e.resolvedMs
      if e.uuid ≠ "" then
        if positiveTTL < age then .lookup else .cachedUUID e.uuid
      else if negativeTTL < age then .lookup
      else .cachedMiss

/-- The identity that `apply` lands; one fresh from a lookup restarts the refresh clock. -/
def identityOf (uuid : String) (o : Observation) (offline network : Bool) (now : Int) :
    Analytics.Identity where
  uuid := uuid
  name := o.name
  nameLower := toLower o.name
  ip := o.ip
  offline := offline
  seenMs := now
  profileCheckedMs := if network && !offline then now else 0

/-- `apply` up to the refresh, for an identity from a lookup or not. -/
def land (s : Resolver) (uuid : String) (o : Observation) (offline network : Bool) (now : Int) :
    Resolver :=
  let s := if network && !offline then s.setChecked uuid now now else s
  { s with queue := s.queue ++ [.identity (identityOf toLower uuid o offline network now) network] }

def applyOffline (s : Resolver) (o : Observation) (network : Bool) (now : Int) : Resolver :=
  s.land toLower (OfflineUUID toLower (toLower o.name)) o true network now

/-- The map that `lookup` decodes from the entries, each an id and a name. -/
def found (entries : List (String × String)) (lower : String) : Option (String × String) :=
  (entries.reverse.find? fun e => dashUUID e.1 ≠ "" ∧ toLower e.2 = lower).map fun e =>
    (dashUUID e.1, e.2)

/-- What `resolveBatch` does with one pending name. -/
def settle (entries : List (String × String)) (s : Resolver) (visit : String × Int) : Resolver :=
  match s.pending.lookup visit.1 with
  | none => s
  | some o =>
    match found toLower dashUUID entries visit.1 with
    | some (uuid, name) => s.land toLower uuid ⟨name, o.ip⟩ false true visit.2
    | none => s.applyOffline toLower o true visit.2

def sight (s : Resolver) (o : Observation) (cacheErr profileErr : Bool)
    (now seen refresh : Int) : Resolver :=
  match s.handleCached (toLower o.name) cacheErr now with
  | .offline | .cachedMiss => s.applyOffline toLower o false seen
  | .lookup =>
    { s with pending := (toLower o.name, o) :: s.pending.filter fun e => e.1 ≠ toLower o.name }
  | .cachedUUID uuid =>
    (s.land toLower uuid o false false seen).maybeRefresh uuid profileErr refresh

def step (s : Resolver) : Label → Option Resolver
  | .sight o cacheErr profileErr now seen refresh =>
    if o.name ≠ "" ∧ s.pending.length < batchSize ∧ s.clock ≤ now ∧ now ≤ seen ∧ seen ≤ refresh then
      some { s.sight toLower o cacheErr profileErr now seen refresh with clock := refresh }
    else none
  | .resolve response visits =>
    if s.pending = [] then none
    else
      match response with
      | none => some { s with pending := [] }
      | some entries =>
        if (visits.map Prod.fst).Perm (s.pending.map Prod.fst) ∧
            (s.clock :: visits.map Prod.snd).Pairwise (· ≤ ·) then
          some { visits.foldl (settle toLower dashUUID entries) s with
            pending := [], clock := (visits.map Prod.snd).foldr max s.clock }
        else none
  | .land =>
    match s.queue with
    | [] => none
    | op :: queue =>
      some { s with db := op.run toLower s.db, queue, landed := op :: s.landed }
  | .fetch now =>
    match s.fetching, s.refreshQ with
    | none, uuid :: refreshQ =>
      if s.clock ≤ now then
        let fresh : Prop := ∃ t ∈ s.checked uuid, now - t < profileTTL
        some { s with refreshQ, clock := now, fetching := if fresh then none else some (uuid, now) }
      else none
    | _, _ => none
  | .fetched r now =>
    match s.fetching with
    | none => none
    | some (uuid, checkedMs) =>
      if s.clock ≤ now then
        let s := { s with fetching := none, clock := now }
        match r with
        | .failed => some s
        | .gone =>
          some { s.setChecked uuid checkedMs now with
            queue := s.queue ++ [.profileCheck uuid "" checkedMs now] }
        | .profile name =>
          if name = "" then some s
          else
            some { s.setChecked uuid checkedMs now with
              queue := s.queue ++ [.profileCheck uuid name checkedMs now] }
      else none
  | .restart => some { s with pending := [], checkedAt := [], refreshQ := [], fetching := none }

/-- A resolver over tables that hold no resolution yet. -/
def start (enabled : Bool) (db : DB) (clock : Int) : Resolver :=
  ⟨enabled, { db with uuidCache := fun _ => none }, [], [], [], [], none, clock, []⟩

end Resolver

/-- The row of the name cache that an operation writes for a name. -/
def Op.rowAt (n : String) : Op → Option CacheRow
  | .identity o _ =>
    if o.nameLower = n then some ⟨if o.offline then "" else o.uuid, o.seenMs⟩ else none
  | .profileCheck uuid name checkedMs _ =>
    if name ≠ "" ∧ toLower name = n then some ⟨uuid, checkedMs⟩ else none

/-- When a lookup or a profile fetch confirmed a name. -/
def Op.confirms (n : String) : Op → Option Int
  | .identity o network => if network ∧ o.offline = false ∧ o.nameLower = n then some o.seenMs
    else none
  | .profileCheck _ name _ time => if name ≠ "" ∧ toLower name = n then some time else none

/-- When a lookup missed a name. -/
def Op.misses (n : String) : Op → Option Int
  | .identity o network => if network ∧ o.offline = true ∧ o.nameLower = n then some o.seenMs
    else none
  | .profileCheck _ _ _ _ => none

namespace Resolver

/-- All writes so far, newest first. -/
def written (s : Resolver) : List Op := s.queue.reverse ++ s.landed

def lastConfirmed (s : Resolver) (n : String) : Option Int :=
  s.written.findSome? (Op.confirms toLower n)

def lastMissed (s : Resolver) (n : String) : Option Int := s.written.findSome? (Op.misses n)

/-- What the last write that has landed for a name says of it, and as of when. -/
def lastLanded (s : Resolver) (n : String) : Option CacheRow :=
  s.landed.findSome? (Op.rowAt toLower n)

/-- What is answered from the cache was confirmed, or missed, no longer ago than its TTL. -/
def AnswersFresh (s : Resolver) (nameLower : String) (cacheErr : Bool) (now : Int) : Prop :=
  match s.handleCached nameLower cacheErr now with
  | .cachedUUID _ => ∃ c, s.lastConfirmed toLower nameLower = some c ∧ now - c ≤ positiveTTL
  | .cachedMiss => ∃ m, s.lastMissed nameLower = some m ∧ now - m ≤ negativeTTL
  | .offline | .lookup => True

/-- No sighting comes later than the TTL after the last confirmation, or miss, of its name but
within the TTL of the last application that has landed for it. -/
def NotKeptAlive (s : Resolver) (nameLower : String) (now : Int) : Prop :=
  ∀ row, s.lastLanded toLower nameLower = some row →
    (row.uuid ≠ "" → ∀ c, s.lastConfirmed toLower nameLower = some c →
      ¬(c + positiveTTL < now ∧ now ≤ row.resolvedMs + positiveTTL)) ∧
    (row.uuid = "" → ∀ m, s.lastMissed nameLower = some m →
      ¬(m + negativeTTL < now ∧ now ≤ row.resolvedMs + negativeTTL))

/-- A property of the sightings of a run, none of its other steps. -/
def AtSight (P : Resolver → String → Bool → Int → Prop) (s : Resolver) : Label → Prop
  | .sight o cacheErr _ now _ _ => P s (toLower o.name) cacheErr now
  | _ => True

/-- An operation that names a player's row writes what was confirmed, or missed. -/
def Backed (ops : List Op) (op : Op) : Prop :=
  ∀ n row, op.rowAt toLower n = some row →
    (row.uuid ≠ "" → ∃ op' ∈ ops, (op'.confirms toLower n).isSome = true) ∧
      (row.uuid = "" → ∃ op' ∈ ops, (op'.misses n).isSome = true)

variable {toLower dashUUID}

theorem Backed.mono (h : Backed toLower ops op) (hs : ∀ op ∈ ops, op ∈ ops') :
    Backed toLower ops' op := by
  intro n row hrow
  obtain ⟨h1, h2⟩ := h n row hrow
  constructor
  · intro hu
    obtain ⟨op', hm, ho⟩ := h1 hu
    exact ⟨op', hs op' hm, ho⟩
  · intro hu
    obtain ⟨op', hm, ho⟩ := h2 hu
    exact ⟨op', hs op' hm, ho⟩

/-- What holds between the steps of an enabled resolver. -/
structure Inv (toLower : String → String) (s : Resolver) : Prop where
  cache : ∀ n, s.db.uuidCache n = s.lastLanded toLower n
  backed : ∀ op ∈ s.written, Backed toLower s.written op
  refreshQ : ∀ uuid ∈ s.refreshQ, uuid ≠ ""
  fetching : ∀ f ∈ s.fetching, f.1 ≠ ""

theorem inv_start (enabled : Bool) (db : DB) (clock : Int) :
    Inv toLower (start enabled db clock) := ⟨fun _ => rfl, nofun, nofun, nofun⟩

theorem mem_written_append {s : Resolver} {ops : List Op} {op : Op} :
    op ∈ ({ s with queue := s.queue ++ ops } : Resolver).written ↔ op ∈ s.written ∨ op ∈ ops := by
  simp only [written, List.reverse_append, List.mem_append, List.mem_reverse]
  constructor
  · rintro ((h | h) | h)
    · exact .inr h
    · exact .inl (.inl h)
    · exact .inl (.inr h)
  · rintro ((h | h) | h)
    · exact .inl (.inr h)
    · exact .inr h
    · exact .inl (.inl h)

theorem Inv.enqueue {s : Resolver} (hi : Inv toLower s) {op : Op}
    (hb : Backed toLower (({ s with queue := s.queue ++ [op] } : Resolver)).written op) :
    Inv toLower { s with queue := s.queue ++ [op] } := by
  refine ⟨hi.cache, ?_, hi.refreshQ, hi.fetching⟩
  intro op' hm
  obtain hm | hm := mem_written_append.1 hm
  · exact (hi.backed op' hm).mono fun op'' hm'' => mem_written_append.2 (.inl hm'')
  · rw [List.mem_singleton.1 hm]
    exact hb

theorem Inv.backed_again {s : Resolver} (hi : Inv toLower s) {row : CacheRow}
    (hrow : s.db.uuidCache n = some row) :
    (row.uuid ≠ "" → ∃ op ∈ s.written, (op.confirms toLower n).isSome = true) ∧
      (row.uuid = "" → ∃ op ∈ s.written, (op.misses n).isSome = true) := by
  rw [hi.cache, lastLanded] at hrow
  obtain ⟨op, hm, hop⟩ := List.exists_of_findSome?_eq_some hrow
  exact hi.backed op (List.mem_append_right _ hm) n row hop

theorem setChecked_same (s : Resolver) (uuid : String) (t now : Int) :
    ∃ checkedAt, s.setChecked uuid t now = { s with checkedAt } := ⟨_, rfl⟩

theorem maybeRefresh_cases (s : Resolver) (uuid : String) (profileErr : Bool) (now : Int) :
    (∃ checkedAt, s.maybeRefresh uuid profileErr now = { s with checkedAt }) ∨
      s.maybeRefresh uuid profileErr now = { s with refreshQ := s.refreshQ ++ [uuid] } := by
  unfold maybeRefresh
  split
  · exact .inl ⟨s.checkedAt, rfl⟩
  · split
    · exact .inl ⟨s.checkedAt, rfl⟩
    · split
      · exact .inl ⟨s.checkedAt, rfl⟩
      · split
        · exact .inl (s.setChecked_same _ _ _)
        · split
          · exact .inr rfl
          · exact .inl ⟨s.checkedAt, rfl⟩

theorem Inv.withChecked {s : Resolver} (hi : Inv toLower s) (checkedAt : List (String × Int)) :
    Inv toLower { s with checkedAt } := ⟨hi.cache, hi.backed, hi.refreshQ, hi.fetching⟩

theorem Inv.withClock {s : Resolver} (hi : Inv toLower s) (clock : Int) :
    Inv toLower { s with clock } := ⟨hi.cache, hi.backed, hi.refreshQ, hi.fetching⟩

theorem Inv.withPending {s : Resolver} (hi : Inv toLower s)
    (pending : List (String × Observation)) : Inv toLower { s with pending } :=
  ⟨hi.cache, hi.backed, hi.refreshQ, hi.fetching⟩

theorem Inv.maybeRefresh {s : Resolver} (hi : Inv toLower s) (hu : uuid ≠ "")
    (profileErr : Bool) (now : Int) : Inv toLower (s.maybeRefresh uuid profileErr now) := by
  obtain ⟨checkedAt, h⟩ | h := s.maybeRefresh_cases uuid profileErr now
  · rw [h]
    exact hi.withChecked checkedAt
  · rw [h]
    refine ⟨hi.cache, hi.backed, ?_, hi.fetching⟩
    intro uuid' hm
    obtain hm | hm := List.mem_append.1 hm
    · exact hi.refreshQ uuid' hm
    · rw [List.mem_singleton.1 hm]
      exact hu

theorem Inv.land {s : Resolver} (hi : Inv toLower s) {o : Observation}
    (hu : offline = false → uuid ≠ "")
    (hb : network = true ∨
      (offline = false ∧ ∃ op ∈ s.written, (op.confirms toLower (toLower o.name)).isSome = true) ∨
      (offline = true ∧ ∃ op ∈ s.written, (op.misses (toLower o.name)).isSome = true)) (now : Int) :
    Inv toLower (s.land toLower uuid o offline network now) := by
  have hop : ∀ s : Resolver, Inv toLower s → (network = true ∨
      (offline = false ∧ ∃ op ∈ s.written, (op.confirms toLower (toLower o.name)).isSome = true) ∨
      (offline = true ∧ ∃ op ∈ s.written, (op.misses (toLower o.name)).isSome = true)) →
      Inv toLower { s with queue := s.queue ++
        [.identity (identityOf toLower uuid o offline network now) network] } := by
    intro s hi hb
    apply hi.enqueue
    intro n row hrow
    have hself := mem_written_append (s := s).2
      (.inr (List.mem_singleton_self
        (.identity (identityOf toLower uuid o offline network now) network)))
    by_cases hn : toLower o.name = n
    · have he := (if_pos hn).symm.trans hrow
      cases he
      subst hn
      cases offline with
      | false =>
        refine ⟨fun _ => ?_, fun h => absurd h (hu rfl)⟩
        obtain hn | ⟨-, op, hm, ho⟩ | ⟨h, -⟩ := hb
        · refine ⟨_, hself, ?_⟩
          simp only [Op.confirms, identityOf, hn, and_self, if_true, Option.isSome_some]
        · exact ⟨op, mem_written_append.2 (.inl hm), ho⟩
        · cases h
      | true =>
        refine ⟨fun h => absurd rfl h, fun _ => ?_⟩
        obtain hn | ⟨h, -⟩ | ⟨-, op, hm, ho⟩ := hb
        · refine ⟨_, hself, ?_⟩
          simp only [Op.misses, identityOf, hn, and_self, if_true, Option.isSome_some]
        · cases h
        · exact ⟨op, mem_written_append.2 (.inl hm), ho⟩
    · cases (if_neg hn).symm.trans hrow
  unfold Resolver.land
  simp only
  split
  · obtain ⟨checkedAt, h⟩ := s.setChecked_same uuid now now
    rw [h]
    exact hop { s with checkedAt } (hi.withChecked checkedAt) hb
  · exact hop s hi hb

theorem Inv.applyOffline {s : Resolver} (hi : Inv toLower s) {o : Observation}
    (hb : network = true ∨ ∃ op ∈ s.written, (op.misses (toLower o.name)).isSome = true)
    (now : Int) : Inv toLower (s.applyOffline toLower o network now) := by
  unfold Resolver.applyOffline
  apply hi.land
  · intro h
    cases h
  · exact hb.imp_right fun h => .inr ⟨rfl, h⟩

theorem handleCached_cases (s : Resolver) (n : String) (cacheErr : Bool) (now : Int) :
    s.handleCached n cacheErr now = .lookup ∨ s.handleCached n cacheErr now = .offline ∧
        s.enabled = false ∨
      (∃ row, s.db.uuidCache n = some row ∧
        ((row.uuid ≠ "" ∧ now - row.resolvedMs ≤ positiveTTL ∧
            s.handleCached n cacheErr now = .cachedUUID row.uuid) ∨
          (row.uuid = "" ∧ now - row.resolvedMs ≤ negativeTTL ∧
            s.handleCached n cacheErr now = .cachedMiss))) := by
  unfold handleCached
  by_cases he : s.enabled = false
  · rw [if_pos he]
    exact .inr (.inl ⟨rfl, he⟩)
  · rw [if_neg he]
    by_cases hr : cacheErr = true
    · rw [if_pos hr]
      exact .inl rfl
    · rw [if_neg hr]
      cases hc : s.db.uuidCache n with
      | none => exact .inl rfl
      | some row =>
        simp only
        by_cases hu : row.uuid = ""
        · rw [if_neg (not_not.2 hu)]
          by_cases ha : negativeTTL < now - row.resolvedMs
          · rw [if_pos ha]
            exact .inl rfl
          · rw [if_neg ha]
            exact .inr (.inr ⟨row, rfl, .inr ⟨hu, Int.not_lt.1 ha, rfl⟩⟩)
        · rw [if_pos hu]
          by_cases ha : positiveTTL < now - row.resolvedMs
          · rw [if_pos ha]
            exact .inl rfl
          · rw [if_neg ha]
            exact .inr (.inr ⟨row, rfl, .inl ⟨hu, Int.not_lt.1 ha, rfl⟩⟩)

theorem Inv.sight {s : Resolver} (hi : Inv toLower s) (he : s.enabled = true) (o : Observation)
    (cacheErr profileErr : Bool) (now seen refresh : Int) :
    Inv toLower (s.sight toLower o cacheErr profileErr now seen refresh) := by
  unfold Resolver.sight
  obtain h | ⟨-, hoff⟩ | ⟨row, hrow, ⟨hu, -, h⟩ | ⟨hu, -, h⟩⟩ :=
    s.handleCached_cases (toLower o.name) cacheErr now
  · rw [h]
    exact hi.withPending _
  · rw [he] at hoff
    cases hoff
  · rw [h]
    apply Inv.maybeRefresh _ hu
    exact hi.land (fun _ => hu) (.inr (.inl ⟨rfl, (hi.backed_again hrow).1 hu⟩)) seen
  · rw [h]
    exact hi.applyOffline (.inr ((hi.backed_again hrow).2 hu)) seen

theorem found_some (h : found toLower dashUUID entries lower = some (uuid, name)) : uuid ≠ "" := by
  unfold found at h
  obtain ⟨e, he, hp⟩ := Option.map_eq_some_iff.1 h
  have hd := List.find?_some he
  cases hp
  exact (of_decide_eq_true hd).1

theorem Inv.settle {s : Resolver} (hi : Inv toLower s) (entries : List (String × String))
    (visit : String × Int) : Inv toLower (settle toLower dashUUID entries s visit) := by
  unfold Resolver.settle
  cases s.pending.lookup visit.1 with
  | none => exact hi
  | some o =>
    simp only
    cases hf : found toLower dashUUID entries visit.1 with
    | none => exact hi.applyOffline (.inl rfl) visit.2
    | some r => exact hi.land (fun _ => found_some hf) (.inl rfl) visit.2

theorem Inv.foldl_settle {s : Resolver} (hi : Inv toLower s) (entries : List (String × String))
    (visits : List (String × Int)) :
    Inv toLower (visits.foldl (Resolver.settle toLower dashUUID entries) s) := by
  induction visits generalizing s with
  | nil => exact hi
  | cons v visits ih => exact ih (hi.settle entries v)

theorem applyProfileCheck_uuidCache (db : DB) (uuid name : String) (checkedMs : Int) (n : String) :
    (applyProfileCheck toLower db uuid name checkedMs).uuidCache n =
      (Op.rowAt toLower n (.profileCheck uuid name checkedMs time)).or (db.uuidCache n) := by
  unfold applyProfileCheck Op.rowAt
  by_cases hn : name = ""
  · simp only [hn, if_true, ne_eq, not_true_eq_false, false_and, if_false, Option.none_or]
  · simp only [hn, if_false, ne_eq, not_false_eq_true, true_and]
    by_cases hl : toLower name = n
    · subst hl
      rw [Table.upsert_self, if_pos rfl]
      cases db.uuidCache (toLower name) <;> rfl
    · rw [Table.upsert_of_ne (Ne.symm hl), if_neg hl, Option.none_or]

theorem run_uuidCache (op : Op) (db : DB) (n : String) :
    (op.run toLower db).uuidCache n = (op.rowAt toLower n).or (db.uuidCache n) := by
  cases op with
  | identity o network =>
    unfold Op.run Op.rowAt
    simp only [DB.applyIdentity_uuidCache, DB.cacheResolution]
    by_cases hl : o.nameLower = n
    · subst hl
      rw [Table.upsert_self, if_pos rfl]
      cases db.uuidCache o.nameLower <;> rfl
    · rw [Table.upsert_of_ne (Ne.symm hl), if_neg hl, Option.none_or]
  | profileCheck uuid name checkedMs time =>
    exact applyProfileCheck_uuidCache db uuid name checkedMs n

theorem Inv.profileCheck {s : Resolver} (hi : Inv toLower s) (hu : uuid ≠ "")
    (name : String) (checkedMs time : Int) :
    Inv toLower { s with queue := s.queue ++ [.profileCheck uuid name checkedMs time] } := by
  apply hi.enqueue
  intro n row hrow
  by_cases hn : name ≠ "" ∧ toLower name = n
  · cases (if_pos hn).symm.trans hrow
    refine ⟨fun _ => ?_, fun h => absurd h hu⟩
    refine ⟨_, mem_written_append.2 (.inr (List.mem_singleton_self _)), ?_⟩
    simp only [Op.confirms, hn, ne_eq, not_false_eq_true, and_self, if_true, Option.isSome_some]
  · cases (if_neg hn).symm.trans hrow

/-- What a step can do, its guards on the times left out. -/
inductive Moved (toLower dashUUID : String → String) (s : Resolver) : Resolver → Prop
  | sight (o : Observation) (cacheErr profileErr : Bool) (now seen refresh : Int) :
    Moved toLower dashUUID s
      { s.sight toLower o cacheErr profileErr now seen refresh with clock := refresh }
  | dropped : Moved toLower dashUUID s { s with pending := [] }
  | settled (entries : List (String × String)) (visits : List (String × Int)) (clock : Int) :
    Moved toLower dashUUID s
      { visits.foldl (settle toLower dashUUID entries) s with pending := [], clock }
  | landed (hq : s.queue = op :: ops) :
    Moved toLower dashUUID s
      { s with db := op.run toLower s.db, queue := ops, landed := op :: s.landed }
  | fetch {f : Option (String × Int)} (hq : s.refreshQ = uuid :: uuids) (hf : ∀ x ∈ f, x.1 = uuid)
    (clock : Int) :
    Moved toLower dashUUID s { s with refreshQ := uuids, clock, fetching := f }
  | answered (clock : Int) : Moved toLower dashUUID s { s with fetching := none, clock }
  | profile (hf : s.fetching = some (uuid, checkedMs)) (name : String) (now : Int) :
    Moved toLower dashUUID s
      { ({ s with fetching := none, clock := now } : Resolver).setChecked uuid checkedMs now with
        queue := s.queue ++ [.profileCheck uuid name checkedMs now] }
  | restart :
    Moved toLower dashUUID s
      { s with pending := [], checkedAt := [], refreshQ := [], fetching := none }

theorem step_moved {s s' : Resolver} (hs : s.step toLower dashUUID l = some s') :
    Moved toLower dashUUID s s' := by
  cases l with
  | sight o cacheErr profileErr now seen refresh =>
    unfold Resolver.step at hs
    simp only at hs
    split at hs <;> cases hs
    exact .sight o cacheErr profileErr now seen refresh
  | resolve response visits =>
    unfold Resolver.step at hs
    simp only at hs
    split at hs
    · cases hs
    · cases response with
      | none =>
        cases hs
        exact .dropped
      | some entries =>
        simp only at hs
        split at hs <;> cases hs
        exact .settled entries visits _
  | land =>
    unfold Resolver.step at hs
    simp only at hs
    split at hs
    · cases hs
    · rename_i op queue hq
      cases hs
      exact .landed hq
  | fetch now =>
    unfold Resolver.step at hs
    simp only at hs
    split at hs
    · rename_i uuid refreshQ hf hq
      split at hs <;> cases hs
      apply Moved.fetch hq
      intro x hm
      split at hm <;> cases hm
      rfl
    · cases hs
  | fetched r now =>
    unfold Resolver.step at hs
    simp only at hs
    split at hs
    · cases hs
    · rename_i uuid checkedMs hf
      split at hs
      · cases r with
        | failed =>
          cases hs
          exact .answered now
        | gone =>
          cases hs
          exact .profile hf "" now
        | profile name =>
          simp only at hs
          split at hs <;> cases hs
          · exact .answered now
          · exact .profile hf name now
      · cases hs
  | restart =>
    cases hs
    exact .restart

theorem Inv.step {s s' : Resolver} (hi : Inv toLower s) (he : s.enabled = true)
    (hs : s.step toLower dashUUID l = some s') : Inv toLower s' := by
  have hi' : ∀ clock, Inv toLower { s with fetching := none, clock } :=
    fun clock => ⟨hi.cache, hi.backed, hi.refreshQ, nofun⟩
  cases step_moved hs with
  | sight o cacheErr profileErr now seen refresh =>
    exact (hi.sight he o cacheErr profileErr now seen refresh).withClock refresh
  | dropped => exact hi.withPending []
  | settled entries visits clock =>
    exact ((hi.foldl_settle entries visits).withPending []).withClock clock
  | @landed op ops hq =>
    have hsame : ({ s with db := op.run toLower s.db, queue := ops, landed := op :: s.landed } :
        Resolver).written = s.written := by
      simp only [written, hq, List.reverse_cons, List.append_assoc, List.singleton_append]
    refine ⟨?_, ?_, hi.refreshQ, hi.fetching⟩
    · intro n
      simp only [lastLanded, List.findSome?_cons]
      rw [run_uuidCache, hi.cache, lastLanded]
      cases op.rowAt toLower n <;> rfl
    · rw [hsame]
      exact hi.backed
  | fetch hq hf clock =>
    refine ⟨hi.cache, hi.backed, ?_, ?_⟩
    · intro u hm
      exact hi.refreshQ u (hq ▸ List.mem_cons_of_mem _ hm)
    · intro x hm
      rw [hf x hm]
      exact hi.refreshQ _ (hq ▸ List.mem_cons_self)
  | answered clock => exact hi' clock
  | profile hf name now =>
    exact ((hi' now).profileCheck (hi.fetching _ hf) name _ now).withChecked _
  | restart => exact ⟨hi.cache, hi.backed, nofun, nofun⟩

theorem enabled_maybeRefresh (s : Resolver) (uuid : String) (profileErr : Bool) (now : Int) :
    (s.maybeRefresh uuid profileErr now).enabled = s.enabled := by
  obtain ⟨checkedAt, h⟩ | h := s.maybeRefresh_cases uuid profileErr now
  · rw [h]
  · rw [h]

theorem enabled_land (s : Resolver) (uuid : String) (o : Observation) (offline network : Bool)
    (now : Int) : (s.land toLower uuid o offline network now).enabled = s.enabled := by
  unfold Resolver.land
  simp only
  split <;> rfl

theorem enabled_settle (entries : List (String × String)) (s : Resolver) (visit : String × Int) :
    (settle toLower dashUUID entries s visit).enabled = s.enabled := by
  unfold Resolver.settle
  split
  · rfl
  · split
    · exact enabled_land s _ _ _ _ _
    · exact enabled_land s _ _ _ _ _

theorem enabled_foldl_settle (entries : List (String × String)) (visits : List (String × Int))
    (s : Resolver) :
    (visits.foldl (settle toLower dashUUID entries) s).enabled = s.enabled := by
  induction visits generalizing s with
  | nil => rfl
  | cons v visits ih =>
    exact (ih (settle toLower dashUUID entries s v)).trans (enabled_settle entries s v)

theorem enabled_step {s s' : Resolver} (hs : s.step toLower dashUUID l = some s') :
    s'.enabled = s.enabled := by
  cases step_moved hs with
  | sight o cacheErr profileErr now seen refresh =>
    unfold Resolver.sight
    simp only
    split
    · exact enabled_land s _ _ _ _ _
    · exact enabled_land s _ _ _ _ _
    · rfl
    · exact (enabled_maybeRefresh _ _ _ _).trans (enabled_land s _ _ _ _ _)
  | settled entries visits clock => exact enabled_foldl_settle entries visits s
  | dropped | landed | fetch | answered | profile | restart => rfl

theorem exists_findSome {f : α → Option β} {l : List α} (h : ∃ a ∈ l, (f a).isSome = true) :
    ∃ b, l.findSome? f = some b := by
  rw [← Option.isSome_iff_exists, List.findSome?_isSome_iff]
  exact h

/-- One answer is fresh exactly when the sighting does not find a row kept alive by applications. -/
theorem answersFresh_iff {s : Resolver} (hi : s.enabled = true → Inv toLower s) (n : String)
    (cacheErr : Bool) (now : Int) :
    s.AnswersFresh toLower n cacheErr now ↔
      (s.enabled = true → cacheErr = false → s.NotKeptAlive toLower n now) := by
  unfold AnswersFresh
  by_cases he : s.enabled = false
  · have h : s.handleCached n cacheErr now = .offline := if_pos he
    rw [h]
    refine ⟨fun _ hen => ?_, fun _ => trivial⟩
    rw [he] at hen
    cases hen
  · rw [Bool.not_eq_false] at he
    specialize hi he
    cases cacheErr with
    | true =>
      have h : s.handleCached n true now = .lookup := by
        unfold handleCached
        rw [he]
        rfl
      rw [h]
      exact ⟨fun _ _ => nofun, fun _ => trivial⟩
    | false =>
      simp only [he, true_implies]
      unfold handleCached NotKeptAlive
      rw [he, ← hi.cache]
      simp only [Bool.true_eq_false, Bool.false_eq_true, if_false]
      cases hrow : s.db.uuidCache n with
      | none => exact ⟨fun _ => nofun, fun _ => trivial⟩
      | some row =>
        obtain ⟨hc, hm⟩ := hi.backed_again hrow
        simp only [Option.some.injEq, forall_eq']
        by_cases hu : row.uuid = ""
        · obtain ⟨m, hlast⟩ := exists_findSome (hm hu)
          change s.lastMissed n = some m at hlast
          simp only [hu, ne_eq, not_true_eq_false, if_false, false_implies, true_and, true_implies,
            hlast, Option.some.injEq, forall_eq', exists_eq_left']
          by_cases ha : negativeTTL < now - row.resolvedMs
          · simp only [if_pos ha, true_iff]
            omega
          · simp only [if_neg ha]
            omega
        · obtain ⟨c, hlast⟩ := exists_findSome (hc hu)
          change s.lastConfirmed toLower n = some c at hlast
          simp only [hu, ne_eq, not_false_eq_true, if_true, false_implies, and_true, true_implies,
            hlast, Option.some.injEq, forall_eq', exists_eq_left']
          by_cases ha : positiveTTL < now - row.resolvedMs
          · simp only [if_pos ha, true_iff]
            omega
          · simp only [if_neg ha]
            omega

end Resolver

open Resolver

/-- Every cached answer of a run is fresh, exactly when no sighting finds a row that outlives its
confirmation because applications from the cache stamped it again. -/
theorem cached_answers_fresh_iff (toLower dashUUID : String → String) (enabled : Bool) (db : DB)
    (clock : Int) (ls : List Label) :
    Along (step toLower dashUUID)
        (AtSight toLower fun s n cacheErr now => s.AnswersFresh toLower n cacheErr now)
        (start enabled db clock) ls ↔
      Along (step toLower dashUUID)
        (AtSight toLower fun s n cacheErr now =>
          s.enabled = true → cacheErr = false → s.NotKeptAlive toLower n now)
        (start enabled db clock) ls := by
  apply along_congr (I := fun s => s.enabled = true → Inv toLower s) _ fun _ => inv_start _ _ _
  intro s l s' hi hs
  constructor
  · intro he
    rw [enabled_step hs] at he
    exact (hi he).step he hs
  · cases l with
    | sight o cacheErr profileErr now seen refresh => exact answersFresh_iff hi _ cacheErr now
    | _ => exact Iff.rfl

/-- Tables without a player. -/
def noPlayers : DB where
  retentionDays := 180
  uuidCache := fun _ => none
  players := fun _ => none
  playerNames := fun _ => none
  playerIPs := fun _ => none
  geoCC := fun _ => none
  sessions := []
  rollups := ⟨fun _ => none, fun _ => none⟩

/-- A player that no lookup finds comes back after twenty hours, and again. -/
def comesBack : List Label :=
  [.sight ⟨"steve", ""⟩ false false 0 0 0, .resolve (some []) [("steve", 2000)], .land,
    .sight ⟨"steve", ""⟩ false false 72000000 72000000 72000000, .land,
    .sight ⟨"steve", ""⟩ false false 144000000 144000000 144000000]

/-- Forty hours after the only lookup, the miss is still answered from the cache. -/
theorem miss_kept_alive :
    ¬∀ (toLower dashUUID : String → String) (enabled : Bool) (db : DB) (clock : Int)
      (ls : List Label),
      Along (step toLower dashUUID)
        (AtSight toLower fun s n cacheErr now => s.AnswersFresh toLower n cacheErr now)
        (start enabled db clock) ls := by
  intro h
  obtain ⟨-, hrun⟩ := (h id id true noPlayers 0 comesBack).cons rfl
  obtain ⟨-, hrun⟩ := hrun.cons rfl
  obtain ⟨-, hrun⟩ := hrun.cons rfl
  obtain ⟨-, hrun⟩ := hrun.cons rfl
  obtain ⟨-, hrun⟩ := hrun.cons rfl
  obtain ⟨⟨m, hm, hle⟩, -⟩ := hrun.cons rfl
  cases hm
  exact absurd hle (by decide)

end

end ProxyForward.Players

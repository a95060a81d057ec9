import ProxyForward.PlayerResolver

namespace ProxyForward.Players
set_option autoImplicit true
open Analytics Runs

/-- A UUID that is not made from a name. -/
def RealUUID (uuid : String) : Prop := ¬"offline:".isPrefixOf uuid

instance : DecidablePred RealUUID := fun uuid =>
  inferInstanceAs (Decidable (¬"offline:".isPrefixOf uuid))

/-- The canonical name that an answer of the network gives a player: the entry of a lookup for a
pending name, or a profile. -/
def Op.answer (uuid : String) : Op → Option String
  | .identity o network =>
    if network ∧ o.offline = false ∧ o.uuid = uuid then some o.name else none
  | .profileCheck u name _ _ => if u = uuid ∧ name ≠ "" then some name else none

/-- By the latest of the writes, which come newest first. -/
def latestAnswer (ops : List Op) (uuid : String) : Option String := ops.findSome? (Op.answer uuid)

/-- A write that is no answer for a real UUID has the name of the latest one. -/
def Op.Repeats (op : Op) (ops : List Op) : Prop :=
  match op with
  | .identity o network =>
    (network = true ∧ o.offline = false) ∨
      (RealUUID o.uuid → ∀ name, latestAnswer ops o.uuid = some name → o.name = name)
  | .profileCheck _ _ _ _ => True

/-- An identity of the player is among the writes. -/
def Recorded (ops : List Op) (uuid : String) : Prop :=
  ∃ o network, Op.identity o network ∈ ops ∧ o.uuid = uuid

/-- The check of a profile follows an identity of the player. -/
def Op.Follows (op : Op) (ops : List Op) : Prop :=
  match op with
  | .identity _ _ => True
  | .profileCheck uuid _ _ _ => Recorded ops uuid

/-- Each write of a log, newest first, stands in `R` to those before it. -/
def Throughout (R : Op → List Op → Prop) : List Op → Prop
  | [] => True
  | op :: ops => R op ops ∧ Throughout R ops

theorem Throughout.of_append (h : Throughout R (ops ++ ops')) : Throughout R ops' := by
  induction ops with
  | nil => exact h
  | cons op ops ih => exact ih h.2

theorem throughout_append (h : ∀ op ∈ ops, ∀ between, R op (between ++ ops')) :
    Throughout R (ops ++ ops') ↔ Throughout R ops' := by
  constructor
  · exact Throughout.of_append
  · intro h'
    induction ops with
    | nil => exact h'
    | cons op ops ih =>
      exact ⟨h op List.mem_cons_self ops, ih fun op hm => h op (List.mem_cons_of_mem _ hm)⟩

theorem Recorded.append (h : Recorded ops uuid) (between : List Op) :
    Recorded (between ++ ops) uuid := by
  obtain ⟨o, network, hm, ho⟩ := h
  exact ⟨o, network, List.mem_append_right _ hm, ho⟩

theorem recorded_cons_profileCheck :
    Recorded (.profileCheck u name checkedMs time :: ops) uuid ↔ Recorded ops uuid := by
  unfold Recorded
  simp only [List.mem_cons, reduceCtorEq, false_or]

theorem latestAnswer_cons (op : Op) (ops : List Op) (uuid : String) :
    latestAnswer (op :: ops) uuid = (op.answer uuid).or (latestAnswer ops uuid) := by
  unfold latestAnswer
  rw [List.findSome?_cons]
  cases op.answer uuid <;> rfl

namespace Resolver

/-- The name in the player's row. -/
def nameOf (s : Resolver) (uuid : String) : Option String :=
  (s.db.players uuid).map PlayerRow.name

/-- Every real player's row has the name of the latest answer that has landed for it. -/
def NamesCanonical (s : Resolver) : Prop :=
  ∀ uuid, RealUUID uuid → ∀ name, latestAnswer s.landed uuid = some name → s.nameOf uuid = some name

/-- The players whose profile is to be fetched or is being fetched. -/
def asked (s : Resolver) : List String := s.refreshQ ++ (s.fetching.map Prod.fst).toList

section

variable (toLower dashUUID : String → String)

/-- A sighting that the cache answers with a real UUID carries the name of the latest answer. -/
def KeepsName (s : Resolver) : Label → Prop
  | .sight o cacheErr _ now _ _ =>
    ∀ uuid, s.handleCached (toLower o.name) cacheErr now = .cachedUUID uuid → RealUUID uuid →
      ∀ name, latestAnswer s.written uuid = some name → o.name = name
  | _ => True

/-- The same for the write that lands. -/
def LandsName (s : Resolver) : Label → Prop
  | .land => ∀ op ops, s.queue = op :: ops → op.Repeats s.landed
  | _ => True

variable {toLower dashUUID}

/-- What holds of the players' rows between the steps. -/
structure Known (s : Resolver) : Prop where
  rows : ∀ uuid, RealUUID uuid → Recorded s.landed uuid → (s.nameOf uuid).isSome = true
  follows : Throughout Op.Follows s.written
  asked : ∀ uuid ∈ s.asked, Recorded s.written uuid

/-- A step that enqueues the writes `ops` and lands none. -/
structure Enqueues (s s' : Resolver) (ops : List Op) : Prop where
  db : s'.db = s.db
  landed : s'.landed = s.landed
  queue : s'.queue = s.queue ++ ops
  asked : ∀ uuid ∈ s'.asked, uuid ∈ s.asked ∨ Recorded ops uuid
  checks : ∀ uuid name checkedMs time, Op.profileCheck uuid name checkedMs time ∈ ops →
    uuid ∈ s.asked

theorem real_ne_offlineUUID (h : RealUUID uuid) (n : String) : uuid ≠ OfflineUUID toLower n := by
  rintro rfl
  apply h
  simp [OfflineUUID, String.isPrefixOf]

theorem reconcile_players (db : DB) (hu : u ≠ OfflineUUID toLower o.nameLower) :
    (db.reconcile toLower o).players u = db.players u := by
  have hreroll (db : DB) (range : Option (Int × Int)) :
      (db.reroll range o.seenMs).players = db.players := by
    cases range <;> rfl
  unfold DB.reconcile
  split
  · rfl
  · simp only
    split
    · rfl
    · rw [hreroll, DB.reconcileOffline]
      cases db.players (OfflineUUID toLower o.nameLower) with
      | none => rfl
      | some row => exact Function.update_of_ne hu ..

theorem wearCC_name (db : DB) (o : Analytics.Identity) (row : PlayerRow) :
    (db.wearCC o row).name = row.name := by
  unfold DB.wearCC
  split <;> rfl

theorem applyIdentity_name (db : DB) (o : Analytics.Identity) (hu : RealUUID uuid) :
    ((db.ApplyIdentity toLower o).players uuid).map PlayerRow.name =
      if o.uuid = uuid then some o.name else (db.players uuid).map PlayerRow.name := by
  have hne : uuid ≠ OfflineUUID toLower o.nameLower := real_ne_offlineUUID hu o.nameLower
  obtain ⟨rollups, hfill⟩ :=
    DB.backfill_cases (((db.cacheResolution o).reconcile toLower o).record o) o
  have hplayers : (db.ApplyIdentity toLower o).players =
      (((db.cacheResolution o).reconcile toLower o).record o).players := by
    rw [DB.ApplyIdentity, hfill]
  rw [hplayers, DB.record_players]
  by_cases h : o.uuid = uuid
  · subst h
    rw [Function.update_self, if_pos rfl]
    cases ((db.cacheResolution o).reconcile toLower o).players o.uuid with
    | none => exact congrArg some (wearCC_name _ _ _)
    | some row => exact congrArg some (wearCC_name _ _ _)
  · rw [Function.update_of_ne (Ne.symm h), if_neg h, reconcile_players _ hne]
    rfl

theorem applyProfileCheck_name (db : DB) (u name : String) (checkedMs : Int) (uuid : String) :
    ((applyProfileCheck toLower db u name checkedMs).players uuid).map PlayerRow.name =
      if u = uuid ∧ name ≠ "" then (db.players uuid).map fun _ => name
      else (db.players uuid).map PlayerRow.name := by
  unfold applyProfileCheck
  by_cases h : u = uuid
  · subst h
    by_cases hn : name = ""
    · simp only [hn, if_true, ne_eq, not_true_eq_false, and_false, if_false, Function.update_self]
      cases db.players u <;> rfl
    · simp only [hn, if_false, ne_eq, not_false_eq_true, and_self, if_true, Function.update_self]
      cases db.players u <;> rfl
  · have hnot : ¬(u = uuid ∧ name ≠ "") := fun hc => h hc.1
    rw [if_neg hnot]
    split
    · simp only [Function.update_of_ne (Ne.symm h)]
    · simp only [Function.update_of_ne (Ne.symm h)]

/-- The resolver after its oldest write has landed. -/
def landing (toLower : String → String) (s : Resolver) (op : Op) (ops : List Op) : Resolver :=
  { s with db := op.run toLower s.db, queue := ops, landed := op :: s.landed }

theorem written_landing {s : Resolver} (hq : s.queue = op :: ops) :
    (s.landing toLower op ops).written = s.written := by
  simp only [landing, written, hq, List.reverse_cons, List.append_assoc, List.singleton_append]

theorem Known.landing {s : Resolver} (hk : Known s) (hq : s.queue = op :: ops) :
    Known (s.landing toLower op ops) := by
  have hw : (s.landing toLower op ops).written = s.written := written_landing hq
  refine ⟨?_, ?_, ?_⟩
  · intro uuid hu hr
    cases op with
    | identity o network =>
      change ((s.db.ApplyIdentity toLower o).players uuid |>.map PlayerRow.name).isSome = true
      rw [applyIdentity_name s.db o hu]
      by_cases h : o.uuid = uuid
      · rw [if_pos h]
        rfl
      · rw [if_neg h]
        obtain ⟨o', network', hm, ho⟩ := hr
        obtain he | hm := List.mem_cons.1 hm
        · cases he
          exact absurd ho h
        · exact hk.rows uuid hu ⟨o', network', hm, ho⟩
    | profileCheck u name checkedMs time =>
      have hrow := hk.rows uuid hu (recorded_cons_profileCheck.1 hr)
      change ((applyProfileCheck toLower s.db u name checkedMs).players uuid |>.map
        PlayerRow.name).isSome = true
      rw [applyProfileCheck_name]
      split
      · rw [Option.isSome_map]
        rwa [nameOf, Option.isSome_map] at hrow
      · exact hrow
  · rw [hw]
    exact hk.follows
  · rw [hw]
    exact hk.asked

theorem answer_identity_none (h : ¬(network = true ∧ o.offline = false)) (uuid : String) :
    Op.answer uuid (.identity o network) = none := if_neg fun hn => h ⟨hn.1, hn.2.1⟩

/-- An identity that lands keeps the names canonical exactly when it is an answer or repeats one. -/
theorem namesCanonical_identity_iff {s : Resolver} (hc : s.NamesCanonical)
    (o : Analytics.Identity) (network : Bool) (ops : List Op) :
    (s.landing toLower (.identity o network) ops).NamesCanonical ↔
      Op.Repeats (.identity o network) s.landed := by
  have hname (uuid : String) (hu : RealUUID uuid) :
      (s.landing toLower (.identity o network) ops).nameOf uuid =
        if o.uuid = uuid then some o.name else s.nameOf uuid :=
    applyIdentity_name s.db o hu
  have hlatest (uuid : String) :
      latestAnswer (s.landing toLower (.identity o network) ops).landed uuid =
        (Op.answer uuid (.identity o network)).or (latestAnswer s.landed uuid) :=
    latestAnswer_cons _ _ _
  constructor
  · intro h
    by_cases ha : network = true ∧ o.offline = false
    · exact .inl ha
    · refine .inr fun hu name hl => ?_
      have hnext : latestAnswer (s.landing toLower (.identity o network) ops).landed o.uuid =
          some name := by
        rw [hlatest, answer_identity_none ha, hl, Option.none_or]
      have hrow := h o.uuid hu name hnext
      rw [hname _ hu, if_pos rfl] at hrow
      exact Option.some.inj hrow
  · intro h uuid hu name hl
    rw [hlatest] at hl
    rw [hname uuid hu]
    by_cases ho : o.uuid = uuid
    · subst ho
      rw [if_pos rfl]
      by_cases ha : network = true ∧ o.offline = false
      · have hgive : Op.answer o.uuid (.identity o network) = some o.name :=
          if_pos ⟨ha.1, ha.2, rfl⟩
        rw [hgive] at hl
        exact hl
      · rw [answer_identity_none ha] at hl
        exact congrArg some (h.resolve_left ha hu name hl)
    · have hskip : Op.answer uuid (.identity o network) = none := if_neg fun hn => ho hn.2.2
      rw [hskip] at hl
      rw [if_neg ho]
      exact hc uuid hu name hl

theorem namesCanonical_profileCheck {s : Resolver} (hk : Known s) (hc : s.NamesCanonical)
    (hq : s.queue = .profileCheck u name checkedMs time :: ops) :
    (s.landing toLower (.profileCheck u name checkedMs time) ops).NamesCanonical := by
  intro uuid hu name' hl
  change ((applyProfileCheck toLower s.db u name checkedMs).players uuid).map PlayerRow.name = _
  change latestAnswer (.profileCheck u name checkedMs time :: s.landed) uuid = _ at hl
  rw [latestAnswer_cons] at hl
  rw [applyProfileCheck_name]
  by_cases h : u = uuid ∧ name ≠ ""
  · have hgive : Op.answer uuid (.profileCheck u name checkedMs time) = some name := if_pos h
    rw [hgive] at hl
    cases hl
    have hfollows := hk.follows
    rw [written, hq, List.reverse_cons, List.append_assoc] at hfollows
    have hrecorded : Recorded s.landed u := hfollows.of_append.1
    rw [h.1] at hrecorded
    have hrow := hk.rows uuid hu hrecorded
    rw [nameOf, Option.isSome_map] at hrow
    obtain ⟨row, hrow⟩ := Option.isSome_iff_exists.1 hrow
    rw [if_pos h, hrow]
    rfl
  · have hskip : Op.answer uuid (.profileCheck u name checkedMs time) = none := if_neg h
    rw [hskip] at hl
    rw [if_neg h]
    exact hc uuid hu name' hl

/-- The names stay canonical exactly when the write that lands is an answer or repeats one. -/
theorem namesCanonical_landing {s : Resolver} (hk : Known s) (hc : s.NamesCanonical)
    (hq : s.queue = op :: ops) :
    (s.landing toLower op ops).NamesCanonical ↔ op.Repeats s.landed := by
  cases op with
  | identity o network => exact namesCanonical_identity_iff hc o network ops
  | profileCheck u name checkedMs time =>
    exact iff_of_true (namesCanonical_profileCheck hk hc hq) trivial

theorem Enqueues.refl (s : Resolver) : Enqueues s s [] :=
  ⟨rfl, rfl, (List.append_nil _).symm, fun _ hm => .inl hm, nofun⟩

theorem Enqueues.trans (h : Enqueues s t ops) (h' : Enqueues t u ops')
    (hasked : ∀ uuid ∈ t.asked, uuid ∈ s.asked) : Enqueues s u (ops ++ ops') := by
  refine ⟨h'.db.trans h.db, h'.landed.trans h.landed, ?_, ?_, ?_⟩
  · rw [h'.queue, h.queue, List.append_assoc]
  · intro uuid hm
    obtain hm | hr := h'.asked uuid hm
    · exact .inl (hasked uuid hm)
    · exact .inr (hr.append ops)
  · intro uuid name checkedMs time hm
    obtain hm | hm := List.mem_append.1 hm
    · exact h.checks uuid name checkedMs time hm
    · exact hasked uuid (h'.checks uuid name checkedMs time hm)

theorem Enqueues.written (h : Enqueues s s' ops) : s'.written = ops.reverse ++ s.written := by
  rw [Resolver.written, h.queue, h.landed, List.reverse_append, List.append_assoc]
  rfl

theorem land_cases (toLower : String → String) (s : Resolver) (uuid : String) (o : Observation)
    (offline network : Bool) (now : Int) : ∃ checkedAt, s.land toLower uuid o offline network now =
      { s with
        checkedAt,
        queue := s.queue ++
          [.identity (identityOf toLower uuid o offline network now) network] } := by
  unfold Resolver.land
  simp only
  split
  · exact ⟨_, rfl⟩
  · exact ⟨_, rfl⟩

theorem enqueues_land (toLower : String → String) (s : Resolver) (uuid : String)
    (o : Observation) (offline network : Bool) (now : Int) :
    Enqueues s (s.land toLower uuid o offline network now)
      [.identity (identityOf toLower uuid o offline network now) network] := by
  obtain ⟨checkedAt, h⟩ := s.land_cases toLower uuid o offline network now
  rw [h]
  refine ⟨rfl, rfl, rfl, fun uuid hm => .inl hm, ?_⟩
  intro uuid name checkedMs time hm
  cases List.mem_singleton.1 hm

theorem asked_land (toLower : String → String) (s : Resolver) (uuid : String)
    (o : Observation) (offline network : Bool) (now : Int) :
    (s.land toLower uuid o offline network now).asked = s.asked := by
  obtain ⟨checkedAt, h⟩ := s.land_cases toLower uuid o offline network now
  rw [h]
  rfl

theorem repeats_network (uuid : String) (o : Observation) (now : Int) (ops : List Op) :
    Op.Repeats (.identity (identityOf toLower uuid o false true now) true) ops := .inl ⟨rfl, rfl⟩

theorem repeats_offline (n : String) (o : Observation) (network : Bool) (now : Int)
    (ops : List Op) : Op.Repeats
      (.identity (identityOf toLower (OfflineUUID toLower n) o true network now) network) ops :=
  .inr fun hu => absurd rfl (real_ne_offlineUUID hu n)

theorem enqueues_settle (toLower dashUUID : String → String)
    (entries : List (String × String)) (s : Resolver) (visit : String × Int) :
    ∃ ops, Enqueues s (settle toLower dashUUID entries s visit) ops ∧
      (settle toLower dashUUID entries s visit).asked = s.asked ∧
      ∀ op ∈ ops, ∀ between, op.Repeats between := by
  unfold settle
  cases s.pending.lookup visit.1 with
  | none => exact ⟨[], .refl s, rfl, nofun⟩
  | some o =>
    simp only
    cases found toLower dashUUID entries visit.1 with
    | none =>
      refine ⟨_, s.enqueues_land toLower _ o true true visit.2,
        s.asked_land toLower _ o true true visit.2, ?_⟩
      intro op hm between
      rw [List.mem_singleton.1 hm]
      exact repeats_offline _ o true visit.2 between
    | some r =>
      refine ⟨_, s.enqueues_land toLower r.1 ⟨r.2, o.ip⟩ false true visit.2,
        s.asked_land toLower r.1 ⟨r.2, o.ip⟩ false true visit.2, ?_⟩
      intro op hm between
      rw [List.mem_singleton.1 hm]
      exact repeats_network r.1 ⟨r.2, o.ip⟩ visit.2 between

theorem enqueues_foldl_settle (toLower dashUUID : String → String)
    (entries : List (String × String)) (visits : List (String × Int))
    (s : Resolver) : ∃ ops, Enqueues s (visits.foldl (settle toLower dashUUID entries) s) ops ∧
      ∀ op ∈ ops, ∀ between, op.Repeats between := by
  induction visits generalizing s with
  | nil => exact ⟨[], .refl s, nofun⟩
  | cons visit visits ih =>
    obtain ⟨ops, hops, hasked, hrep⟩ := enqueues_settle toLower dashUUID entries s visit
    obtain ⟨ops', hops', hrep'⟩ := ih (settle toLower dashUUID entries s visit)
    refine ⟨ops ++ ops', hops.trans hops' fun uuid hm => hasked ▸ hm, ?_⟩
    intro op hm between
    obtain hm | hm := List.mem_append.1 hm
    · exact hrep op hm between
    · exact hrep' op hm between

theorem enqueues_maybeRefresh (h : Enqueues s t ops) (hr : Recorded ops uuid)
    (profileErr : Bool) (now : Int) : Enqueues s (t.maybeRefresh uuid profileErr now) ops := by
  obtain ⟨checkedAt, he⟩ | he := t.maybeRefresh_cases uuid profileErr now
  · rw [he]
    exact ⟨h.db, h.landed, h.queue, h.asked, h.checks⟩
  · rw [he]
    refine ⟨h.db, h.landed, h.queue, ?_, h.checks⟩
    intro uuid' hm
    simp only [asked, List.mem_append, List.mem_singleton] at hm
    obtain (hm | hm) | hm := hm
    · exact h.asked uuid' (List.mem_append_left _ hm)
    · rw [hm]
      exact .inr hr
    · exact h.asked uuid' (List.mem_append_right _ hm)

/-- A sighting enqueues a write that repeats the latest answer exactly when it carries the name. -/
theorem enqueues_sight (toLower : String → String) (s : Resolver) (o : Observation)
    (cacheErr profileErr : Bool) (now seen refresh : Int) :
    ∃ ops, Enqueues s (s.sight toLower o cacheErr profileErr now seen refresh) ops ∧
      (Throughout Op.Repeats (ops.reverse ++ s.written) ↔ Throughout Op.Repeats s.written ∧
        s.KeepsName toLower (.sight o cacheErr profileErr now seen refresh)) := by
  have hkeeps : (∀ uuid, s.handleCached (toLower o.name) cacheErr now ≠ .cachedUUID uuid) →
      s.KeepsName toLower (.sight o cacheErr profileErr now seen refresh) :=
    fun h uuid he => absurd he (h uuid)
  have hoffline : Enqueues s (s.applyOffline toLower o false seen) _ :=
    s.enqueues_land toLower _ o true false seen
  have hrep (op : Op) (hm : op ∈ [Op.identity (identityOf toLower
      (OfflineUUID toLower (toLower o.name)) o true false seen) false].reverse)
      (between : List Op) : op.Repeats (between ++ s.written) := by
    rw [List.mem_singleton.1 (List.mem_reverse.1 hm)]
    exact repeats_offline _ o false seen _
  unfold sight
  cases h : s.handleCached (toLower o.name) cacheErr now with
  | offline =>
    refine ⟨_, hoffline, (throughout_append hrep).trans ?_⟩
    exact (and_iff_left (hkeeps fun uuid he => nomatch h.symm.trans he)).symm
  | cachedMiss =>
    refine ⟨_, hoffline, (throughout_append hrep).trans ?_⟩
    exact (and_iff_left (hkeeps fun uuid he => nomatch h.symm.trans he)).symm
  | lookup =>
    refine ⟨[], ⟨rfl, rfl, (List.append_nil _).symm, fun uuid hm => .inl hm, nofun⟩, ?_⟩
    exact (and_iff_left (hkeeps fun uuid he => nomatch h.symm.trans he)).symm
  | cachedUUID uuid =>
    have hland := s.enqueues_land toLower uuid o false false seen
    have hrecorded := enqueues_maybeRefresh hland ⟨_, _, List.mem_singleton_self _, rfl⟩ profileErr
      refresh
    refine ⟨_, hrecorded, ?_⟩
    rw [List.reverse_singleton, List.singleton_append]
    change (_ ∨ (RealUUID uuid → ∀ name, latestAnswer s.written uuid = some name → o.name = name)) ∧
      Throughout Op.Repeats s.written ↔ _
    rw [and_comm]
    refine and_congr_right fun _ => ?_
    constructor
    · intro hor uuid' he hu
      cases h.symm.trans he
      obtain hn | hsame := hor
      · cases hn.1
      · exact hsame hu
    · intro hk
      exact .inr (hk uuid h)

theorem enqueues_fetch {s : Resolver} {refreshQ : List String} {f : Option (String × Int)}
    (hq : s.refreshQ = uuid :: refreshQ) (hf : ∀ x ∈ f, x.1 = uuid) (clock : Int) :
    Enqueues s { s with refreshQ, clock, fetching := f } [] := by
  refine ⟨rfl, rfl, (List.append_nil _).symm, ?_, nofun⟩
  intro uuid' hm
  left
  rw [asked, hq]
  obtain hm | hm := List.mem_append.1 hm
  · exact List.mem_append_left _ (List.mem_cons_of_mem _ hm)
  · obtain ⟨x, hx, rfl⟩ := Option.map_eq_some_iff.1 (Option.mem_toList.1 hm)
    rw [hf x hx]
    exact List.mem_append_left _ List.mem_cons_self

theorem mem_asked_idle {s : Resolver} (hm : uuid ∈ ({ s with fetching := none } : Resolver).asked) :
    uuid ∈ s.asked := by
  simp only [asked, Option.map_none, Option.toList_none, List.append_nil] at hm
  exact List.mem_append_left _ hm

theorem enqueues_answered (s : Resolver) (clock : Int) :
    Enqueues s { s with fetching := none, clock } [] :=
  ⟨rfl, rfl, (List.append_nil _).symm, fun _ hm => .inl (mem_asked_idle hm), nofun⟩

theorem enqueues_profile {s : Resolver} (hf : s.fetching = some (uuid, checkedMs)) (name : String)
    (checkedAt : List (String × Int)) (now : Int) :
    Enqueues s
      { s with
        checkedAt,
        fetching := none,
        clock := now,
        queue := s.queue ++ [.profileCheck uuid name checkedMs now] }
      [.profileCheck uuid name checkedMs now] := by
  refine ⟨rfl, rfl, rfl, fun _ hm => .inl (mem_asked_idle hm), ?_⟩
  intro u name' t time hm
  cases List.mem_singleton.1 hm
  rw [asked, hf]
  exact List.mem_append_right _ (List.mem_singleton_self _)

theorem repeats_profileCheck (op : Op) (hm : op ∈ [Op.profileCheck uuid name checkedMs time])
    (between : List Op) : op.Repeats between := by
  rw [List.mem_singleton.1 hm]
  trivial

/-- What a step enqueues keeps to the latest answers exactly when the step carries the name. -/
theorem step_enqueues {s s' : Resolver} (hs : s.step toLower dashUUID l = some s')
    (hl : l ≠ .land) :
    ∃ ops, Enqueues s s' ops ∧ (Throughout Op.Repeats (ops.reverse ++ s.written) ↔
      Throughout Op.Repeats s.written ∧ s.KeepsName toLower l) := by
  have hfree {ops : List Op} (hrep : ∀ op ∈ ops, ∀ between, op.Repeats between) :
      Throughout Op.Repeats (ops.reverse ++ s.written) ↔
        Throughout Op.Repeats s.written ∧ True := by
    rw [and_true]
    exact throughout_append fun op hm between => hrep op (List.mem_reverse.1 hm) _
  cases l with
  | sight o cacheErr profileErr now seen refresh =>
    unfold Resolver.step at hs
    simp only at hs
    split at hs <;> cases hs
    obtain ⟨ops, h, hiff⟩ := s.enqueues_sight toLower o cacheErr profileErr now seen refresh
    exact ⟨ops, ⟨h.db, h.landed, h.queue, h.asked, h.checks⟩, hiff⟩
  | land => exact absurd rfl hl
  | resolve response visits =>
    unfold Resolver.step at hs
    simp only at hs
    split at hs
    · cases hs
    · cases response with
      | none =>
        cases hs
        have h := Enqueues.refl s
        exact ⟨[], ⟨h.db, h.landed, h.queue, h.asked, h.checks⟩, hfree nofun⟩
      | some entries =>
        simp only at hs
        split at hs <;> cases hs
        obtain ⟨ops, h, hrep⟩ := enqueues_foldl_settle toLower dashUUID entries visits s
        exact ⟨ops, ⟨h.db, h.landed, h.queue, h.asked, h.checks⟩, hfree hrep⟩
  | fetch now =>
    unfold Resolver.step at hs
    simp only at hs
    split at hs
    · rename_i uuid refreshQ hf hq
      split at hs <;> cases hs
      refine ⟨[], enqueues_fetch hq ?_ now, hfree nofun⟩
      intro x hx
      split at hx <;> cases hx
      rfl
    · cases hs
  | fetched r now =>
    unfold Resolver.step at hs
    simp only at hs
    split at hs
    · cases hs
    · rename_i uuid checkedMs hf
      split at hs
      · cases r with
        | failed =>
          cases hs
          exact ⟨[], s.enqueues_answered now, hfree nofun⟩
        | gone =>
          cases hs
          exact ⟨_, enqueues_profile hf "" _ now, hfree repeats_profileCheck⟩
        | profile name =>
          simp only at hs
          split at hs <;> cases hs
          · exact ⟨[], s.enqueues_answered now, hfree nofun⟩
          · exact ⟨_, enqueues_profile hf name _ now, hfree repeats_profileCheck⟩
      · cases hs
  | restart =>
    cases hs
    exact ⟨[], ⟨rfl, rfl, (List.append_nil _).symm, nofun, nofun⟩, hfree nofun⟩

theorem step_landing {s s' : Resolver} (hs : s.step toLower dashUUID .land = some s') :
    ∃ op ops, s.queue = op :: ops ∧ s' = s.landing toLower op ops := by
  unfold Resolver.step at hs
  simp only at hs
  split at hs
  · cases hs
  · rename_i op ops hq
    cases hs
    exact ⟨op, ops, hq, rfl⟩

theorem Known.enqueues {s s' : Resolver} (hk : Known s) (h : Enqueues s s' ops) : Known s' := by
  refine ⟨?_, ?_, ?_⟩
  · unfold nameOf
    rw [h.db, h.landed]
    exact hk.rows
  · rw [h.written]
    refine (throughout_append ?_).2 hk.follows
    intro op hm between
    cases op with
    | identity o network => trivial
    | profileCheck uuid name checkedMs time =>
      have hasked := h.checks uuid name checkedMs time (List.mem_reverse.1 hm)
      exact (hk.asked uuid hasked).append between
  · intro uuid hm
    rw [h.written]
    obtain hm | ⟨o, network, ho, hu⟩ := h.asked uuid hm
    · exact (hk.asked uuid hm).append _
    · exact ⟨o, network, List.mem_append_left _ (List.mem_reverse.2 ho), hu⟩

theorem Known.step {s s' : Resolver} (hk : Known s)
    (hs : s.step toLower dashUUID l = some s') : Known s' := by
  by_cases hl : l = .land
  · subst hl
    obtain ⟨op, ops, hq, rfl⟩ := step_landing hs
    exact hk.landing hq
  · obtain ⟨ops, h, -⟩ := step_enqueues hs hl
    exact hk.enqueues h

/-- The log of all writes keeps to the latest answers exactly while the sightings do. -/
theorem repeats_step {s s' : Resolver} (hs : s.step toLower dashUUID l = some s') :
    Throughout Op.Repeats s'.written ↔
      Throughout Op.Repeats s.written ∧ s.KeepsName toLower l := by
  by_cases hl : l = .land
  · subst hl
    obtain ⟨op, ops, hq, rfl⟩ := step_landing hs
    rw [written_landing hq]
    exact (and_iff_left trivial).symm
  · obtain ⟨ops, h, hiff⟩ := step_enqueues hs hl
    rw [h.written]
    exact hiff

theorem landsName_of_repeats {s : Resolver} (h : Throughout Op.Repeats s.written) (l : Label) :
    s.LandsName l := by
  cases l with
  | land =>
    intro op ops hq
    rw [written, hq, List.reverse_cons, List.append_assoc] at h
    exact h.of_append.1
  | _ => trivial

theorem namesCanonical_step {s s' : Resolver} (hk : Known s) (hc : s.NamesCanonical)
    (hs : s.step toLower dashUUID l = some s') : s'.NamesCanonical ↔ s.LandsName l := by
  by_cases hl : l = .land
  · subst hl
    obtain ⟨op, ops, hq, rfl⟩ := step_landing hs
    rw [namesCanonical_landing hk hc hq]
    constructor
    · intro h op' ops' hq'
      cases hq.symm.trans hq'
      exact h
    · intro h
      exact h op ops hq
  · obtain ⟨ops, h, -⟩ := step_enqueues hs hl
    have hlands : s.LandsName l := by
      cases l with
      | land => exact absurd rfl hl
      | _ => trivial
    refine iff_of_true ?_ hlands
    unfold NamesCanonical nameOf
    rw [h.db, h.landed]
    exact hc

theorem always_namesCanonical_iff {s : Resolver} (hk : Known s) (hc : s.NamesCanonical)
    (ls : List Label) :
    Always (step toLower dashUUID) NamesCanonical s ls ↔
      Along (step toLower dashUUID) LandsName s ls := by
  apply always_iff_along (I := fun s => Known s ∧ s.NamesCanonical) (fun s hi => hi.2) _ ⟨hk, hc⟩
  intro s l t hi hs
  have hiff := namesCanonical_step hi.1 hi.2 hs
  exact ⟨fun hl => ⟨hi.1.step hs, hiff.2 hl⟩, hiff.1⟩

theorem landsName_of_keepsName {s : Resolver} (h : Throughout Op.Repeats s.written)
    (hkeep : Along (step toLower dashUUID) (KeepsName toLower) s ls) :
    Along (step toLower dashUUID) LandsName s ls := by
  apply along_of_invariant (I := fun s => Throughout Op.Repeats s.written) _ h hkeep
  intro s l t hi hl hs
  exact ⟨(repeats_step hs).2 ⟨hi, hl⟩, landsName_of_repeats hi l⟩

theorem keepsName_of_repeats {s t : Resolver} (hr : Reaches (step toLower dashUUID) s ls t)
    (ht : Throughout Op.Repeats t.written) :
    Throughout Op.Repeats s.written ∧ Along (step toLower dashUUID) (KeepsName toLower) s ls := by
  induction hr with
  | nil => exact ⟨ht, trivial⟩
  | cons hs _ ih =>
    obtain ⟨hu, hkeep⟩ := ih ht
    obtain ⟨hw, hl⟩ := (repeats_step hs).1 hu
    exact ⟨hw, along_cons hs hl hkeep⟩

theorem landed_repeats_step {s s' : Resolver} (h : Throughout Op.Repeats s.landed)
    (hl : s.LandsName l) (hs : s.step toLower dashUUID l = some s') :
    Throughout Op.Repeats s'.landed := by
  by_cases hland : l = .land
  · subst hland
    obtain ⟨op, ops, hq, rfl⟩ := step_landing hs
    exact ⟨hl op ops hq, h⟩
  · obtain ⟨ops, he, -⟩ := step_enqueues hs hland
    rw [he.landed]
    exact h

theorem known_start (enabled : Bool) (db : DB) (clock : Int) : Known (start enabled db clock) := by
  refine ⟨?_, trivial, nofun⟩
  rintro uuid - ⟨o, network, hm, -⟩
  cases hm

theorem namesCanonical_start (enabled : Bool) (db : DB) (clock : Int) :
    (start enabled db clock).NamesCanonical := by
  intro uuid _ name hl
  cases hl

end

end Resolver

open Resolver

section

variable (toLower dashUUID : String → String)

/-- While no sighting answered from the cache carries another name than the latest answer for its
UUID, every name that is stored stays canonical; in a run whose writes have all landed, only
then. -/
theorem renames_stick_iff (enabled : Bool) (db : DB) (clock : Int) (ls : List Label) :
    (Along (step toLower dashUUID) (KeepsName toLower) (start enabled db clock) ls →
        Always (step toLower dashUUID) NamesCanonical (start enabled db clock) ls) ∧
      ∀ s, Reaches (step toLower dashUUID) (start enabled db clock) ls s → s.queue = [] →
        Always (step toLower dashUUID) NamesCanonical (start enabled db clock) ls →
          Along (step toLower dashUUID) (KeepsName toLower) (start enabled db clock) ls := by
  have hiff : Always (step toLower dashUUID) NamesCanonical (start enabled db clock) ls ↔
      Along (step toLower dashUUID) LandsName (start enabled db clock) ls :=
    always_namesCanonical_iff (known_start enabled db clock) (namesCanonical_start enabled db clock)
      ls
  constructor
  · intro hkeep
    exact hiff.2 (landsName_of_keepsName trivial hkeep)
  · intro s hr hq halways
    have hstart : Throughout Op.Repeats (start enabled db clock).landed := trivial
    have hlanded : Throughout Op.Repeats s.landed :=
      hr.invariant_of_along (I := fun s => Throughout Op.Repeats s.landed)
        (fun s l t hi hl hs => landed_repeats_step hi hl hs) hstart (hiff.1 halways)
    have hwritten : Throughout Op.Repeats s.written := by
      rw [written, hq]
      exact hlanded
    exact (keepsName_of_repeats hr hwritten).2

/-- A player is renamed, and comes back under the old name. -/
def renamedBack : List Label :=
  [.sight ⟨"steve", ""⟩ false false 0 0 0,
    .resolve (some [("069a79f444e94726a5befca90e38aaf5", "steve")]) [("steve", 0)], .land,
    .sight ⟨"steve", ""⟩ false false 86400000 86400000 86400000, .land, .fetch 86400000,
    .fetched (.profile "alex") 86400000, .land,
    .sight ⟨"steve", ""⟩ false false 86400001 86400001 86400001, .land]

/-- The profile has said that the player is called alex, and the row says steve again. -/
theorem old_name_comes_back :
    ¬∀ (toLower dashUUID : String → String) (enabled : Bool) (db : DB) (clock : Int)
      (ls : List Label),
      Always (step toLower dashUUID) NamesCanonical (start enabled db clock) ls := by
  intro h
  -- the one id of the run, with its dashes
  have hrun := h id (fun _ => "069a79f4-44e9-4726-a5be-fca90e38aaf5") true noPlayers 0 renamedBack
  have hreal : RealUUID "069a79f4-44e9-4726-a5be-fca90e38aaf5" := by decide +kernel
  have hrow : (final (step id fun _ => "069a79f4-44e9-4726-a5be-fca90e38aaf5")
      (start true noPlayers 0) renamedBack).map (fun s =>
        (latestAnswer s.landed "069a79f4-44e9-4726-a5be-fca90e38aaf5",
          s.nameOf "069a79f4-44e9-4726-a5be-fca90e38aaf5")) = some (some "alex", some "steve") := by
    decide +kernel
  obtain ⟨s, hs, hs'⟩ := Option.map_eq_some_iff.1 hrow
  obtain ⟨hl, hn⟩ := Prod.mk.inj hs'
  have hname := (hrun.final (reaches_of_final hs)) _ hreal "alex" hl
  exact absurd (hn.symm.trans hname) (by decide)

end

end ProxyForward.Players

import Mathlib.Data.Finset.Max
import ProxyForward.Uptime

namespace ProxyForward
set_option autoImplicit true

/-- The group that shares one carrier row. -/
def EventRow.key (r : EventRow) : String × String × String := (r.agentID, r.kind, r.tunnelID)

/-- The row moved to the cutoff. -/
def EventRow.park (r : EventRow) (cutoff : Int) : EventRow := { r with t := cutoff }

def expired (journal : List EventRow) (cutoff : Int) : List EventRow :=
  journal.filter fun r => r.t < cutoff

/-- `r` may be the row whose `up` goes with `MAX(t)` of its group. -/
def LastOfGroup (rows : List EventRow) (r : EventRow) : Prop :=
  r ∈ rows ∧ ∀ r' ∈ rows, r'.key = r.key → r'.t ≤ r.t

instance : Decidable (LastOfGroup rows r) := inferInstanceAs (Decidable (_ ∧ _))

/-- One carrier at the cutoff for each group of expired rows. -/
structure Carriers (journal : List EventRow) (cutoff : Int) (carriers : List EventRow) : Prop where
  single : (carriers.map EventRow.key).Nodup
  covers : ∀ r ∈ expired journal cutoff, ∃ k ∈ carriers, k.key = r.key
  carried : ∀ k ∈ carriers, ∃ r, LastOfGroup (expired journal cutoff) r ∧ k = r.park cutoff

/-- `prune` may leave the journal `after`. -/
def Prune (journal : List EventRow) (cutoff : Int) (after : List EventRow) : Prop :=
  ∃ carriers, Carriers journal cutoff carriers ∧
    after = (journal ++ carriers).filter fun r => ¬r.t < cutoff

/-- Whatever rows the prune keeps for its groups and in whichever order the two reads return the
rows of one instant, no state and no uptime from the cutoff on depends on the prune. -/
def PruneKeepsUptime (journal : List EventRow) (cutoff : Int) : Prop :=
  ∀ after kind tunnelID before' after', Prune journal cutoff after →
    LoadEvents journal kind tunnelID before' → LoadEvents after kind tunnelID after' →
    (∀ t, cutoff ≤ t → stateAt after' t = stateAt before' t) ∧
    ∀ cover since now, cutoff ≤ since →
      computeUptimePct after' cover since now = computeUptimePct before' cover since now

/-- A row whose state may be taken for the one at the cutoff: it is there, or it is a last row of
its group before. -/
def Entering (journal : List EventRow) (cutoff : Int) (r : EventRow) : Prop :=
  r ∈ journal ∧ r.t = cutoff ∨ LastOfGroup (expired journal cutoff) r

def SameTunnel (r r' : EventRow) : Prop := r.kind = r'.kind ∧ r.tunnelID = r'.tunnelID

/-- The agents of a tunnel enter the cutoff with one state, and no two rows of one later instant
disagree. -/
structure OneState (journal : List EventRow) (cutoff : Int) : Prop where
  entering : ∀ r r', Entering journal cutoff r → Entering journal cutoff r' → SameTunnel r r' →
    r.up = r'.up
  later : ∀ r ∈ journal, ∀ r' ∈ journal, SameTunnel r r' → cutoff < r.t → r.t = r'.t → r.up = r'.up

variable {journal after : List EventRow} {cutoff : Int} {r : EventRow}

theorem mem_expired : r ∈ expired journal cutoff ↔ r ∈ journal ∧ r.t < cutoff := by
  simp only [expired, List.mem_filter, decide_eq_true_eq]

theorem mem_eventsOf :
    r ∈ eventsOf journal kind tunnelID ↔ r ∈ journal ∧ r.kind = kind ∧ r.tunnelID = tunnelID := by
  simp only [eventsOf, List.mem_filter, decide_eq_true_eq]

theorem LastOfGroup.entering (h : LastOfGroup (expired journal cutoff) r) :
    Entering journal cutoff r := .inr h

theorem Entering.mem (h : Entering journal cutoff r) : r ∈ journal :=
  h.elim (fun h => h.1) fun h => (mem_expired.1 h.1).1

theorem Entering.le (h : Entering journal cutoff r) : r.t ≤ cutoff :=
  h.elim (fun h => h.2.le) fun h => (mem_expired.1 h.1).2.le

/-- What is left from the cutoff on are the old rows there and rows with the state of an entering
one at the cutoff. -/
theorem Prune.mem (h : Prune journal cutoff after) (hr : r ∈ after) :
    cutoff ≤ r.t ∧ (r ∈ journal ∨
      ∃ r₀, LastOfGroup (expired journal cutoff) r₀ ∧ r = r₀.park cutoff) := by
  obtain ⟨carriers, hcarriers, rfl⟩ := h
  obtain ⟨hmem, ht⟩ := List.mem_filter.1 hr
  refine ⟨not_lt.1 (of_decide_eq_true ht), ?_⟩
  exact (List.mem_append.1 hmem).imp_right fun hk => hcarriers.carried r hk

theorem Prune.mem_of_le (h : Prune journal cutoff after) (hr : r ∈ journal) (ht : cutoff ≤ r.t) :
    r ∈ after := by
  obtain ⟨carriers, -, rfl⟩ := h
  exact List.mem_filter.2 ⟨List.mem_append_left _ hr, decide_eq_true (not_lt.2 ht)⟩

theorem Prune.carrier (h : Prune journal cutoff after) (hr : r ∈ expired journal cutoff) :
    ∃ k ∈ after, k.key = r.key ∧ k.t = cutoff := by
  obtain ⟨carriers, hcarriers, rfl⟩ := h
  obtain ⟨k, hk, hkey⟩ := hcarriers.covers r hr
  obtain ⟨r₀, -, rfl⟩ := hcarriers.carried k hk
  exact ⟨_, List.mem_filter.2 ⟨List.mem_append_right _ hk, decide_eq_true (lt_irrefl cutoff)⟩, hkey,
    rfl⟩

theorem sameTunnel_of_key (h : r.key = r'.key) : SameTunnel r r' := by
  obtain ⟨-, h⟩ := Prod.mk.inj h
  exact Prod.mk.inj h

theorem LoadEvents.row_of_some (h : LoadEvents journal kind tunnelID events)
    (hs : stateAt events t = some up) :
    ∃ r ∈ eventsOf journal kind tunnelID, r.t ≤ t ∧ r.up = up ∧
      ∀ r' ∈ eventsOf journal kind tunnelID, r'.t ≤ t → r'.t ≤ r.t := by
  obtain ⟨e, he, het, hup, hmax⟩ := stateAt_some h.chronological hs
  obtain ⟨r, hr, hrt, hrup⟩ := h.mem_iff.1 he
  refine ⟨r, hr, hrt ▸ het, hrup.trans hup, fun r' hr' ht => ?_⟩
  rw [hrt]
  exact hmax ⟨r'.t, r'.up⟩ (h.mem_iff.2 ⟨r', hr', rfl, rfl⟩) ht

theorem LoadEvents.none_iff (h : LoadEvents journal kind tunnelID events) :
    stateAt events t = none ↔ ∀ r ∈ eventsOf journal kind tunnelID, t < r.t := by
  rw [stateAt_none h.chronological]
  constructor
  · intro hall r hr
    exact hall ⟨r.t, r.up⟩ (h.mem_iff.2 ⟨r, hr, rfl, rfl⟩)
  · intro hall e he
    obtain ⟨r, hr, ht, -⟩ := h.mem_iff.1 he
    exact ht ▸ hall r hr

theorem stateAt_prune (h : OneState journal cutoff) (hp : Prune journal cutoff after)
    (hb : LoadEvents journal kind tunnelID before') (ha : LoadEvents after kind tunnelID after')
    (ht : cutoff ≤ t) : stateAt after' t = stateAt before' t := by
  cases hsb : stateAt before' t with
  | none =>
    have hnone := hb.none_iff.1 hsb
    refine ha.none_iff.2 fun r hr => ?_
    obtain ⟨hmem, hkind, htunnel⟩ := mem_eventsOf.1 hr
    obtain ⟨-, hold | ⟨r₀, hr₀, rfl⟩⟩ := hp.mem hmem
    · exact hnone r (mem_eventsOf.2 ⟨hold, hkind, htunnel⟩)
    · have h₀ := hnone r₀ (mem_eventsOf.2 ⟨hr₀.entering.mem, hkind, htunnel⟩)
      exact absurd h₀ (not_lt.2 (hr₀.entering.le.trans ht))
  | some ub =>
    obtain ⟨rb, hrb, hbt, rfl, hbmax⟩ := hb.row_of_some hsb
    obtain ⟨hbmem, hbkind, hbtunnel⟩ := mem_eventsOf.1 hrb
    cases hsa : stateAt after' t with
    | none =>
      have hnone := ha.none_iff.1 hsa
      by_cases hbc : cutoff ≤ rb.t
      · have hlt := hnone rb (mem_eventsOf.2 ⟨hp.mem_of_le hbmem hbc, hbkind, hbtunnel⟩)
        exact absurd hlt (not_lt.2 hbt)
      · obtain ⟨k, hk, hkey, hkt⟩ := hp.carrier (mem_expired.2 ⟨hbmem, not_le.1 hbc⟩)
        obtain ⟨hkind, htunnel⟩ := sameTunnel_of_key hkey
        have hlt := hnone k (mem_eventsOf.2 ⟨hk, hkind.trans hbkind, htunnel.trans hbtunnel⟩)
        exact absurd hlt (not_lt.2 (hkt ▸ ht))
    | some ua =>
      obtain ⟨ra, hra, hat, rfl, hamax⟩ := ha.row_of_some hsa
      obtain ⟨hamem, hakind, hatunnel⟩ := mem_eventsOf.1 hra
      obtain ⟨hac, hsource⟩ := hp.mem hamem
      have hsame : SameTunnel ra rb := ⟨hakind.trans hbkind.symm, hatunnel.trans hbtunnel.symm⟩
      refine congrArg some ?_
      by_cases hbc : cutoff < rb.t
      · -- A row after the cutoff is an old one in both reads.
        have hle := hamax rb (mem_eventsOf.2 ⟨hp.mem_of_le hbmem hbc.le, hbkind, hbtunnel⟩) hbt
        obtain hold | ⟨r₀, -, rfl⟩ := hsource
        · have hge := hbmax ra (mem_eventsOf.2 ⟨hold, hakind, hatunnel⟩) hat
          exact h.later ra hold rb hbmem hsame (hbc.trans_le hle) (le_antisymm hge hle)
        · exact absurd hle (not_le.2 hbc)
      · have hbc := not_lt.1 hbc
        have hb' : Entering journal cutoff rb := by
          obtain heq | hlt := hbc.eq_or_lt
          · exact .inl ⟨hbmem, heq⟩
          · refine .inr ⟨mem_expired.2 ⟨hbmem, hlt⟩, fun r' hr' hkey => ?_⟩
            obtain ⟨hmem, hlt'⟩ := mem_expired.1 hr'
            obtain ⟨hkind, htunnel⟩ := sameTunnel_of_key hkey
            exact hbmax r' (mem_eventsOf.2 ⟨hmem, hkind.trans hbkind, htunnel.trans hbtunnel⟩)
              (hlt'.le.trans ht)
        obtain hold | ⟨r₀, hr₀, rfl⟩ := hsource
        · have hge := hbmax ra (mem_eventsOf.2 ⟨hold, hakind, hatunnel⟩) hat
          exact h.entering ra rb (.inl ⟨hold, le_antisymm (hge.trans hbc) hac⟩) hb' hsame
        · exact h.entering r₀ rb hr₀.entering hb' hsame

theorem exists_lastOfGroup {rows : List EventRow} (hr : r ∈ rows) :
    ∃ m, LastOfGroup rows m ∧ m.key = r.key := by
  obtain ⟨m, hm, hmax⟩ := (rows.toFinset.filter fun r' => r'.key = r.key).exists_max_image
    EventRow.t ⟨r, Finset.mem_filter.2 ⟨List.mem_toFinset.2 hr, rfl⟩⟩
  obtain ⟨hmem, hkey⟩ := Finset.mem_filter.1 hm
  refine ⟨m, ⟨List.mem_toFinset.1 hmem, fun r' hr' hkey' => ?_⟩, hkey⟩
  exact hmax r' (Finset.mem_filter.2 ⟨List.mem_toFinset.2 hr', hkey'.trans hkey⟩)

theorem exists_prune (pick : String × String × String → EventRow)
    (hpick : ∀ r ∈ expired journal cutoff, LastOfGroup (expired journal cutoff) (pick r.key) ∧
      (pick r.key).key = r.key) :
    ∃ after, Prune journal cutoff after ∧
      ∀ r ∈ expired journal cutoff, (pick r.key).park cutoff ∈ after := by
  let groups := ((expired journal cutoff).map EventRow.key).dedup
  let carriers := groups.map fun key => (pick key).park cutoff
  have hgroup : ∀ key ∈ groups, LastOfGroup (expired journal cutoff) (pick key) ∧
      (pick key).key = key := by
    intro key hmem
    obtain ⟨r, hr, rfl⟩ := List.mem_map.1 (List.mem_dedup.1 hmem)
    exact hpick r hr
  have hmem : ∀ r ∈ expired journal cutoff, (pick r.key).park cutoff ∈ carriers := fun r hr =>
    List.mem_map_of_mem (List.mem_dedup.2 (List.mem_map_of_mem hr))
  have hcarriers : Carriers journal cutoff carriers := by
    refine ⟨?_, fun r hr => ⟨_, hmem r hr, (hpick r hr).2⟩, fun k hk => ?_⟩
    · have hkeys : carriers.map EventRow.key = groups := by
        simp only [carriers, List.map_map]
        exact (List.map_congr_left fun key hk => (hgroup key hk).2).trans (List.map_id groups)
      rw [hkeys]
      exact List.nodup_dedup _
    · obtain ⟨key, hkey, rfl⟩ := List.mem_map.1 hk
      exact ⟨_, (hgroup key hkey).1, rfl⟩
  refine ⟨_, ⟨carriers, hcarriers, rfl⟩, fun r hr => ?_⟩
  exact List.mem_filter.2 ⟨List.mem_append_right _ (hmem r hr), decide_eq_true (lt_irrefl cutoff)⟩

theorem exists_pick (journal : List EventRow) (cutoff : Int) (r₀ : EventRow) :
    ∃ pick : String × String × String → EventRow, ∀ r ∈ expired journal cutoff,
      LastOfGroup (expired journal cutoff) (pick r.key) ∧ (pick r.key).key = r.key := by
  have hpick : ∀ key, ∃ m, ∀ r ∈ expired journal cutoff, r.key = key →
      LastOfGroup (expired journal cutoff) m ∧ m.key = r.key := by
    intro key
    by_cases hkey : ∃ r ∈ expired journal cutoff, r.key = key
    · obtain ⟨r, hr, rfl⟩ := hkey
      obtain ⟨m, hm, hmkey⟩ := exists_lastOfGroup hr
      exact ⟨m, fun r' _ hkey' => ⟨hm, hmkey.trans hkey'.symm⟩⟩
    · exact ⟨r₀, fun r' hr' hkey' => absurd ⟨r', hr', hkey'⟩ hkey⟩
  choose pick hpick using hpick
  exact ⟨pick, fun r hr => hpick _ r hr rfl⟩

theorem exists_prune_carrying (h : Entering journal cutoff r) :
    ∃ after, Prune journal cutoff after ∧ r.park cutoff ∈ after := by
  obtain ⟨pick, hpick⟩ := exists_pick journal cutoff r
  obtain ⟨hmem, rfl⟩ | hlast := h
  · obtain ⟨after, hp, -⟩ := exists_prune pick hpick
    exact ⟨after, hp, hp.mem_of_le hmem le_rfl⟩
  · obtain ⟨after, hp, hcarried⟩ := exists_prune (Function.update pick r.key r) (by
      intro r' hr'
      by_cases hkey : r'.key = r.key
      · rw [hkey, Function.update_self]
        exact ⟨hlast, rfl⟩
      · rw [Function.update_of_ne hkey]
        exact hpick r' hr')
    refine ⟨after, hp, ?_⟩
    have hr := hcarried r hlast.1
    rwa [Function.update_self] at hr

def byTime (rows : List EventRow) : List EventRow := rows.mergeSort fun r r' => decide (r.t ≤ r'.t)

theorem pairwise_byTime (rows : List EventRow) : (byTime rows).Pairwise fun r r' => r.t ≤ r'.t := by
  have hsorted : (byTime rows).Pairwise fun r r' => decide (r.t ≤ r'.t) = true :=
    List.pairwise_mergeSort
      (by simpa only [decide_eq_true_eq] using fun a b c => le_trans)
      (by simpa only [Bool.or_eq_true, decide_eq_true_eq] using fun a b => le_total _ _) rows
  exact hsorted.imp of_decide_eq_true

theorem mem_byTime : r ∈ byTime rows ↔ r ∈ rows := (List.mergeSort_perm rows _).mem_iff

theorem exists_load_last (hr : r ∈ eventsOf journal kind tunnelID) :
    ∃ events, LoadEvents journal kind tunnelID events ∧ stateAt events r.t = some r.up := by
  obtain ⟨rest, hperm⟩ : ∃ rest, (eventsOf journal kind tunnelID).Perm (r :: rest) :=
    ⟨_, List.perm_cons_erase hr⟩
  let early := byTime (rest.filter fun r' => r'.t ≤ r.t)
  let late := byTime (rest.filter fun r' => ¬r'.t ≤ r.t)
  have hearly : ∀ r' ∈ early, r'.t ≤ r.t := fun r' h =>
    of_decide_eq_true (List.mem_filter.1 (mem_byTime.1 h)).2
  have hlate : ∀ r' ∈ late, r.t < r'.t := fun r' h =>
    not_le.1 (of_decide_eq_true (List.mem_filter.1 (mem_byTime.1 h)).2)
  refine ⟨_, ⟨early ++ r :: late, ?_, ?_, rfl⟩, ?_⟩
  · have hsplit : (rest.filter (fun r' => r'.t ≤ r.t) ++
        rest.filter fun r' => ¬r'.t ≤ r.t).Perm rest := by
      simpa only [decide_not] using List.filter_append_perm (fun r' => decide (r'.t ≤ r.t)) rest
    have hrest : (early ++ late).Perm rest :=
      ((List.mergeSort_perm _ _).append (List.mergeSort_perm _ _)).trans hsplit
    exact (List.perm_middle.trans (hrest.cons r)).trans hperm.symm
  · refine List.pairwise_append.2 ⟨pairwise_byTime _, List.pairwise_cons.2
      ⟨fun r' h => (hlate r' h).le, pairwise_byTime _⟩, fun r₁ h₁ r₂ h₂ => ?_⟩
    obtain rfl | h₂ := List.mem_cons.1 h₂
    · exact hearly r₁ h₁
    · exact (hearly r₁ h₁).trans (hlate r₂ h₂).le
  · rw [stateAt, List.map_append, List.map_cons, stateFrom_append (by
      simpa only [List.forall_mem_map] using hearly)]
    simp only [stateFrom, le_refl, if_true]
    exact stateFrom_later (by simpa only [List.forall_mem_map] using hlate)

theorem entering_of_keeps (h : PruneKeepsUptime journal cutoff) (hr : Entering journal cutoff r)
    (hb : LoadEvents journal r.kind r.tunnelID before') : stateAt before' cutoff = some r.up := by
  obtain ⟨after, hp, hmem⟩ := exists_prune_carrying hr
  obtain ⟨after', ha, hs⟩ := exists_load_last
    (mem_eventsOf.2 ⟨hmem, rfl, rfl⟩ : _ ∈ eventsOf after r.kind r.tunnelID)
  rw [← (h after _ _ before' after' hp hb ha).1 cutoff le_rfl]
  exact hs

/-- Pruning keeps every state and every uptime from the cutoff on, whatever the database picks,
exactly when all rows that can stand for the state at the cutoff agree, and so do the rows of each
later instant. -/
theorem prune_keepsUptime_iff (journal : List EventRow) (cutoff : Int) :
    PruneKeepsUptime journal cutoff ↔ OneState journal cutoff := by
  constructor
  · intro h
    refine ⟨fun r r' hr hr' hsame => ?_, fun r hr r' hr' hsame hlt ht => ?_⟩
    · obtain ⟨hkind, htunnel⟩ := hsame
      obtain ⟨before', hb, -⟩ := exists_load_last
        (mem_eventsOf.2 ⟨hr.mem, rfl, rfl⟩ : r ∈ eventsOf journal r.kind r.tunnelID)
      have hs := entering_of_keeps h hr hb
      rw [hkind, htunnel] at hb
      exact Option.some.inj (hs.symm.trans (entering_of_keeps h hr' hb))
    · obtain ⟨hkind, htunnel⟩ := hsame
      obtain ⟨before', hb, hsb⟩ := exists_load_last
        (mem_eventsOf.2 ⟨hr, rfl, rfl⟩ : r ∈ eventsOf journal r.kind r.tunnelID)
      obtain ⟨pick, hpick⟩ := exists_pick journal cutoff r
      obtain ⟨after, hp, -⟩ := exists_prune pick hpick
      obtain ⟨after', ha, hsa⟩ := exists_load_last (mem_eventsOf.2
        ⟨hp.mem_of_le hr' (ht ▸ hlt.le), hkind.symm, htunnel.symm⟩ : r' ∈ eventsOf after _ _)
      rw [(h after _ _ before' after' hp hb ha).1 r'.t (ht ▸ hlt.le), ← ht, hsb] at hsa
      exact Option.some.inj hsa
  · intro h after kind tunnelID before' after' hp hb ha
    have hstate : ∀ t, cutoff ≤ t → stateAt after' t = stateAt before' t := fun t =>
      stateAt_prune h hp hb ha
    exact ⟨hstate, fun cover since now hc =>
      computeUptimePct_congr ha.chronological hb.chronological hstate hc cover now⟩

/-- The link of one agent goes up and then that of another down: both are parked at the cutoff. -/
theorem prune_loses_uptime : ¬∀ journal cutoff, PruneKeepsUptime journal cutoff := by
  intro h
  let up : EventRow := ⟨1, "b", eventLink, "", true⟩
  let down : EventRow := ⟨2, "a", eventLink, "", false⟩
  obtain ⟨before', hb, -⟩ := exists_load_last (by decide : up ∈ eventsOf [up, down] eventLink "")
  have hup : Entering [up, down] 10 up := .inr (by decide)
  have hdown : Entering [up, down] 10 down := .inr (by decide)
  have hs := entering_of_keeps (h [up, down] 10) hup hb
  rw [entering_of_keeps (h [up, down] 10) hdown hb] at hs
  cases hs

end ProxyForward

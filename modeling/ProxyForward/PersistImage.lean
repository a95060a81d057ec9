import ProxyForward.HistoryImage
import ProxyForward.Runs

namespace ProxyForward.Stats
set_option autoImplicit true

/-- The watermarks of an agent once a snapshot is saved. -/
def TierSnapshot.mark (ts : TierSnapshot) (agentID : String) (w : Nat → Nat) : Nat → Nat :=
  match ts.buckets.getLast? with
  | some b => if agentID = ts.agentID then Function.update w ts.tier b.T else w
  | none => w

def markOf (agentID : String) (w : Nat → Nat) (tiers : List TierSnapshot) : Nat → Nat :=
  tiers.foldl (fun w ts => ts.mark agentID w) w

theorem markOf_of_nil {id : String} (h : ∀ ts ∈ tiers, id = ts.agentID → ti = ts.tier →
    ts.buckets = [])
    (w : Nat → Nat) : markOf id w tiers ti = w ti := by
  induction tiers generalizing w with
  | nil => rfl
  | cons ts tiers ih =>
    obtain ⟨hts, hrest⟩ := List.forall_mem_cons.1 h
    have hmark : ts.mark id w ti = w ti := by
      unfold TierSnapshot.mark
      cases hlast : ts.buckets.getLast? with
      | none => rfl
      | some b =>
        by_cases hid : id = ts.agentID
        · simp only [if_pos hid]
          refine Function.update_of_ne (fun hti => ?_) ..
          rw [hts hid hti] at hlast
          exact nomatch hlast
        · simp only [if_neg hid]
    exact (ih hrest _).trans hmark

theorem markOf_of_ne {id : String} (h : ∀ ts ∈ tiers, ¬(id = ts.agentID ∧ ti = ts.tier))
    (w : Nat → Nat) :
    markOf id w tiers ti = w ti :=
  markOf_of_nil (fun ts hts hid hti => absurd ⟨hid, hti⟩ (h ts hts)) w

theorem markOf_of_mem (h : TiersOK tiers) (hts : ts ∈ tiers) (hlast : ts.buckets.getLast? = some b)
    (w : Nat → Nat) : markOf ts.agentID w tiers ts.tier = b.T := by
  induction tiers generalizing w with
  | nil => exact absurd hts List.not_mem_nil
  | cons t tiers ih =>
    by_cases hlater : ts ∈ tiers
    · exact ih h.tail hlater _
    · obtain rfl := (List.mem_cons.1 hts).resolve_right hlater
      have hne : ∀ ts' ∈ tiers, ¬(ts.agentID = ts'.agentID ∧ ts.tier = ts'.tier) :=
        fun ts' hts' hkey =>
        hlater (h.key ts List.mem_cons_self ts' (List.mem_cons_of_mem _ hts') hkey.1 hkey.2 ▸ hts')
      refine (markOf_of_ne hne _).trans ?_
      simp only [TierSnapshot.mark, hlast, if_true, Function.update_self]

namespace Store

theorem historyFor_foldl_advance (s : Store) (tiers : List TierSnapshot) (id : String) :
    (tiers.foldl advance s).historyFor id =
      (s.historyFor id).map fun h => { h with lastCurT := markOf id h.lastCurT tiers } := by
  induction tiers generalizing s with
  | nil =>
    rw [List.foldl_nil]
    cases s.historyFor id <;> rfl
  | cons ts tiers ih =>
    rw [List.foldl_cons, ih]
    unfold advance
    cases hlast : ts.buckets.getLast? with
    | none => simp only [markOf, TierSnapshot.mark, List.foldl_cons, hlast]
    | some b =>
      cases hts : s.historyFor ts.agentID with
      | none =>
        simp only
        cases hh : s.historyFor id with
        | none => rfl
        | some h =>
          have hne : id ≠ ts.agentID := by
            rintro rfl
            exact nomatch hts.symm.trans hh
          simp only [markOf, TierSnapshot.mark, List.foldl_cons, hlast, if_neg hne]
      | some hist =>
        simp only [historyFor_setHistory]
        by_cases hid : id = ts.agentID
        · subst hid
          simp only [if_true, hts, Option.map_some, markOf, TierSnapshot.mark,
            List.foldl_cons, hlast]
        · simp only [if_neg hid, markOf, TierSnapshot.mark, List.foldl_cons, hlast]

theorem foldl_advance_agents (s : Store) (tiers : List TierSnapshot) :
    (tiers.foldl advance s).evicted = s.evicted ∧
      (s.agents.lookup "" = none → (tiers.foldl advance s).agents.lookup "" = none) := by
  induction tiers generalizing s with
  | nil => exact ⟨rfl, fun h => h⟩
  | cons ts tiers ih =>
    have hadvance : (s.advance ts).evicted = s.evicted ∧
        (s.agents.lookup "" = none → (s.advance ts).agents.lookup "" = none) := by
      unfold advance setHistory
      split
      · split
        · exact ⟨rfl, fun h => h⟩
        · rename_i hid
          exact ⟨rfl, fun h => (AList.lookup_insert_ne (Ne.symm hid)).trans h⟩
      · exact ⟨rfl, fun h => h⟩
    obtain ⟨hevicted, hagents⟩ := ih (s.advance ts)
    exact ⟨hevicted.trans hadvance.1, fun h => hagents (hadvance.2 h)⟩

/-- The store after some of its histories had readings. -/
structure Grew (s s' : Store) : Prop where
  noGlobal : s.agents.lookup "" = none → s'.agents.lookup "" = none
  evicted : s'.evicted = s.evicted
  gone : ∀ id, s'.historyFor id = none → s.historyFor id = none
  histories : ∀ id h', s'.historyFor id = some h' → ∃ h, s.historyFor id = some h ∧ h.Grew h'

theorem Grew.ok {s s' : Store} (h : s.Grew s') (hok : s.OK) : s'.OK where
  noGlobal := h.noGlobal hok.noGlobal
  histories id h' hh' := by
    obtain ⟨_, -, hgrew⟩ := h.histories id h' hh'
    exact hgrew.ok
  tracked id h' hh' := by
    obtain ⟨hist, hh, -⟩ := h.histories id h' hh'
    exact h.evicted ▸ hok.tracked id hist hh

theorem setHistory_grew {s : Store} {id : String} {h h' : History} (hok : s.OK)
    (hh : s.historyFor id = some h)
    (hgrew : h.Grew h') :
    s.Grew (s.setHistory id h') where
  noGlobal hnone := by
    unfold setHistory
    split
    · exact hnone
    · rename_i hid
      exact (AList.lookup_insert_ne (Ne.symm hid)).trans hnone
  evicted := by
    unfold setHistory
    split <;> rfl
  gone id' hnone := by
    rw [historyFor_setHistory] at hnone
    by_cases hid : id' = id
    · rw [if_pos hid] at hnone
      exact nomatch hnone
    · rwa [if_neg hid] at hnone
  histories id' hist hhist := by
    rw [historyFor_setHistory] at hhist
    by_cases hid : id' = id
    · rw [if_pos hid] at hhist
      exact ⟨h, hid ▸ hh, Option.some.inj hhist ▸ hgrew⟩
    · rw [if_neg hid] at hhist
      exact ⟨hist, hhist, hok.histories id' hist hhist, rfl, fun _ _ hs => hs⟩

theorem Sample_histories (s : Store) (r : Reading) (linkIn linkOut : Int) :
    (s.Sample r linkIn linkOut).agents = s.agents ∧
    (s.Sample r linkIn linkOut).evicted = s.evicted ∧
      ∀ id, (s.Sample r linkIn linkOut).historyFor id =
        if id = "" then some (s.global.sample r).2 else s.historyFor id := by
  have hsame : (s.Sample r linkIn linkOut).global = (s.global.sample r).2 ∧
      (s.Sample r linkIn linkOut).agents = s.agents ∧
      (s.Sample r linkIn linkOut).evicted = s.evicted := by
    unfold Sample
    simp only
    split <;> split <;> exact ⟨rfl, rfl, rfl⟩
  obtain ⟨hg, hagents, hevicted⟩ := hsame
  refine ⟨hagents, hevicted, fun id => ?_⟩
  by_cases hid : id = ""
  · simp only [historyFor, hg, if_pos hid]
  · simp only [historyFor, hagents, if_neg hid]

theorem Sample_grew {s : Store} (hok : s.OK) (r : Reading) (linkIn linkOut : Int) :
    s.Grew (s.Sample r linkIn linkOut) := by
  have hglobal : s.historyFor "" = some s.global := if_pos rfl
  have hgrew := setHistory_grew hok hglobal ((hok.histories "" s.global hglobal).sample r)
  obtain ⟨hagents, hevicted, hfor⟩ := s.Sample_histories r linkIn linkOut
  have hfor (id : String) : (s.Sample r linkIn linkOut).historyFor id =
      (s.setHistory "" (s.global.sample r).2).historyFor id := by
    rw [hfor, historyFor_setHistory]
  constructor
  · exact fun hnone => hagents ▸ hnone
  · exact hevicted
  · exact fun id hnone => hgrew.gone id ((hfor id).symm.trans hnone)
  · exact fun id h' hh' => hgrew.histories id h' ((hfor id).symm.trans hh')

theorem historyFor_erase (s : Store) {victim : String} (hvictim : victim ≠ "") (id : String) :
    ({ s with
        agents := s.agents.erase victim
        evicted := insert victim s.evicted } : Store).historyFor id =
      if id = victim then none else s.historyFor id := by
  simp only [historyFor]
  by_cases hid : id = victim
  · subst hid
    rw [if_pos rfl, if_neg hvictim, AList.lookup_erase]
  · rw [if_neg hid, AList.lookup_erase_ne hid]

theorem historyFor_insert (s : Store) {id : String} (hid : id ≠ "") (hist : History)
    (id' : String) :
    ({ s with
        agents := s.agents.insert id hist
        evicted := s.evicted.erase id } : Store).historyFor id' =
      if id' = id then some hist else s.historyFor id' := by
  simp only [historyFor]
  by_cases hid' : id' = id
  · subst hid'
    rw [if_pos rfl, if_neg hid, AList.lookup_insert]
  · rw [if_neg hid', AList.lookup_insert_ne hid']

end Store

theorem Ring.Synced.blank (r : Ring) : r.Synced (fun _ => False) 0 where
  unused _ := ⟨rfl, fun _ h => h⟩
  bound _ _ := Nat.zero_le _
  clean _ _ h := absurd h (Nat.not_lt_zero _)
  known _ h := h.elim

theorem History.Synced.blank {d : Disk} {h : History} {id : String} (hmarks : ∀ ti, w ti = 0)
    (hrows : ∀ ti b, ¬d.rows id ti b) : h.Synced (d.rows id) w := by
  intro ti r _ _
  have hnone : d.rows id ti = fun _ => False := funext fun b =>
    propext (iff_false_intro (hrows ti b))
  rw [hnone, hmarks ti]
  exact .blank r

namespace Persistence

/-- The database once the save that is under way lands. -/
def after (s : Persistence) : Disk :=
  match s.saving with
  | some ⟨snap, false⟩ => s.disk.SaveStats snap
  | _ => s.disk

/-- The agents whose rows the flush under way deletes. -/
def deleting (s : Persistence) : Finset String :=
  match s.saving with
  | none => ∅
  | some f => f.snap.deleteAgents

/-- The tiers that the flush under way writes. -/
def writing (s : Persistence) : List TierSnapshot :=
  match s.saving with
  | none => []
  | some f => f.snap.tiers

/-- What the bookkeeping keeps consistent: watermarks, expiry and pending deletions, both for the
save that is under way to land and for it to fail. -/
structure Inv (s : Persistence) : Prop where
  store : s.store.OK
  disk : s.disk.OK
  landed : s.after.OK
  tiers : TiersOK s.writing
  synced : ∀ id h, s.store.historyFor id = some h →
    h.Synced (s.after.rows id) (markOf id h.lastCurT s.writing)
  gone : ∀ id, s.store.historyFor id = none → ∀ ti b, s.after.rows id ti b →
    id ∈ s.store.evicted ∧ id ∉ s.deleting
  deleted : ∀ id ∈ s.deleting, ∀ ti b, ¬s.after.rows id ti b
  failing : ∀ snap, s.saving = some ⟨snap, false⟩ → ∀ id h, s.store.historyFor id = some h →
    h.Synced (s.disk.rows id) h.lastCurT ∨ (id ∈ snap.deleteAgents ∧ ∀ ti, h.lastCurT ti = 0)
  failingGone : ∀ snap, s.saving = some ⟨snap, false⟩ → ∀ id, s.store.historyFor id = none →
    ∀ ti b, s.disk.rows id ti b → id ∈ s.store.evicted

/-- No row of an agent is left, or will be once the save that is under way lands. -/
def Forgotten (s : Persistence) (id : String) : Prop :=
  (∀ ts ∈ s.writing, ts.agentID ≠ id) ∧
    ((∀ row ∈ s.disk.rrd, row.agentID ≠ id) ∨ ∃ f ∈ s.saving, f.landed = false ∧
    id ∈ f.snap.deleteAgents)

/-- A history is created for an agent that is forgotten, no save fails on which such an agent
relied, and no tier is stored that a restart does not restore. -/
def Kept (s : Persistence) : PersistStep → Prop
  | .sampleAgent id _ _ => id ≠ "" → s.store.agents.lookup id = none → s.Forgotten id
  | .saveFail =>
    ∀ row ∈ s.disk.rrd, row.agentID ∈ s.deleting → s.store.historyFor row.agentID = none
  | .restart => s.disk.Restorable
  | _ => True

instance (s : Persistence) (id : String) : Decidable (s.Forgotten id) := inferInstanceAs
  (Decidable (_ ∧ ((∀ row ∈ _, _) ∨ ∃ f ∈ s.saving, f.landed = false ∧ id ∈ f.snap.deleteAgents)))

instance (s : Persistence) : DecidablePred s.Kept
  | .sample .. => .isTrue trivial
  | .sampleAgent id _ _ =>
    inferInstanceAs (Decidable (id ≠ "" → s.store.agents.lookup id = none → s.Forgotten id))
  | .beginFlush => .isTrue trivial
  | .saveOk => .isTrue trivial
  | .saveFail => inferInstanceAs (Decidable (∀ row ∈ s.disk.rrd, row.agentID ∈ s.deleting →
      s.store.historyFor row.agentID = none))
  | .endFlush => .isTrue trivial
  | .restart => inferInstanceAs (Decidable s.disk.Restorable)

theorem not_rows {d : Disk} {id : String} (h : ∀ row ∈ d.rrd, row.agentID ≠ id) (ti : Nat)
    (b : Bucket) :
    ¬d.rows id ti b := fun hb => h _ hb rfl

theorem Inv.ready {s : Persistence} (h : s.Inv) (hidle : s.saving = none) :
    Ready s.store s.disk := by
  have hafter : s.after = s.disk := by simp only [after, hidle]
  have hwriting : s.writing = [] := by simp only [writing, hidle]
  refine ⟨fun id hist hh => ?_, fun id hid ti b hb => ?_⟩
  · have hs := h.synced id hist hh
    rwa [hafter, hwriting] at hs
  · exact (h.gone id hid ti b (hafter.symm ▸ hb)).1

theorem Inv.restart {d : Disk} (hd : d.OK) (hlate : d.Restorable) :
    Inv ⟨Store.load d, d, none⟩ := by
  obtain ⟨hok, hready, hnone⟩ := load_ready hd hlate
  refine ⟨hok, hd, hd, ⟨fun _ h => absurd h List.not_mem_nil, fun _ h => absurd h List.not_mem_nil⟩,
    hready.synced, fun id hid ti b hb => absurd hb (hnone id hid ti b), ?_, ?_, ?_⟩
  · exact fun _ hid => absurd hid (Finset.notMem_empty _)
  · exact fun _ hsaving => nomatch hsaving
  · exact fun _ hsaving => nomatch hsaving

theorem Inv.grow {s : Persistence} (h : s.Inv) {store : Store} (hgrew : s.store.Grew store) :
    Inv { s with store } where
  store := hgrew.ok h.store
  disk := h.disk
  landed := h.landed
  tiers := h.tiers
  synced id h' hh' := by
    obtain ⟨hist, hh, hg⟩ := hgrew.histories id h' hh'
    exact hg.lastCurT ▸ hg.synced _ _ (h.synced id hist hh)
  gone id hid := hgrew.evicted.symm ▸ h.gone id (hgrew.gone id hid)
  deleted := h.deleted
  failing snap hsaving id h' hh' := by
    obtain ⟨hist, hh, hg⟩ := hgrew.histories id h' hh'
    rw [hg.lastCurT]
    exact (h.failing snap hsaving id hist hh).imp_left (hg.synced _ _)
  failingGone snap hsaving id hid := hgrew.evicted.symm ▸ h.failingGone snap hsaving id
    (hgrew.gone id hid)

theorem Inv.evict {s : Persistence} (h : s.Inv) (victim : String) (hvictim : victim ≠ "") :
    Inv { s with store :=
      { s.store with
        agents := s.store.agents.erase victim
        evicted := insert victim s.store.evicted } } := by
  have hfor := s.store.historyFor_erase hvictim
  have hsome {id : String} {hist : History} (hh : (if id = victim then none else
      s.store.historyFor id) = some hist) : id ≠ victim ∧ s.store.historyFor id = some hist := by
    by_cases hid : id = victim
    · rw [if_pos hid] at hh
      exact nomatch hh
    · exact ⟨hid, (if_neg hid).symm.trans hh⟩
  constructor
  · constructor
    · simp only
      rw [AList.lookup_erase_ne (Ne.symm hvictim)]
      exact h.store.noGlobal
    · intro id hist hh
      exact h.store.histories id hist (hsome ((hfor id).symm.trans hh)).2
    · intro id hist hh
      obtain ⟨hne, hh⟩ := hsome ((hfor id).symm.trans hh)
      rw [Finset.mem_insert, not_or]
      exact ⟨hne, h.store.tracked id hist hh⟩
  · exact h.disk
  · exact h.landed
  · exact h.tiers
  · intro id hist hh
    exact h.synced id hist (hsome ((hfor id).symm.trans hh)).2
  · intro id hid ti b hb
    by_cases hne : id = victim
    · exact ⟨Finset.mem_insert.2 (.inl hne), fun hdel => h.deleted id hdel ti b hb⟩
    · obtain ⟨hevicted, hdel⟩ := h.gone id
        ((if_neg hne).symm.trans ((hfor id).symm.trans hid)) ti b hb
      exact ⟨Finset.mem_insert.2 (.inr hevicted), hdel⟩
  · exact h.deleted
  · intro snap hsaving id hist hh
    exact h.failing snap hsaving id hist (hsome ((hfor id).symm.trans hh)).2
  · intro snap hsaving id hid ti b hb
    by_cases hne : id = victim
    · exact Finset.mem_insert.2 (.inl hne)
    · exact Finset.mem_insert.2 (.inr (h.failingGone snap hsaving id
        ((if_neg hne).symm.trans ((hfor id).symm.trans hid)) ti b hb))

theorem Inv.after_forgotten {s : Persistence} {id : String} (h : s.Inv)
    (hforgotten : s.Forgotten id) (ti : Nat) (b : Bucket) : ¬s.after.rows id ti b := by
  obtain ⟨hwriting, hrows | ⟨f, hf, hlanded, hdel⟩⟩ := hforgotten
  · cases hsaving : s.saving with
    | none =>
      have hsame : s.after = s.disk := by simp only [after, hsaving]
      exact hsame ▸ not_rows hrows ti b
    | some f =>
      obtain ⟨snap, landed⟩ := f
      cases landed with
      | true =>
        have hsame : s.after = s.disk := by simp only [after, hsaving]
        exact hsame ▸ not_rows hrows ti b
      | false =>
        have hsame : s.after = s.disk.SaveStats snap := by simp only [after, hsaving]
        have htiers : ∀ ts ∈ snap.tiers, ts.agentID ≠ id := by
          simpa only [writing, hsaving] using hwriting
        intro hb
        rw [hsame, Disk.rows_SaveStats_of_ne fun ts hts hkey => htiers ts hts hkey.1.symm] at hb
        exact not_rows hrows ti b hb.1
  · refine h.deleted id ?_ ti b
    rw [deleting, Option.mem_def.1 hf]
    exact hdel

theorem Inv.create {s : Persistence} {id : String} (h : s.Inv) (hid : id ≠ "")
    (hforgotten : s.Forgotten id)
    (hgrew : newHistory.Grew hist) :
    Inv { s with store :=
      { s.store with
        agents := s.store.agents.insert id hist
        evicted := s.store.evicted.erase id } } := by
  have hafter := h.after_forgotten hforgotten
  obtain ⟨hwriting, hrows⟩ := hforgotten
  have hmarks (ti : Nat) : hist.lastCurT ti = 0 := congrFun hgrew.lastCurT ti
  have hfor := s.store.historyFor_insert hid hist
  have hnone {id' : String} (hh : (if id' = id then some hist else
      s.store.historyFor id') = none) : id' ≠ id ∧ s.store.historyFor id' = none := by
    by_cases hid' : id' = id
    · rw [if_pos hid'] at hh
      exact nomatch hh
    · exact ⟨hid', (if_neg hid').symm.trans hh⟩
  have hsome {id' : String} {hist' : History} (hh : (if id' = id then some hist else
      s.store.historyFor id') = some hist') :
      (id' = id ∧ hist' = hist) ∨ (id' ≠ id ∧ s.store.historyFor id' = some hist') := by
    by_cases hid' : id' = id
    · rw [if_pos hid'] at hh
      exact .inl ⟨hid', (Option.some.inj hh).symm⟩
    · exact .inr ⟨hid', (if_neg hid').symm.trans hh⟩
  constructor
  · constructor
    · simp only
      rw [AList.lookup_insert_ne (Ne.symm hid)]
      exact h.store.noGlobal
    · intro id' hist' hh
      obtain ⟨-, rfl⟩ | ⟨-, hh⟩ := hsome ((hfor id').symm.trans hh)
      · exact hgrew.ok
      · exact h.store.histories id' hist' hh
    · intro id' hist' hh
      obtain ⟨rfl, -⟩ | ⟨-, hh⟩ := hsome ((hfor id').symm.trans hh)
      · exact Finset.notMem_erase id' s.store.evicted
      · exact fun hmem => h.store.tracked id' hist' hh (Finset.mem_of_mem_erase hmem)
  · exact h.disk
  · exact h.landed
  · exact h.tiers
  · intro id' hist' hh
    obtain ⟨rfl, rfl⟩ | ⟨-, hh⟩ := hsome ((hfor id').symm.trans hh)
    · refine .blank (fun ti => ?_) hafter
      exact (markOf_of_ne (fun ts hts hkey => hwriting ts hts hkey.1.symm) _).trans (hmarks ti)
    · exact h.synced id' hist' hh
  · intro id' hid' ti b hb
    obtain ⟨hne, hid'⟩ := hnone ((hfor id').symm.trans hid')
    obtain ⟨hevicted, hdel⟩ := h.gone id' hid' ti b hb
    exact ⟨Finset.mem_erase.2 ⟨hne, hevicted⟩, hdel⟩
  · exact h.deleted
  · intro snap hsaving id' hist' hh
    obtain ⟨rfl, rfl⟩ | ⟨-, hh⟩ := hsome ((hfor id').symm.trans hh)
    · obtain hrows | ⟨f, hf, -, hdel⟩ := hrows
      · exact .inl (.blank hmarks (not_rows hrows))
      · have hf : s.saving = some f := hf
        obtain rfl := Option.some.inj (hsaving.symm.trans hf)
        exact .inr ⟨hdel, hmarks⟩
    · exact h.failing snap hsaving id' hist' hh
  · intro snap hsaving id' hid' ti b hb
    obtain ⟨hne, hid'⟩ := hnone ((hfor id').symm.trans hid')
    exact Finset.mem_erase.2 ⟨hne, h.failingGone snap hsaving id' hid' ti b hb⟩

theorem Inv.sampleAgent {s : Persistence} {id : String} {r : Reading} (h : s.Inv)
    (hkept : s.Kept (.sampleAgent id r victim)) :
    Inv { s with store := s.store.SampleAgent id r victim } := by
  unfold Store.SampleAgent
  by_cases hid : id = ""
  · simp only [if_pos hid]
    exact h
  · have hnew := hkept hid
    simp only [if_neg hid]
    cases hlookup : s.store.agents.lookup id with
    | some hist =>
      have hh : s.store.historyFor id = some hist := (if_neg hid).trans hlookup
      have hgrew := Store.setHistory_grew h.store hh ((h.store.histories id hist hh).sample r)
      rw [Store.setHistory, if_neg hid] at hgrew
      exact h.grow hgrew
    | none =>
      have hgrew : newHistory.Grew (newHistory.sample r).2 := History.newHistory_ok.sample r
      simp only [Store.evictAgentIfFull]
      by_cases hfull : (s.store.isFull && decide (victim ≠ "")) = true
      · rw [if_pos hfull]
        rw [Bool.and_eq_true, decide_eq_true_eq] at hfull
        exact (h.evict victim hfull.2).create hid (hnew hlookup) hgrew
      · rw [if_neg hfull]
        exact h.create hid (hnew hlookup) hgrew

theorem savedDisk_ok {s : Store} {d : Disk} (hok : s.OK)
    (hrows : ∀ id ti b, (d.SaveStats s.snapshot).rows id ti b ↔ s.holds id ti b) :
    (d.SaveStats s.snapshot).OK where
  lifetime h := nomatch h
  persisted id ti b hb := by
    obtain ⟨-, -, -, hp, -⟩ := Store.holds_iff.1 ((hrows id ti b).1 hb)
    exact hp
  aligned id ti b spec hb hspec := by
    obtain ⟨h, r, hh, -, hr, hb⟩ := Store.holds_iff.1 ((hrows id ti b).1 hb)
    obtain ⟨-, spec', hspec', hres⟩ := (hok.histories id h hh).tier ti r hr
    obtain rfl := Option.some.inj (hspec.symm.trans hspec')
    exact hres ▸ Ring.image_aligned hb
  unique id ti b b' hb hb' hT := by
    obtain ⟨h, r, hh, -, hr, hb⟩ := Store.holds_iff.1 ((hrows id ti b).1 hb)
    obtain ⟨h', r', hh', -, hr', hb'⟩ := Store.holds_iff.1 ((hrows id ti b').1 hb')
    obtain rfl := Option.some.inj (hh.symm.trans hh')
    obtain rfl := Option.some.inj (hr.symm.trans hr')
    exact ((hok.histories id h hh).tier ti r hr).1.image_unique hb hb' hT

/-- A snapshot is taken: the watermarks that the save will set are good for the rows that it
leaves. -/
theorem Inv.beginFlush {s : Persistence} (h : s.Inv) (hidle : s.saving = none) :
    Inv { s with saving := some ⟨s.store.snapshot, false⟩ } := by
  have hready := h.ready hidle
  have hrows := hready.rows_SaveStats h.store h.disk
  have hnone {id : String} (hid : s.store.historyFor id = none) (ti : Nat) (b : Bucket) :
      ¬(s.disk.SaveStats s.store.snapshot).rows id ti b := by
    intro hb
    obtain ⟨h', -, hh, -⟩ := Store.holds_iff.1 ((hrows id ti b).1 hb)
    exact nomatch hid.symm.trans hh
  refine ⟨h.store, h.disk, savedDisk_ok h.store hrows, h.store.snapshot_tiersOK, ?_,
    fun id hid ti b hb => absurd hb (hnone hid ti b), ?_, ?_, ?_⟩
  · intro id hist hh ti r hr hp
    have hring := ((h.store.histories id hist hh).tier ti r hr).1
    have himage (b : Bucket) : (s.disk.SaveStats s.store.snapshot).rows id ti b ↔ b ∈ r.image := by
      rw [hrows, Store.holds_iff]
      constructor
      · rintro ⟨h', r', hh', -, hr', hb⟩
        obtain rfl := Option.some.inj (hh.symm.trans hh')
        obtain rfl := Option.some.inj (hr.symm.trans hr')
        exact hb
      · exact fun hb => ⟨hist, r, hh, hp, hr, hb⟩
    refine Ring.Synced.of_image himage (fun hcur => ?_) fun c hc => ?_
    · -- a tier without data has no snapshot, and was never saved
      have hne : ∀ ts ∈ s.store.snapshot.tiers, ¬(id = ts.agentID ∧ ti = ts.tier) := by
        rintro ts hts ⟨rfl, rfl⟩
        obtain ⟨id', h', ti', r', hh', -, hr', hsnap⟩ := (Store.mem_snapshot h.store.noGlobal).1 hts
        obtain ⟨c, hc, rfl⟩ := Ring.snapshot_eq_some hsnap
        obtain rfl := Option.some.inj (hh.symm.trans hh')
        obtain rfl := Option.some.inj (hr.symm.trans hr')
        exact nomatch hcur.symm.trans hc
      exact (markOf_of_ne hne _).trans ((hready.synced id hist hh ti r hr hp).unused hcur).1
    · have hts := (Store.mem_snapshot h.store.noGlobal).2
        ⟨id, hist, ti, r, hh, hp, hr, Ring.snapshot_of_cur hc id ti _⟩
      refine ((markOf_of_mem h.store.snapshot_tiersOK hts (hring.getLast?_image hc) _).trans ?_).le
      exact hring.filling c hc
  · intro id hid ti b hb
    obtain ⟨h', -, hh, -⟩ := Store.holds_iff.1 ((hrows id ti b).1 hb)
    exact h.store.tracked id h' hh hid
  · exact fun _ _ id hist hh => .inl (hready.synced id hist hh)
  · exact fun _ _ id hid ti b hb => hready.gone id hid ti b hb

theorem Inv.saveOk {s : Persistence} (h : s.Inv) (hsaving : s.saving = some ⟨snap, false⟩) :
    Inv { s with disk := s.disk.SaveStats snap, saving := some ⟨snap, true⟩ } := by
  have hafter : s.after = s.disk.SaveStats snap := by simp only [after, hsaving]
  have hwriting : s.writing = snap.tiers := by simp only [writing, hsaving]
  have hdeleting : s.deleting = snap.deleteAgents := by simp only [deleting, hsaving]
  have hlanded := h.landed
  have htiers := h.tiers
  have hsynced := h.synced
  have hgone := h.gone
  have hdeleted := h.deleted
  simp only [hafter, hwriting, hdeleting] at hlanded htiers hsynced hgone hdeleted
  exact ⟨h.store, hlanded, hlanded, htiers, hsynced, hgone, hdeleted,
    fun _ hsnap => (nomatch hsnap), fun _ hsnap => (nomatch hsnap)⟩

theorem Inv.saveFail {s : Persistence} (h : s.Inv) (hsaving : s.saving = some ⟨snap, false⟩)
    (hkept : s.Kept .saveFail) : Inv { s with saving := none } := by
  have hdeleting : s.deleting = snap.deleteAgents := by simp only [deleting, hsaving]
  refine ⟨h.store, h.disk, h.disk,
    ⟨fun _ h => absurd h List.not_mem_nil, fun _ h => absurd h List.not_mem_nil⟩,
    ?_, ?_, fun _ hid => absurd hid (Finset.notMem_empty _), fun _ hsnap => (nomatch hsnap),
    fun _ hsnap => (nomatch hsnap)⟩
  · intro id hist hh
    obtain hsynced | ⟨hdel, hmarks⟩ := h.failing snap hsaving id hist hh
    · exact hsynced
    · refine .blank hmarks fun ti b hb => ?_
      exact nomatch hh.symm.trans (hkept _ hb (hdeleting.symm ▸ hdel))
  · exact fun id hid ti b hb => ⟨h.failingGone snap hsaving id hid ti b hb, Finset.notMem_empty _⟩

theorem Inv.endFlush {s : Persistence} (h : s.Inv) (hsaving : s.saving = some ⟨snap, true⟩) :
    Inv { s with store := s.store.saved snap, saving := none } := by
  have hafter : s.after = s.disk := by simp only [after, hsaving]
  have hwriting : s.writing = snap.tiers := by simp only [writing, hsaving]
  have hdeleting : s.deleting = snap.deleteAgents := by simp only [deleting, hsaving]
  obtain ⟨hevicted, hagents⟩ := s.store.foldl_advance_agents snap.tiers
  have hfor (id : String) :
      (s.store.saved snap).historyFor id = (s.store.historyFor id).map fun h =>
      { h with lastCurT := markOf id h.lastCurT snap.tiers } :=
    s.store.historyFor_foldl_advance snap.tiers id
  have hsome {id : String} {h' : History} (hh : (s.store.saved snap).historyFor id = some h') :
      ∃ hist, s.store.historyFor id = some hist ∧
        { hist with lastCurT := markOf id hist.lastCurT snap.tiers } = h' :=
    Option.map_eq_some_iff.1 ((hfor id).symm.trans hh)
  have hmem (id : String) : id ∈ (s.store.saved snap).evicted ↔
      id ∈ s.store.evicted ∧ id ∉ s.deleting := by
    rw [hdeleting, ← hevicted]
    exact Finset.mem_sdiff
  refine ⟨⟨hagents h.store.noGlobal, fun id h' hh => ?_, fun id h' hh => ?_⟩, h.disk, h.disk,
    ⟨fun _ h => absurd h List.not_mem_nil, fun _ h => absurd h List.not_mem_nil⟩, ?_, ?_,
    fun _ hid => absurd hid (Finset.notMem_empty _), fun _ hsnap => (nomatch hsnap),
    fun _ hsnap => (nomatch hsnap)⟩
  · obtain ⟨hist, hhist, rfl⟩ := hsome hh
    obtain ⟨hlength, htier⟩ := h.store.histories id hist hhist
    exact ⟨hlength, htier⟩
  · obtain ⟨hist, hhist, rfl⟩ := hsome hh
    exact fun hid => h.store.tracked id hist hhist ((hmem id).1 hid).1
  · intro id h' hh
    obtain ⟨hist, hhist, rfl⟩ := hsome hh
    have hsynced := h.synced id hist hhist
    rw [hafter, hwriting] at hsynced
    exact hsynced
  · intro id hid ti b hb
    have hid := Option.map_eq_none_iff.1 ((hfor id).symm.trans hid)
    exact ⟨(hmem id).2 (h.gone id hid ti b (hafter.symm ▸ hb)), Finset.notMem_empty _⟩

theorem Inv.step {s t : Persistence} (h : s.Inv) (hkept : s.Kept l)
    (hs : s.step l = some t) : t.Inv := by
  cases l with
  | sample r linkIn linkOut =>
    obtain rfl := Option.some.inj hs
    exact h.grow (Store.Sample_grew h.store r linkIn linkOut)
  | sampleAgent id r victim =>
    obtain ⟨-, hs⟩ := Option.ite_none_right_eq_some.1 hs
    obtain rfl := Option.some.inj hs
    exact h.sampleAgent hkept
  | beginFlush =>
    simp only [Persistence.step] at hs
    split at hs
    · obtain rfl := Option.some.inj hs
      exact h.beginFlush ‹_›
    · exact nomatch hs
  | saveOk =>
    simp only [Persistence.step] at hs
    split at hs
    · obtain rfl := Option.some.inj hs
      exact h.saveOk ‹_›
    · exact nomatch hs
  | saveFail =>
    simp only [Persistence.step] at hs
    split at hs
    · obtain rfl := Option.some.inj hs
      exact h.saveFail ‹_› hkept
    · exact nomatch hs
  | endFlush =>
    simp only [Persistence.step] at hs
    split at hs
    · obtain rfl := Option.some.inj hs
      exact h.endFlush ‹_›
    · exact nomatch hs
  | restart =>
    obtain rfl := Option.some.inj hs
    exact .restart h.disk hkept

theorem Inv.init : Inv .init := by
  refine .restart ⟨fun _ => rfl, ?_, ?_, ?_⟩ ?_
  · exact fun _ _ _ h => absurd h List.not_mem_nil
  · exact fun _ _ _ _ h => absurd h List.not_mem_nil
  · exact fun _ _ _ _ h => absurd h List.not_mem_nil
  · exact fun _ h => absurd h List.not_mem_nil

/-- The rows are the valid buckets of the persisted tiers of the tracked histories. -/
def Imaged (s : Persistence) : Prop :=
  ∀ row, row ∈ s.disk.rrd ↔ s.store.holds row.agentID row.tier row.bucket

/-- A flush that succeeds now, without a reading during it, makes the rows what memory holds. -/
def FlushImages (s : Persistence) : Prop :=
  ∀ t, Runs.final step s [.beginFlush, .saveOk, .endFlush] = some t → t.Imaged

theorem Inv.flushImages {s : Persistence} (h : s.Inv) : s.FlushImages := by
  intro t ht row
  cases hsaving : s.saving with
  | some f =>
    simp only [Runs.final, Persistence.step, hsaving, Option.bind_none, reduceCtorEq] at ht
  | none =>
    simp only [Runs.final, Persistence.step, hsaving, Option.bind_some, Option.some.injEq] at ht
    subst ht
    refine (((h.ready hsaving).rows_SaveStats h.store h.disk row.agentID row.tier row.bucket)).trans
      ?_
    have hfor := s.store.historyFor_foldl_advance s.store.snapshot.tiers row.agentID
    change _ = _ at hfor
    unfold Store.holds
    constructor
    · rintro ⟨hist, r, i, hh, hr⟩
      refine ⟨{ hist with lastCurT := markOf row.agentID hist.lastCurT s.store.snapshot.tiers }, r,
        i, ?_, hr⟩
      exact hfor.trans (hh ▸ rfl)
    · rintro ⟨hist, r, i, hh, hr⟩
      obtain ⟨hist', hh', rfl⟩ := Option.map_eq_some_iff.1 (hfor.symm.trans hh)
      exact ⟨hist', r, i, hh', hr⟩

/-- Every flush of a run that creates histories of forgotten agents only makes the rows what memory
holds. -/
theorem always_flushImages (hkept : Runs.Along step Kept init ls) :
    Runs.Always step FlushImages init ls :=
  Runs.always_of_invariant (fun _ _ _ h hk hs => Inv.step h hk hs) (fun _ h => h.flushImages)
    .init hkept

end Persistence

/-- An agent has a saved bucket, and as many others follow as make the store drop it. -/
def crowdedRun : List PersistStep :=
  let reading (t : Nat) : Reading := ⟨1750000000000 + t, 0, 0, 0, 0, 0, 0⟩
  [.sampleAgent "a" (reading 0) "", .sampleAgent "a" (reading 100) "",
    .sampleAgent "a" (reading 1000) "",
    .sampleAgent "a" (reading 2000) "", .beginFlush, .saveOk, .endFlush] ++
  (List.range 32).map fun i =>
    .sampleAgent (String.ofList (List.replicate (i + 1) 'b')) (reading 3000) "a"

/-- The agent comes back. -/
def returnStep : PersistStep := .sampleAgent "a" ⟨1750000004000, 0, 0, 0, 0, 0, 0⟩ "b"

/-- A flush before the agent comes back deletes the dropped rows. -/
theorem always_flushImages_crowded : Runs.Always Persistence.step Persistence.FlushImages .init
    (crowdedRun ++ [.beginFlush, .saveOk, .endFlush, returnStep]) :=
  Persistence.always_flushImages (by decide +kernel)

/-- An agent that comes back before that keeps rows that its new history does not hold. -/
theorem returned_agent_not_imaged :
    ¬∀ ls, Runs.Always Persistence.step Persistence.FlushImages .init ls := by
  intro h
  have hrun : ∃ s, Runs.final Persistence.step .init (crowdedRun ++ [returnStep]) = some s ∧
      ∃ t, Runs.final Persistence.step s [.beginFlush, .saveOk, .endFlush] = some t ∧
        (t.disk.rrd.any fun row => row.agentID = "a" && row.tier = 2) ∧
        (t.store.agents.lookup "a").any fun hist => hist.tiers[2]?.any fun r => r.cur = none := by
    decide +kernel
  obtain ⟨s, hs, t, ht, hrow, hempty⟩ := hrun
  have himaged := (h _).final (Runs.reaches_of_final hs) t ht
  obtain ⟨row, hrow, hkey⟩ := List.any_eq_true.1 hrow
  simp only [Bool.and_eq_true, decide_eq_true_eq] at hkey
  obtain ⟨hist, r, i, hh, -, hr, hi, -⟩ := (himaged row).1 hrow
  rw [hkey.1] at hh
  rw [hkey.2] at hr
  obtain ⟨hist', hh', hempty⟩ := (Option.any_eq_true ..).1 hempty
  obtain ⟨r', hr', hempty⟩ := (Option.any_eq_true ..).1 hempty
  obtain rfl := Option.some.inj (hh.symm.trans hh')
  obtain rfl := Option.some.inj (hr.symm.trans hr')
  obtain ⟨c, hc, -⟩ := Ring.valid_iff.1 hi
  exact nomatch (of_decide_eq_true hempty).symm.trans hc

end ProxyForward.Stats

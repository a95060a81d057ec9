import ProxyForward.AgentSampling
import ProxyForward.Runs

namespace ProxyForward.Stats
open Conntrack
set_option autoImplicit true

/-- A history but for what saves note in it. -/
def History.unmarked (h : History) : History := { h with lastCurT := fun _ => 0 }

theorem History.sample_unmarked (h : History) (r : Reading) :
    (h.unmarked.sample r).2 = (h.sample r).2.unmarked := by
  unfold History.sample unmarked
  simp only
  split
  · rfl
  · split <;> rfl

theorem History.sample_touched (h : History) (r : Reading) : (h.sample r).2.touched = r.t := by
  unfold History.sample
  simp only
  split
  · rfl
  · split <;> rfl

/-- A call of `SampleAgent`, with the history that the map's order gives up if one must go. -/
structure Sampled where
  agentID : String
  reading : Reading
  victim : String
  deriving DecidableEq

namespace Store

/-- The victim may be the one that the scan finds, if there is a scan. -/
def Allows (s : Store) (c : Sampled) : Prop :=
  (s.agents.lookup c.agentID).isSome ∨ s.isFull = false ∨ s.isOldest c.victim

instance (s : Store) (c : Sampled) : Decidable (s.Allows c) :=
  inferInstanceAs (Decidable (_ ∨ _ ∨ _))

/-- The loop of a tick. -/
def sampleAll (s : Store) : List Sampled → Option Store
  | [] => some s
  | c :: cs =>
    if s.Allows c then (s.SampleAgent c.agentID c.reading c.victim).sampleAll cs else none

end Store

/-- What the sampler reads, and the store it fills. -/
structure Sampler where
  gateway : GatewayState
  conns : Registry
  store : Store

def Sampler.start (store : AgentStore) (d : Disk) : Sampler :=
  ⟨.start store, .NewRegistry, .load d⟩

inductive SamplerStep where
  | gateway (c : Command)
  | traffic (op : Op)
  /-- The gateway-wide sample, and one for each agent in any order. -/
  | tick (now : Nat) (links : AgentSession → Link) (r : Reading) (linkIn linkOut : Int)
      (calls : List Sampled)
  | flush (landed : Bool)

section Steps

-- `toLower` is `strings.ToLower`
variable (g : Gateway) (toLower : String → String)

def Sampler.step (s : Sampler) : SamplerStep → Option Sampler
  | .gateway c => some { s with gateway := g.exec s.gateway c }
  | .traffic op => some { s with conns := s.conns.step op }
  | .tick now links r linkIn linkOut calls =>
    if (calls.map fun c => (c.agentID, c.reading)).Perm
        (agentSamples toLower s.gateway links s.conns now) then
      ((s.store.Sample r linkIn linkOut).sampleAll calls).map fun store => { s with store }
    else none
  | .flush landed =>
    some { s with store := if landed then s.store.saved s.store.snapshot else s.store }

/-- The agents that a tick samples: all that have ever had a connection. -/
def listed (conns : Registry) : Finset String :=
  ((conns.AgentTotals toLower).keys.filter fun id => id ≠ "").toFinset

theorem mem_listed {conns : Registry} {id : String} :
    id ∈ listed toLower conns ↔ id ≠ "" ∧ conns.Lists id := by
  unfold listed
  rw [List.mem_toFinset, List.mem_filter, ← AList.mem_keys, ← AList.lookup_isSome,
    Registry.lookup_AgentTotals, decide_eq_true_eq, and_comm]
  refine and_congr_right fun _ => ?_
  split
  · rename_i hlists
    exact ⟨fun _ => hlists, fun _ => rfl⟩
  · rename_i hlists
    exact ⟨fun h => absurd h Bool.false_ne_true, fun h => absurd h hlists⟩

end Steps

/-- The tracked agents. -/
def Store.tracked (s : Store) : Finset String := s.agents.keys.toFinset

theorem Store.mem_tracked {s : Store} {id : String} :
    id ∈ s.tracked ↔ (s.agents.lookup id).isSome := by
  rw [tracked, List.mem_toFinset, ← AList.mem_keys, AList.lookup_isSome]

theorem Store.isFull_iff {s : Store} : s.isFull = true ↔ maxAgentHistories ≤ s.tracked.card := by
  rw [isFull, decide_eq_true_eq, tracked, List.toFinset_card_of_nodup s.agents.keys_nodup]

/-- What an agent's samples of a tick make of its history. -/
def record (x : String) (o : Option History) (calls : List Sampled) : Option History :=
  calls.foldl (fun o c =>
    if c.agentID = x then some ((o.getD newHistory).sample c.reading).2 else o) o

/-- What the ticks of a run make of an agent's history. -/
def recorded (x : String) (o : Option History) : List SamplerStep → Option History
  | [] => o
  | .tick _ _ _ _ _ calls :: steps => recorded x (record x o calls) steps
  | _ :: steps => recorded x o steps

/-- No history of an agent goes that `ids` lists and that was sampled, or none at all goes. -/
def Store.Spares (s : Store) (ids : Finset String) (now : Nat) (x : String) : Prop :=
  ids.card ≤ maxAgentHistories ∧ 0 < now ∧ (∀ h ∈ s.agents.lookup x, 0 < h.touched) ∨
    (ids ∪ s.tracked).card ≤ maxAgentHistories

/-- At most as many agents as there are histories have ever had a connection, and the agent's
history is not one that was loaded and not sampled since; or else every history finds room. -/
def Room (toLower : String → String) (x : String) (s : Sampler) : SamplerStep → Prop
  | .tick now _ _ _ _ _ => s.store.Spares (listed toLower s.conns) now x
  | _ => True

instance (s : Store) (ids : Finset String) (now : Nat) (x : String) :
    Decidable (s.Spares ids now x) :=
  inferInstanceAs (Decidable ((_ ∧ _ ∧ _) ∨ _))

instance (toLower : String → String) (x : String) (s : Sampler) :
    (l : SamplerStep) → Decidable (Room toLower x s l)
  | .tick now _ _ _ _ _ => inferInstanceAs (Decidable (Store.Spares _ _ now x))
  | .gateway _ => .isTrue trivial
  | .traffic _ => .isTrue trivial
  | .flush _ => .isTrue trivial

namespace Store

theorem lookup_SampleAgent_ne {s : Store} (hid : x ≠ agentID)
    (hvictim : (s.agents.lookup agentID).isSome ∨ s.isFull = false ∨ x ≠ victim) (r : Reading) :
    (s.SampleAgent agentID r victim).agents.lookup x = s.agents.lookup x := by
  unfold SampleAgent
  split
  · rfl
  · cases hlookup : s.agents.lookup agentID with
    | some h => exact AList.lookup_insert_ne hid
    | none =>
      refine (AList.lookup_insert_ne hid).trans ?_
      unfold evictAgentIfFull
      split
      · rename_i hfull
        obtain hsome | hroom | hne := hvictim
        · rw [hlookup] at hsome
          cases hsome
        · rw [hroom] at hfull
          cases hfull
        · exact AList.lookup_erase_ne hne
      · rfl

theorem lookup_SampleAgent_cases {s : Store} (hid : x ≠ agentID) (r : Reading) :
    (s.SampleAgent agentID r victim).agents.lookup x = none ∨
      (s.SampleAgent agentID r victim).agents.lookup x = s.agents.lookup x := by
  by_cases hvictim : x = victim
  · unfold SampleAgent
    split
    · exact .inr rfl
    · cases s.agents.lookup agentID with
      | some h => exact .inr (AList.lookup_insert_ne hid)
      | none =>
        rw [AList.lookup_insert_ne hid]
        unfold evictAgentIfFull
        split
        · rw [hvictim]
          exact .inl (AList.lookup_erase _ _)
        · exact .inr rfl
  · exact .inr (lookup_SampleAgent_ne hid (.inr (.inr hvictim)) r)

theorem evicted_SampleAgent {s : Store} (hx : x ∉ s.evicted)
    (hvictim : (s.agents.lookup agentID).isSome ∨ s.isFull = false ∨ x ≠ victim) (r : Reading) :
    x ∉ (s.SampleAgent agentID r victim).evicted := by
  unfold SampleAgent
  split
  · exact hx
  · cases hlookup : s.agents.lookup agentID with
    | some h => exact hx
    | none =>
      intro hmem
      have hmem := Finset.mem_of_mem_erase hmem
      unfold evictAgentIfFull at hmem
      split at hmem
      · rename_i hfull
        obtain hsome | hroom | hne := hvictim
        · rw [hlookup] at hsome
          cases hsome
        · rw [hroom] at hfull
          cases hfull
        · exact (Finset.mem_insert.1 hmem).elim hne hx
      · exact hx hmem

/-- When one of the listed agents finds no history and no room, a history of an unlisted one is
there. -/
theorem exists_unlisted {s : Store} {ids : Finset String} (ha : a ∈ ids)
    (huntracked : s.agents.lookup a = none) (hfull : s.isFull = true)
    (hfew : ids.card ≤ maxAgentHistories) : ∃ b ∈ s.tracked, b ∉ ids := by
  by_contra hall
  have hsub : s.tracked ⊆ ids.erase a := by
    intro b hb
    refine Finset.mem_erase.2 ⟨?_, by_contra fun hun => hall ⟨b, hb, hun⟩⟩
    rintro rfl
    have hsome := mem_tracked.1 hb
    rw [huntracked] at hsome
    cases hsome
  have hcard := Finset.card_le_card hsub
  have hpos := Finset.card_pos.2 ⟨a, ha⟩
  rw [Finset.card_erase_of_mem ha] at hcard
  have hfull := isFull_iff.1 hfull
  omega

theorem not_full {s : Store} {ids : Finset String} (ha : a ∈ ids)
    (huntracked : s.agents.lookup a = none) (hfew : (ids ∪ s.tracked).card ≤ maxAgentHistories) :
    s.isFull = false := by
  have hnew : a ∉ s.tracked := by
    rw [mem_tracked, huntracked]
    exact Bool.false_ne_true
  have hsub : insert a s.tracked ⊆ ids ∪ s.tracked :=
    Finset.insert_subset (Finset.mem_union_left _ ha) Finset.subset_union_right
  have hcard := (Finset.card_le_card hsub).trans hfew
  rw [Finset.card_insert_of_notMem hnew] at hcard
  rw [Bool.eq_false_iff, ne_eq, isFull_iff]
  omega

theorem touched_le_of_isOldest {s : Store} (h : s.isOldest victim = true)
    (hv : s.agents.lookup victim = some hist) (hx : s.agents.lookup x = some other) :
    hist.touched ≤ other.touched := by
  unfold isOldest at h
  rw [hv, Option.any_some, List.all_eq_true] at h
  exact of_decide_eq_true (h _ (AList.mem_lookup_iff.1 hx))

/-- What a tick keeps between its calls. -/
structure Sampling (s : Store) (ids : Finset String) (now : Nat) (x : String) : Prop where
  touched : ∀ id h, s.agents.lookup id = some h → 0 < h.touched → id ∈ ids
  spares : s.Spares ids now x

theorem Sampling.not_victim {s : Store} (h : s.Sampling ids now x) (hlisted : c.agentID ∈ ids)
    (hallows : s.Allows c) :
    (s.agents.lookup c.agentID).isSome ∨ s.isFull = false ∨ x ≠ c.victim := by
  obtain hsome | hroom | holdest := hallows
  · exact .inl hsome
  · exact .inr (.inl hroom)
  · cases htracked : s.agents.lookup c.agentID with
    | some _ => exact .inl rfl
    | none =>
      obtain ⟨hfew, -, hsampled⟩ | htogether := h.spares
      · by_cases hfull : s.isFull = true
        · refine .inr (.inr ?_)
          rintro rfl
          obtain ⟨b, hb, hun⟩ := exists_unlisted hlisted htracked hfull hfew
          obtain ⟨other, hother⟩ := Option.isSome_iff_exists.1 (mem_tracked.1 hb)
          cases hv : s.agents.lookup c.victim with
          | none =>
            rw [isOldest, hv] at holdest
            cases holdest
          | some hist =>
            have hle := touched_le_of_isOldest holdest hv hother
            have hpos := hsampled hist hv
            exact absurd (h.touched b other hother (hpos.trans_le hle)) hun
        · exact .inr (.inl (Bool.eq_false_iff.2 hfull))
      · exact .inr (.inl (not_full hlisted htracked htogether))

theorem touched_SampleAgent {s : Store} {ids : Finset String}
    (h : ∀ a hist, s.agents.lookup a = some hist → 0 < hist.touched → a ∈ ids)
    (hlisted : agentID ∈ ids) (r : Reading) (victim : String) :
    ∀ a hist, (s.SampleAgent agentID r victim).agents.lookup a = some hist →
      0 < hist.touched → a ∈ ids := by
  intro a hist hlookup hpos
  by_cases ha : a = agentID
  · exact ha ▸ hlisted
  · obtain hgone | hsame := lookup_SampleAgent_cases ha r
    · rw [hgone] at hlookup
      cases hlookup
    · exact h a hist (hsame ▸ hlookup) hpos

theorem tracked_SampleAgent {s : Store} {ids : Finset String} (hlisted : agentID ∈ ids)
    (r : Reading) (victim : String) :
    ids ∪ (s.SampleAgent agentID r victim).tracked ⊆ ids ∪ s.tracked := by
  refine Finset.union_subset Finset.subset_union_left fun a ha => ?_
  by_cases hid : a = agentID
  · exact Finset.mem_union_left _ (hid ▸ hlisted)
  · have hsome := mem_tracked.1 ha
    obtain hgone | hsame := lookup_SampleAgent_cases hid r
    · rw [hgone] at hsome
      cases hsome
    · exact Finset.mem_union_right _ (mem_tracked.2 (hsame ▸ hsome))

theorem Sampling.step {s : Store} (h : s.Sampling ids now x) (hid : c.agentID ≠ "")
    (hlisted : c.agentID ∈ ids) (hnow : c.reading.t = now) (hallows : s.Allows c) :
    (s.SampleAgent c.agentID c.reading c.victim).Sampling ids now x ∧
      (s.SampleAgent c.agentID c.reading c.victim).agents.lookup x =
        record x (s.agents.lookup x) [c] ∧
      (x ∉ s.evicted → x ∉ (s.SampleAgent c.agentID c.reading c.victim).evicted) := by
  have hvictim := h.not_victim hlisted hallows
  have hlookup : (s.SampleAgent c.agentID c.reading c.victim).agents.lookup x =
      record x (s.agents.lookup x) [c] := by
    simp only [record, List.foldl_cons, List.foldl_nil]
    by_cases hx : c.agentID = x
    · rw [if_pos hx, ← hx]
      exact s.lookup_SampleAgent hid _ _
    · rw [if_neg hx]
      exact lookup_SampleAgent_ne (Ne.symm hx) hvictim _
  refine ⟨⟨touched_SampleAgent h.touched hlisted _ _, ?_⟩, hlookup,
    fun hx => evicted_SampleAgent hx hvictim _⟩
  obtain ⟨hfew, hpos, hsampled⟩ | htogether := h.spares
  · refine .inl ⟨hfew, hpos, fun hist hhist => ?_⟩
    rw [hlookup] at hhist
    simp only [record, List.foldl_cons, List.foldl_nil] at hhist
    split at hhist
    · cases hhist
      rw [History.sample_touched, hnow]
      exact hpos
    · exact hsampled hist hhist
  · exact .inr ((Finset.card_le_card (tracked_SampleAgent hlisted _ _)).trans htogether)

theorem Sampling.sampleAll {s t : Store} {calls : List Sampled} (h : s.Sampling ids now x)
    (hcalls : ∀ c ∈ calls, c.agentID ≠ "" ∧ c.agentID ∈ ids ∧ c.reading.t = now)
    (ht : s.sampleAll calls = some t) :
    t.agents.lookup x = record x (s.agents.lookup x) calls ∧ (x ∉ s.evicted → x ∉ t.evicted) := by
  induction calls generalizing s with
  | nil =>
    cases ht
    exact ⟨rfl, fun hx => hx⟩
  | cons c calls ih =>
    obtain ⟨⟨hid, hlisted, hnow⟩, hcalls⟩ := List.forall_mem_cons.1 hcalls
    simp only [Store.sampleAll] at ht
    split at ht
    · rename_i hallows
      obtain ⟨hstep, hlookup, hevicted⟩ := h.step hid hlisted hnow hallows
      obtain ⟨hrest, hkept⟩ := ih hstep hcalls ht
      refine ⟨?_, fun hx => hkept (hevicted hx)⟩
      rw [hrest, hlookup]
      rfl
    · cases ht

theorem touched_sampleAll {s t : Store} {calls : List Sampled} {ids : Finset String}
    (h : ∀ a hist, s.agents.lookup a = some hist → 0 < hist.touched → a ∈ ids)
    (hcalls : ∀ c ∈ calls, c.agentID ∈ ids) (ht : s.sampleAll calls = some t) :
    ∀ a hist, t.agents.lookup a = some hist → 0 < hist.touched → a ∈ ids := by
  induction calls generalizing s with
  | nil =>
    cases ht
    exact h
  | cons c calls ih =>
    obtain ⟨hlisted, hcalls⟩ := List.forall_mem_cons.1 hcalls
    simp only [Store.sampleAll] at ht
    split at ht
    · exact ih (touched_SampleAgent h hlisted _ _) hcalls ht
    · cases ht

theorem Sample_agents (s : Store) (r : Reading) (linkIn linkOut : Int) :
    (s.Sample r linkIn linkOut).agents = s.agents ∧
      (s.Sample r linkIn linkOut).evicted = s.evicted := by
  unfold Sample
  cases s.global.sample r with
  | mk advanced global =>
    cases advanced with
    | none =>
      simp only
      split <;> exact ⟨rfl, rfl⟩
    | some d =>
      simp only
      split <;> exact ⟨rfl, rfl⟩

theorem lookup_advance (s : Store) (ts : TierSnapshot) (a : String) :
    ((s.advance ts).agents.lookup a).map History.unmarked =
      (s.agents.lookup a).map History.unmarked := by
  unfold advance
  split
  · rename_i b h _ hh
    unfold setHistory
    by_cases hglobal : ts.agentID = ""
    · rw [if_pos hglobal]
    · rw [if_neg hglobal]
      by_cases ha : a = ts.agentID
      · rw [historyFor, if_neg hglobal] at hh
        rw [ha, AList.lookup_insert, hh]
        rfl
      · rw [AList.lookup_insert_ne ha]
  · rfl

theorem lookup_saved (s : Store) (snap : SnapshotData) (a : String) :
    ((s.saved snap).agents.lookup a).map History.unmarked =
      (s.agents.lookup a).map History.unmarked := by
  have hfold (tiers : List TierSnapshot) (s : Store) :
      ((tiers.foldl advance s).agents.lookup a).map History.unmarked =
        (s.agents.lookup a).map History.unmarked := by
    induction tiers generalizing s with
    | nil => rfl
    | cons ts tiers ih => exact (ih _).trans (lookup_advance s ts a)
  exact hfold snap.tiers s

theorem evicted_saved (s : Store) (snap : SnapshotData) (hx : x ∉ s.evicted) :
    x ∉ (s.saved snap).evicted := by
  have hadvance (s : Store) (ts : TierSnapshot) : (s.advance ts).evicted = s.evicted := by
    unfold advance
    split
    · unfold setHistory
      split <;> rfl
    · rfl
  have hfold (tiers : List TierSnapshot) (s : Store) :
      (tiers.foldl advance s).evicted = s.evicted := by
    induction tiers generalizing s with
    | nil => rfl
    | cons ts tiers ih => exact (ih _).trans (hadvance s ts)
  intro hmem
  have hmem := (Finset.mem_sdiff.1 hmem).1
  rw [hfold] at hmem
  exact hx hmem

theorem foldl_loadTier_fresh {s : Store} (tiers : List TierSnapshot)
    (h : ∀ a hist, s.agents.lookup a = some hist → hist.touched = 0) :
    (∀ a hist, (tiers.foldl loadTier s).agents.lookup a = some hist → hist.touched = 0) := by
  induction tiers generalizing s with
  | nil => exact h
  | cons ts tiers ih =>
    refine ih fun a hist hlookup => ?_
    unfold loadTier setHistory at hlookup
    by_cases hglobal : ts.agentID = ""
    · rw [if_pos hglobal] at hlookup
      exact h a hist hlookup
    · rw [if_neg hglobal] at hlookup
      by_cases ha : a = ts.agentID
      · subst ha
        rw [AList.lookup_insert] at hlookup
        cases hlookup
        simp only [historyForLoad, historyFor, if_neg hglobal]
        cases hs : s.agents.lookup ts.agentID with
        | none => rfl
        | some hist => exact h _ hist hs
      · rw [AList.lookup_insert_ne ha] at hlookup
        exact h a hist hlookup

theorem load_fresh (d : Disk) (h : (load d).agents.lookup a = some hist) : hist.touched = 0 := by
  unfold load at h
  split at h
  · cases h
  · exact foldl_loadTier_fresh _ (fun _ _ h => by cases h) a hist h

end Store

namespace Sampler

variable {g : Gateway} {toLower : String → String}

/-- The registry refines a ledger, and only listed agents have been sampled. -/
structure Inv (toLower : String → String) (s : Sampler) : Prop where
  refines : ∃ l, Refines s.conns l
  touched : ∀ a hist, s.store.agents.lookup a = some hist → 0 < hist.touched →
    a ∈ listed toLower s.conns

theorem start_inv (store : AgentStore) (d : Disk) : (start store d).Inv toLower where
  refines := ⟨[], refines_new⟩
  touched a hist h hpos := by
    rw [Store.load_fresh d h] at hpos
    exact absurd hpos (Nat.lt_irrefl 0)

theorem lists_step {conns : Registry} (h : ∃ l, Refines conns l) (op : Op)
    (hlists : conns.Lists a) :
    (conns.step op).Lists a := by
  obtain ⟨l, hl⟩ := h
  rw [(hl.step op).lists]
  have howned := (hl.lists a).1 hlists
  exact Ledger.owned_step_ne_nil op howned

theorem calls_listed {s : Sampler} {calls : List Sampled}
    (h : (calls.map fun c => (c.agentID, c.reading)).Perm
      (agentSamples toLower s.gateway links s.conns now)) :
    ∀ c ∈ calls, c.agentID ≠ "" ∧ c.agentID ∈ listed toLower s.conns ∧ c.reading.t = now := by
  intro c hc
  have hmem := h.mem_iff.1 (List.mem_map_of_mem (f := fun c => (c.agentID, c.reading)) hc)
  obtain ⟨hid, hlists, hr⟩ := (mem_agentSamples ..).1 hmem
  exact ⟨hid, (mem_listed toLower).2 ⟨hid, hlists⟩, congrArg Reading.t hr⟩

theorem Inv.step (h : Inv toLower s) (hs : s.step g toLower l = some t) :
    Inv toLower t ∧ (Room toLower x s l →
      (t.store.agents.lookup x).map History.unmarked =
        (recorded x (s.store.agents.lookup x) [l]).map History.unmarked ∧
      (x ∉ s.store.evicted → x ∉ t.store.evicted)) := by
  cases l with
  | gateway c =>
    cases hs
    exact ⟨⟨h.refines, h.touched⟩, fun _ => ⟨rfl, fun hx => hx⟩⟩
  | traffic op =>
    cases hs
    obtain ⟨l, hl⟩ := h.refines
    refine ⟨⟨⟨_, hl.step op⟩, fun a hist hlookup hpos => ?_⟩, fun _ => ⟨rfl, fun hx => hx⟩⟩
    obtain ⟨ha, hlists⟩ := (mem_listed toLower).1 (h.touched a hist hlookup hpos)
    exact (mem_listed toLower).2 ⟨ha, lists_step h.refines op hlists⟩
  | tick now links r linkIn linkOut calls =>
    simp only [Sampler.step] at hs
    split at hs
    · rename_i hperm
      obtain ⟨store, hstore, rfl⟩ := Option.map_eq_some_iff.1 hs
      have hcalls := calls_listed hperm
      obtain ⟨hagents, hevicted⟩ := s.store.Sample_agents r linkIn linkOut
      have htouched : ∀ a hist, (s.store.Sample r linkIn linkOut).agents.lookup a = some hist →
          0 < hist.touched → a ∈ listed toLower s.conns := by
        rw [hagents]
        exact h.touched
      refine ⟨⟨h.refines, Store.touched_sampleAll htouched (fun c hc => (hcalls c hc).2.1) hstore⟩,
        fun hroom => ?_⟩
      have hspares : (s.store.Sample r linkIn linkOut).Spares (listed toLower s.conns) now x := by
        unfold Store.Spares Store.tracked
        rw [hagents]
        exact hroom
      have hsampling : (s.store.Sample r linkIn linkOut).Sampling (listed toLower s.conns) now x :=
        ⟨htouched, hspares⟩
      obtain ⟨hlookup, hkept⟩ := hsampling.sampleAll hcalls hstore
      rw [hagents] at hlookup
      rw [hevicted] at hkept
      exact ⟨congrArg _ hlookup, hkept⟩
    · cases hs
  | flush landed =>
    cases hs
    cases landed with
    | false => exact ⟨⟨h.refines, h.touched⟩, fun _ => ⟨rfl, fun hx => hx⟩⟩
    | true =>
      have hsaved (a : String) := s.store.lookup_saved s.store.snapshot a
      refine ⟨⟨h.refines, fun a hist hlookup hpos => ?_⟩, fun _ =>
        ⟨hsaved x, s.store.evicted_saved s.store.snapshot⟩⟩
      have hlookup : (s.store.saved s.store.snapshot).agents.lookup a = some hist := hlookup
      have heq := hsaved a
      rw [hlookup, Option.map_some] at heq
      obtain ⟨hist', hhist', hmark⟩ := Option.map_eq_some_iff.1 heq.symm
      have htouched : hist'.unmarked.touched = hist.unmarked.touched := congrArg _ hmark
      exact h.touched a hist' hhist' (htouched.symm ▸ hpos : 0 < hist'.unmarked.touched)

theorem record_unmarked (x : String) (o : Option History) (calls : List Sampled) :
    (record x (o.map History.unmarked) calls).map History.unmarked =
      (record x o calls).map History.unmarked := by
  induction calls generalizing o with
  | nil => cases o <;> rfl
  | cons c calls ih =>
    unfold record at ih ⊢
    rw [List.foldl_cons, List.foldl_cons]
    by_cases hx : c.agentID = x
    · rw [if_pos hx, if_pos hx]
      cases o with
      | none => rfl
      | some h =>
        rw [Option.map_some, Option.getD_some, Option.getD_some, h.sample_unmarked]
        exact ih (some (h.sample c.reading).2)
    · rw [if_neg hx, if_neg hx]
      exact ih o

theorem recorded_congr (x : String) {o o' : Option History}
    (h : o.map History.unmarked = o'.map History.unmarked) (steps : List SamplerStep) :
    (recorded x o steps).map History.unmarked = (recorded x o' steps).map History.unmarked := by
  induction steps generalizing o o' with
  | nil => exact h
  | cons l steps ih =>
    cases l with
    | tick now links r linkIn linkOut calls =>
      refine ih ?_
      rw [← record_unmarked, h, record_unmarked]
    | gateway c => exact ih h
    | traffic op => exact ih h
    | flush landed => exact ih h

theorem recorded_cons (x : String) (o : Option History) (l : SamplerStep)
    (steps : List SamplerStep) :
    recorded x o (l :: steps) = recorded x (recorded x o [l]) steps := by
  cases l <;> rfl

theorem Inv.run (h : Inv toLower s) (hr : Runs.Reaches (Sampler.step g toLower) s steps t)
    (hroom : Runs.Along (Sampler.step g toLower) (Room toLower x) s steps) :
    (t.store.agents.lookup x).map History.unmarked =
      (recorded x (s.store.agents.lookup x) steps).map History.unmarked ∧
    (x ∉ s.store.evicted → x ∉ t.store.evicted) := by
  induction hr with
  | nil => exact ⟨rfl, fun hx => hx⟩
  | cons hs _ ih =>
    obtain ⟨hfirst, hroom⟩ := hroom.cons hs
    obtain ⟨hinv, hstep⟩ := h.step hs
    obtain ⟨hlookup, hevicted⟩ := hstep hfirst
    obtain ⟨hrest, hkept⟩ := ih hinv hroom
    refine ⟨?_, fun hx => hkept (hevicted hx)⟩
    rw [hrest, recorded_cons]
    exact recorded_congr x hlookup _

end Sampler

/-- In a run whose ticks have room an agent is not evicted, and its history is what its samples have
made of it. -/
theorem sampled_history_kept (g : Gateway) (toLower : String → String) (store : AgentStore)
    (d : Disk) (x : String) {before steps : List SamplerStep} {s t : Sampler}
    (hbefore : Runs.Reaches (Sampler.step g toLower) (.start store d) before s)
    (hrun : Runs.Reaches (Sampler.step g toLower) s steps t)
    (hroom : Runs.Along (Sampler.step g toLower) (Room toLower x) s steps) :
    (x ∉ s.store.evicted →
      Runs.Always (Sampler.step g toLower) (fun u => x ∉ u.store.evicted) s steps) ∧
    (t.store.agents.lookup x).map History.unmarked =
      (recorded x (s.store.agents.lookup x) steps).map History.unmarked := by
  have hinv : Sampler.Inv toLower s :=
    hbefore.invariant (fun _ _ _ hs h => (hs.step (x := x) h).1) (Sampler.start_inv store d)
  refine ⟨fun hx => ?_, (hinv.run hrun hroom).1⟩
  have hsteps : Runs.Always (Sampler.step g toLower)
      (fun u => x ∉ u.store.evicted) s steps :=
    Runs.always_of_invariant (I := fun u => Sampler.Inv toLower u ∧ x ∉ u.store.evicted)
      (fun _ _ _ hs hroom h =>
        ⟨(hs.1.step (x := x) h).1, ((hs.1.step h).2 hroom).2 hs.2⟩)
      (fun _ hs => hs.2) ⟨hinv, hx⟩ hroom
  exact hsteps

/-- Thirty-two machines that come for one connection each. -/
def visitors : List String :=
  ["b", "c", "d", "e", "f", "g", "h", "i", "j", "k", "l", "m", "n", "o", "p", "q", "r", "s", "t",
    "u", "v", "w", "x", "y", "z", "A", "B", "C", "D", "E", "F", "G"]

/-- The first `n` of them come and go, one after the other. -/
def visits (n : Nat) : List SamplerStep :=
  (visitors.take n).zipIdx.flatMap fun (v, k) =>
    [.gateway (.admitSession (.plain (k + 1) v)), .traffic (.Open v true),
      .traffic (.close (k + 2)), .gateway (.disconnected (.plain (k + 1) v))]

def quietReading (now : Nat) (conns : Nat) : Reading := ⟨now, 0, 0, conns, 0, -1, -1⟩

/-- A tick that samples the agent that stays, and then the first `n` visitors. -/
def visitedTick (now n : Nat) : SamplerStep :=
  .tick now (fun _ => ⟨0, none⟩) (quietReading now 1) 0 0
    (⟨"a", quietReading now 1, ""⟩ :: (visitors.take n).map fun v => ⟨v, quietReading now 0, "a"⟩)

/-- An agent connects and opens a connection, ticks record it, and visitors come and go. -/
def visitedRun (n : Nat) : List SamplerStep :=
  [.gateway (.admitSession (.plain 0 "a")), .traffic (.Open "a" true), visitedTick 100 0,
    visitedTick 200 0] ++ visits n ++ [visitedTick 300 n]

/-- With thirty-two agents in all, each finds room. -/
theorem sampled_history_kept_visited :
    ∃ s t : Sampler,
      Runs.Reaches (Sampler.step idleGateway String.toLower) (.start AgentStore.empty Disk.empty)
        ((visitedRun 31).take 4) s ∧
      Runs.Reaches (Sampler.step idleGateway String.toLower) s ((visitedRun 31).drop 4) t ∧
      (s.store.agents.lookup "a").isSome = true ∧
      Runs.Always (Sampler.step idleGateway String.toLower) (fun u => "a" ∉ u.store.evicted) s
        ((visitedRun 31).drop 4) ∧
      (t.store.agents.lookup "a").map History.unmarked =
        (recorded "a" (s.store.agents.lookup "a") ((visitedRun 31).drop 4)).map
          History.unmarked := by
  have hstart : (Runs.final (Sampler.step idleGateway String.toLower)
      (.start AgentStore.empty Disk.empty) ((visitedRun 31).take 4)).any (fun s =>
        (s.store.agents.lookup "a").isSome && decide ("a" ∉ s.store.evicted) &&
        (Runs.final (Sampler.step idleGateway String.toLower) s ((visitedRun 31).drop 4)).isSome &&
        decide (Runs.Along (Sampler.step idleGateway String.toLower) (Room String.toLower "a") s
          ((visitedRun 31).drop 4))) = true := by
    decide +kernel
  obtain ⟨s, hs, hfacts⟩ := (Option.any_eq_true _ _).1 hstart
  simp only [Bool.and_eq_true, decide_eq_true_eq] at hfacts
  obtain ⟨⟨⟨htracked, hkept⟩, hfinal⟩, hroom⟩ := hfacts
  obtain ⟨t, ht⟩ := Option.isSome_iff_exists.1 hfinal
  have hbefore := Runs.reaches_of_final hs
  have hrun := Runs.reaches_of_final ht
  obtain ⟨halways, hhistory⟩ := sampled_history_kept idleGateway String.toLower AgentStore.empty
    Disk.empty "a" hbefore hrun hroom
  exact ⟨s, t, hbefore, hrun, htracked, halways hkept, hhistory⟩

/-- The agent is connected, with one more at the most. -/
def stays (s : Sampler) : Bool :=
  (s.gateway.actor.agents.lookup "a").isSome && s.gateway.sessions.length ≤ 2

/-- With thirty-three agents seen since the start, and never more than two connected, a tick evicts
the history of the one that stayed. -/
theorem connected_history_evicted :
    (Runs.final (Sampler.step idleGateway String.toLower) (.start AgentStore.empty Disk.empty)
      ((visitedRun 32).take 4)).any (fun s => (s.store.agents.lookup "a").isSome &&
        decide (Runs.Always (Sampler.step idleGateway String.toLower) (fun u => stays u = true) s
          ((visitedRun 32).drop 4))) = true ∧
    (Runs.final (Sampler.step idleGateway String.toLower) (.start AgentStore.empty Disk.empty)
      (visitedRun 32)).any (fun t => decide ("a" ∈ t.store.evicted) &&
        (t.store.agents.lookup "a").isNone) = true := by
  decide +kernel

end ProxyForward.Stats

import Mathlib.Algebra.BigOperators.Group.List.Lemmas
import Mathlib.Algebra.Order.BigOperators.Group.List
import Mathlib.Algebra.Order.Ring.Int
import ProxyForward.Ledger

namespace ProxyForward.Conntrack
set_option autoImplicit true

/-- The registry with its own closed totals, and what the close hook was told. -/
structure Hooked where
  registry : Registry
  closedIn : Int
  closedOut : Int
  onClose : List (Nat × Int × Int)

namespace Hooked

def NewRegistry : Hooked := ⟨.NewRegistry, 0, 0, []⟩

/-- What the close func tells the hook: the entry, and its final byte counts. -/
def report (e : Entry) : Nat × Int × Int := (e.ID, e.bytesIn, e.bytesOut)

/-- The close func of an entry runs once. -/
def close (h : Hooked) (id : Nat) : Hooked :=
  match h.registry.entry? id with
  | none => h
  | some e =>
    { registry := h.registry.close id
      closedIn := h.closedIn + e.bytesIn
      closedOut := h.closedOut + e.bytesOut
      onClose := h.onClose ++ [report e] }

def step (h : Hooked) : Op → Hooked
  | .close id => h.close id
  | op => { h with registry := h.registry.step op }

def run (h : Hooked) (ops : List Op) : Hooked := ops.foldl step h

def Count (h : Hooked) : Nat := h.registry.conns.length

/-- The bytes of all connections so far, in and out. -/
def Totals (h : Hooked) : Int × Int :=
  h.registry.conns.foldl (fun total e => (total.1 + e.bytesIn, total.2 + e.bytesOut))
    (h.closedIn, h.closedOut)

end Hooked

/-- A column of a per-agent map, added up. -/
def sumOver [AddCommMonoid M] (m : GoMap AgentTraffic) (f : AgentTraffic → M) : M :=
  (m.entries.map fun row => f row.2).sum

theorem sum_by_key [AddCommMonoid M] [DecidableEq K] {keys : List K} (hkeys : keys.Nodup)
    (key : E → K) (g : E → M) (es : List E) (hcover : ∀ e ∈ es, key e ∈ keys) :
    (keys.map fun k => ((es.filter fun e => key e = k).map g).sum).sum = (es.map g).sum := by
  induction es with
  | nil =>
    simp only [List.filter_nil, List.map_nil, List.sum_nil]
    exact List.sum_map_zero
  | cons e es ih =>
    obtain ⟨he, hes⟩ := List.forall_mem_cons.1 hcover
    have hgroup (k : K) : (((e :: es).filter fun e => key e = k).map g).sum =
        (if k = key e then g e else 0) + ((es.filter fun e => key e = k).map g).sum := by
      rw [List.filter_cons]
      by_cases hk : key e = k
      · rw [if_pos (decide_eq_true hk), if_pos hk.symm, List.map_cons, List.sum_cons]
      · rw [if_neg (by simpa only [decide_eq_true_eq] using hk), if_neg (Ne.symm hk), zero_add]
    have hone : (keys.map fun k => if k = key e then g e else 0).sum = g e := by
      rw [List.sum_map_eq_nsmul_single (key e) _ fun k hk _ => if_neg hk,
        List.count_eq_one_of_mem hkeys he, if_pos rfl, one_nsmul]
    rw [List.map_congr_left fun k _ => hgroup k, List.sum_map_add, hone, ih hes, List.map_cons,
      List.sum_cons]

namespace Ledger

/-- The closed connections. -/
def ended (l : Ledger) : Ledger := l.filter fun c => !c.live

def entries (l : Ledger) : List Entry := l.map (·.entry)

theorem ended_map (f : Conn → Conn) (hf : ∀ c, c.live = false → f c = c)
    (hlive : ∀ c, (f c).live = c.live) (l : Ledger) : ended (l.map f) = l.ended := by
  unfold ended
  rw [List.filter_map, List.filter_congr (q := fun c => !c.live) fun c _ => by
    rw [Function.comp_apply, hlive]]
  conv_rhs => rw [← List.map_id (l.filter fun c => !c.live)]
  refine List.map_congr_left fun c hc => hf c ?_
  simpa only [Bool.not_eq_true'] using (List.mem_filter.1 hc).2

theorem ended_onLive (id : Nat) (f : Entry → Entry) (l : Ledger) :
    ended (l.map (·.onLive id fun c => { c with entry := f c.entry })) = l.ended := by
  refine ended_map _ (fun c hc => ?_) (fun c => ?_) l
  · unfold Conn.onLive
    rw [hc]
    exact if_neg fun h => Bool.false_ne_true h.1
  · unfold Conn.onLive
    split <;> rfl

theorem ended_close (l₁ l₂ : Ledger) (e : Entry) :
    (ended (l₁ ++ ⟨e, false⟩ :: l₂)).Perm (ended (l₁ ++ ⟨e, true⟩ :: l₂) ++ [⟨e, false⟩]) := by
  unfold ended
  rw [List.filter_append, List.filter_append, List.filter_cons_of_pos rfl,
    List.filter_cons_of_neg Bool.false_ne_true]
  exact List.perm_middle.trans (List.perm_append_singleton _ _).symm

theorem entries_close (l : Ledger) (id : Nat) : (l.step (.close id)).entries = l.entries := by
  unfold entries step
  rw [List.map_map]
  refine List.map_congr_left fun c _ => ?_
  simp only [Function.comp_apply, Conn.onLive]
  split <;> rfl

theorem map_entries (g : Entry → M) (l : Ledger) :
    l.entries.map g = l.map fun c => g c.entry := List.map_map

theorem entries_owned (l : Ledger) (a : String) :
    (l.owned a).entries = l.entries.filter fun e => e.AgentID = a := by
  unfold entries owned
  rw [List.filter_map]
  rfl

theorem ids_step {l : Ledger} (h : l.entries.map (·.ID) = List.range' 1 l.length) (op : Op) :
    (l.step op).entries.map (·.ID) = List.range' 1 (l.step op).length := by
  have hmap (id : Nat) (f : Conn → Conn) (hf : ∀ c, (f c).entry.ID = c.entry.ID) :
      (entries (l.map (·.onLive id f))).map (·.ID) =
        List.range' 1 (l.map (·.onLive id f)).length := by
    rw [List.length_map, ← h]
    unfold entries
    rw [List.map_map, List.map_map, List.map_map]
    refine List.map_congr_left fun c _ => ?_
    simp only [Function.comp_apply, Conn.onLive]
    split
    · exact hf c
    · rfl
  cases op with
  | Open agentID inIsAToB =>
    unfold entries at h
    simp only [step, entries, List.map_append, List.map_cons, List.map_nil, h, List.length_append,
      List.length_singleton, List.range'_concat, Nat.one_mul, Nat.add_comm 1]
  | count id aToB bToA => exact hmap id _ fun _ => rfl
  | SetPlayer id p => exact hmap id _ fun _ => rfl
  | close id => exact hmap id _ fun _ => rfl

end Ledger

/-- A measure of connections that starts at nothing and only grows with their bytes. -/
structure Grows (g : Entry → Int) : Prop where
  start : ∀ id agentID inIsAToB, g ⟨id, agentID, none, ⟨0, 0⟩, inIsAToB⟩ = 0
  count : ∀ e aToB bToA, g e ≤ g (e.count aToB bToA)
  player : ∀ e p, g (e.SetPlayer p) = g e

theorem grows_bytesIn : Grows (·.bytesIn) where
  start _ _ inIsAToB := by cases inIsAToB <;> rfl
  count e aToB bToA := by
    unfold Entry.bytesIn Entry.count
    split
    · exact Int.le_add_of_nonneg_right (Int.natCast_nonneg _)
    · exact Int.le_add_of_nonneg_right (Int.natCast_nonneg _)
  player _ _ := rfl

theorem grows_bytesOut : Grows (·.bytesOut) where
  start _ _ inIsAToB := by cases inIsAToB <;> rfl
  count e aToB bToA := by
    unfold Entry.bytesOut Entry.count
    split
    · exact Int.le_add_of_nonneg_right (Int.natCast_nonneg _)
    · exact Int.le_add_of_nonneg_right (Int.natCast_nonneg _)
  player _ _ := rfl

theorem Grows.ofAgent (h : Grows g) (a : String) :
    Grows fun e => if e.AgentID = a then g e else 0 where
  start id agentID inIsAToB := by
    split
    · exact h.start id agentID inIsAToB
    · rfl
  count e aToB bToA := by
    change (if e.AgentID = a then _ else _) ≤ if e.AgentID = a then _ else _
    split
    · exact h.count e aToB bToA
    · exact Int.le_refl 0
  player e p := by
    change (if e.AgentID = a then _ else _) = if e.AgentID = a then _ else _
    rw [h.player]

theorem Grows.step (h : Grows g) (l : Ledger) (op : Op) :
    (l.entries.map g).sum ≤ ((l.step op).entries.map g).sum := by
  have hmap (id : Nat) (f : Entry → Entry) (hf : ∀ e, g e ≤ g (f e)) :
      (l.entries.map g).sum ≤
        ((Ledger.entries (l.map (·.onLive id fun c => { c with entry := f c.entry }))).map
          g).sum := by
    unfold Ledger.entries
    rw [List.map_map, List.map_map, List.map_map]
    refine List.sum_le_sum fun c _ => ?_
    simp only [Function.comp_apply, Conn.onLive]
    split
    · exact hf c.entry
    · exact Int.le_refl _
  cases op with
  | Open agentID inIsAToB =>
    unfold Ledger.entries
    rw [Ledger.step, List.map_append, List.map_append, List.sum_append, List.map_singleton,
      List.map_singleton, List.sum_singleton, h.start, add_zero]
  | count id aToB bToA => exact hmap id (·.count aToB bToA) fun e => h.count e aToB bToA
  | SetPlayer id p => exact hmap id (·.SetPlayer p) fun e => Int.le_of_eq (h.player e p).symm
  | close id => rw [Ledger.entries_close]

theorem Grows.run (h : Grows g) (l : Ledger) (ops : List Op) :
    (l.entries.map g).sum ≤ ((l.run ops).entries.map g).sum := by
  induction ops generalizing l with
  | nil => exact Int.le_refl _
  | cons op ops ih => exact (h.step l op).trans (ih (l.step op))

theorem sum_owned_eq (g : Entry → Int) (l : Ledger) (a : String) :
    ((l.owned a).entries.map g).sum =
      (l.entries.map fun e => if e.AgentID = a then g e else 0).sum := by
  rw [Ledger.entries_owned]
  induction l.entries with
  | nil => rfl
  | cons e es ih =>
    rw [List.map_cons, List.sum_cons, ← ih, List.filter_cons]
    by_cases ha : e.AgentID = a
    · rw [if_pos (decide_eq_true ha), if_pos ha, List.map_cons, List.sum_cons]
    · rw [if_neg (by simpa only [decide_eq_true_eq] using ha), if_neg ha, zero_add]

/-- The closed totals and the hook's reports are those of the closed connections. -/
structure Accounted (h : Hooked) (l : Ledger) : Prop where
  refines : Refines h.registry l
  closedIn : h.closedIn = (l.ended.entries.map (·.bytesIn)).sum
  closedOut : h.closedOut = (l.ended.entries.map (·.bytesOut)).sum
  onClose : h.onClose.Perm (l.ended.entries.map Hooked.report)
  ids : l.entries.map (·.ID) = List.range' 1 l.length

theorem accounted_new : Accounted .NewRegistry [] :=
  ⟨refines_new, rfl, rfl, List.Perm.refl _, rfl⟩

theorem Accounted.keep (h : Accounted s l) (hr : Refines r l')
    (hended : l'.ended = l.ended) (hids : l'.entries.map (·.ID) = List.range' 1 l'.length) :
    Accounted { s with registry := r } l' := by
  refine ⟨hr, ?_, ?_, ?_, hids⟩
  · rw [hended]
    exact h.closedIn
  · rw [hended]
    exact h.closedOut
  · rw [hended]
    exact h.onClose

theorem Accounted.close_some (h : Accounted s l) {id : Nat} (he : s.registry.entry? id = some e) :
    Accounted (s.close id) (l.step (.close id)) := by
  have hr := h.refines.close id
  have hids := Ledger.ids_step h.ids (.close id)
  obtain ⟨l₁, l₂, rfl, hid, h₁, h₂⟩ := h.refines.find he
  rw [Ledger.step_close hid h₁ h₂] at hr hids ⊢
  have hended := (Ledger.ended_close l₁ l₂ e).map (·.entry)
  rw [List.map_append, List.map_singleton] at hended
  have hclose : s.close id = ⟨s.registry.close id, s.closedIn + e.bytesIn, s.closedOut + e.bytesOut,
      s.onClose ++ [Hooked.report e]⟩ := by
    rw [Hooked.close, he]
  rw [hclose]
  refine ⟨hr, ?_, ?_, ?_, hids⟩
  · rw [Ledger.entries, (hended.map _).sum_eq, List.map_append, List.sum_append, List.map_singleton,
      List.sum_singleton, h.closedIn, Ledger.entries]
  · rw [Ledger.entries, (hended.map _).sum_eq, List.map_append, List.sum_append, List.map_singleton,
      List.sum_singleton, h.closedOut, Ledger.entries]
  · refine List.Perm.trans ?_ (hended.map _).symm
    rw [List.map_append]
    exact h.onClose.append_right _

theorem Accounted.step (h : Accounted s l) (op : Op) : Accounted (s.step op) (l.step op) := by
  have hids := Ledger.ids_step h.ids op
  cases op with
  | Open agentID inIsAToB =>
    refine h.keep (h.refines.step (.Open agentID inIsAToB)) ?_ hids
    rw [Ledger.ended, Ledger.step, List.filter_append]
    exact List.append_nil _
  | count id aToB bToA =>
    exact h.keep (h.refines.step (.count id aToB bToA))
      (Ledger.ended_onLive id (·.count aToB bToA) l) hids
  | SetPlayer id p =>
    exact h.keep (h.refines.step (.SetPlayer id p)) (Ledger.ended_onLive id (·.SetPlayer p) l) hids
  | close id =>
    cases he : s.registry.entry? id with
    | some e => exact h.close_some he
    | none =>
      rw [h.refines.step_close_none he, Hooked.step, Hooked.close, he]
      exact h

theorem Accounted.run (h : Accounted s l) (ops : List Op) :
    Accounted (s.run ops) (l.run ops) := by
  induction ops generalizing s l with
  | nil => exact h
  | cons op ops ih => exact ih (h.step op)

theorem foldl_total (es : List Entry) (total : Int × Int) :
    es.foldl (fun total e => (total.1 + e.bytesIn, total.2 + e.bytesOut)) total =
      (total.1 + (es.map (·.bytesIn)).sum, total.2 + (es.map (·.bytesOut)).sum) := by
  induction es generalizing total with
  | nil => simp only [List.foldl_nil, List.map_nil, List.sum_nil, add_zero]
  | cons e es ih =>
    rw [List.foldl_cons, ih]
    simp only [List.map_cons, List.sum_cons, add_assoc]

theorem Refines.sum_all (h : Refines r l) (g : Entry → Int) :
    (l.ended.entries.map g).sum + (r.conns.map g).sum = (l.entries.map g).sum := by
  have hperm := (List.filter_append_perm (·.live) l).map fun c => g c.entry
  rw [List.map_append] at hperm
  rw [h.conns, Ledger.ended, Ledger.map_entries, Ledger.map_entries, List.map_map, add_comm,
    ← List.sum_append]
  exact hperm.sum_eq

theorem Accounted.totals (h : Accounted s l) :
    s.Totals = ((l.entries.map (·.bytesIn)).sum, (l.entries.map (·.bytesOut)).sum) := by
  rw [Hooked.Totals, foldl_total, h.closedIn, h.closedOut, h.refines.sum_all, h.refines.sum_all]

theorem Refines.lookup_AgentTotals (h : Refines r l) (toLower : String → String) (a : String) :
    (r.AgentTotals toLower).lookup a =
      if l.owned a ≠ [] then some (l.traffic toLower a) else none := by
  rw [Registry.lookup_AgentTotals, h.traffic]
  exact if_congr (h.lists a) rfl rfl

theorem Refines.sumOver [AddCommMonoid M] (h : Refines r l) (toLower : String → String)
    {f : AgentTraffic → M} {g : Conn → M}
    (hf : ∀ a, f (l.traffic toLower a) = ((l.owned a).map g).sum) :
    sumOver (r.AgentTotals toLower) f = (l.map g).sum := by
  have hrow : ∀ row ∈ (r.AgentTotals toLower).entries, f row.2 = ((l.owned row.1).map g).sum := by
    intro row hrow
    have hlookup := AList.mem_lookup_iff.2 hrow
    rw [h.lookup_AgentTotals] at hlookup
    split at hlookup
    · rw [← hf]
      exact congrArg f (Option.some.inj hlookup).symm
    · cases hlookup
  have hkeys : ∀ c ∈ l, c.entry.AgentID ∈ (r.AgentTotals toLower).keys := by
    intro c hc
    refine AList.mem_keys.1 (AList.lookup_isSome.1 ?_)
    rw [h.lookup_AgentTotals, if_pos]
    · rfl
    · exact List.ne_nil_of_mem (List.mem_filter.2 ⟨hc, decide_eq_true rfl⟩)
  rw [Conntrack.sumOver, List.map_congr_left hrow,
    ← sum_by_key (r.AgentTotals toLower).keys_nodup (fun c : Conn => c.entry.AgentID) g l hkeys,
    AList.keys, List.keys, List.map_map]
  rfl

theorem Refines.sum_conns (h : Refines r l) (toLower : String → String) :
    Conntrack.sumOver (r.AgentTotals toLower) (·.Conns) = r.conns.length := by
  have hlength (l : Ledger) : (l.filter (·.live)).length = (l.map fun c => c.live.toNat).sum := by
    induction l with
    | nil => rfl
    | cons c l ih =>
      rw [List.map_cons, List.sum_cons, ← ih, List.filter_cons]
      cases c.live with
      | true => exact Nat.add_comm _ 1
      | false => exact (Nat.zero_add _).symm
  rw [h.sumOver toLower (g := fun c => c.live.toNat) fun a => hlength (l.owned a), ← hlength,
    h.conns, List.length_map]

/-- The bytes of a row. -/
def AgentTraffic.bytes (at' : AgentTraffic) : Int × Int := (at'.BytesIn, at'.BytesOut)

theorem Accounted.close (h : Accounted s l) (toLower : String → String) (id : Nat) :
    (s.close id).Totals = s.Totals ∧
      ∀ a, (((s.close id).registry.AgentTotals toLower).lookup a).map AgentTraffic.bytes =
        ((s.registry.AgentTotals toLower).lookup a).map AgentTraffic.bytes := by
  have hclose : Accounted (s.close id) (l.step (.close id)) := h.step (.close id)
  have hentries := l.entries_close id
  constructor
  · rw [hclose.totals, h.totals, hentries]
  · intro a
    have howned : ((l.step (.close id)).owned a).entries = (l.owned a).entries := by
      rw [Ledger.entries_owned, Ledger.entries_owned, hentries]
    have hsum (g : Entry → Int) : (((l.step (.close id)).owned a).map fun c => g c.entry).sum =
        ((l.owned a).map fun c => g c.entry).sum := by
      rw [← Ledger.map_entries, ← Ledger.map_entries, howned]
    have hnil : (l.step (.close id)).owned a = [] ↔ l.owned a = [] := by
      rw [← List.map_eq_nil_iff (f := fun c : Conn => c.entry),
        ← List.map_eq_nil_iff (f := fun c : Conn => c.entry)]
      exact iff_of_eq (congrArg (· = []) howned)
    rw [hclose.refines.lookup_AgentTotals, h.refines.lookup_AgentTotals]
    simp only [ne_eq, hnil]
    split
    · simp only [Option.map_some, AgentTraffic.bytes, Ledger.traffic]
      rw [hsum (·.bytesIn), hsum (·.bytesOut)]
    · rfl

theorem Accounted.grows (h : Accounted s l) (toLower : String → String) (ops : List Op) :
    (s.Totals.1 ≤ (s.run ops).Totals.1 ∧ s.Totals.2 ≤ (s.run ops).Totals.2) ∧
      ∀ a before, (s.registry.AgentTotals toLower).lookup a = some before →
        ∃ after, ((s.run ops).registry.AgentTotals toLower).lookup a = some after ∧
          before.BytesIn ≤ after.BytesIn ∧ before.BytesOut ≤ after.BytesOut := by
  have hrun := h.run ops
  constructor
  · rw [hrun.totals, h.totals]
    exact ⟨grows_bytesIn.run l ops, grows_bytesOut.run l ops⟩
  · intro a before hbefore
    rw [h.refines.lookup_AgentTotals] at hbefore
    split at hbefore
    · rename_i howned
      cases hbefore
      have hlater : (l.run ops).owned a ≠ [] := by
        clear h hrun
        induction ops generalizing l with
        | nil => exact howned
        | cons op ops ih => exact ih (Ledger.owned_step_ne_nil op howned)
      have hsum {g : Entry → Int} (hg : Grows g) : ((l.owned a).map fun c => g c.entry).sum ≤
          (((l.run ops).owned a).map fun c => g c.entry).sum := by
        have hle := (hg.ofAgent a).run l ops
        rw [← sum_owned_eq, ← sum_owned_eq, Ledger.map_entries, Ledger.map_entries] at hle
        exact hle
      refine ⟨(l.run ops).traffic toLower a, ?_, hsum grows_bytesIn, hsum grows_bytesOut⟩
      rw [hrun.refines.lookup_AgentTotals, if_pos hlater]
    · cases hbefore

/-- Whatever connections open, count and close, the bytes in `Totals` are those of all of them: they
neither shrink nor move between agents when one closes, the rows of `AgentTotals` add up to them and
to `Count`, and the close hook hears of every closed connection once. -/
theorem Hooked.totals_conserved (toLower : String → String) (ops : List Op) :
    let h := Hooked.NewRegistry.run ops
    let rows := h.registry.AgentTotals toLower
    (sumOver rows (·.BytesIn) = h.Totals.1 ∧ sumOver rows (·.BytesOut) = h.Totals.2 ∧
      sumOver rows (·.Conns) = h.Count) ∧
    (∀ id, (h.close id).Totals = h.Totals ∧
      ∀ a, (((h.close id).registry.AgentTotals toLower).lookup a).map AgentTraffic.bytes =
        (rows.lookup a).map AgentTraffic.bytes) ∧
    (∀ more, (h.Totals.1 ≤ (h.run more).Totals.1 ∧ h.Totals.2 ≤ (h.run more).Totals.2) ∧
      ∀ a before, rows.lookup a = some before →
        ∃ after, ((h.run more).registry.AgentTotals toLower).lookup a = some after ∧
          before.BytesIn ≤ after.BytesIn ∧ before.BytesOut ≤ after.BytesOut) ∧
    h.onClose.Perm ((Ledger.run [] ops).ended.entries.map report) ∧
      (h.onClose.map (·.1)).Nodup := by
  intro h rows
  have hacc : Accounted h (Ledger.run [] ops) := accounted_new.run ops
  have htotals := hacc.totals
  refine ⟨⟨?_, ?_, hacc.refines.sum_conns toLower⟩, hacc.close toLower, hacc.grows toLower,
    hacc.onClose, ?_⟩
  · rw [htotals, Ledger.map_entries]
    exact hacc.refines.sumOver toLower (f := (·.BytesIn)) fun a => rfl
  · rw [htotals, Ledger.map_entries, Ledger.map_entries]
    exact hacc.refines.sumOver toLower (f := (·.BytesOut)) fun a => rfl
  · have hperm := hacc.onClose.map (·.1)
    rw [List.map_map] at hperm
    refine hperm.nodup_iff.2 ?_
    have hsub : (Ledger.ended (Ledger.run [] ops)).entries.Sublist (Ledger.run [] ops).entries :=
      List.filter_sublist.map _
    refine (hsub.map (·.ID)).nodup ?_
    rw [hacc.ids]
    exact List.nodup_range'

end ProxyForward.Conntrack

import ProxyForward.Registry

namespace ProxyForward.Conntrack
set_option autoImplicit true

/-- A connection that was opened at some time, with what it counted while it was live. -/
structure Conn where
  entry : Entry
  live : Bool
  deriving DecidableEq, Repr

/-- Changes the live connection with an ID. -/
def Conn.onLive (c : Conn) (id : Nat) (f : Conn → Conn) : Conn :=
  if c.live ∧ c.entry.ID = id then f c else c

/-- The log of all connections. -/
abbrev Ledger := List Conn

namespace Ledger

def step (l : Ledger) : Op → Ledger
  | .Open agentID inIsAToB => l ++ [⟨⟨l.length + 1, agentID, none, ⟨0, 0⟩, inIsAToB⟩, true⟩]
  | .count id aToB bToA =>
    l.map (·.onLive id fun c => { c with entry := c.entry.count aToB bToA })
  | .SetPlayer id p => l.map (·.onLive id fun c => { c with entry := c.entry.SetPlayer p })
  | .close id => l.map (·.onLive id fun c => { c with live := false })

def run (l : Ledger) (ops : List Op) : Ledger := ops.foldl step l

/-- The connections of an agent. -/
def owned (l : Ledger) (a : String) : Ledger := l.filter fun c => c.entry.AgentID = a

/-- The closed ones of them. -/
def gone (l : Ledger) (a : String) : Ledger :=
  l.filter fun c => c.live = false ∧ c.entry.AgentID = a

/-- An agent's own traffic: the bytes of all its connections, and its live ones with their
players. -/
def traffic (toLower : String → String) (l : Ledger) (a : String) : AgentTraffic where
  BytesIn := ((l.owned a).map (·.entry.bytesIn)).sum
  BytesOut := ((l.owned a).map (·.entry.bytesOut)).sum
  Conns := ((l.owned a).filter (·.live)).length
  Players := (players toLower (((l.owned a).filter (·.live)).map (·.entry))).card

end Ledger

/-- The registry keeps the live connections of the ledger, and by agent what the others counted. -/
structure Refines (r : Registry) (l : Ledger) : Prop where
  next : r.next = l.length
  conns : r.conns = (l.filter (·.live)).map (·.entry)
  closedIn : ∀ a, (r.closed a).1 = ((l.gone a).map (·.entry.bytesIn)).sum
  closedOut : ∀ a, (r.closed a).2 = ((l.gone a).map (·.entry.bytesOut)).sum
  seen : ∀ a, (r.closedByAgent.lookup a).isSome ↔ l.gone a ≠ []

theorem refines_new : Refines .NewRegistry [] where
  next := rfl
  conns := rfl
  closedIn _ := rfl
  closedOut _ := rfl
  seen _ := ⟨fun h => (Bool.false_ne_true h).elim, fun h => absurd rfl h⟩

theorem filter_live_map (f : Conn → Conn) (hlive : ∀ c, (f c).live = c.live) (l : Ledger) :
    (l.map f).filter (·.live) = (l.filter (·.live)).map f := by
  rw [List.filter_map]
  congr 1
  exact List.filter_congr fun c _ => hlive c

namespace Ledger

theorem gone_cons_live {l : Ledger} (hc : c.live = true) : gone (c :: l) a = l.gone a :=
  List.filter_cons_of_neg (by simp only [hc, Bool.true_eq_false, false_and, decide_false,
    Bool.false_eq_true, not_false_iff])

theorem gone_cons_dead {l : Ledger} (hc : c.live = false) :
    gone (c :: l) a = if c.entry.AgentID = a then c :: l.gone a else l.gone a := by
  unfold gone
  rw [List.filter_cons]
  simp only [hc, true_and, decide_eq_true_eq]

theorem gone_append (l l' : Ledger) (a : String) : gone (l ++ l') a = l.gone a ++ l'.gone a :=
  List.filter_append _ _

theorem gone_map (f : Conn → Conn) (hf : ∀ c, c.live = false → f c = c)
    (hlive : ∀ c, (f c).live = c.live) (l : Ledger) (a : String) :
    gone (l.map f) a = l.gone a := by
  induction l with
  | nil => rfl
  | cons c l ih =>
    rw [List.map_cons]
    by_cases hc : c.live = true
    · rw [gone_cons_live ((hlive c).trans hc), ih, gone_cons_live hc]
    · have hc := Bool.eq_false_iff.2 hc
      rw [hf c hc, gone_cons_dead hc, gone_cons_dead hc, ih]

end Ledger

theorem Refines.update (h : Refines r l) (id : Nat) (f : Entry → Entry)
    (hf : ∀ e, (f e).ID = e.ID) :
    Refines (r.update id f hf) (l.map (·.onLive id fun c => { c with entry := f c.entry })) := by
  have hlive (c : Conn) : (c.onLive id fun c => { c with entry := f c.entry }).live = c.live := by
    unfold Conn.onLive
    split <;> rfl
  have hdead (c : Conn) (hc : c.live = false) :
      (c.onLive id fun c => { c with entry := f c.entry }) = c := by
    unfold Conn.onLive
    rw [hc]
    exact if_neg fun hl => Bool.false_ne_true hl.1
  have hkept := Ledger.gone_map _ hdead hlive l
  constructor
  · rw [List.length_map]
    exact h.next
  · rw [filter_live_map _ hlive]
    change r.conns.map _ = _
    rw [h.conns, List.map_map, List.map_map]
    refine List.map_congr_left fun c hc => ?_
    have hc : c.live = true := (List.mem_filter.1 hc).2
    simp only [Function.comp_apply, Conn.onLive, hc, true_and]
    split <;> rfl
  · intro a
    rw [hkept]
    exact h.closedIn a
  · intro a
    rw [hkept]
    exact h.closedOut a
  · intro a
    rw [hkept]
    exact h.seen a

theorem Refines.open (h : Refines r l) (agentID : String) (inIsAToB : Bool) :
    Refines (r.Open agentID inIsAToB) (l.step (.Open agentID inIsAToB)) := by
  have hkept (a : String) : (l.step (.Open agentID inIsAToB)).gone a = l.gone a := by
    rw [Ledger.step, Ledger.gone_append, Ledger.gone_cons_live rfl]
    exact List.append_nil _
  constructor
  · change r.next + 1 = _
    rw [h.next, Ledger.step, List.length_append, List.length_singleton]
  · change r.conns ++ [r.newEntry agentID inIsAToB] = _
    rw [Ledger.step, List.filter_append, List.map_append, ← h.conns, Registry.newEntry, h.next]
    rfl
  · intro a
    rw [hkept]
    exact h.closedIn a
  · intro a
    rw [hkept]
    exact h.closedOut a
  · intro a
    rw [hkept]
    exact h.seen a

theorem map_onLive_of_ne {l : Ledger} {id : Nat} {f : Conn → Conn}
    (h : ∀ c ∈ l, c.live = true → c.entry.ID ≠ id) :
    l.map (·.onLive id f) = l := by
  induction l with
  | nil => rfl
  | cons c l ih =>
    obtain ⟨hc, hl⟩ := List.forall_mem_cons.1 h
    rw [List.map_cons, ih hl, Conn.onLive, if_neg fun hid => hc hid.1 hid.2]

theorem Refines.find {id : Nat} (h : Refines r l) (he : r.entry? id = some e) :
    ∃ l₁ l₂ : Ledger, l = l₁ ++ ⟨e, true⟩ :: l₂ ∧ e.ID = id ∧
      (∀ c ∈ l₁, c.live = true → c.entry.ID ≠ id) ∧ ∀ c ∈ l₂, c.live = true → c.entry.ID ≠ id := by
  have hmem : e ∈ r.conns := List.mem_of_find?_eq_some he
  have hid : e.ID = id := by simpa only [decide_eq_true_eq] using List.find?_some he
  have hmem' := hmem
  rw [h.conns] at hmem'
  obtain ⟨c, hc, rfl⟩ := List.mem_map.1 hmem'
  obtain ⟨hcl, hlive⟩ := List.mem_filter.1 hc
  obtain ⟨l₁, l₂, rfl⟩ := List.append_of_mem hcl
  have hnodup := r.keyed
  rw [h.conns, List.filter_append, List.filter_cons_of_pos hlive, List.map_append, List.map_cons,
    List.map_append, List.map_cons, List.nodup_middle, List.nodup_cons, List.mem_append] at hnodup
  have hother (l' : Ledger) (hl' : c.entry.ID ∉ ((l'.filter (·.live)).map (·.entry)).map (·.ID)) :
      ∀ d ∈ l', d.live = true → d.entry.ID ≠ id := by
    rintro d hd hdl hdid
    refine hl' (List.mem_map.2 ⟨d.entry, List.mem_map.2 ⟨d, List.mem_filter.2 ⟨hd, hdl⟩, rfl⟩, ?_⟩)
    exact hdid.trans hid.symm
  refine ⟨l₁, l₂, ?_, hid, hother l₁ fun hm => hnodup.1 (.inl hm),
    hother l₂ fun hm => hnodup.1 (.inr hm)⟩
  cases c
  cases hlive
  rfl

theorem Ledger.step_close {l₁ l₂ : Ledger} {id : Nat} (hid : e.ID = id)
    (h₁ : ∀ c ∈ l₁, c.live = true → c.entry.ID ≠ id)
    (h₂ : ∀ c ∈ l₂, c.live = true → c.entry.ID ≠ id) :
    Ledger.step (l₁ ++ ⟨e, true⟩ :: l₂) (.close id) = l₁ ++ ⟨e, false⟩ :: l₂ := by
  rw [Ledger.step, List.map_append, List.map_cons, map_onLive_of_ne h₁, map_onLive_of_ne h₂,
    Conn.onLive, if_pos ⟨rfl, hid⟩]

theorem ne_of_entry?_none {r : Registry} {id : Nat} (he : r.entry? id = none) :
    ∀ e ∈ r.conns, e.ID ≠ id := by
  intro e hmem hid
  have hne := List.find?_eq_none.1 he e hmem
  exact hne (by simpa only [decide_eq_true_eq] using hid)

theorem Refines.step_close_none (h : Refines r l) {id : Nat} (he : r.entry? id = none) :
    l.step (.close id) = l := by
  refine map_onLive_of_ne fun c hc hlive => ne_of_entry?_none he c.entry ?_
  rw [h.conns]
  exact List.mem_map.2 ⟨c, List.mem_filter.2 ⟨hc, hlive⟩, rfl⟩

theorem Refines.close_none (h : Refines r l) {id : Nat} (he : r.entry? id = none) :
    Refines (r.close id) (l.step (.close id)) := by
  have hnone := ne_of_entry?_none he
  have hsame := h.step_close_none he
  have hclosed : (r.close id).closedByAgent = r.closedByAgent := by
    simp only [Registry.close, he]
  have hkeep : (r.close id).conns = r.conns :=
    List.filter_eq_self.2 fun e hmem => decide_eq_true (hnone e hmem)
  rw [hsame]
  refine ⟨h.next, hkeep.trans h.conns, fun a => ?_, fun a => ?_, fun a => ?_⟩
  · rw [Registry.closed, hclosed]
    exact h.closedIn a
  · rw [Registry.closed, hclosed]
    exact h.closedOut a
  · rw [hclosed]
    exact h.seen a

theorem lookup_close {r : Registry} {id : Nat} (he : r.entry? id = some e) (a : String) :
    (r.close id).closedByAgent.lookup a =
      if e.AgentID = a then some ((r.closed a).1 + e.bytesIn, (r.closed a).2 + e.bytesOut)
      else r.closedByAgent.lookup a := by
  simp only [Registry.close, he]
  split
  · rename_i ha
    rw [ha]
    exact AList.lookup_insert _
  · rename_i ha
    exact AList.lookup_insert_ne (Ne.symm ha)

theorem filter_live_ne {l : Ledger} {id : Nat}
    (hl : ∀ c ∈ l, c.live = true → c.entry.ID ≠ id) :
    ((l.filter (·.live)).map (·.entry)).filter (fun e => e.ID ≠ id) =
      (l.filter (·.live)).map (·.entry) := by
  refine List.filter_eq_self.2 fun e hmem => decide_eq_true ?_
  obtain ⟨c, hc, rfl⟩ := List.mem_map.1 hmem
  exact hl c (List.mem_filter.1 hc).1 (List.mem_filter.1 hc).2

namespace Ledger

theorem gone_close (l₁ l₂ : Ledger) (e : Entry) (a : String) :
    (gone (l₁ ++ ⟨e, false⟩ :: l₂) a).Perm
      (if e.AgentID = a then ⟨e, false⟩ :: gone (l₁ ++ ⟨e, true⟩ :: l₂) a
        else gone (l₁ ++ ⟨e, true⟩ :: l₂) a) := by
  rw [gone_append, gone_cons_dead rfl, gone_append, gone_cons_live rfl]
  split
  · exact List.perm_middle
  · exact List.Perm.refl _

theorem sum_gone_close (g : Conn → Int) (l₁ l₂ : Ledger) (e : Entry) (a : String) :
    ((gone (l₁ ++ ⟨e, false⟩ :: l₂) a).map g).sum =
      if e.AgentID = a then ((gone (l₁ ++ ⟨e, true⟩ :: l₂) a).map g).sum + g ⟨e, false⟩
      else ((gone (l₁ ++ ⟨e, true⟩ :: l₂) a).map g).sum := by
  rw [((gone_close l₁ l₂ e a).map g).sum_eq]
  split
  · rw [List.map_cons, List.sum_cons, add_comm]
  · rfl

end Ledger

theorem Refines.close_some (h : Refines r l) {id : Nat} (he : r.entry? id = some e) :
    Refines (r.close id) (l.step (.close id)) := by
  obtain ⟨l₁, l₂, rfl, hid, h₁, h₂⟩ := h.find he
  rw [Ledger.step_close hid h₁ h₂]
  refine ⟨?_, ?_, fun a => ?_, fun a => ?_, fun a => ?_⟩
  · refine h.next.trans ?_
    simp only [List.length_append, List.length_cons]
  · have hconns : (r.close id).conns = r.conns.filter fun e => e.ID ≠ id := rfl
    have hdrop (es : List Entry) :
        (e :: es).filter (fun e => e.ID ≠ id) = es.filter fun e => e.ID ≠ id :=
      List.filter_cons_of_neg (by simp only [hid, ne_eq, not_true, decide_false,
        Bool.false_eq_true, not_false_iff])
    rw [hconns, h.conns, List.filter_append, List.filter_append, List.map_append, List.map_append,
      List.filter_append, filter_live_ne h₁, List.filter_cons_of_pos rfl,
      List.filter_cons_of_neg Bool.false_ne_true, List.map_cons, hdrop, filter_live_ne h₂]
  · rw [Ledger.sum_gone_close, Registry.closed, lookup_close he, ← h.closedIn a]
    split
    · rfl
    · rfl
  · rw [Ledger.sum_gone_close, Registry.closed, lookup_close he, ← h.closedOut a]
    split
    · rfl
    · rfl
  · have hgone := (Ledger.gone_close l₁ l₂ e a).isEmpty_eq
    rw [lookup_close he, ne_eq, ← List.isEmpty_iff, hgone, List.isEmpty_iff]
    split
    · exact ⟨fun _ => List.cons_ne_nil _ _, fun _ => rfl⟩
    · exact h.seen a

theorem Refines.close (h : Refines r l) (id : Nat) : Refines (r.close id) (l.step (.close id)) := by
  cases he : r.entry? id with
  | none => exact h.close_none he
  | some e => exact h.close_some he

theorem Refines.step (h : Refines r l) (op : Op) : Refines (r.step op) (l.step op) := by
  cases op with
  | Open agentID inIsAToB => exact h.open agentID inIsAToB
  | count id aToB bToA => exact h.update id (·.count aToB bToA) fun _ => rfl
  | SetPlayer id p => exact h.update id (·.SetPlayer p) fun _ => rfl
  | close id => exact h.close id

theorem Refines.run (h : Refines r l) (ops : List Op) : Refines (r.run ops) (l.run ops) := by
  induction ops generalizing r l with
  | nil => exact h
  | cons op ops ih => exact ih (h.step op)

theorem Ledger.sum_owned (f : Conn → Int) (l : Ledger) (a : String) :
    ((l.owned a).map f).sum =
      ((l.gone a).map f).sum + (((l.owned a).filter (·.live)).map f).sum := by
  induction l with
  | nil => rfl
  | cons c l ih =>
    unfold owned at ih ⊢
    by_cases ha : c.entry.AgentID = a
    · rw [List.filter_cons_of_pos (by simpa only [decide_eq_true_eq] using ha), List.map_cons,
        List.sum_cons, ih]
      by_cases hc : c.live = true
      · rw [gone_cons_live hc, List.filter_cons_of_pos hc, List.map_cons, List.sum_cons]
        exact Int.add_left_comm _ _ _
      · rw [gone_cons_dead (Bool.eq_false_iff.2 hc), if_pos ha, List.filter_cons_of_neg hc,
          List.map_cons, List.sum_cons]
        exact (Int.add_assoc _ _ _).symm
    · rw [List.filter_cons_of_neg (by simpa only [decide_eq_true_eq] using ha), ih]
      by_cases hc : c.live = true
      · rw [gone_cons_live hc]
      · rw [gone_cons_dead (Bool.eq_false_iff.2 hc), if_neg ha]

theorem Refines.live (h : Refines r l) (a : String) :
    r.live a = ((l.owned a).filter (·.live)).map (·.entry) := by
  rw [Registry.live, h.conns, List.filter_map, Ledger.owned, List.filter_filter, List.filter_filter]
  congr 1
  exact List.filter_congr fun c _ => Bool.and_comm _ _

theorem Ledger.owned_step_ne_nil {l : Ledger} (op : Op) (h : l.owned a ≠ []) :
    (l.step op).owned a ≠ [] := by
  obtain ⟨c, hc⟩ := List.exists_mem_of_ne_nil _ h
  obtain ⟨hmem, ha⟩ := List.mem_filter.1 hc
  have hmap (f : Conn → Conn) (hf : ∀ c, (f c).entry.AgentID = c.entry.AgentID) :
      owned (l.map f) a ≠ [] :=
    List.ne_nil_of_mem (List.mem_filter.2 ⟨List.mem_map_of_mem hmem, by rwa [hf]⟩)
  have honLive (id : Nat) (f : Conn → Conn) (hf : ∀ c, (f c).entry.AgentID = c.entry.AgentID)
      (c : Conn) : (c.onLive id f).entry.AgentID = c.entry.AgentID := by
    unfold Conn.onLive
    split
    · exact hf c
    · rfl
  cases op with
  | Open agentID inIsAToB =>
    exact List.ne_nil_of_mem (List.mem_filter.2 ⟨List.mem_append_left _ hmem, ha⟩)
  | count id aToB bToA => exact hmap _ (honLive id _ fun _ => rfl)
  | SetPlayer id p => exact hmap _ (honLive id _ fun _ => rfl)
  | close id => exact hmap _ (honLive id _ fun _ => rfl)

theorem Refines.traffic (h : Refines r l) (toLower : String → String) (a : String) :
    r.traffic toLower a = l.traffic toLower a := by
  rw [Registry.traffic, Ledger.traffic, h.closedIn, h.closedOut, h.live, List.map_map, List.map_map,
    List.length_map, Ledger.sum_owned, Ledger.sum_owned]
  rfl

theorem Refines.lists (h : Refines r l) (a : String) : r.Lists a ↔ l.owned a ≠ [] := by
  rw [Registry.Lists, h.seen, h.live, ne_eq, ne_eq, ne_eq, List.map_eq_nil_iff, ← not_and_or,
    not_iff_not]
  unfold Ledger.gone Ledger.owned
  simp only [List.filter_eq_nil_iff, List.mem_filter, decide_eq_true_eq, not_and]
  constructor
  · intro ⟨hgone, hlive⟩ c hc ha
    cases hcl : c.live with
    | true => exact hlive c ⟨hc, ha⟩ hcl
    | false => exact hgone c hc hcl ha
  · intro hnone
    exact ⟨fun c hc _ ha => hnone c hc ha, fun c hc _ => hnone c hc.1 hc.2⟩

end ProxyForward.Conntrack

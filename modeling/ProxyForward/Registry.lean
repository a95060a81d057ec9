import Mathlib.Algebra.BigOperators.Group.List.Basic
import Mathlib.Algebra.Ring.Int.Defs
import Mathlib.Data.Finset.Card
import Mathlib.Data.Finset.Insert
import ProxyForward.Control

namespace ProxyForward.Conntrack
set_option autoImplicit true

/-- The identity sniffed from a login handshake; the UUID may be empty. -/
structure PlayerInfo where
  Name : String
  UUID : String
  deriving DecidableEq, Repr

/-- The byte counts of a splice, by direction. -/
structure Counters where
  AToB : Int
  BToA : Int
  deriving DecidableEq, Repr

/-- One live proxied connection. -/
structure Entry where
  ID : Nat
  AgentID : String
  player : Option PlayerInfo
  counters : Counters
  inIsAToB : Bool
  deriving DecidableEq, Repr

namespace Entry

def bytesIn (e : Entry) : Int := if e.inIsAToB then e.counters.AToB else e.counters.BToA

def bytesOut (e : Entry) : Int := if e.inIsAToB then e.counters.BToA else e.counters.AToB

/-- The splice counts bytes. -/
def count (e : Entry) (aToB bToA : Nat) : Entry :=
  { e with counters := ⟨e.counters.AToB + aToB, e.counters.BToA + bToA⟩ }

def SetPlayer (e : Entry) (p : PlayerInfo) : Entry := { e with player := some p }

end Entry

/-- The live connections, and the bytes of the closed ones by owning agent. -/
structure Registry where
  next : Nat
  conns : List Entry
  closedByAgent : GoMap (Int × Int)
  keyed : (conns.map (·.ID)).Nodup
  numbered : ∀ e ∈ conns, e.ID ≤ next

namespace Registry

def NewRegistry : Registry where
  next := 0
  conns := []
  closedByAgent := ∅
  keyed := List.nodup_nil
  numbered := fun _ he => absurd he List.not_mem_nil

def newEntry (r : Registry) (agentID : String) (inIsAToB : Bool) : Entry :=
  ⟨r.next + 1, agentID, none, ⟨0, 0⟩, inIsAToB⟩

def Open (r : Registry) (agentID : String) (inIsAToB : Bool) : Registry where
  next := r.next + 1
  conns := r.conns ++ [r.newEntry agentID inIsAToB]
  closedByAgent := r.closedByAgent
  keyed := by
    rw [List.map_append, List.map_singleton, ← List.concat_eq_append, List.nodup_concat]
    refine ⟨fun hmem => ?_, r.keyed⟩
    obtain ⟨e, he, hid⟩ := List.mem_map.1 hmem
    have hle := r.numbered e he
    rw [hid] at hle
    exact absurd hle (Nat.not_succ_le_self _)
  numbered := by
    intro e he
    obtain he | he := List.mem_append.1 he
    · exact (r.numbered e he).trans (Nat.le_succ _)
    · rw [List.mem_singleton.1 he]
      exact Nat.le_refl _

/-- Changes the entry with an ID, if it is live, and not its ID. -/
def update (r : Registry) (id : Nat) (f : Entry → Entry) (hf : ∀ e, (f e).ID = e.ID) :
    Registry where
  next := r.next
  conns := r.conns.map fun e => if e.ID = id then f e else e
  closedByAgent := r.closedByAgent
  keyed := by
    rw [List.map_map]
    have hsame : ∀ e ∈ r.conns,
        ((·.ID) ∘ fun e => if e.ID = id then f e else e) e = (·.ID) e := fun e _ => by
      simp only [Function.comp_apply]
      split
      · exact hf e
      · rfl
    rw [List.map_congr_left hsame]
    exact r.keyed
  numbered := by
    intro e he
    obtain ⟨e', he', rfl⟩ := List.mem_map.1 he
    split
    · rw [hf]
      exact r.numbered e' he'
    · exact r.numbered e' he'

def count (r : Registry) (id aToB bToA : Nat) : Registry :=
  r.update id (·.count aToB bToA) fun _ => rfl

def SetPlayer (r : Registry) (id : Nat) (p : PlayerInfo) : Registry :=
  r.update id (·.SetPlayer p) fun _ => rfl

/-- The bytes of the closed connections of an agent. -/
def closed (r : Registry) (agentID : String) : Int × Int :=
  (r.closedByAgent.lookup agentID).getD (0, 0)

def entry? (r : Registry) (id : Nat) : Option Entry := r.conns.find? fun e => e.ID = id

/-- The close func of an entry; a second call does nothing. -/
def close (r : Registry) (id : Nat) : Registry where
  next := r.next
  conns := r.conns.filter fun e => e.ID ≠ id
  closedByAgent :=
    match r.entry? id with
    | none => r.closedByAgent
    | some e =>
      r.closedByAgent.insert e.AgentID
        ((r.closed e.AgentID).1 + e.bytesIn, (r.closed e.AgentID).2 + e.bytesOut)
  keyed := r.keyed.sublist (List.filter_sublist.map _)
  numbered := fun e he => r.numbered e (List.mem_of_mem_filter he)

end Registry

/-- An agent's byte totals, and its live connections and players. -/
structure AgentTraffic where
  BytesIn : Int
  BytesOut : Int
  Conns : Nat
  Players : Nat
  deriving DecidableEq, Repr

namespace AgentTraffic

def zero : AgentTraffic := ⟨0, 0, 0, 0⟩

def add (at' : AgentTraffic) (e : Entry) : AgentTraffic :=
  { at' with
    BytesIn := at'.BytesIn + e.bytesIn, BytesOut := at'.BytesOut + e.bytesOut
    Conns := at'.Conns + 1 }

end AgentTraffic

section Totals

-- `strings.ToLower`
variable (toLower : String → String)

/-- The handshake UUID, else the lowercased name. -/
def PlayerInfo.key (p : PlayerInfo) : String :=
  if p.UUID = "" then "name:" ++ toLower p.Name else p.UUID

/-- The body of the loop over the live connections. -/
def addEntry (out : GoMap AgentTraffic) (e : Entry) : GoMap AgentTraffic :=
  out.insert e.AgentID (((out.lookup e.AgentID).getD .zero).add e)

/-- Its part that collects the players of each agent. -/
def seeEntry (seen : GoMap (Finset String)) (e : Entry) : GoMap (Finset String) :=
  match e.player with
  | none => seen
  | some p => seen.insert e.AgentID (insert (p.key toLower) ((seen.lookup e.AgentID).getD ∅))

/-- The totals before the loop. -/
def Registry.closedTotals (r : Registry) : GoMap AgentTraffic :=
  r.closedByAgent.entries.foldl (fun out cb => out.insert cb.1 ⟨cb.2.1, cb.2.2, 0, 0⟩) ∅

def Registry.AgentTotals (r : Registry) : GoMap AgentTraffic :=
  let (out, seen) := r.conns.foldl (fun (out, seen) e => (addEntry out e, seeEntry toLower seen e))
    (r.closedTotals, ∅)
  seen.entries.foldl (fun out s =>
    out.insert s.1 { (out.lookup s.1).getD .zero with Players := s.2.card }) out

end Totals

theorem lookup_foldl_insert_key (key : E → String) (f : Option V → E → V) (es : List E)
    (m : GoMap V) (a : String) :
    (es.foldl (fun m e => m.insert (key e) (f (m.lookup (key e)) e)) m).lookup a =
      (es.filter fun e => key e = a).foldl (fun o e => some (f o e)) (m.lookup a) := by
  induction es generalizing m with
  | nil => rfl
  | cons e es ih =>
    rw [List.foldl_cons, ih]
    by_cases h : key e = a
    · rw [List.filter_cons_of_pos (by simpa only [decide_eq_true_eq] using h), List.foldl_cons, h,
        AList.lookup_insert]
    · rw [List.filter_cons_of_neg (by simpa only [decide_eq_true_eq] using h),
        AList.lookup_insert_ne (Ne.symm h)]

theorem lookup_foldl_insert_map (g : V → Option W → W) (v : GoMap V) (m : GoMap W) (a : String) :
    (v.entries.foldl (fun m e => m.insert e.1 (g e.2 (m.lookup e.1))) m).lookup a =
      match v.lookup a with
      | some x => some (g x (m.lookup a))
      | none => m.lookup a := by
  obtain ⟨l, hl⟩ := v
  have hloop : (l.foldl (fun m e => m.insert e.1 (g e.2 (m.lookup e.1))) m).lookup a =
      match l.dlookup a with
      | some x => some (g x (m.lookup a))
      | none => m.lookup a := by
    induction l generalizing m with
    | nil => rfl
    | cons e l ih =>
      obtain ⟨k, x⟩ := e
      obtain ⟨hk, hl⟩ := List.nodupKeys_cons.1 hl
      rw [List.foldl_cons, ih _ hl]
      by_cases h : k = a
      · subst h
        rw [List.dlookup_eq_none.2 hk, List.dlookup_cons_eq]
        exact AList.lookup_insert _
      · rw [List.dlookup_cons_ne _ _ (Ne.symm h), AList.lookup_insert_ne (Ne.symm h)]
  exact hloop

theorem foldl_pair (f : A → E → A) (g : B → E → B) (es : List E) (a : A) (b : B) :
    es.foldl (fun (p : A × B) e => (f p.1 e, g p.2 e)) (a, b) = (es.foldl f a, es.foldl g b) := by
  induction es generalizing a b with
  | nil => rfl
  | cons e es ih => exact ih (f a e) (g b e)

/-- The live connections of an agent. -/
def Registry.live (r : Registry) (agentID : String) : List Entry :=
  r.conns.filter fun e => e.AgentID = agentID

theorem foldl_add (es : List Entry) (o : Option AgentTraffic) :
    es.foldl (fun o e => some ((o.getD .zero).add e)) o =
      if es = [] then o
      else some
        { (o.getD .zero) with
          BytesIn := (o.getD .zero).BytesIn + (es.map (·.bytesIn)).sum
          BytesOut := (o.getD .zero).BytesOut + (es.map (·.bytesOut)).sum
          Conns := (o.getD .zero).Conns + es.length } := by
  induction es generalizing o with
  | nil => rfl
  | cons e es ih =>
    rw [List.foldl_cons, ih, if_neg (List.cons_ne_nil e es)]
    simp only [Option.getD_some, AgentTraffic.add, List.map_cons, List.sum_cons, List.length_cons]
    split
    · rename_i hnil
      subst hnil
      simp only [List.map_nil, List.sum_nil, add_zero, List.length_nil, zero_add]
    · simp only [add_assoc, Nat.add_comm es.length 1]

section Totals

variable (toLower : String → String)

/-- The identity keys of the players on some connections. -/
def players (es : List Entry) : Finset String :=
  (es.filterMap fun e => e.player.map (·.key toLower)).toFinset

theorem lookup_seeEntry (es : List Entry) (seen : GoMap (Finset String)) (a : String) :
    (es.foldl (seeEntry toLower) seen).lookup a =
      (es.filter fun e => e.AgentID = a).foldl
        (fun o e => e.player.elim o fun p => some (insert (p.key toLower) (o.getD ∅)))
        (seen.lookup a) := by
  induction es generalizing seen with
  | nil => rfl
  | cons e es ih =>
    rw [List.foldl_cons, ih]
    unfold seeEntry
    by_cases h : e.AgentID = a
    · rw [List.filter_cons_of_pos (by simpa only [decide_eq_true_eq] using h), List.foldl_cons]
      cases e.player with
      | none => rfl
      | some p => rw [h, AList.lookup_insert, Option.elim_some]
    · rw [List.filter_cons_of_neg (by simpa only [decide_eq_true_eq] using h)]
      cases e.player with
      | none => rfl
      | some p => rw [AList.lookup_insert_ne (Ne.symm h)]

theorem foldl_see (es : List Entry) (o : Option (Finset String)) :
    (es.foldl (fun o e => e.player.elim o fun p => some (insert (p.key toLower) (o.getD ∅))) o).getD
      ∅ = o.getD ∅ ∪ players toLower es := by
  induction es generalizing o with
  | nil => simp only [List.foldl_nil, players, List.filterMap_nil, List.toFinset_nil,
      Finset.union_empty]
  | cons e es ih =>
    rw [List.foldl_cons, ih]
    unfold players
    cases hp : e.player with
    | none => rw [Option.elim_none, List.filterMap_cons_none (by rw [hp]; rfl)]
    | some p =>
      have hkey : (fun e : Entry => e.player.map (·.key toLower)) e = some (p.key toLower) :=
        congrArg (Option.map _) hp
      rw [List.filterMap_cons_some (f := fun e : Entry => e.player.map (·.key toLower)) hkey,
        List.toFinset_cons, Option.elim_some, Option.getD_some,
        Finset.insert_union, Finset.union_insert]

namespace Registry

/-- The totals of an agent: what its closed and its live connections count together. -/
def traffic (r : Registry) (a : String) : AgentTraffic where
  BytesIn := (r.closed a).1 + ((r.live a).map (·.bytesIn)).sum
  BytesOut := (r.closed a).2 + ((r.live a).map (·.bytesOut)).sum
  Conns := (r.live a).length
  Players := (players toLower (r.live a)).card

/-- The agents that `AgentTotals` lists. -/
def Lists (r : Registry) (a : String) : Prop := (r.closedByAgent.lookup a).isSome ∨ r.live a ≠ []

instance (r : Registry) (a : String) : Decidable (r.Lists a) :=
  inferInstanceAs (Decidable ((r.closedByAgent.lookup a).isSome = true ∨ r.live a ≠ []))

theorem lookup_closedTotals (r : Registry) (a : String) :
    r.closedTotals.lookup a = (r.closedByAgent.lookup a).map fun cb => ⟨cb.1, cb.2, 0, 0⟩ := by
  refine (lookup_foldl_insert_map (fun (cb : Int × Int) _ =>
    AgentTraffic.mk cb.1 cb.2 0 0) r.closedByAgent ∅ a).trans ?_
  cases r.closedByAgent.lookup a <;> rfl

theorem lookup_addEntries (r : Registry) (a : String) :
    (r.conns.foldl addEntry r.closedTotals).lookup a =
      if r.Lists a then some { r.traffic toLower a with Players := 0 } else none := by
  refine (lookup_foldl_insert_key Entry.AgentID
    (fun o e => (o.getD AgentTraffic.zero).add e) r.conns r.closedTotals a).trans ?_
  rw [foldl_add, lookup_closedTotals]
  change (if r.live a = [] then _ else _) = _
  by_cases hlive : r.live a = []
  · rw [if_pos hlive]
    cases hc : r.closedByAgent.lookup a with
    | none =>
      have hnot : ¬r.Lists a := by
        rintro (hsome | hne)
        · rw [hc] at hsome
          cases hsome
        · exact hne hlive
      rw [if_neg hnot]
      rfl
    | some cb =>
      rw [if_pos (.inl (by rw [hc]; rfl))]
      simp only [traffic, closed, hc, hlive, Option.map_some, Option.getD_some, List.map_nil,
        List.sum_nil, add_zero, List.length_nil]
  · rw [if_neg hlive, if_pos (.inr hlive)]
    unfold traffic closed
    cases r.closedByAgent.lookup a with
    | none => simp only [Option.map_none, Option.getD_none, AgentTraffic.zero, zero_add, live]
    | some cb => simp only [Option.map_some, Option.getD_some, zero_add, live]

theorem lookup_AgentTotals (r : Registry) (a : String) :
    (r.AgentTotals toLower).lookup a =
      if r.Lists a then some (r.traffic toLower a) else none := by
  have hplayers := foldl_see toLower (r.live a) none
  unfold AgentTotals
  simp only [foldl_pair]
  refine (lookup_foldl_insert_map (fun (s : Finset String) (o : Option AgentTraffic) =>
    { o.getD AgentTraffic.zero with Players := s.card }) _ _ a).trans ?_
  rw [lookup_addEntries toLower, lookup_seeEntry, AList.lookup_empty, ← live]
  cases hseen : (r.live a).foldl (fun (o : Option (Finset String)) e => e.player.elim o fun p =>
      some (insert (p.key toLower) (o.getD ∅))) none with
  | none =>
    rw [hseen, Option.getD_none, Finset.empty_union] at hplayers
    have hzero : (r.traffic toLower a).Players = 0 := by
      rw [traffic, ← hplayers]
      rfl
    by_cases hlists : r.Lists a
    · simp only [if_pos hlists, ← hzero]
    · simp only [if_neg hlists]
  | some seen =>
    rw [hseen, Option.getD_some, Option.getD_none, Finset.empty_union] at hplayers
    have hlists : r.Lists a := .inr fun hnil => by
      rw [hnil] at hseen
      cases hseen
    simp only [if_pos hlists, Option.getD_some, hplayers]
    rfl

end Registry

end Totals

/-- What can happen to the registry. -/
inductive Op where
  | Open (agentID : String) (inIsAToB : Bool)
  | count (id aToB bToA : Nat)
  | SetPlayer (id : Nat) (p : PlayerInfo)
  | close (id : Nat)

def Registry.step (r : Registry) : Op → Registry
  | .Open agentID inIsAToB => r.Open agentID inIsAToB
  | .count id aToB bToA => r.count id aToB bToA
  | .SetPlayer id p => r.SetPlayer id p
  | .close id => r.close id

def Registry.run (r : Registry) (ops : List Op) : Registry := ops.foldl step r

end ProxyForward.Conntrack

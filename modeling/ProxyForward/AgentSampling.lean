import ProxyForward.Persist
import ProxyForward.Ledger
import ProxyForward.Ownership

namespace ProxyForward
open Conntrack Stats
set_option autoImplicit true

/-- The outcomes of the last pings: received, or lost. -/
structure Tracker where
  results : List Bool
  deriving DecidableEq, Repr

/-- The part of the finalized pings that timed out, in percent, or -1 before any. -/
def Tracker.LossPct (q : Tracker) : Rat :=
  if q.results.length = 0 then -1
  else 100 * (q.results.filter fun r => !r).length / q.results.length

/-- What the gateway measures on the link of a session. -/
structure Link where
  rttMillis : Int
  quality : Option Tracker
  deriving DecidableEq, Repr

/-- The link's round trip, and its loss; -1 where there is no measurement. -/
def Link.gauges (link : Link) : Rat × Rat :=
  (if 0 < link.rttMillis then link.rttMillis else -1,
    match link.quality with
    | some quality => quality.LossPct
    | none => -1)

/-- Neither gauge of the link has a measurement. -/
def Link.Unmeasured (link : Link) : Prop :=
  link.rttMillis ≤ 0 ∧ ∀ quality, link.quality = some quality → quality.results = []

namespace GatewayState

def sessions (st : GatewayState) : List AgentSession := st.actor.agents.entries.map (·.2)

/-- The sole connected session. -/
def session (st : GatewayState) : Option AgentSession :=
  match st.sessions with
  | [sess] => some sess
  | _ => none

def AgentQuality (st : GatewayState) (links : AgentSession → Link) (agentID : String) : Rat × Rat :=
  match st.session with
  | none => (-1, -1)
  | some sess => if sess.agentID ≠ agentID then (-1, -1) else (links sess).gauges

end GatewayState

/-- The reading that a traffic row and two gauges make. -/
def readingOf (now : Nat) (at' : AgentTraffic) (gauges : Rat × Rat) : Reading :=
  ⟨now, at'.BytesIn, at'.BytesOut, at'.Conns, at'.Players, gauges.1, gauges.2⟩

section Tick

-- `strings.ToLower`
variable (toLower : String → String) (st : GatewayState) (links : AgentSession → Link)
  (conns : Registry) (now : Nat)

/-- What a sampler tick passes to `SampleAgent`, agent by agent. -/
def agentSamples : List (String × Reading) :=
  (conns.AgentTotals toLower).entries.filterMap fun ⟨agentID, at'⟩ =>
    if agentID = "" then none
    else some (agentID, readingOf now at' (st.AgentQuality links agentID))

theorem mem_agentSamples :
    (agentID, r) ∈ agentSamples toLower st links conns now ↔
      agentID ≠ "" ∧ conns.Lists agentID ∧
        r = readingOf now (conns.traffic toLower agentID) (st.AgentQuality links agentID) := by
  unfold agentSamples
  rw [List.mem_filterMap]
  constructor
  · rintro ⟨⟨i, at'⟩, hmem, heq⟩
    simp only at heq
    split at heq
    · cases heq
    · rename_i hne
      cases heq
      have hlookup := AList.mem_lookup_iff.2 hmem
      rw [Registry.lookup_AgentTotals] at hlookup
      split at hlookup
      · rename_i hlists
        cases hlookup
        exact ⟨hne, hlists, rfl⟩
      · cases hlookup
  · rintro ⟨hne, hlists, rfl⟩
    refine ⟨⟨agentID, conns.traffic toLower agentID⟩, AList.mem_lookup_iff.1 ?_, if_neg hne⟩
    rw [Registry.lookup_AgentTotals, if_pos hlists]
    rfl

end Tick

namespace GatewayState

variable {st : GatewayState}

theorem mem_sessions (h : st.actor.agents.lookup agentID = some sess) : sess ∈ st.sessions :=
  List.mem_map_of_mem (f := fun e : Sigma fun _ : String => AgentSession => e.2)
    (AList.mem_lookup_iff.1 h)

theorem agentQuality_connected (hinv : st.actor.Inv)
    (h : st.actor.agents.lookup agentID = some sess) (links : AgentSession → Link) :
    st.AgentQuality links agentID =
      if st.sessions = [sess] then (links sess).gauges else (-1, -1) := by
  have hmem := mem_sessions h
  have hid := hinv.keyed _ _ h
  unfold AgentQuality session
  cases hs : st.sessions with
  | nil =>
    rw [hs] at hmem
    cases hmem
  | cons s rest =>
    rw [hs] at hmem
    cases rest with
    | nil =>
      obtain rfl := List.mem_singleton.1 hmem
      simp only [hid, ne_eq, not_true, if_false, if_true]
    | cons s' rest =>
      have hmany : ¬s :: s' :: rest = [sess] := fun hone =>
        List.cons_ne_nil s' rest (List.cons.inj hone).2
      rw [if_neg hmany]

end GatewayState

theorem Tracker.lossPct_eq_neg_one (q : Tracker) : q.LossPct = -1 ↔ q.results = [] := by
  unfold LossPct
  split
  · rename_i hnil
    exact ⟨fun _ => List.length_eq_zero_iff.1 hnil, fun _ => rfl⟩
  · rename_i hsome
    have hnonneg : (0 : Rat) ≤ 100 * (q.results.filter fun r => !r).length / q.results.length :=
      div_nonneg (mul_nonneg (by decide) (Nat.cast_nonneg _)) (Nat.cast_nonneg _)
    constructor
    · intro hneg
      rw [hneg] at hnonneg
      exact absurd hnonneg (by decide)
    · intro hnil
      exact absurd (List.length_eq_zero_iff.2 hnil) hsome

theorem Link.gauges_unknown (link : Link) : link.gauges = (-1, -1) ↔ link.Unmeasured := by
  unfold gauges Unmeasured
  rw [Prod.mk.injEq]
  refine and_congr ?_ ?_
  · split
    · rename_i hpos
      have hrat : (0 : Rat) < link.rttMillis := Rat.intCast_pos.2 hpos
      exact ⟨fun h => absurd (h ▸ hrat) (by decide), fun h => absurd hpos (not_lt.2 h)⟩
    · rename_i hpos
      exact ⟨fun _ => not_lt.1 hpos, fun _ => rfl⟩
  · cases link.quality with
    | none =>
      refine ⟨fun _ quality h => ?_, fun _ => rfl⟩
      cases h
    | some quality =>
      simp only [Option.some.injEq, forall_eq']
      exact quality.lossPct_eq_neg_one

theorem Stats.Store.lookup_SampleAgent (s : Store) (hid : agentID ≠ "") (r : Reading)
    (victim : String) :
    (s.SampleAgent agentID r victim).agents.lookup agentID =
      some (((s.agents.lookup agentID).getD newHistory).sample r).2 := by
  unfold SampleAgent
  rw [if_neg hid]
  cases s.agents.lookup agentID with
  | none => exact AList.lookup_insert _
  | some h => exact AList.lookup_insert _

/-- Once an agent has had a connection, each tick records its own traffic, but its own link only
while no other agent is connected. -/
theorem agent_sample_own_iff (g : Gateway) (store : AgentStore) (cmds : List Command)
    (ops : List Op) (toLower : String → String) (links : AgentSession → Link) (now : Nat)
    (agentID : String) (sess : AgentSession)
    (h : (g.run (GatewayState.start store) cmds).actor.agents.lookup agentID = some sess) :
    let st := g.run (GatewayState.start store) cmds
    let samples := agentSamples toLower st links (Registry.NewRegistry.run ops) now
    let ledger := Ledger.run [] ops
    (∀ r, (agentID, r) ∈ samples →
      r.t = now ∧ (⟨r.appIn, r.appOut, r.conns, r.players.toNat⟩ : AgentTraffic) =
        ledger.traffic toLower agentID ∧
      ∀ (s : Store) (victim : String), (s.SampleAgent agentID r victim).agents.lookup agentID =
        some (((s.agents.lookup agentID).getD newHistory).sample r).2) ∧
    ((∃! r, (agentID, r) ∈ samples) ↔ agentID ≠ "" ∧ ledger.owned agentID ≠ []) ∧
    ((∀ r, (agentID, r) ∈ samples →
        r = readingOf now (ledger.traffic toLower agentID) (links sess).gauges) ↔
      agentID = "" ∨ ledger.owned agentID = [] ∨ st.sessions = [sess] ∨
        (links sess).Unmeasured) := by
  intro st samples ledger
  have hinv : st.actor.Inv := Gateway.run_inv g Actor.newActor_inv cmds
  have hrefines : Refines (Registry.NewRegistry.run ops) ledger := refines_new.run ops
  have hmem (r : Reading) : (agentID, r) ∈ samples ↔
      agentID ≠ "" ∧ ledger.owned agentID ≠ [] ∧
        r = readingOf now (ledger.traffic toLower agentID) (st.AgentQuality links agentID) := by
    rw [← hrefines.traffic, ← hrefines.lists]
    exact mem_agentSamples toLower st links _ now
  have hquality := GatewayState.agentQuality_connected hinv h links
  refine ⟨fun r hr => ?_, ?_, ?_⟩
  · obtain ⟨hid, -, rfl⟩ := (hmem r).1 hr
    exact ⟨rfl, rfl, fun s victim => s.lookup_SampleAgent hid _ victim⟩
  · constructor
    · rintro ⟨r, hr, -⟩
      obtain ⟨hid, howned, -⟩ := (hmem r).1 hr
      exact ⟨hid, howned⟩
    · rintro ⟨hid, howned⟩
      exact ⟨_, (hmem _).2 ⟨hid, howned, rfl⟩, fun r hr => ((hmem r).1 hr).2.2⟩
  · constructor
    · intro hown
      by_cases hid : agentID = ""
      · exact .inl hid
      · by_cases howned : ledger.owned agentID = []
        · exact .inr (.inl howned)
        · by_cases halone : st.sessions = [sess]
          · exact .inr (.inr (.inl halone))
          · have heq := hown _ ((hmem _).2 ⟨hid, howned, rfl⟩)
            rw [hquality, if_neg halone] at heq
            have hgauges : (links sess).gauges = (-1, -1) :=
              Prod.ext (congrArg Reading.rttMs heq).symm (congrArg Reading.lossPct heq).symm
            exact .inr (.inr (.inr ((links sess).gauges_unknown.1 hgauges)))
    · rintro hcase r hr
      obtain ⟨hid, howned, rfl⟩ := (hmem r).1 hr
      obtain hempty | hnone | halone | hunmeasured := hcase
      · exact absurd hempty hid
      · exact absurd hnone howned
      · rw [hquality, if_pos halone]
      · rw [hquality, (links sess).gauges_unknown.2 hunmeasured, ite_self]

/-- Two agents are connected, and the first has carried a player's connection. -/
def twoAgents : List Command :=
  [.admitSession (.plain 0 "a"), .admitSession (.plain 1 "b")]

def oneConnection : List Op :=
  [.Open "a" true, .SetPlayer 1 ⟨"Steve", ""⟩, .count 1 300 4000]

/-- Every link answers within 25 ms, and has lost one ping of four. -/
def goodLink : Link := ⟨25, some ⟨[true, false, true, true]⟩⟩

theorem agent_sample_own_iff_alone :
    let st := idleGateway.run (GatewayState.start AgentStore.empty) [.admitSession (.plain 0 "a")]
    st.actor.agents.lookup "a" = some (.plain 0 "a") ∧
    ∀ r, ("a", r) ∈ agentSamples String.toLower st (fun _ => goodLink)
      (Registry.NewRegistry.run oneConnection) 100 → r = ⟨100, 300, 4000, 1, 1, 25, 25⟩ := by
  have hlookup : (idleGateway.run (GatewayState.start AgentStore.empty)
      [.admitSession (.plain 0 "a")]).actor.agents.lookup "a" = some (.plain 0 "a") := by
    decide +kernel
  refine ⟨hlookup, fun r hr => ?_⟩
  obtain ⟨-, -, hown⟩ := agent_sample_own_iff idleGateway AgentStore.empty
    [.admitSession (.plain 0 "a")] oneConnection String.toLower (fun _ => goodLink) 100 "a"
    (.plain 0 "a") hlookup
  refine (hown.2 (.inr (.inr (.inl (by decide +kernel)))) r hr).trans ?_
  decide +kernel

/-- With a second agent connected, the gauges of the first read as unknown. -/
theorem agent_sample_not_own :
    let st := idleGateway.run (GatewayState.start AgentStore.empty) twoAgents
    st.actor.agents.lookup "a" = some (.plain 0 "a") ∧
      agentSamples String.toLower st (fun _ => goodLink)
        (Registry.NewRegistry.run oneConnection) 100 =
        [("a", ⟨100, 300, 4000, 1, 1, -1, -1⟩)] ∧
      goodLink.gauges = (25, 25) := by
  decide +kernel

end ProxyForward

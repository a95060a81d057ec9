import ProxyForward.AgentStore
import Mathlib.Data.List.Dedup
import Mathlib.Data.List.Sort

namespace ProxyForward
set_option autoImplicit true

def eventPortReassigned : String := "port-reassigned"
def eventCloneSuspected : String := "clone-suspected"

/-- One fix or conflict the gateway recorded for the event log. -/
structure GatewayEvent where
  seq : Nat
  timeMs : Int
  kind : String
  agentID : String
  tunnelID : String
  message : String
  requestedPort : Int
  actualPort : Int
  deriving DecidableEq, Repr

/-- A bounded buffer of the newest events, numbered in push order. -/
structure EventRing where
  cap : Nat
  nextSeq : Nat
  events : List GatewayEvent
  deriving DecidableEq, Repr

def eventRingCap : Nat := 256

def newEventRing (capacity : Nat) : EventRing := ⟨capacity, 0, []⟩

def EventRing.push (r : EventRing) (ev : GatewayEvent) : EventRing :=
  let seq := r.nextSeq + 1
  let events := r.events ++ [{ ev with seq := seq }]
  { r with nextSeq := seq, events := events.drop (events.length - r.cap) }

def EventRing.since (r : EventRing) (cursor : Nat) : List GatewayEvent :=
  r.events.filter fun e => cursor < e.seq

theorem EventRing.mem_since_push (r : EventRing) (h : 0 < r.cap) (ev : GatewayEvent) :
    { ev with seq := r.nextSeq + 1 } ∈ (r.push ev).since r.nextSeq := by
  simp only [since, push, List.mem_filter, decide_eq_true_eq]
  refine ⟨?_, Nat.lt_succ_self _⟩
  have hkept : (r.events ++ [{ ev with seq := r.nextSeq + 1 }]).length - r.cap ≤
      r.events.length := by
    rw [List.length_append, List.length_singleton]
    omega
  rw [List.drop_append_of_le_length hkept]
  exact List.mem_append_right _ (List.mem_singleton_self _)

def portInAllowlist (p : Int) (allowlist : List Int) : Bool :=
  allowlist.isEmpty || allowlist.contains p

/-- The ports to try, in order, when the requested one is in use; 0 lets the system choose. -/
def reassignCandidates (requested : Int) (scope : Scope) (allowlist : List Int) : List Int :=
  if requested = 0 then []
  else if scope.ports = [] ∧ allowlist = [] then [0]
  else
    let candidates := if scope.ports ≠ [] then scope.ports else allowlist
    (candidates.filter fun p => p ≠ requested ∧ 0 < p ∧ scope.allowsPort p ∧
      portInAllowlist p allowlist).dedup.insertionSort (· ≤ ·)

/-- A port that both an agent's scope and the gateway's allowlist permit. -/
def portPermitted (scope : Scope) (allowlist : List Int) (p : Int) : Bool :=
  scope.allowsPort p && portInAllowlist p allowlist

theorem portPermitted_unconstrained (hs : scope.ports = []) :
    portPermitted scope [] p = true := by
  simp only [portPermitted, Scope.allowsPort, hs, portInAllowlist, List.isEmpty_nil, Bool.true_or,
    Bool.and_self]

theorem reassignCandidates_permitted (h : p ∈ reassignCandidates requested scope allowlist) :
    p = 0 ∧ scope.ports = [] ∧ allowlist = [] ∨ p ≠ 0 ∧ portPermitted scope allowlist p = true := by
  unfold reassignCandidates at h
  split at h
  · cases h
  · split at h
    · rename_i hu
      exact .inl ⟨List.mem_singleton.1 h, hu⟩
    · simp only [List.mem_insertionSort, List.mem_dedup, List.mem_filter,
        decide_eq_true_eq] at h
      obtain ⟨-, -, hp, hs, ha⟩ := h
      exact .inr ⟨by omega, by rw [portPermitted, hs, ha]; rfl⟩

end ProxyForward

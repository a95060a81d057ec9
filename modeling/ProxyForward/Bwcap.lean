import Mathlib.Tactic.Common

namespace ProxyForward
set_option autoImplicit true

/-- What a bandwidth cap applies to. -/
inductive CapScope where
  | combined
  | perDirection
  | perConnection
  deriving DecidableEq, Repr

def bytesPerMbps : Int := 125000

/-- Unknown scopes throttle the tunnel as a whole rather than failing it. -/
def normalizeScope (s : String) : CapScope :=
  if s = "per-direction" then .perDirection
  else if s = "per-connection" then .perConnection
  else .combined

/-- The rate of a token bucket, in bytes a second: a Go `int` product, so it wraps. -/
def limitOf (mbps : Int) : Int := (mbps * bytesPerMbps).bmod 18446744073709551616

/-- A token bucket; every one is built with the same burst. -/
structure RateLimiter where
  limit : Int
  deriving DecidableEq, Repr

def newLimiter (mbps : Int) : RateLimiter := ⟨limitOf mbps⟩

/-- The shared limiters of one tunnel's cap. -/
structure LimiterSet where
  scope : CapScope
  mbps : Int
  combined : Option RateLimiter
  inbound : Option RateLimiter
  outbound : Option RateLimiter
  deriving DecidableEq, Repr

def buildSet (mbps : Int) (scope : String) : LimiterSet :=
  let s := normalizeScope scope
  if mbps ≤ 0 then ⟨s, mbps, none, none, none⟩
  else match s with
    | .perDirection => ⟨s, mbps, none, some (newLimiter mbps), some (newLimiter mbps)⟩
    | .perConnection => ⟨s, mbps, none, none, none⟩
    | .combined => ⟨s, mbps, some (newLimiter mbps), none, none⟩

def LimiterSet.rate (set : LimiterSet) : Int := set.mbps

/-- A rate-only change reaches the shared limiters in place. -/
def LimiterSet.setRate (set : LimiterSet) (mbps : Int) : LimiterSet :=
  let lim (_ : RateLimiter) : RateLimiter := ⟨limitOf mbps⟩
  { set with
    combined := set.combined.map lim
    inbound := set.inbound.map lim
    outbound := set.outbound.map lim
    mbps := mbps }

/-- The inbound and outbound limiters of one new connection. -/
def LimiterSet.resolve (set : LimiterSet) : Option RateLimiter × Option RateLimiter :=
  if set.rate ≤ 0 then (none, none)
  else match set.scope with
    | .perDirection => (set.inbound, set.outbound)
    | .perConnection => (some (newLimiter set.rate), some (newLimiter set.rate))
    | .combined => (set.combined, set.combined)

/-- Make a live set match a cap; the flag says that the result is a fresh set. -/
def reconcileSet (cur : Option LimiterSet) (mbps : Int) (scope : String) : LimiterSet × Bool :=
  match cur with
  | none => (buildSet mbps scope, true)
  | some cur =>
    if cur.scope ≠ normalizeScope scope ∨ ¬(cur.rate ≤ 0 ↔ mbps ≤ 0) then
      (buildSet mbps scope, true)
    else if 0 < mbps ∧ cur.rate ≠ mbps then (cur.setRate mbps, false)
    else (cur, false)

/-- The shared limiters of a set are those that `buildSet` makes for its scope and rate. -/
def LimiterSet.Built (set : LimiterSet) : Prop :=
  ∃ scope, set = buildSet set.mbps scope

/-- A set enforces a cap: its scope is the cap's, its rate is the cap's rate (all rates up to zero
being no cap), and connections get the limiters a set built for the cap gives them. -/
def LimiterSet.Enforces (set : LimiterSet) (mbps : Int) (scope : String) : Prop :=
  set.scope = normalizeScope scope ∧ max set.rate 0 = max mbps 0 ∧
    set.resolve = (buildSet mbps scope).resolve

instance (set : LimiterSet) (mbps : Int) (scope : String) : Decidable (set.Enforces mbps scope) :=
  inferInstanceAs (Decidable (_ ∧ _ ∧ _))

theorem buildSet_scope (mbps : Int) (scope : String) :
    (buildSet mbps scope).scope = normalizeScope scope := by
  unfold buildSet
  split
  · rfl
  · cases normalizeScope scope <;> rfl

theorem buildSet_mbps (mbps : Int) (scope : String) : (buildSet mbps scope).mbps = mbps := by
  unfold buildSet
  split
  · rfl
  · cases normalizeScope scope <;> rfl

theorem buildSet_built (mbps : Int) (scope : String) : (buildSet mbps scope).Built :=
  ⟨scope, by rw [buildSet_mbps]⟩

theorem buildSet_enforces (mbps : Int) (scope : String) :
    (buildSet mbps scope).Enforces mbps scope :=
  ⟨buildSet_scope mbps scope, by rw [LimiterSet.rate, buildSet_mbps], rfl⟩

theorem buildSet_congr (h : normalizeScope scope = normalizeScope scope') :
    buildSet mbps scope = buildSet mbps scope' := by
  simp only [buildSet, h]

theorem resolve_uncapped {set : LimiterSet} (h : set.rate ≤ 0) :
    set.resolve = (none, none) := by
  rw [LimiterSet.resolve, if_pos h]

theorem setRate_buildSet (h : 0 < mbps) (h' : 0 < mbps') :
    (buildSet mbps scope).setRate mbps' = buildSet mbps' scope := by
  simp only [buildSet, Int.not_le.2 h, Int.not_le.2 h', if_false]
  cases normalizeScope scope <;> rfl

theorem LimiterSet.Built.enforces {set : LimiterSet} {mbps : Int} {scope : String} (hb : set.Built)
    (hs : set.scope = normalizeScope scope) (hr : max set.rate 0 = max mbps 0) :
    set.Enforces mbps scope := by
  refine ⟨hs, hr, ?_⟩
  obtain ⟨s, he⟩ := hb
  have hn : normalizeScope s = normalizeScope scope := by
    rw [← hs, he, buildSet_scope]
  by_cases h : set.rate ≤ 0
  · have hm : (buildSet mbps scope).rate ≤ 0 := by
      rw [LimiterSet.rate, buildSet_mbps]
      omega
    rw [resolve_uncapped h, resolve_uncapped hm]
  · have hm : set.mbps = mbps := by
      simp only [LimiterSet.rate] at h hr
      omega
    rw [he, hm, buildSet_congr hn]

theorem reconcileSet_enforces (hb : ∀ set, cur = some set → LimiterSet.Built set) :
    (reconcileSet cur mbps scope).1.Built ∧
      (reconcileSet cur mbps scope).1.Enforces mbps scope := by
  cases cur with
  | none => exact ⟨buildSet_built _ _, buildSet_enforces _ _⟩
  | some set =>
    have hset := hb set rfl
    simp only [reconcileSet]
    split
    · exact ⟨buildSet_built _ _, buildSet_enforces _ _⟩
    · rename_i hk
      rw [not_or, not_not, not_not] at hk
      obtain ⟨hs, hz⟩ := hk
      split
      · rename_i hr
        obtain ⟨s, he⟩ := hset
        have hn : normalizeScope s = normalizeScope scope := by
          rw [← hs, he, buildSet_scope]
        have hp : 0 < set.mbps := by
          simp only [LimiterSet.rate] at hz
          omega
        rw [he, setRate_buildSet hp hr.1, buildSet_congr hn]
        exact ⟨buildSet_built _ _, buildSet_enforces _ _⟩
      · exact ⟨hset, hset.enforces hs (by omega)⟩

end ProxyForward

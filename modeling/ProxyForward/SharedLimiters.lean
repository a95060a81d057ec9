import ProxyForward.Agent
import ProxyForward.Listeners
import ProxyForward.Runs

namespace ProxyForward.Bwcap
set_option autoImplicit true

/-- A shared set as an object: the tunnel it is for, and the call that built it. -/
structure SetPtr where
  tunnelID : String
  num : Nat
  deriving DecidableEq, Repr

inductive Slot where
  | combined
  | inbound
  | outbound
  deriving DecidableEq, Repr

/-- The scope whose sets have a limiter there. -/
def Slot.scope : Slot → CapScope
  | .combined => .combined
  | .inbound | .outbound => .perDirection

/-- A limiter as an object: one of a shared set, or one minted for a connection. -/
inductive LimiterPtr where
  | shared (set : SetPtr) (slot : Slot)
  | minted (num : Nat) (limiter : RateLimiter)
  deriving DecidableEq, Repr

/-- The limiters of one connection. -/
structure Limits where
  inbound : Option LimiterPtr
  outbound : Option LimiterPtr
  deriving DecidableEq, Repr

/-- The object is a limiter of the connection, in one direction or the other. -/
def Limits.Has (limits : Limits) (l : LimiterPtr) : Prop :=
  limits.inbound = some l ∨ limits.outbound = some l

def limiterAt (set : LimiterSet) : Slot → Option RateLimiter
  | .combined => set.combined
  | .inbound => set.inbound
  | .outbound => set.outbound

/-- The limiters that `LimiterSet.resolve` gives, as objects. -/
def pointers (set : LimiterSet) (p : SetPtr) (num : Nat) : Limits :=
  let asLimiter (slot : Slot) := (limiterAt set slot).map fun _ => LimiterPtr.shared p slot
  if set.rate ≤ 0 then ⟨none, none⟩
  else match set.scope with
    | .perDirection => ⟨asLimiter .inbound, asLimiter .outbound⟩
    | .perConnection =>
      let l := LimiterPtr.minted num (newLimiter set.rate)
      ⟨some l, some l⟩
    | .combined => ⟨asLimiter .combined, asLimiter .combined⟩

/-- The shared set of each tunnel. `calls` numbers what the calls allocate. -/
structure Registry where
  sets : GoMap SetPtr
  heap : SetPtr → LimiterSet
  calls : Nat

namespace Registry

def new : Registry := ⟨∅, fun _ => buildSet 0 "", 0⟩

/-- The set that a tunnel's cap is reconciled to: the one in force, changed in place, or a fresh
one. -/
def reconcile (r : Registry) (tunID : String) (mbps : Int) (scope : String) :
    SetPtr × LimiterSet :=
  let cur := r.sets.lookup tunID
  let (set, swapped) := reconcileSet (cur.map r.heap) mbps scope
  let fresh : SetPtr := ⟨tunID, r.calls⟩
  (if swapped then fresh else cur.getD fresh, set)

/-- The limiters of a new connection. -/
def resolve (r : Registry) (tunID : String) (mbps : Int) (scope : String) : Limits × Registry :=
  let (p, set) := r.reconcile tunID mbps scope
  (pointers set p r.calls, ⟨r.sets.insert tunID p, Function.update r.heap p set, r.calls + 1⟩)

def release (r : Registry) (tunID : String) : Registry := { r with sets := r.sets.erase tunID }

/-- The rate of a limiter, in bytes a second. -/
def limit (r : Registry) : LimiterPtr → Option Int
  | .shared p slot => (limiterAt (r.heap p) slot).map (·.limit)
  | .minted _ l => some l.limit

end Registry

/-- A connection that is being served: the copy of its tunnel that it looked up, and its limiters
once it has resolved them. -/
structure Served where
  tun : Tunnel
  limits : Option Limits
  deriving DecidableEq, Repr

/-- An agent that serves connections. `owed` are the sets that the calls in progress have yet to
release, and `opened` numbers the connections. -/
structure ServingAgent where
  tunnels : List Tunnel
  owed : List String
  bwLimiters : Registry
  conns : AList fun _ : Nat => Served
  opened : Nat

/-- What happens at an agent. The app assigns the tunnels of the config that it shares with the
agent before it applies them. -/
inductive Act where
  | assign (tunnels : List Tunnel)
  | applyTunnels (tunnels : List Tunnel)
  | applyPushedConfig (specs : List TunnelSpec)
  | release (tunID : String)
  | openConn (tunID : String)
  | resolve (conn : Nat)
  | close (conn : Nat)
  deriving DecidableEq, Repr

def tunnelByID (tunnels : List Tunnel) (id : String) : Option Tunnel :=
  tunnels.find? fun t => t.id = id

namespace ServingAgent

def start (tunnels : List Tunnel) : ServingAgent := ⟨tunnels, [], .new, ∅, 0⟩

/-- Swap the tunnels; the sets of those that are gone are released one by one afterwards. -/
def swap (a : ServingAgent) (tunnels : List Tunnel) (gone : List String) : ServingAgent :=
  { a with tunnels := tunnels, owed := a.owed ++ gone }

def step (a : ServingAgent) : Act → Option ServingAgent
  | .assign tunnels => some (a.swap tunnels [])
  | .applyTunnels tunnels => some (a.swap tunnels
      ((enabledByID a.tunnels).keys.filter fun i => i ∉ (enabledByID tunnels).keys))
  | .applyPushedConfig specs => some (a.swap (mergeTunnels a.tunnels specs)
      (((a.tunnels.filter (·.enabled)).map (·.id)).filter fun i => i ∉ specs.map (·.id)))
  | .release tunID =>
    if tunID ∈ a.owed then
      some { a with owed := a.owed.erase tunID, bwLimiters := a.bwLimiters.release tunID }
    else none
  | .openConn tunID =>
    match tunnelByID a.tunnels tunID with
    | none => some a
    | some tun =>
      some { a with conns := a.conns.insert a.opened ⟨tun, none⟩, opened := a.opened + 1 }
  | .resolve conn =>
    match a.conns.lookup conn with
    | some ⟨tun, none⟩ =>
      let (limits, bwLimiters) := a.bwLimiters.resolve tun.id tun.options.bandwidthLimitMbps
        tun.options.bandwidthLimitScope
      some { a with conns := a.conns.insert conn ⟨tun, some limits⟩, bwLimiters := bwLimiters }
    | _ => none
  | .close conn => some { a with conns := a.conns.erase conn }

end ServingAgent

/-- The cap of a tunnel: what it applies to, and its rate in bytes a second. -/
def capOf (t : Tunnel) : Option (CapScope × Int) :=
  if 0 < t.options.bandwidthLimitMbps then
    some (normalizeScope t.options.bandwidthLimitScope, limitOf t.options.bandwidthLimitMbps)
  else none

/-- The cap of the tunnel with this id, if it is enabled. -/
def configured (tunnels : List Tunnel) (id : String) : Option (CapScope × Int) :=
  ((tunnelByID tunnels id).filter (·.enabled)).bind capOf

/-- What a set of that scope gives to every connection. -/
def sharedLimits (p : SetPtr) : CapScope → Limits
  | .perDirection => ⟨some (.shared p .inbound), some (.shared p .outbound)⟩
  | _ => ⟨some (.shared p .combined), some (.shared p .combined)⟩

namespace ServingAgent

/-- The connections that have their limiters. -/
def resolved (a : ServingAgent) : List Nat :=
  (a.conns.entries.filter fun e => e.2.limits.isSome).map (·.1)

/-- The connection is live on the tunnel with these limiters, and is not one of the `old` ones. -/
def Live (a : ServingAgent) (old : List Nat) (id : String) (conn : Nat) (limits : Limits) : Prop :=
  conn ∉ old ∧ ∃ tun, a.conns.lookup conn = some ⟨tun, some limits⟩ ∧ tun.id = id

/-- The tunnel is enabled, and capped with this scope. -/
def Stays (id : String) (scope : CapScope) (a : ServingAgent) : Prop :=
  ∃ limit, configured a.tunnels id = some (scope, limit)

/-- The live connections of the tunnel share the limiters of one set, whose rate is the one that is
configured. -/
def Follows (old : List Nat) (id : String) (a : ServingAgent) : Prop :=
  ∀ scope limit, configured a.tunnels id = some (scope, limit) →
    ∃ p, ∀ conn limits, a.Live old id conn limits →
      limits = sharedLimits p scope ∧
      ∀ l, limits.Has l → a.bwLimiters.limit l = some limit

/-- The tunnels leave the cap as it is if it has live connections. -/
def Undisturbed (a : ServingAgent) (old : List Nat) (id : String) (tunnels : List Tunnel) : Prop :=
  (∃ conn limits, a.Live old id conn limits) → configured tunnels id = configured a.tunnels id

/-- No change of the config changes the cap under live connections; and a connection that resolves
its limiters has looked up the cap that is configured, and finds the set of the live ones. -/
def Fits (old : List Nat) (id : String) (a : ServingAgent) : Act → Prop
  | .assign tunnels | .applyTunnels tunnels => a.Undisturbed old id tunnels
  | .applyPushedConfig specs => a.Undisturbed old id (mergeTunnels a.tunnels specs)
  | .resolve conn => ∀ tun scope limit, a.conns.lookup conn = some ⟨tun, none⟩ → tun.id = id →
      configured a.tunnels id = some (scope, limit) →
      capOf tun = some (scope, limit) ∧
      ∀ conn limits, a.Live old id conn limits →
        ∃ p ∈ a.bwLimiters.sets.lookup id, limits = sharedLimits p scope
  | _ => True

end ServingAgent

theorem limiterAt_buildSet (mbps : Int) (s : String) (slot : Slot) :
    limiterAt (buildSet mbps s) slot =
      if 0 < mbps ∧ slot.scope = normalizeScope s then some (newLimiter mbps) else none := by
  unfold buildSet
  by_cases hpos : mbps ≤ 0
  · rw [if_pos hpos, if_neg fun h => Int.not_le.2 h.1 hpos]
    cases slot <;> rfl
  · rw [if_neg hpos]
    have hpos : 0 < mbps := Int.not_le.1 hpos
    cases normalizeScope s <;> cases slot <;> simp [limiterAt, Slot.scope, hpos]

theorem sharedLimits_has (hscope : scope ≠ .perConnection) (h : (sharedLimits p scope).Has l) :
    ∃ slot : Slot, l = .shared p slot ∧ slot.scope = scope := by
  cases scope with
  | perConnection => exact absurd rfl hscope
  | combined =>
    refine ⟨.combined, ?_, rfl⟩
    obtain h | h := h <;> exact (Option.some.inj h).symm
  | perDirection =>
    obtain h | h := h
    · exact ⟨.inbound, (Option.some.inj h).symm, rfl⟩
    · exact ⟨.outbound, (Option.some.inj h).symm, rfl⟩

theorem exists_sharedLimits_has (p : SetPtr) (scope : CapScope) :
    ∃ l, (sharedLimits p scope).Has l := by
  cases scope <;> exact ⟨_, .inl rfl⟩

theorem pointers_capped (hpos : 0 < mbps) (hscope : scope ≠ .perConnection) :
    pointers (buildSet mbps s) p num = sharedLimits q scope ↔ q = p ∧ normalizeScope s = scope := by
  have hrate : ¬(buildSet mbps s).rate ≤ 0 := by
    rw [LimiterSet.rate, buildSet_mbps]
    omega
  unfold pointers
  simp only [if_neg hrate, buildSet_scope, limiterAt_buildSet, hpos, true_and]
  cases hs : normalizeScope s <;> cases scope <;>
    simp [sharedLimits, Slot.scope, eq_comm] at hscope ⊢

theorem pointers_uncapped {set : LimiterSet} (h : set.rate ≤ 0) :
    pointers set p num = ⟨none, none⟩ := by
  rw [pointers, if_pos h]

theorem pointers_has {set : LimiterSet} (h : (pointers set p num).Has (.shared q slot)) :
    q = p := by
  unfold pointers at h
  split at h
  · obtain h | h := h <;> cases h
  · split at h
    · obtain h | h := h <;>
        obtain ⟨l, -, hl⟩ := Option.map_eq_some_iff.1 h <;>
          exact ((LimiterPtr.shared.inj hl).1).symm
    · obtain h | h := h <;> cases h
    · obtain h | h := h <;>
        obtain ⟨l, -, hl⟩ := Option.map_eq_some_iff.1 h <;>
          exact ((LimiterPtr.shared.inj hl).1).symm

theorem sharedLimits_ne : sharedLimits p scope ≠ ⟨none, none⟩ := by
  cases scope <;> exact nofun

theorem built_capped {set : LimiterSet} (hb : set.Built) (h : limiterAt set slot = some l) :
    0 < set.mbps ∧ set.scope = slot.scope := by
  obtain ⟨s, he⟩ := hb
  rw [he, limiterAt_buildSet] at h
  split at h
  · rename_i hslot
    rw [he, buildSet_mbps, buildSet_scope]
    exact ⟨hslot.1, hslot.2.symm⟩
  · cases h

theorem reconcileSet_capped (hb : ∀ set, cur = some set → LimiterSet.Built set)
    (hpos : 0 < mbps) : (reconcileSet cur mbps s).1 = buildSet mbps s := by
  have henforces : (reconcileSet cur mbps s).1.Built ∧
      (reconcileSet cur mbps s).1.Enforces mbps s := reconcileSet_enforces hb
  obtain ⟨⟨s', hbuilt⟩, hscope, hrate, -⟩ := henforces
  have hmbps : (reconcileSet cur mbps s).1.mbps = mbps := by
    rw [LimiterSet.rate] at hrate
    omega
  rw [hmbps] at hbuilt
  rw [hbuilt, buildSet_scope] at hscope
  rw [hbuilt, buildSet_congr hscope]

theorem reconcileSet_uncapped (hb : ∀ set, cur = some set → LimiterSet.Built set)
    (hpos : ¬0 < mbps) : (reconcileSet cur mbps s).1.rate ≤ 0 := by
  have henforces : (reconcileSet cur mbps s).1.Built ∧
      (reconcileSet cur mbps s).1.Enforces mbps s := reconcileSet_enforces hb
  obtain ⟨-, -, hrate, -⟩ := henforces
  omega

theorem reconcileSet_kept {set : LimiterSet} (hscope : set.scope = normalizeScope s)
    (hset : 0 < set.mbps) (hpos : 0 < mbps) : (reconcileSet (some set) mbps s).2 = false := by
  have hkept : ¬(set.scope ≠ normalizeScope s ∨ ¬(set.rate ≤ 0 ↔ mbps ≤ 0)) := by
    rw [LimiterSet.rate, not_or, not_not, not_not]
    exact ⟨hscope, by omega⟩
  rw [reconcileSet, if_neg hkept]
  split <;> rfl

namespace Registry

/-- Every set was built as one, and each tunnel's set is its own. -/
structure Sound (r : Registry) : Prop where
  built : ∀ p, (r.heap p).Built
  sets : ∀ id p, r.sets.lookup id = some p → p.tunnelID = id ∧ p.num < r.calls

variable {r : Registry}

theorem Sound.cur (h : r.Sound) : ∀ set, (r.sets.lookup tunID).map r.heap = some set →
    LimiterSet.Built set := by
  intro set hset
  obtain ⟨p, -, rfl⟩ := Option.map_eq_some_iff.1 hset
  exact h.built p

theorem sound_new : Registry.new.Sound where
  built _ := buildSet_built 0 ""
  sets id p h := by
    rw [Registry.new, AList.lookup_empty] at h
    cases h

theorem reconcile_cases (r : Registry) (tunID : String) (mbps : Int) (s : String) :
    r.sets.lookup tunID = some (r.reconcile tunID mbps s).1 ∨
      (r.reconcile tunID mbps s).1 = ⟨tunID, r.calls⟩ := by
  unfold reconcile
  dsimp only
  split
  · exact .inr rfl
  · cases r.sets.lookup tunID with
    | none => exact .inr rfl
    | some p => exact .inl rfl

theorem Sound.reconciled (h : r.Sound) (tunID : String) (mbps : Int) (s : String) :
    (r.reconcile tunID mbps s).1.tunnelID = tunID ∧
      (r.reconcile tunID mbps s).1.num < r.calls + 1 := by
  obtain hcur | hfresh := r.reconcile_cases tunID mbps s
  · obtain ⟨hid, hnum⟩ := h.sets _ _ hcur
    exact ⟨hid, Nat.lt_succ_of_lt hnum⟩
  · rw [hfresh]
    exact ⟨rfl, Nat.lt_succ_self _⟩

theorem Sound.heap_resolve (h : r.Sound) (hne : p.tunnelID ≠ tunID) :
    (r.resolve tunID mbps s).2.heap p = r.heap p := by
  have hp : p ≠ (r.reconcile tunID mbps s).1 := by
    rintro rfl
    exact hne (h.reconciled tunID mbps s).1
  exact Function.update_of_ne hp _ _

theorem lookup_resolve (r : Registry) (tunID : String) (mbps : Int) (s id : String) :
    (r.resolve tunID mbps s).2.sets.lookup id =
      if id = tunID then some (r.reconcile tunID mbps s).1 else r.sets.lookup id :=
  lookup_insert_eq _ _ _ _

theorem Sound.resolve (h : r.Sound) (tunID : String) (mbps : Int) (s : String) :
    (r.resolve tunID mbps s).2.Sound where
  built p := by
    change (Function.update r.heap (r.reconcile tunID mbps s).1 (r.reconcile tunID mbps s).2
      p).Built
    by_cases hp : p = (r.reconcile tunID mbps s).1
    · rw [hp, Function.update_self]
      exact (reconcileSet_enforces h.cur).1
    · rw [Function.update_of_ne hp]
      exact h.built p
  sets id p hp := by
    rw [lookup_resolve] at hp
    split at hp
    · cases hp
      rename_i hid
      rw [hid]
      exact h.reconciled tunID mbps s
    · obtain ⟨hid, hnum⟩ := h.sets id p hp
      exact ⟨hid, Nat.lt_succ_of_lt hnum⟩

theorem Sound.release (h : r.Sound) (tunID : String) : (r.release tunID).Sound where
  built := h.built
  sets id p hp := by
    by_cases hid : id = tunID
    · rw [hid, Registry.release, AList.lookup_erase] at hp
      cases hp
    · rw [Registry.release, AList.lookup_erase_ne hid] at hp
      exact h.sets id p hp

theorem Sound.resolve_shared (h : r.Sound) (tunID : String) (hscope : scope ≠ .perConnection) :
    (r.resolve tunID mbps s).1 = sharedLimits q scope ↔
      q = (r.reconcile tunID mbps s).1 ∧ 0 < mbps ∧ normalizeScope s = scope := by
  have hset : (r.reconcile tunID mbps s).2 =
      (reconcileSet ((r.sets.lookup tunID).map r.heap) mbps s).1 := rfl
  have hlimits : (r.resolve tunID mbps s).1 =
      pointers (r.reconcile tunID mbps s).2 (r.reconcile tunID mbps s).1 r.calls := rfl
  rw [hlimits, hset]
  by_cases hpos : 0 < mbps
  · rw [reconcileSet_capped h.cur hpos, pointers_capped hpos hscope]
    simp only [hpos, true_and]
  · rw [pointers_uncapped (reconcileSet_uncapped h.cur hpos)]
    exact iff_of_false sharedLimits_ne.symm fun hq => hpos hq.2.1

theorem Sound.limit_resolve (h : r.Sound) (tunID : String) (hpos : 0 < mbps)
    (hslot : slot.scope = normalizeScope s) :
    (r.resolve tunID mbps s).2.limit (.shared (r.reconcile tunID mbps s).1 slot) =
      some (limitOf mbps) := by
  have hset : (r.resolve tunID mbps s).2.heap (r.reconcile tunID mbps s).1 = buildSet mbps s :=
    (Function.update_self _ _ _).trans (reconcileSet_capped h.cur hpos)
  rw [limit, hset, limiterAt_buildSet, if_pos ⟨hpos, hslot⟩]
  rfl

theorem Sound.reconcile_kept (h : r.Sound) (hcur : r.sets.lookup tunID = some p)
    (hslot : slot.scope = normalizeScope s) (hlimit : r.limit (.shared p slot) = some rate)
    (hpos : 0 < mbps) : (r.reconcile tunID mbps s).1 = p := by
  obtain ⟨l, hl, -⟩ := Option.map_eq_some_iff.1 hlimit
  obtain ⟨hset, hscope⟩ := built_capped (h.built p) hl
  have hkept := reconcileSet_kept (hscope.trans hslot) hset hpos
  simp only [reconcile, hcur, Option.map_some, hkept, Option.getD_some, Bool.false_eq_true,
    if_false]

end Registry

namespace ServingAgent

/-- What every run keeps: a connection holds limiters of its own tunnel's sets only, and the `old`
connections have resolved theirs. -/
structure Inv (old : List Nat) (a : ServingAgent) : Prop where
  sound : a.bwLimiters.Sound
  held : ∀ conn tun limits, a.conns.lookup conn = some ⟨tun, some limits⟩ → ∀ p slot,
    limits.Has (.shared p slot) → p.tunnelID = tun.id ∧ p.num < a.bwLimiters.calls
  conns : ∀ conn c, a.conns.lookup conn = some c → conn < a.opened
  old : ∀ conn ∈ old, conn < a.opened ∧ ∀ tun, a.conns.lookup conn ≠ some ⟨tun, none⟩

variable {a a' : ServingAgent} {old : List Nat} {id : String}

theorem inv_start (tunnels : List Tunnel) : (start tunnels).Inv [] where
  sound := Registry.sound_new
  held conn tun limits h := by
    rw [start, AList.lookup_empty] at h
    cases h
  conns conn c h := by
    rw [start, AList.lookup_empty] at h
    cases h
  old conn h := absurd h List.not_mem_nil

theorem Inv.resolved (h : a.Inv []) : a.Inv a.resolved where
  sound := h.sound
  held := h.held
  conns := h.conns
  old conn hconn := by
    obtain ⟨e, he, rfl⟩ := List.mem_map.1 hconn
    obtain ⟨hmem, hsome⟩ := List.mem_filter.1 he
    have hlookup : a.conns.lookup e.1 = some e.2 := AList.mem_lookup_iff.2 hmem
    refine ⟨h.conns _ _ hlookup, fun tun htun => ?_⟩
    rw [hlookup] at htun
    rw [Option.some.inj htun] at hsome
    cases hsome

theorem Inv.swap (h : a.Inv old) (tunnels : List Tunnel) (gone : List String) :
    (a.swap tunnels gone).Inv old := ⟨h.sound, h.held, h.conns, h.old⟩

theorem Inv.openConn (h : a.Inv old) (tun : Tunnel) :
    Inv old { a with conns := a.conns.insert a.opened ⟨tun, none⟩, opened := a.opened + 1 } where
  sound := h.sound
  held conn tun' limits hconn := by
    rw [lookup_insert_eq] at hconn
    split at hconn
    · cases hconn
    · exact h.held conn tun' limits hconn
  conns conn c hconn := by
    rw [lookup_insert_eq] at hconn
    split at hconn
    · rename_i heq
      rw [heq]
      exact Nat.lt_succ_self _
    · exact Nat.lt_succ_of_lt (h.conns conn c hconn)
  old conn hconn := by
    obtain ⟨hlt, hresolved⟩ := h.old conn hconn
    refine ⟨Nat.lt_succ_of_lt hlt, fun tun' => ?_⟩
    rw [lookup_insert_eq, if_neg (Nat.ne_of_lt hlt)]
    exact hresolved tun'

theorem Inv.close (h : a.Inv old) (conn : Nat) :
    Inv old { a with conns := a.conns.erase conn } := by
  have hkept (n : Nat) (c : Served) (hn : (a.conns.erase conn).lookup n = some c) :
      a.conns.lookup n = some c := by
    by_cases heq : n = conn
    · rw [heq, AList.lookup_erase] at hn
      cases hn
    · rwa [AList.lookup_erase_ne heq] at hn
  exact {
    sound := h.sound
    held := fun n tun limits hn => h.held n tun limits (hkept n _ hn)
    conns := fun n c hn => h.conns n c (hkept n c hn)
    old := fun n hn => ⟨(h.old n hn).1, fun tun htun => (h.old n hn).2 tun (hkept n _ htun)⟩ }

theorem Inv.resolve (h : a.Inv old) (hconn : a.conns.lookup conn = some ⟨tun, none⟩)
    (mbps : Int) (s : String) :
    Inv old { a with
      conns := a.conns.insert conn ⟨tun, some (a.bwLimiters.resolve tun.id mbps s).1⟩
      bwLimiters := (a.bwLimiters.resolve tun.id mbps s).2 } where
  sound := h.sound.resolve tun.id mbps s
  held n tun' limits hn p slot hp := by
    rw [lookup_insert_eq] at hn
    split at hn
    · obtain ⟨rfl, hlimits⟩ := Served.mk.inj (Option.some.inj hn)
      rw [← Option.some.inj hlimits] at hp
      rw [pointers_has hp]
      exact h.sound.reconciled tun.id mbps s
    · obtain ⟨hid, hnum⟩ := h.held n tun' limits hn p slot hp
      exact ⟨hid, Nat.lt_succ_of_lt hnum⟩
  conns n c hn := by
    rw [lookup_insert_eq] at hn
    split at hn
    · rename_i heq
      rw [heq]
      exact h.conns conn _ hconn
    · exact h.conns n c hn
  old n hn := by
    obtain ⟨hlt, hresolved⟩ := h.old n hn
    refine ⟨hlt, fun tun' => ?_⟩
    rw [lookup_insert_eq]
    split
    · exact nofun
    · exact hresolved tun'

theorem Inv.step (h : a.Inv old) (hstep : a.step act = some a') : a'.Inv old := by
  cases act with
  | assign tunnels =>
    cases hstep
    exact h.swap tunnels _
  | applyTunnels tunnels =>
    cases hstep
    exact h.swap tunnels _
  | applyPushedConfig specs =>
    cases hstep
    exact h.swap _ _
  | release tunID =>
    simp only [ServingAgent.step] at hstep
    split at hstep
    · cases hstep
      exact ⟨h.sound.release tunID, h.held, h.conns, h.old⟩
    · cases hstep
  | openConn tunID =>
    simp only [ServingAgent.step] at hstep
    split at hstep
    · cases hstep
      exact h
    · cases hstep
      exact h.openConn _
  | resolve conn =>
    simp only [ServingAgent.step] at hstep
    split at hstep
    · rename_i hconn
      cases hstep
      exact h.resolve hconn _ _
    · cases hstep
  | close conn =>
    cases hstep
    exact h.close conn

theorem Inv.live_resolve (h : a.Inv old) (hconn : a.conns.lookup conn = some ⟨tun, none⟩)
    (limits' : Limits) (r : Registry) :
    Live { a with conns := a.conns.insert conn ⟨tun, some limits'⟩, bwLimiters := r } old id n
        limits ↔
      n = conn ∧ tun.id = id ∧ limits = limits' ∨ a.Live old id n limits := by
  have hnew : conn ∉ old := fun hold => (h.old conn hold).2 tun hconn
  simp only [Live, lookup_insert_eq]
  by_cases hn : n = conn
  · subst hn
    simp only [if_true, hnew, hconn, not_false_eq_true, true_and, Option.some.injEq,
      Served.mk.injEq, reduceCtorEq, and_false, false_and, exists_false, or_false]
    constructor
    · rintro ⟨tun', ⟨rfl, rfl⟩, hid⟩
      exact ⟨hid, rfl⟩
    · rintro ⟨hid, rfl⟩
      exact ⟨tun, ⟨rfl, rfl⟩, hid⟩
  · simp only [hn, if_false, false_and, false_or]

theorem Inv.live_openConn (h : a.Inv old) (tun : Tunnel) :
    Live { a with conns := a.conns.insert a.opened ⟨tun, none⟩, opened := a.opened + 1 } old id n
      limits ↔ a.Live old id n limits := by
  simp only [Live, lookup_insert_eq]
  split
  · rename_i heq
    have hnone : a.conns.lookup n = none := by
      rw [Option.eq_none_iff_forall_ne_some]
      intro c hc
      exact Nat.lt_irrefl _ (heq ▸ h.conns n c hc)
    simp only [hnone, Option.some.injEq, Served.mk.injEq, reduceCtorEq, and_false, false_and,
      exists_false]
  · exact Iff.rfl

theorem Follows.mono (h : a.Follows old id)
    (hcap : configured a'.tunnels id = configured a.tunnels id)
    (hlive : ∀ n limits, a'.Live old id n limits → a.Live old id n limits)
    (hheap : a'.bwLimiters.heap = a.bwLimiters.heap) : a'.Follows old id := by
  intro scope limit hconf
  obtain ⟨p, hp⟩ := h scope limit (hcap ▸ hconf)
  refine ⟨p, fun n limits hn => ?_⟩
  obtain ⟨hshared, hlimit⟩ := hp n limits (hlive n limits hn)
  refine ⟨hshared, fun l hl => ?_⟩
  rw [← hlimit l hl]
  cases l with
  | minted num l => rfl
  | shared q slot => simp only [Registry.limit, hheap]

/-- A swap of the tunnels keeps the promise if and only if it disturbs no live connection. -/
theorem Follows.swap_iff {tunnels : List Tunnel} {gone : List String} (h : a.Follows old id)
    (hstays : Stays id scope a) (hstays' : Stays id scope (a.swap tunnels gone)) :
    (a.swap tunnels gone).Follows old id ↔ a.Undisturbed old id tunnels := by
  obtain ⟨limit, hconf⟩ := hstays
  obtain ⟨limit', hconf'⟩ := hstays'
  have hconf' : configured tunnels id = some (scope, limit') := hconf'
  constructor
  · rintro h' ⟨n, limits, hlive⟩
    obtain ⟨p, hp⟩ := h scope limit hconf
    obtain ⟨p', hp'⟩ := h' scope limit' hconf'
    obtain ⟨hshared, hlimit⟩ := hp n limits hlive
    obtain ⟨-, hlimit'⟩ := hp' n limits hlive
    obtain ⟨l, hl⟩ := exists_sharedLimits_has p scope
    rw [← hshared] at hl
    have hsame : some limit' = some limit := (hlimit' l hl).symm.trans (hlimit l hl)
    rw [hconf, hconf', Option.some.inj hsame]
  · intro hundisturbed
    by_cases hsome : ∃ n limits, a.Live old id n limits
    · exact h.mono (hundisturbed hsome) (fun _ _ hn => hn) rfl
    · intro _ _ _
      exact ⟨⟨id, 0⟩, fun n limits hn => absurd ⟨n, limits, hn⟩ hsome⟩

theorem Inv.follows_other (hs : a.Inv old) (h : a.Follows old id)
    (hconn : a.conns.lookup conn = some ⟨tun, none⟩) (hid : tun.id ≠ id) (mbps : Int) (s : String) :
    Follows old id { a with
      conns := a.conns.insert conn ⟨tun, some (a.bwLimiters.resolve tun.id mbps s).1⟩
      bwLimiters := (a.bwLimiters.resolve tun.id mbps s).2 } := by
  intro scope limit hconf
  obtain ⟨p, hp⟩ := h scope limit hconf
  refine ⟨p, fun n limits hn => ?_⟩
  obtain ⟨-, hid', -⟩ | hn := (hs.live_resolve hconn _ _).1 hn
  · exact absurd hid' hid
  obtain ⟨hshared, hlimit⟩ := hp n limits hn
  refine ⟨hshared, fun l hl => ?_⟩
  rw [← hlimit l hl]
  cases l with
  | minted num l => rfl
  | shared q slot =>
    obtain ⟨-, tun', htun', hid'⟩ := hn
    obtain ⟨hq, -⟩ := hs.held n tun' limits htun' q slot hl
    have hne : q.tunnelID ≠ tun.id := by
      rw [hq, hid']
      exact Ne.symm hid
    simp only [Registry.limit, hs.sound.heap_resolve hne]

theorem capOf_eq_some {t : Tunnel} : capOf t = some (scope, limit) ↔
    0 < t.options.bandwidthLimitMbps ∧ normalizeScope t.options.bandwidthLimitScope = scope ∧
      limitOf t.options.bandwidthLimitMbps = limit := by
  rw [capOf, Option.ite_none_right_eq_some, Option.some.injEq, Prod.mk.injEq]

/-- A resolve keeps the promise if and only if it is for the configured cap, and the live
connections share the set that the registry has. -/
theorem Inv.follows_resolve {limit : Int} (hs : a.Inv old) (h : a.Follows old tun.id)
    (hscope : scope ≠ .perConnection) (hconf : configured a.tunnels tun.id = some (scope, limit))
    (hconn : a.conns.lookup conn = some ⟨tun, none⟩) :
    let r := a.bwLimiters.resolve tun.id tun.options.bandwidthLimitMbps
      tun.options.bandwidthLimitScope
    Follows old tun.id { a with
        conns := a.conns.insert conn ⟨tun, some r.1⟩, bwLimiters := r.2 } ↔
      capOf tun = some (scope, limit) ∧ ∀ n limits, a.Live old tun.id n limits →
        ∃ p ∈ a.bwLimiters.sets.lookup tun.id, limits = sharedLimits p scope := by
  intro r
  have hself : Live { a with conns := a.conns.insert conn ⟨tun, some r.1⟩, bwLimiters := r.2 } old
      tun.id conn r.1 := (hs.live_resolve hconn r.1 r.2).2 (.inl ⟨rfl, rfl, rfl⟩)
  rw [capOf_eq_some]
  constructor
  · intro h'
    obtain ⟨q, hq⟩ := h' scope limit hconf
    obtain ⟨hshared, hlimit⟩ := hq conn r.1 hself
    obtain ⟨rfl, hpos, hnormal⟩ := (hs.sound.resolve_shared tun.id hscope).1 hshared
    obtain ⟨l, hl⟩ := exists_sharedLimits_has _ scope
    obtain ⟨slot, rfl, hslot⟩ := sharedLimits_has hscope hl
    have hrate := hs.sound.limit_resolve (s := tun.options.bandwidthLimitScope) tun.id hpos
      (hslot.trans hnormal.symm)
    have hsame := hrate.symm.trans (hlimit _ (hshared ▸ hl))
    refine ⟨⟨hpos, hnormal, Option.some.inj hsame⟩, fun n limits hn => ?_⟩
    obtain ⟨hn', -⟩ := hq n limits ((hs.live_resolve hconn r.1 r.2).2 (.inr hn))
    obtain hcur | hfresh := a.bwLimiters.reconcile_cases tun.id tun.options.bandwidthLimitMbps
      tun.options.bandwidthLimitScope
    · exact ⟨_, hcur, hn'⟩
    · -- no connection holds limiters of a set that the call has just built
      obtain ⟨-, tun', htun', -⟩ := hn
      have hnum := (hs.held n tun' limits htun' _ slot (hn' ▸ hl)).2
      rw [hfresh] at hnum
      exact absurd hnum (Nat.lt_irrefl _)
  · rintro ⟨⟨hpos, hnormal, hlimit⟩, hcurrent⟩ scope' limit' hconf'
    obtain ⟨rfl, rfl⟩ := Prod.mk.inj (Option.some.inj (hconf.symm.trans hconf'))
    have hrate : ∀ l, (sharedLimits (a.bwLimiters.reconcile tun.id tun.options.bandwidthLimitMbps
        tun.options.bandwidthLimitScope).1 scope).Has l → r.2.limit l = some limit := by
      intro l hl
      obtain ⟨slot, rfl, hslot⟩ := sharedLimits_has hscope hl
      rw [← hlimit]
      exact hs.sound.limit_resolve tun.id hpos (hslot.trans hnormal.symm)
    refine ⟨(a.bwLimiters.reconcile tun.id tun.options.bandwidthLimitMbps
      tun.options.bandwidthLimitScope).1, fun n limits hn => ?_⟩
    obtain ⟨-, -, rfl⟩ | hn := (hs.live_resolve hconn r.1 r.2).1 hn
    · have hshared := (hs.sound.resolve_shared tun.id hscope).2 ⟨rfl, hpos, hnormal⟩
      refine ⟨hshared, fun l hl => hrate l (hshared ▸ hl)⟩
    · obtain ⟨p, hcur, rfl⟩ := hcurrent n limits hn
      obtain ⟨q, hq⟩ := h scope limit hconf
      obtain ⟨l, hl⟩ := exists_sharedLimits_has p scope
      obtain ⟨slot, rfl, hslot⟩ := sharedLimits_has hscope hl
      have hkept := hs.sound.reconcile_kept (s := tun.options.bandwidthLimitScope) hcur
        (hslot.trans hnormal.symm) ((hq n _ hn).2 _ hl) hpos
      rw [← hkept]
      exact ⟨rfl, fun l hl => hrate l hl⟩

/-- While the tunnel stays capped, a step keeps the promise if and only if it fits. -/
theorem Inv.follows_step (hs : a.Inv old) (h : a.Follows old id) (hscope : scope ≠ .perConnection)
    (hstays : Stays id scope a) (hstays' : Stays id scope a') (hstep : a.step act = some a') :
    a'.Follows old id ↔ a.Fits old id act := by
  cases act with
  | assign tunnels =>
    cases hstep
    exact h.swap_iff hstays hstays'
  | applyTunnels tunnels =>
    cases hstep
    exact h.swap_iff hstays hstays'
  | applyPushedConfig specs =>
    cases hstep
    exact h.swap_iff hstays hstays'
  | release tunID =>
    simp only [ServingAgent.step] at hstep
    split at hstep
    · cases hstep
      exact iff_of_true (h.mono rfl (fun _ _ hn => hn) rfl) trivial
    · cases hstep
  | openConn tunID =>
    simp only [ServingAgent.step] at hstep
    split at hstep
    · cases hstep
      exact iff_of_true h trivial
    · cases hstep
      exact iff_of_true (h.mono rfl (fun _ _ hn => (hs.live_openConn _).1 hn) rfl) trivial
  | resolve conn =>
    simp only [ServingAgent.step] at hstep
    split at hstep
    · rename_i tun hconn
      cases hstep
      by_cases hid : tun.id = id
      · subst hid
        obtain ⟨limit, hconf⟩ := hstays
        refine (hs.follows_resolve h hscope hconf hconn).trans ⟨?_, ?_⟩
        · intro hfits tun' scope' limit' hconn' _ hconf'
          obtain ⟨rfl, rfl⟩ := Prod.mk.inj (Option.some.inj (hconf.symm.trans hconf'))
          obtain ⟨rfl, -⟩ := Served.mk.inj (Option.some.inj (hconn.symm.trans hconn'))
          exact hfits
        · intro hfits
          exact hfits tun scope limit hconn rfl hconf
      · refine iff_of_true (hs.follows_other h hconn hid _ _) ?_
        intro tun' _ _ hconn' hid'
        obtain ⟨rfl, -⟩ := Served.mk.inj (Option.some.inj (hconn.symm.trans hconn'))
        exact absurd hid' hid
    · cases hstep
  | close conn =>
    cases hstep
    refine iff_of_true (h.mono rfl ?_ rfl) trivial
    rintro n limits ⟨hold, tun, htun, hid⟩
    refine ⟨hold, tun, ?_, hid⟩
    by_cases heq : n = conn
    · rw [heq] at htun
      cases (AList.lookup_erase conn a.conns).symm.trans htun
    · exact (AList.lookup_erase_ne heq).symm.trans htun

end ServingAgent

/-- From any state that an agent reaches, for as long as a tunnel stays enabled and capped with the
same shared scope: the connections that resolve their limiters from then on share them at the
configured rate, in every state of the run, if and only if every step fits. -/
theorem live_cap_follows_config (tunnels : List Tunnel) (before : List Act) (a : ServingAgent)
    (hreach : Runs.Reaches ServingAgent.step (.start tunnels) before a) (id : String)
    (scope : CapScope) (hscope : scope ≠ .perConnection) (acts : List Act)
    (hstays : Runs.Always ServingAgent.step (ServingAgent.Stays id scope) a acts) :
    Runs.Always ServingAgent.step (ServingAgent.Follows a.resolved id) a acts ↔
      Runs.Along ServingAgent.step (ServingAgent.Fits a.resolved id) a acts := by
  have hinv : a.Inv a.resolved :=
    (hreach.invariant (fun _ _ _ h => h.step) (ServingAgent.inv_start tunnels)).resolved
  have hfollows : a.Follows a.resolved id := by
    intro _ _ _
    refine ⟨⟨id, 0⟩, fun conn limits hlive => ?_⟩
    obtain ⟨hold, tun, htun, -⟩ := hlive
    have hmem : (⟨conn, tun, some limits⟩ : Sigma fun _ : Nat => Served) ∈
        a.conns.entries.filter fun e => e.2.limits.isSome :=
      List.mem_filter.2 ⟨AList.mem_lookup_iff.1 htun, rfl⟩
    exact absurd (List.mem_map_of_mem hmem) hold
  apply Runs.always_iff_along_while (I := fun s => s.Inv a.resolved ∧ s.Follows a.resolved id)
  · intro s hs
    exact hs.2
  · rintro s act t ⟨hs, hf⟩ hst hst' hstep
    have hiff := hs.follows_step hf hscope hst hst' hstep
    exact ⟨fun h => ⟨hs.step hstep, hiff.2 h⟩, hiff.1⟩
  · exact ⟨hinv, hfollows⟩
  · exact hstays

instance decidableStays (id : String) (scope : CapScope) (a : ServingAgent) :
    Decidable (ServingAgent.Stays id scope a) :=
  decidable_of_iff ((configured a.tunnels id).map (·.1) = some scope) (by
    rw [Option.map_eq_some_iff, ServingAgent.Stays]
    constructor
    · rintro ⟨⟨_, limit⟩, h, rfl⟩
      exact ⟨limit, h⟩
    · rintro ⟨limit, h⟩
      exact ⟨_, h, rfl⟩)

/-- An enabled tunnel whose connections share one cap. -/
def cappedTunnel (mbps : Int) : Tunnel where
  id := "t1"
  name := "Minecraft"
  type := "tcp"
  localAddr := "127.0.0.1:25565"
  publicPort := 25565
  enabled := true
  options := ⟨false, false, "", mbps, "combined"⟩

/-- One connection comes and goes, then the rate changes, then another comes. -/
def quietEdit : List Act :=
  [.openConn "t1", .resolve 0, .close 0, .applyTunnels [cappedTunnel 20], .openConn "t1",
    .resolve 1]

theorem live_cap_follows_config_quiet :
    Runs.Always ServingAgent.step
        (ServingAgent.Follows (ServingAgent.start [cappedTunnel 10]).resolved "t1")
        (.start [cappedTunnel 10]) quietEdit ↔
      Runs.Along ServingAgent.step
        (ServingAgent.Fits (ServingAgent.start [cappedTunnel 10]).resolved "t1")
        (.start [cappedTunnel 10]) quietEdit :=
  live_cap_follows_config [cappedTunnel 10] [] (.start [cappedTunnel 10]) (.nil _) "t1" .combined
    nofun quietEdit (by decide +kernel)

/-- A rate that is edited under a live connection does not reach its limiter. -/
theorem live_rate_edit_missed :
    ¬∀ (tunnels : List Tunnel) (before : List Act) (a : ServingAgent),
      Runs.Reaches ServingAgent.step (.start tunnels) before a →
      ∀ (id : String) (scope : CapScope), scope ≠ .perConnection → ∀ acts : List Act,
        Runs.Always ServingAgent.step (ServingAgent.Stays id scope) a acts →
          Runs.Always ServingAgent.step (ServingAgent.Follows a.resolved id) a acts := by
  intro h
  have hrun := h [cappedTunnel 10] [] _ (.nil _) "t1" .combined nofun
    [.openConn "t1", .resolve 0, .applyTunnels [cappedTunnel 20]] (by decide +kernel)
  have hend := hrun.final (Runs.reaches_of_final rfl)
  obtain ⟨p, hp⟩ := hend .combined (limitOf 20) (by decide +kernel)
  obtain ⟨-, hlimit⟩ := hp 0 _ ⟨by decide +kernel, _, rfl, rfl⟩
  have hrate := hlimit (.shared ⟨"t1", 0⟩ .combined) (.inl (by decide +kernel))
  revert hrate
  decide +kernel

end ProxyForward.Bwcap
